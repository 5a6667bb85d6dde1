import QueryTree.Client.Namespace
import QueryTree.Client.Remote
import QueryTree.Client.Url
import QueryTree.Config
import QueryTree.Database.Catalogue
import QueryTree.Database.Change
import QueryTree.Database.Command
import QueryTree.Database.Engine
import QueryTree.Database.Fault
import QueryTree.Database.Grammar
import QueryTree.Database.Reference
import QueryTree.Database.Select
import QueryTree.Database.Session
import QueryTree.Database.Table
import QueryTree.Database.Token
import QueryTree.Database.Value
import QueryTree.Files.Layout
import QueryTree.Files.Path
import QueryTree.Files.Tree
import QueryTree.Http.App
import QueryTree.Http.Envelope
import QueryTree.Http.Execution
import QueryTree.Http.Extract
import QueryTree.Http.Failure
import QueryTree.Http.Form
import QueryTree.Http.Manifest
import QueryTree.Http.Response
import QueryTree.Http.Status
import QueryTree.Http.Target
import QueryTree.Json.Basic
import QueryTree.Json.Fault
import QueryTree.Json.Ignored
import QueryTree.Json.Lexeme
import QueryTree.Json.Reader
import QueryTree.Json.Shape
import QueryTree.Keyed
import QueryTree.Number.Decimal
import QueryTree.Number.Extended
import QueryTree.Number.Parse
import QueryTree.Number.Scaled
import QueryTree.Params
import QueryTree.Proofs.Client.Discovery
import QueryTree.Proofs.Client.Lookup
import QueryTree.Proofs.Client.Namespace
import QueryTree.Proofs.Client.Reach
import QueryTree.Proofs.Client.Request
import QueryTree.Proofs.Client.Response
import QueryTree.Proofs.Client.Url
import QueryTree.Proofs.Config.Base
import QueryTree.Proofs.Config.Loading
import QueryTree.Proofs.Database.Catalogue
import QueryTree.Proofs.Database.Listing
import QueryTree.Proofs.Database.Name
import QueryTree.Proofs.Database.Pattern
import QueryTree.Proofs.Database.Reading
import QueryTree.Proofs.Database.Retained
import QueryTree.Proofs.Database.Run
import QueryTree.Proofs.Database.Title
import QueryTree.Proofs.Database.Width
import QueryTree.Proofs.Distinct
import QueryTree.Proofs.Files.Action
import QueryTree.Proofs.Files.Fill
import QueryTree.Proofs.Files.Fresh
import QueryTree.Proofs.Files.Growth
import QueryTree.Proofs.Files.Layout
import QueryTree.Proofs.Files.Path
import QueryTree.Proofs.Files.Tree
import QueryTree.Proofs.Http.Assembly
import QueryTree.Proofs.Http.Diagnostics
import QueryTree.Proofs.Http.Dispatch
import QueryTree.Proofs.Http.Envelope
import QueryTree.Proofs.Http.Form
import QueryTree.Proofs.Http.Manifest
import QueryTree.Proofs.Http.Merge
import QueryTree.Proofs.Http.Plan
import QueryTree.Proofs.Http.Progress
import QueryTree.Proofs.Http.Traffic
import QueryTree.Proofs.Http.Verdict
import QueryTree.Proofs.Json.Keys
import QueryTree.Proofs.Json.Lexeme
import QueryTree.Proofs.Json.ReadBack
import QueryTree.Proofs.Json.Record
import QueryTree.Proofs.Keyed
import QueryTree.Proofs.Outcome
import QueryTree.Proofs.Route.Compile
import QueryTree.Proofs.Route.Inverse
import QueryTree.Proofs.Route.Naming
import QueryTree.Proofs.Route.Order
import QueryTree.Proofs.Route.Scaffold
import QueryTree.Proofs.Route.Table
import QueryTree.Proofs.Sql.Arguments
import QueryTree.Proofs.Sql.Binding
import QueryTree.Proofs.Sql.Comments
import QueryTree.Proofs.Sql.Created
import QueryTree.Proofs.Sql.Declared
import QueryTree.Proofs.Sql.Guard
import QueryTree.Proofs.Sql.Kind
import QueryTree.Proofs.Sql.Lines
import QueryTree.Proofs.Sql.LiveText
import QueryTree.Proofs.Sql.Normal
import QueryTree.Proofs.Sql.Pieces
import QueryTree.Proofs.Sql.Prepared
import QueryTree.Proofs.Sql.Quoted
import QueryTree.Proofs.Sql.Rewriting
import QueryTree.Proofs.Sql.Slots
import QueryTree.Proofs.Sql.Spacing
import QueryTree.Proofs.Sql.Statements
import QueryTree.Proofs.Sql.Tables
import QueryTree.Proofs.Sql.Words
import QueryTree.Proofs.Store.Answer
import QueryTree.Proofs.Store.Closing
import QueryTree.Proofs.Store.Listing
import QueryTree.Proofs.Store.Reached
import QueryTree.Proofs.Store.Reapply
import QueryTree.Proofs.Store.Rows
import QueryTree.Proofs.Store.Work
import QueryTree.Proofs.Text.Blank
import QueryTree.Proofs.Text.Letter
import QueryTree.Proofs.Text.Split
import QueryTree.Proofs.Text.Utf8
import QueryTree.Route.Compile
import QueryTree.Route.Descriptor
import QueryTree.Route.Method
import QueryTree.Route.Naming
import QueryTree.Route.Table
import QueryTree.Sql.Comment
import QueryTree.Sql.Quote
import QueryTree.Sql.Schema
import QueryTree.Sql.Slot
import QueryTree.Sql.Statement
import QueryTree.Sql.TableDecl
import QueryTree.Sql.Template
import QueryTree.Startup
import QueryTree.Store.Answer
import QueryTree.Store.Basic
import QueryTree.Store.Disk
import QueryTree.Store.Fault
import QueryTree.Text.Blank
import QueryTree.Text.HiddenRanges
import QueryTree.Text.Shown
import QueryTree.Text.Split
import QueryTree.Text.Utf8
import QueryTree.Text.Word
import QueryTree.Text.WordRanges
