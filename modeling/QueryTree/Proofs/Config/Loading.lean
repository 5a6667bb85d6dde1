import Mathlib.Algebra.Group.Nat.Defs
import QueryTree.Config
import QueryTree.Keyed
import QueryTree.Proofs.Text.Blank
import QueryTree.Proofs.Text.Letter

/-!
# Loading a configuration

Every setting is what its own key says, or the standard one if the key is absent (`Loaded`); the fault
reported is the first in the order of the keys (`exact_load`). A configuration that is written out key
by key, with blanks around the numbers and truth values, is loaded back (`loaded_of_rendered`).
-/

namespace QueryTree

/-- The outcome is a value of the one kind or a fault of the other. -/
def Exact {ε α : Type} (x : Except ε α) (P : α → Prop) (F : ε → Prop) : Prop :=
  (∀ a, x = .ok a ↔ P a) ∧ ∀ f, x = .error f ↔ F f

/-- The fault is of the first kind that there is a fault of. -/
def First {ε : Type} : List (ε → Prop) → ε → Prop
  | [], _ => False
  | F :: kinds, f => F f ∨ (∀ f', ¬ F f') ∧ First kinds f

namespace Exact

variable {ε α β : Type} {x : Except ε α} {k : α → Except ε β} {P : α → Prop} {Q : α → β → Prop}
  {F : ε → Prop}

theorem ok {a : α} (hP : ∀ a', P a' ↔ a' = a) (hF : ∀ f, ¬ F f) : Exact (.ok a) P F := by
  refine ⟨fun a' => ?_, fun f => iff_of_false (by rintro ⟨⟩) (hF f)⟩
  rw [hP, Except.ok.injEq, eq_comm]

theorem error {e : ε} (hP : ∀ a, ¬ P a) (hF : ∀ f, F f ↔ f = e) : Exact (.error e) P F := by
  refine ⟨fun a => iff_of_false (by rintro ⟨⟩) (hP a), fun f => ?_⟩
  rw [hF, Except.error.injEq, eq_comm]

theorem pure (a : α) : Exact (.ok a : Except ε α) (· = a) (First []) :=
  ok (fun _ => Iff.rfl) fun _ => id

theorem bind {G : α → ε → Prop} (hx : Exact x P F) (hk : ∀ a, P a → Exact (k a) (Q a) (G a)) :
    Exact (x >>= k) (fun b => ∃ a, P a ∧ Q a b) (fun f => F f ∨ ∃ a, P a ∧ G a f) := by
  cases x with
  | error e =>
    have hnone : ∀ a, ¬ P a := fun a ha => by cases (hx.1 a).2 ha
    refine ⟨fun b => ⟨?_, ?_⟩, fun f => ⟨?_, ?_⟩⟩
    · rintro ⟨⟩
    · rintro ⟨a, ha, -⟩
      exact absurd ha (hnone a)
    · rintro ⟨⟩
      exact .inl ((hx.2 e).1 rfl)
    · rintro (h | ⟨a, ha, -⟩)
      · cases (hx.2 f).2 h
        rfl
      · exact absurd ha (hnone a)
  | ok a =>
    have ha : P a := (hx.1 a).1 rfl
    have honly : ∀ a', P a' → a' = a := fun a' ha' => (Except.ok.inj ((hx.1 a').2 ha')).symm
    refine ⟨fun b => ⟨fun h => ⟨a, ha, ((hk a ha).1 b).1 h⟩, ?_⟩,
      fun f => ⟨fun h => .inr ⟨a, ha, ((hk a ha).2 f).1 h⟩, ?_⟩⟩
    · rintro ⟨a', ha', hb⟩
      obtain rfl := honly a' ha'
      exact ((hk a' ha).1 b).2 hb
    · rintro (h | ⟨a', ha', hf⟩)
      · cases (hx.2 f).2 h
      · obtain rfl := honly a' ha'
        exact ((hk a' ha).2 f).2 hf

theorem congr {P' : α → Prop} {F' : ε → Prop} (hx : Exact x P F) (hP : ∀ a, P a ↔ P' a)
    (hF : ∀ f, F f ↔ F' f) : Exact x P' F' :=
  ⟨fun a => (hx.1 a).trans (hP a), fun f => (hx.2 f).trans (hF f)⟩

theorem exists_iff (hx : Exact x P F) : (∃ a, P a) ↔ ∀ f, ¬ F f := by
  cases x with
  | error e =>
    refine iff_of_false ?_ fun h => h e ((hx.2 e).1 rfl)
    rintro ⟨a, ha⟩
    cases (hx.1 a).2 ha
  | ok a =>
    refine iff_of_true ⟨a, (hx.1 a).1 rfl⟩ fun f hf => ?_
    cases (hx.2 f).2 hf

/-- What comes behind a check reports its faults only where the check finds none. -/
theorem andThen {kinds : List (ε → Prop)} (hx : Exact x P F)
    (hk : ∀ a, P a → Exact (k a) (Q a) (First kinds)) :
    Exact (x >>= k) (fun b => ∃ a, P a ∧ Q a b) (First (F :: kinds)) := by
  refine (hx.bind hk).congr (fun _ => Iff.rfl) fun f => ?_
  rw [First, ← hx.exists_iff, exists_and_right]

end Exact

namespace Config

open Text (isBlank trim)

variable {lookup : String → Option String} {c : Config} {bits n : Nat} {s : List Char} {b : Bool}

/-! ### What texts mean -/

/-- Decimal digits, perhaps behind a plus sign, of a number below `2 ^ bits`. -/
def IsNumber (bits : Nat) (s : List Char) (n : Nat) : Prop :=
  ∃ digits, (s = digits ∨ s = '+' :: digits) ∧ digits ≠ [] ∧ (∀ c ∈ digits, c.isDigit = true) ∧
    n = Nat.ofDigitChars 10 digits 0 ∧ n < 2 ^ bits

def spellings : Bool → List String
  | true => ["1", "true", "yes", "on"]
  | false => ["0", "false", "no", "off"]

/-- A spelling of the truth value, in any case. -/
def IsTruth (s : List Char) (b : Bool) : Prop := ∃ word ∈ spellings b, s.map Char.toLower = word.toList

/-- What the key says: what its text means, blanks at the ends apart, or `standard` if it is absent. -/
def Says {α : Type} (lookup : String → Option String) (key : String) (Means : List Char → α → Prop)
    (standard a : α) : Prop :=
  match lookup key with
  | none => a = standard
  | some text => Means (trim text.toList) a

/-- The key has a text without a meaning. -/
def Unreadable {α : Type} (lookup : String → Option String) (key : String)
    (Means : List Char → α → Prop) (f : ConfigFault) : Prop :=
  ∃ text, lookup key = some text ∧ (∀ a, ¬ Means (trim text.toList) a) ∧ f = .invalidValue key text

/-- The number that digits write, if there are any and it is small enough. -/
def digits? (bits : Nat) (digits : List Char) : Option Nat :=
  if digits = [] ∨ !digits.all Char.isDigit then none
  else if Nat.ofDigitChars 10 digits 0 < 2 ^ bits then some (Nat.ofDigitChars 10 digits 0) else none

theorem digits?_eq_some_iff : digits? bits s = some n ↔
    s ≠ [] ∧ (∀ c ∈ s, c.isDigit = true) ∧ n = Nat.ofDigitChars 10 s 0 ∧ n < 2 ^ bits := by
  rw [digits?]
  split
  · next h =>
    refine iff_of_false (by rintro ⟨⟩) ?_
    rintro ⟨hne, hdigits, -⟩
    rcases h with h | h
    · exact absurd h hne
    · rw [List.all_eq_true.2 hdigits] at h
      cases h
  · next h =>
    rw [not_or, Bool.not_eq_true', Bool.not_eq_false, List.all_eq_true] at h
    split
    · next hlt =>
      constructor
      · rintro ⟨⟩
        exact ⟨h.1, h.2, rfl, hlt⟩
      · rintro ⟨-, -, rfl, -⟩
        rfl
    · next hlt =>
      refine iff_of_false (by rintro ⟨⟩) ?_
      rintro ⟨-, -, rfl, h⟩
      exact absurd h hlt

theorem value_eq_ofDigitChars (digits : List Char) :
    digits.foldl (fun n c => n * 10 + (c.toNat - 48)) 0 = Nat.ofDigitChars 10 digits 0 := by
  rw [Nat.ofDigitChars_eq_foldl]
  simp only [Nat.mul_comm]
  rfl

theorem natural?_plus (bits : Nat) (r : List Char) : natural? bits ('+' :: r) = digits? bits r := by
  rw [natural?, value_eq_ofDigitChars, Nat.one_shiftLeft, digits?]

theorem natural?_of_ne (h : ∀ r, s ≠ '+' :: r) : natural? bits s = digits? bits s := by
  rw [natural?, value_eq_ofDigitChars, Nat.one_shiftLeft, digits?]
  exact h

theorem natural?_eq_some_iff : natural? bits s = some n ↔ IsNumber bits s n := by
  by_cases hplus : ∃ r, s = '+' :: r
  · obtain ⟨r, rfl⟩ := hplus
    rw [natural?_plus, digits?_eq_some_iff]
    refine ⟨fun h => ⟨r, .inr rfl, h⟩, ?_⟩
    rintro ⟨digits, rfl | hdigits, h⟩
    · exact absurd (h.2.1 '+' List.mem_cons_self) (by decide)
    · rwa [(List.cons.inj hdigits).2]
  · rw [natural?_of_ne fun r hr => hplus ⟨r, hr⟩, digits?_eq_some_iff]
    refine ⟨fun h => ⟨s, .inl rfl, h⟩, ?_⟩
    rintro ⟨digits, rfl | hdigits, h⟩
    · exact h
    · exact absurd ⟨digits, hdigits⟩ hplus

theorem truth?_eq_some_iff : truth? s = some b ↔ IsTruth s b := by
  have hwords : ∀ entry ∈ truthWords, entry.1 ∈ spellings entry.2 := by decide
  have hspelled : ∀ b, ∀ word ∈ spellings b, (word, b) ∈ truthWords := by decide
  have hkeys : ∀ a ∈ truthWords, ∀ a' ∈ truthWords, a.1.toList = a'.1.toList → a = a' := by decide
  rw [truth?, Option.map_eq_some_iff]
  constructor
  · rintro ⟨⟨word, b⟩, h, rfl⟩
    exact ⟨word, hwords _ (List.mem_of_find?_eq_some h), by simpa using List.find?_some h⟩
  · rintro ⟨word, hword, h⟩
    cases hfind : truthWords.find? fun entry => s.map Char.toLower = entry.1.toList with
    | none =>
      have hnone := List.find?_eq_none.1 hfind _ (hspelled b word hword)
      exact absurd (decide_eq_true h) hnone
    | some entry =>
      have hentry : s.map Char.toLower = entry.1.toList := by simpa using List.find?_some hfind
      have heq := hkeys entry (List.mem_of_find?_eq_some hfind) (word, b) (hspelled b word hword)
        (hentry.symm.trans h)
      exact ⟨entry, rfl, by rw [heq]⟩

/-! ### Settings -/

theorem exact_setting {α : Type} {read : List Char → Option α} {Means : List Char → α → Prop}
    (hread : ∀ s a, read s = some a ↔ Means s a) (lookup : String → Option String) (key : String)
    (standard : α) :
    Exact (setting lookup key read standard) (Says lookup key Means standard)
      (Unreadable lookup key Means) := by
  unfold setting Says Unreadable
  cases lookup key with
  | none =>
    refine .ok (fun _ => Iff.rfl) fun f => ?_
    rintro ⟨_, ⟨⟩, -⟩
  | some text =>
    dsimp only
    cases hvalue : read (trim text.toList) with
    | none =>
      have hnone : ∀ a, ¬ Means (trim text.toList) a := by
        intro a ha
        rw [(hread _ a).2 ha] at hvalue
        cases hvalue
      refine .error hnone fun f => ⟨?_, fun hf => ⟨text, rfl, hnone, hf⟩⟩
      rintro ⟨_, ⟨⟩, -, hf⟩
      exact hf
    | some a =>
      refine .ok (fun a' => ?_) fun f => ?_
      · rw [← hread, hvalue, Option.some_inj, eq_comm]
      · rintro ⟨_, ⟨⟩, hnone, -⟩
        exact hnone a ((hread _ a).1 hvalue)

theorem exact_number (bits : Nat) (lookup : String → Option String) (key : String) (standard : Nat) :
    Exact (setting lookup key (natural? bits) standard) (Says lookup key (IsNumber bits) standard)
      (Unreadable lookup key (IsNumber bits)) :=
  exact_setting (fun _ _ => natural?_eq_some_iff) lookup key standard

theorem exact_truth (lookup : String → Option String) (key : String) (standard : Bool) :
    Exact (setting lookup key truth? standard) (Says lookup key IsTruth standard)
      (Unreadable lookup key IsTruth) :=
  exact_setting (fun _ _ => truth?_eq_some_iff) lookup key standard

/-- The key of the port has a text that is no number, or the port is out of range. -/
def PortFault (lookup : String → Option String) (f : ConfigFault) : Prop :=
  Unreadable lookup "PORT" (IsNumber 32) f ∨
    ∃ port, Says lookup "PORT" (IsNumber 32) standard.port port ∧ (port = 0 ∨ 65535 < port) ∧
      f = .invalidPort port

theorem exact_range (port : Nat) :
    Exact (if port = 0 ∨ maxPort < port then throw (.invalidPort port) else pure port :
        Except ConfigFault Nat)
      (fun p => p = port ∧ 0 < port ∧ port ≤ 65535)
      (fun f => (port = 0 ∨ 65535 < port) ∧ f = .invalidPort port) := by
  split
  · next h =>
    rw [maxPort] at h
    exact .error (fun p hp => by omega) fun f => and_iff_right h
  · next h =>
    rw [maxPort] at h
    exact .ok (fun p => and_iff_left (by omega)) fun f hf => h hf.1

theorem exact_port (lookup : String → Option String) :
    Exact (portSetting lookup)
      (fun port => Says lookup "PORT" (IsNumber 32) standard.port port ∧ 0 < port ∧ port ≤ 65535)
      (PortFault lookup) := by
  refine ((exact_number 32 lookup "PORT" standard.port).bind fun port _ => exact_range port).congr
    (fun p => ?_) fun _ => Iff.rfl
  constructor
  · rintro ⟨port, hport, rfl, hrange⟩
    exact ⟨hport, hrange⟩
  · rintro ⟨hport, hrange⟩
    exact ⟨p, hport, rfl, hrange⟩

/-- The root is empty. -/
def RootFault (lookup : String → Option String) (f : ConfigFault) : Prop :=
  lookup "SQL_ROOT" = some "" ∧ f = .emptySqlRoot

/-- What can be wrong with a setting, in the order in which it is looked for. -/
def faults (lookup : String → Option String) : List (ConfigFault → Prop) :=
  [PortFault lookup, Unreadable lookup "CORS" IsTruth, Unreadable lookup "DEBUG" IsTruth,
    Unreadable lookup "SCAFFOLD" IsTruth, Unreadable lookup "KEEP_ALIVE" IsTruth,
    Unreadable lookup "IDLE_TIMEOUT_SECS" (IsNumber 64),
    Unreadable lookup "REQUEST_TIMEOUT_SECS" (IsNumber 64), RootFault lookup]

/-- The configuration holds of every key what it says, the port is one, and there is a root. -/
structure Loaded (lookup : String → Option String) (c : Config) : Prop where
  sqlRoot : c.sqlRoot = (lookup "SQL_ROOT").getD standard.sqlRoot
  databasePath : c.databasePath = (lookup "DB_PATH").getD standard.databasePath
  baseUrl : c.baseUrl = normalizeBase ((lookup "BASE_URL").getD standard.baseUrl)
  host : c.host = (lookup "HOST").getD standard.host
  port : Says lookup "PORT" (IsNumber 32) standard.port c.port
  cors : Says lookup "CORS" IsTruth standard.cors c.cors
  debug : Says lookup "DEBUG" IsTruth standard.debug c.debug
  requestTimeout :
    Says lookup "REQUEST_TIMEOUT_SECS" (IsNumber 64) standard.requestTimeout c.requestTimeout
  idleTimeout : Says lookup "IDLE_TIMEOUT_SECS" (IsNumber 64) standard.idleTimeout c.idleTimeout
  keepAlive : Says lookup "KEEP_ALIVE" IsTruth standard.keepAlive c.keepAlive
  scaffold : Says lookup "SCAFFOLD" IsTruth standard.scaffold c.scaffold
  port_pos : 0 < c.port
  port_le : c.port ≤ 65535
  root_ne : c.sqlRoot ≠ ""

theorem exact_validate {port : Nat} (hport : 0 < port) (lookup : String → Option String) :
    Exact (validate port ((lookup "SQL_ROOT").getD standard.sqlRoot))
      (fun _ => (lookup "SQL_ROOT").getD standard.sqlRoot ≠ "") (RootFault lookup) := by
  -- A port that is not in range is gone by now, so the root is all there is to check.
  rw [validate, if_neg (Nat.ne_of_gt hport)]
  have hroot : (lookup "SQL_ROOT").getD standard.sqlRoot = "" ↔ lookup "SQL_ROOT" = some "" := by
    cases lookup "SQL_ROOT" with
    | none => exact iff_of_false (by decide) (by rintro ⟨⟩)
    | some root => simp
  split
  · next h => exact .error (fun _ hne => hne h) fun f => and_iff_right (hroot.1 h)
  · next h => exact .ok (fun _ => iff_of_true h rfl) fun f hf => h (hroot.2 hf.1)

theorem exact_load (lookup : String → Option String) :
    Exact (load lookup) (Loaded lookup) (First (faults lookup)) := by
  -- The order of the checks is that of `faults`; only the last one relies on another, the port's.
  have h := (exact_port lookup).andThen fun port hport =>
    (exact_truth lookup "CORS" standard.cors).andThen fun cors _ =>
    (exact_truth lookup "DEBUG" standard.debug).andThen fun debug _ =>
    (exact_truth lookup "SCAFFOLD" standard.scaffold).andThen fun scaffold _ =>
    (exact_truth lookup "KEEP_ALIVE" standard.keepAlive).andThen fun keepAlive _ =>
    (exact_number 64 lookup "IDLE_TIMEOUT_SECS" standard.idleTimeout).andThen fun idleTimeout _ =>
    (exact_number 64 lookup "REQUEST_TIMEOUT_SECS" standard.requestTimeout).andThen
      fun requestTimeout _ => (exact_validate hport.2.1 lookup).andThen fun _ _ => Exact.pure {
        sqlRoot := (lookup "SQL_ROOT").getD standard.sqlRoot
        port, cors, debug, scaffold, keepAlive, idleTimeout, requestTimeout
        databasePath := (lookup "DB_PATH").getD standard.databasePath
        baseUrl := normalizeBase ((lookup "BASE_URL").getD standard.baseUrl)
        host := (lookup "HOST").getD standard.host : Config }
  refine h.congr (fun c => ?_) fun _ => Iff.rfl
  constructor
  · rintro ⟨port, ⟨hport, hpos, hle⟩, cors, hcors, debug, hdebug, scaffold, hscaffold, keepAlive,
      hkeepAlive, idle, hidle, request, hrequest, _, hroot, rfl⟩
    exact ⟨rfl, rfl, rfl, rfl, hport, hcors, hdebug, hrequest, hidle, hkeepAlive, hscaffold, hpos, hle,
      hroot⟩
  · intro h
    refine ⟨c.port, ⟨h.port, h.port_pos, h.port_le⟩, c.cors, h.cors, c.debug, h.debug, c.scaffold,
      h.scaffold, c.keepAlive, h.keepAlive, c.idleTimeout, h.idleTimeout, c.requestTimeout,
      h.requestTimeout, (), h.sqlRoot ▸ h.root_ne, ?_⟩
    rw [← h.sqlRoot, ← h.databasePath, ← h.baseUrl, ← h.host]

/-! ### Writing and loading -/

/-- Numbers have their sizes, there is a root, and the base is what normalizing makes of it. -/
structure Valid (c : Config) : Prop where
  port_pos : 0 < c.port
  port_le : c.port ≤ 65535
  root_ne : c.sqlRoot ≠ ""
  requestTimeout_lt : c.requestTimeout < 2 ^ 64
  idleTimeout_lt : c.idleTimeout < 2 ^ 64
  base_eq : normalizeBase c.baseUrl = c.baseUrl

/-- The text with blanks around it. -/
def Padded (text : String) (s : List Char) : Prop :=
  ∃ b b', text.toList = b ++ s ++ b' ∧ (∀ c ∈ b, isBlank c = true) ∧ ∀ c ∈ b', isBlank c = true

def WritesNumber (lookup : String → Option String) (key : String) (n : Nat) : Prop :=
  ∃ text, lookup key = some text ∧ Padded text (toString n).toList

def WritesTruth (lookup : String → Option String) (key : String) (b : Bool) : Prop :=
  ∃ text s, lookup key = some text ∧ Padded text s ∧ IsTruth s b

/-- Every setting is written under its key: texts as they are, numbers in decimals and truth values in
any spelling, with any blanks around these two. -/
structure Rendered (lookup : String → Option String) (c : Config) : Prop where
  sqlRoot : lookup "SQL_ROOT" = some c.sqlRoot
  databasePath : lookup "DB_PATH" = some c.databasePath
  baseUrl : lookup "BASE_URL" = some c.baseUrl
  host : lookup "HOST" = some c.host
  port : WritesNumber lookup "PORT" c.port
  cors : WritesTruth lookup "CORS" c.cors
  debug : WritesTruth lookup "DEBUG" c.debug
  requestTimeout : WritesNumber lookup "REQUEST_TIMEOUT_SECS" c.requestTimeout
  idleTimeout : WritesNumber lookup "IDLE_TIMEOUT_SECS" c.idleTimeout
  keepAlive : WritesTruth lookup "KEEP_ALIVE" c.keepAlive
  scaffold : WritesTruth lookup "SCAFFOLD" c.scaffold

theorem Padded.trim_eq {text : String} (h : Padded text s) (hs : ∀ c ∈ s, isBlank c = false) :
    trim text.toList = s := by
  obtain ⟨b, b', htext, hb, hb'⟩ := h
  rw [htext, Text.trim_append hb hb' hs]

theorem isNumber_toString (h : n < 2 ^ bits) : IsNumber bits (toString n).toList n := by
  have hdigits : (toString n).toList = Nat.toDigits 10 n := Nat.toList_repr
  refine ⟨Nat.toDigits 10 n, .inl hdigits, Nat.toDigits_ne_nil, fun c hc => ?_, ?_, h⟩
  · exact Nat.isDigit_of_mem_toDigits (by decide) (by decide) hc
  · exact (Nat.ofDigitChars_toDigits (by decide) (by decide)).symm

theorem WritesNumber.says {key : String} {standard : Nat} (h : WritesNumber lookup key n)
    (hn : n < 2 ^ bits) : Says lookup key (IsNumber bits) standard n := by
  obtain ⟨text, hkey, htext⟩ := h
  have hblank : ∀ c ∈ (toString n).toList, isBlank c = false := by
    intro c hc
    rw [show (toString n).toList = Nat.toDigits 10 n from Nat.toList_repr] at hc
    exact Text.not_isBlank_of_isDigit (Nat.isDigit_of_mem_toDigits (by decide) (by decide) hc)
  rw [Says, hkey]
  dsimp only
  rw [htext.trim_eq hblank]
  exact isNumber_toString hn

theorem IsTruth.not_isBlank (h : IsTruth s b) : ∀ c ∈ s, isBlank c = false := by
  have hspellings : ∀ b, ∀ word ∈ spellings b, word.toList.all (fun d => !isBlank d) = true := by decide
  obtain ⟨word, hword, hs⟩ := h
  intro c hc
  have hmem : c.toLower ∈ s.map Char.toLower := List.mem_map_of_mem hc
  rw [hs] at hmem
  rw [← Text.isBlank_toLower]
  simpa using List.all_eq_true.1 (hspellings b word hword) _ hmem

theorem WritesTruth.says {key : String} {standard : Bool} (h : WritesTruth lookup key b) :
    Says lookup key IsTruth standard b := by
  obtain ⟨text, s, hkey, htext, hs⟩ := h
  rw [Says, hkey]
  dsimp only
  rwa [htext.trim_eq hs.not_isBlank]

theorem loaded_of_rendered (hvalid : c.Valid) (h : Rendered lookup c) : Loaded lookup c where
  sqlRoot := by rw [h.sqlRoot, Option.getD_some]
  databasePath := by rw [h.databasePath, Option.getD_some]
  baseUrl := by rw [h.baseUrl, Option.getD_some, hvalid.base_eq]
  host := by rw [h.host, Option.getD_some]
  port := h.port.says (Nat.lt_of_le_of_lt hvalid.port_le (by decide))
  cors := h.cors.says
  debug := h.debug.says
  requestTimeout := h.requestTimeout.says hvalid.requestTimeout_lt
  idleTimeout := h.idleTimeout.says hvalid.idleTimeout_lt
  keepAlive := h.keepAlive.says
  scaffold := h.scaffold.says
  port_pos := hvalid.port_pos
  port_le := hvalid.port_le
  root_ne := hvalid.root_ne

/-- Loading gives a configuration exactly if every setting of it is what its own key says, and a fault
exactly if it is the first in the order of the keys. A valid configuration that is written out is
loaded back. -/
theorem load_faithful (lookup : String → Option String) :
    (∀ c, load lookup = .ok c ↔ Loaded lookup c) ∧
      (∀ f, load lookup = .error f ↔ First (faults lookup) f) ∧
      ∀ c : Config, c.Valid → Rendered lookup c → load lookup = .ok c := by
  obtain ⟨hok, herror⟩ := exact_load lookup
  exact ⟨hok, herror, fun c hvalid h => (hok c).2 (loaded_of_rendered hvalid h)⟩

/-- A configuration at the bounds of its numbers. -/
def extreme : Config where
  sqlRoot := "/"
  databasePath := ""
  baseUrl := ""
  host := " "
  port := 65535
  cors := false
  debug := true
  requestTimeout := 0
  idleTimeout := 18446744073709551615
  keepAlive := true
  scaffold := false

def extremeTexts : List (String × String) :=
  [("SQL_ROOT", "/"), ("DB_PATH", ""), ("BASE_URL", ""), ("HOST", " "), ("PORT", "\u300065535\n"),
    ("CORS", "oFF"), ("DEBUG", "\tYES "), ("REQUEST_TIMEOUT_SECS", "0"),
    ("IDLE_TIMEOUT_SECS", " 18446744073709551615"), ("KEEP_ALIVE", "1"), ("SCAFFOLD", "no\u00a0")]

theorem load_faithful_extreme :
    extreme.Valid ∧ Rendered (Keyed.get? · extremeTexts) extreme ∧
      load (Keyed.get? · extremeTexts) = .ok extreme := by
  have hvalid : extreme.Valid :=
    ⟨by decide, by decide, by decide, by decide, by decide, by decide +kernel⟩
  have hnil : ∀ c ∈ ([] : List Char), isBlank c = true := nofun
  have hone : ∀ b : Char, isBlank b = true → ∀ c ∈ [b], isBlank c = true := fun b hb c hc => by
    rwa [List.mem_singleton.1 hc]
  have hrendered : Rendered (Keyed.get? · extremeTexts) extreme := {
    sqlRoot := rfl
    databasePath := rfl
    baseUrl := rfl
    host := rfl
    port := ⟨_, rfl, ['\u3000'], ['\n'], by decide +kernel, hone _ (by decide), hone _ (by decide)⟩
    cors := ⟨_, ['o', 'F', 'F'], rfl, ⟨[], [], by decide +kernel, hnil, hnil⟩, "off", by decide,
      by decide⟩
    debug := ⟨_, ['Y', 'E', 'S'], rfl,
      ⟨['\t'], [' '], by decide +kernel, hone _ (by decide), hone _ (by decide)⟩, "yes", by decide,
      by decide⟩
    requestTimeout := ⟨_, rfl, [], [], by decide +kernel, hnil, hnil⟩
    idleTimeout := ⟨_, rfl, [' '], [], by decide +kernel, hone _ (by decide), hnil⟩
    keepAlive := ⟨_, ['1'], rfl, ⟨[], [], by decide +kernel, hnil, hnil⟩, "1", by decide, by decide⟩
    scaffold := ⟨_, ['n', 'o'], rfl, ⟨[], ['\u00a0'], by decide +kernel, hnil, hone _ (by decide)⟩,
      "no", by decide, by decide⟩ }
  exact ⟨hvalid, hrendered, (load_faithful _).2.2 extreme hvalid hrendered⟩

example : load (Keyed.get? · [("SQL_ROOT", ""), ("DEBUG", "maybe"), ("PORT", " +65536")]) =
    .error (.invalidPort 65536) := by decide +kernel

end Config
end QueryTree
