/-!
# Ordered maps

A map kept as a list of pairs: a key stands where it was first put, and putting it again replaces
the value there. Parameter sets, JSON objects and result rows are such lists.
-/

namespace QueryTree.Keyed

variable {κ α : Type} [DecidableEq κ]

def get? (key : κ) : List (κ × α) → Option α
  | [] => none
  | (k, v) :: r => if k = key then some v else get? key r

/-- Replaces the value of `key`, or appends the pair if the key is new. -/
def put (key : κ) (value : α) : List (κ × α) → List (κ × α)
  | [] => [(key, value)]
  | (k, v) :: r => if k = key then (k, value) :: r else (k, v) :: put key value r

/-- Appends the pair if the key is new, and else leaves the map alone. -/
def putNew (key : κ) (value : α) (m : List (κ × α)) : List (κ × α) :=
  match get? key m with
  | none => m ++ [(key, value)]
  | some _ => m

/-- The map that results from putting the pairs one after the other. -/
def ofList (pairs : List (κ × α)) : List (κ × α) :=
  pairs.foldl (fun m (k, v) => put k v m) []

theorem get?_put (key key' : κ) (value : α) (m : List (κ × α)) :
    get? key' (put key value m) = if key = key' then some value else get? key' m := by
  induction m with grind [put, get?]

end QueryTree.Keyed
