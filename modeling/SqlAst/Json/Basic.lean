import SqlAst.Entries
import SqlAst.Number.Binary64

/-!
# JSON values

A JSON value with its two kinds of numbers apart: integers of any size and doubles. An object keeps its
entries in order; `unique` is the policy on repeated keys, by which a key keeps its first place and
takes its last value.
-/
namespace SqlAst

inductive Json where
  | null
  | bool (value : Bool)
  | int (value : Int)
  | float (value : Binary64)
  | text (value : String)
  | list (items : List Json)
  | object (entries : List (String × Json))
  deriving Inhabited

namespace Json

mutual

/-- Objects with each key once, at every depth. -/
def unique : Json → Json
  | .list items => .list (uniqueItems items)
  | .object entries => .object (Entries.unique (uniqueValues entries))
  | j => j

def uniqueItems : List Json → List Json
  | [] => []
  | j :: rest => j.unique :: uniqueItems rest

def uniqueValues : List (String × Json) → List (String × Json)
  | [] => []
  | (k, j) :: rest => (k, j.unique) :: uniqueValues rest

end

theorem uniqueItems_eq_map (items : List Json) : uniqueItems items = items.map unique := by
  induction items with
  | nil => rfl
  | cons j rest ih => simp [uniqueItems, ih]

end Json

end SqlAst
