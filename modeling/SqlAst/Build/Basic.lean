import SqlAst.Datum.Iterate
import SqlAst.Fault.Basic

/-!
# Arguments of builders

Common steps: going through a collection, making a dictionary, and checking the fields of a new object.
-/
namespace SqlAst.Build

/-- The items of an argument that has to be a collection. -/
def sequence (d : Datum) : Outcome (List Datum) :=
  match d.items? with
  | some items => .ok items
  | none => Outcome.misuse .wrongType

/-- The entry that an item of a collection of pairs stands for. -/
def pairOf (d : Datum) : Outcome (Datum × Datum) := do
  match ← sequence d with
  | [k, v] => if k.isKey then pure (k, v) else Outcome.misuse .wrongType
  | _ => Outcome.misuse .wrongValue

/-- A dictionary from a dictionary or a collection of pairs. -/
def dictionary (d : Datum) : Outcome Fields :=
  match d with
  | .dict entries => .ok entries
  | d => do pure (Entries.unique (← (← sequence d).mapM pairOf))

/-- The fields of an object by name. -/
def named (fields : List (String × Datum)) : Fields := fields.map fun f => (.text f.1, f.2)

/-- Checks new items of a field that already has `length` items. -/
def appended {α : Type} (f : FieldName) (length : Nat) (items : List Datum)
    (check : Datum → Checked α) : Checked (List α) :=
  (Checked.eachFrom check length items).under (.key f.name)

end SqlAst.Build
