import SqlAst.Statement.Query
import SqlAst.Statement.Row

/-!
# Statements that change rows
-/
namespace SqlAst

/-- `DeleteMutation`. -/
structure Delete where
  tables : List Table := []
  joins : List Join := []
  filters : List Condition := []

/-- `UpdateMutation`. -/
structure Update where
  tables : List Table := []
  joins : List Join := []
  filters : List Condition := []
  assignments : Row := .empty

/-- `InsertMutation`. -/
structure Insert where
  table : String
  /-- The column list, if it is given. -/
  columnNames : Option (List String) := none
  rows : List Row := []
  source : Option Select := none

namespace Insert

/-- The columns that are inserted, `get_columns`: the given ones, unless there are none, or else those of the
rows in the order in which they first come. -/
def columns (i : Insert) : List String :=
  match i.columnNames with
  | some (c :: cs) => c :: cs
  | _ => (i.rows.flatMap Row.columns).eraseDups

end Insert

end SqlAst
