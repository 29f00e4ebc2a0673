import SqlAst.Render.Query
import SqlAst.Statement.Tables

/-!
# Writing statements that change rows

These may be refused: a delete or an update needs a table, an update something to set, and an insert
values or a statement that provides them.
-/
namespace SqlAst

/-- The table that a delete with joins takes rows from: by its alias, or else its name. -/
def Table.target (f : Flavor) (t : Table) : Except Refusal String :=
  let label := t.label.getD ""
  if label = "" then t.name.map f.escapeName else .ok (f.escapeName label)

/-- A `WHERE` clause: `_render_where`. -/
def whereClause (f : Flavor) (filters : List Condition) : String :=
  clause " WHERE " " AND " (filters.map (Condition.render f))

/-- The joins: `_render_joins`. -/
def joinClauses (f : Flavor) (fallback : String) (joins : List Join) : String :=
  clause " " " " (joins.map (Join.render f fallback))

/-- `_render` of `DeleteMutation`. -/
def Delete.render (f : Flavor) (fallback : String) (d : Delete) : Except Refusal String :=
  match d.tables with
  | [] => .error (.noTable NodeKind.delete.tag)
  | t :: _ => do
    let target ← if d.joins = [] then pure "" else (" " ++ ·) <$> t.target f
    pure ("DELETE" ++ target ++ " FROM " ++ t.render f fallback ++ joinClauses f fallback d.joins ++
      whereClause f d.filters)

/-- `column = value`. -/
def assignment (f : Flavor) (entry : String × Scalar) : String :=
  f.escapeName entry.1 ++ " = " ++ f.literal entry.2

/-- `_render` of `UpdateMutation`. -/
def Update.render (f : Flavor) (fallback : String) (u : Update) : Except Refusal String :=
  match u.tables with
  | [] => .error (.noTable NodeKind.update.tag)
  | t :: _ =>
    if u.assignments.entries = [] then t.name >>= fun n => .error (.nothingToSet n)
    else .ok ("UPDATE " ++ t.render f fallback ++ joinClauses f fallback u.joins ++ " SET " ++
      ", ".intercalate (u.assignments.entries.map (assignment f)) ++ whereClause f u.filters)

/-- Column names in parentheses. -/
def columnList (f : Flavor) (columns : List String) : String :=
  " " ++ parenthesised (", ".intercalate (columns.map f.escapeName))

/-- The values of a row for some columns. -/
def valueList (f : Flavor) (columns : List String) (row : Row) : String :=
  parenthesised (f.literals (columns.map row.value))

/-- `_render` of `InsertMutation`. -/
def Insert.render (f : Flavor) (fallback : String) (i : Insert) : Except Refusal String :=
  let lead := "INSERT INTO " ++ f.escapeName i.table
  match i.source with
  | some q =>
    let columns := i.columnNames.getD []
    .ok (lead ++ (if columns = [] then "" else columnList f columns) ++ " " ++ q.render f fallback)
  | none =>
    if i.rows = [] ∨ i.columns = [] then .error (.nothingToInsert i.table)
    else .ok (lead ++ columnList f i.columns ++ " VALUES " ++
      ", ".intercalate (i.rows.map (valueList f i.columns)))

end SqlAst
