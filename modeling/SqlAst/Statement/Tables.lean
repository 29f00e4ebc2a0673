import SqlAst.Statement.Node

/-!
# The tables of a statement

The name of a table whose source is a statement is that of the statement's first table, and so on down.
A statement without tables ends the search in a refusal.
-/
namespace SqlAst

/-- Why a well-formed node gives no answer. -/
inductive Refusal where
  /-- The node has no primary table. -/
  | noTable (typeName : String)
  /-- An update of the table assigns nothing. -/
  | nothingToSet (table : String)
  /-- An insert into the table has no values. -/
  | nothingToInsert (table : String)
  deriving DecidableEq

mutual

/-- The name of the table that a table is made from: `get_table_name`. -/
def Table.name : Table → Except Refusal String
  | ⟨.name n, _⟩ => .ok n
  | ⟨.query q, _⟩ => q.sourceName

/-- The name of the first table of a statement. -/
def Select.sourceName : Select → Except Refusal String
  | ⟨[], _, _, _, _, _, _, _, _, _⟩ => .error (.noTable NodeKind.select.tag)
  | ⟨t :: _, _, _, _, _, _, _, _, _, _⟩ => t.name

end

/-- The names of tables and joined tables, in this order: `get_table_names` of statements without unions. -/
def namesOf (tables : List Table) (joins : List Join) : Except Refusal (List String) :=
  (tables ++ joins.map Join.table).mapM Table.name

mutual

/-- The names of the tables of a statement and its union members, each once: `get_table_names` of `SelectQuery`. -/
def Select.tableNames : Select → Except Refusal (List String)
  | ⟨tables, joins, _, _, _, _, _, _, _, unions⟩ => do
    let own ← namesOf tables joins
    let others ← unionTableNames unions
    pure (own ++ others).eraseDups

def unionTableNames : List UnionPart → Except Refusal (List String)
  | [] => pure []
  | ⟨_, q⟩ :: rest => do
    let names ← q.tableNames
    let others ← unionTableNames rest
    pure (names ++ others)

end

/-- The names of the table and of the source's tables, each once: `get_table_names` of `InsertMutation`. -/
def Insert.tableNames (i : Insert) : Except Refusal (List String) := do
  let others ← (i.source.map Select.tableNames).getD (pure [])
  pure (i.table :: others).eraseDups

end SqlAst
