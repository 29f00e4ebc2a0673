import SqlAst.Statement.Mutation

/-!
# Nodes

Every part of a statement that is built, stored and written on its own.
-/
namespace SqlAst

inductive Node where
  | table (table : Table)
  | join (join : Join)
  | select (query : Select)
  | projection (projection : Projection)
  | condition (condition : Condition)
  | delete (mutation : Delete)
  | update (mutation : Update)
  | insert (mutation : Insert)

namespace Node

/-- The kind of a node, if it is stored with a tag. -/
def kind? : Node → Option NodeKind
  | .table _ => some .table
  | .join _ => some .join
  | .select _ => some .select
  | .projection _ => none
  | .condition c => some (.condition c.kind)
  | .delete _ => some .delete
  | .update _ => some .update
  | .insert _ => some .insert

/-- The name of a node's type. -/
def typeName (n : Node) : String := (n.kind?.map NodeKind.tag).getD "SelectBaseQuery"

end Node

end SqlAst
