import SqlAst.Json.Whole
import SqlAst.Json.Writer
import SqlAst.Statement.Node

/-!
# The stored form of nodes

A node is stored as a JSON object with its tag under `type` and one entry per field. Absent aliases,
limits and the like have no entry, and neither has a comparison's NULL.
-/
namespace SqlAst

namespace Scalar

def toJson : Scalar → Json
  | .null => .null
  | .bool b => .bool b
  | .int i => .int i
  | .float d => .float d.1
  | .text s => .text s

end Scalar

namespace Stored

/-- An entry that is left out if there is no value. -/
def optional (key : String) (value : Option Json) : List (String × Json) :=
  (value.map fun v => (key, v)).toList

def texts (items : List String) : Json := .list (items.map .text)

def tagEntry (tag : String) : String × Json := ("type", .text tag)

end Stored

open Stored

def Row.toJson (r : Row) : Json := .object (r.entries.map fun e => (e.1, e.2.toJson))

def SelectField.toJson (f : SelectField) : Json :=
  .object (("name", .text f.name) :: optional "alias" (f.label.map .text))

def OrderSpec.toJson (o : OrderSpec) : Json :=
  .object [("field", .text o.field), ("direction", .text o.direction.word)]

mutual

def Condition.toJson : Condition → Json
  | .compare op column value =>
    .object (("column", .text column) ::
      optional "value" (if value = .null then none else some value.toJson) ++
      [tagEntry (ConditionKind.compare op).tag])
  | .between column low high =>
    .object [tagEntry ConditionKind.between.tag, ("column", .text column),
      ("values", .list [low.toJson, high.toJson])]
  | .among column values =>
    .object [tagEntry ConditionKind.among.tag, ("column", .text column),
      ("values", .list (values.map Scalar.toJson))]
  | .like negated column pattern =>
    .object [("column", .text column), ("pattern", .text pattern),
      tagEntry (ConditionKind.like negated).tag]
  | .isNull negated column =>
    .object [tagEntry (ConditionKind.isNull negated).tag, ("column", .text column)]
  | .columnEqual left right =>
    .object [tagEntry ConditionKind.columnEqual.tag, ("left", .text left), ("right", .text right)]
  | .combine connective parts =>
    .object [("conditions", .list (conditionItems parts)),
      tagEntry (ConditionKind.combine connective).tag]

def conditionItems : List Condition → List Json
  | [] => []
  | c :: rest => c.toJson :: conditionItems rest

end

theorem conditionItems_eq_map (cs : List Condition) : conditionItems cs = cs.map Condition.toJson := by
  induction cs with
  | nil => rfl
  | cons c rest ih => simp [conditionItems, ih]

mutual

def Source.toJson : Source → Json
  | .name n => .text n
  | .query q => q.toJson

def Table.toJson : Table → Json
  | ⟨source, label⟩ =>
    .object ([tagEntry NodeKind.table.tag, ("source", source.toJson)] ++
      optional "alias" (label.map .text))

def Join.toJson : Join → Json
  | ⟨table, condition, kind⟩ =>
    .object ([tagEntry NodeKind.join.tag, ("table", table.toJson)] ++
      optional "condition" (condition.map Condition.toJson) ++ [("joinType", .text kind.word)])

def UnionPart.toJson : UnionPart → Json
  | ⟨kind, query⟩ => .object [("type", .text kind.word), ("query", query.toJson)]

def Select.toJson : Select → Json
  | ⟨tables, joins, fields, filters, groupFilters, limit, offset, orderBy, groupBy, unions⟩ =>
    .object ([("tables", .list (tableItems tables)), ("joins", .list (joinItems joins)),
        ("fields", .list (fields.map SelectField.toJson)), tagEntry NodeKind.select.tag,
        ("where", .list (filters.map Condition.toJson)),
        ("having", .list (groupFilters.map Condition.toJson))] ++
      optional "limit" (limit.map fun n => .int n) ++ optional "offset" (offset.map fun n => .int n) ++
      [("orderBy", .list (orderBy.map OrderSpec.toJson)), ("groupBy", texts groupBy),
        ("unionQueries", .list (unionItems unions))])

def tableItems : List Table → List Json
  | [] => []
  | t :: rest => t.toJson :: tableItems rest

def joinItems : List Join → List Json
  | [] => []
  | j :: rest => j.toJson :: joinItems rest

def unionItems : List UnionPart → List Json
  | [] => []
  | u :: rest => u.toJson :: unionItems rest

end

theorem tableItems_eq_map (ts : List Table) : tableItems ts = ts.map Table.toJson := by
  induction ts with
  | nil => simp [tableItems]
  | cons t rest ih => simp [tableItems, ih]

theorem joinItems_eq_map (js : List Join) : joinItems js = js.map Join.toJson := by
  induction js with
  | nil => simp [joinItems]
  | cons j rest ih => simp [joinItems, ih]

theorem unionItems_eq_map (us : List UnionPart) : unionItems us = us.map UnionPart.toJson := by
  induction us with
  | nil => simp [unionItems]
  | cons u rest ih => simp [unionItems, ih]

namespace Stored

/-- The entries that all statements with tables begin with. -/
def sources (tables : List Table) (joins : List Join) : List (String × Json) :=
  [("tables", .list (tables.map Table.toJson)), ("joins", .list (joins.map Join.toJson))]

def filterEntry (conditions : List Condition) : String × Json :=
  ("where", .list (conditions.map Condition.toJson))

end Stored

def Projection.toJson (p : Projection) : Json :=
  .object (sources p.tables p.joins ++ [("fields", .list (p.fields.map SelectField.toJson))])

def Delete.toJson (d : Delete) : Json :=
  .object (sources d.tables d.joins ++ [filterEntry d.filters, tagEntry NodeKind.delete.tag])

def Update.toJson (u : Update) : Json :=
  .object (sources u.tables u.joins ++
    [filterEntry u.filters, tagEntry NodeKind.update.tag, ("values", u.assignments.toJson)])

def Insert.toJson (i : Insert) : Json :=
  .object ([tagEntry NodeKind.insert.tag, ("table", .text i.table)] ++
    optional "columns" (i.columnNames.map texts) ++ [("values", .list (i.rows.map Row.toJson))] ++
    optional "query" (i.source.map Select.toJson))

namespace Node

/-- The stored form, from which `to_json` and `serialize` are made. -/
def toJson : Node → Json
  | .table t => t.toJson
  | .join j => j.toJson
  | .select q => q.toJson
  | .projection p => p.toJson
  | .condition c => c.toJson
  | .delete d => d.toJson
  | .update u => u.toJson
  | .insert i => i.toJson

/-- The stored form as text, `serialize`, if all texts of the node consist of characters; in the names of columns
halves of surrogate pairs are replaced. -/
def serialize? (n : Node) : Option String :=
  let j := n.toJson
  if j.isWhole then some (j.withWholeNames.write Json.compact) else none

end Node

end SqlAst
