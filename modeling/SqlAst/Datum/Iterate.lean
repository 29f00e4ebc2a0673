import SqlAst.Datum.Same

/-!
# Data as collections

What can be gone through: lists, tuples, the points of a text, the keys of a dictionary, and the
fields of an object as pairs of name and value.
-/
namespace SqlAst

namespace Row

def toDatum (r : Row) : Datum := .dict (r.entries.map fun e => (.text e.1, .ofScalar e.2))

end Row

namespace Datum

def texts (items : List String) : Datum := .tuple (items.map .text)

def optionalText (s : Option String) : Datum := .ofOption (s.map .text)

def optionalCount (n : Option Nat) : Datum := .ofOption (n.map fun n => .int n)

def tables (ts : List Table) : Datum := .tuple (ts.map fun t => .node (.table t))

def joins (js : List Join) : Datum := .tuple (js.map fun j => .node (.join j))

def selectFields (fs : List SelectField) : Datum := .tuple (fs.map .field)

def conditions (cs : List Condition) : Datum := .tuple (cs.map fun c => .node (.condition c))

end Datum

open Datum

namespace Node

/-- The fields of a condition by name. -/
def conditionFields (c : Condition) : List (String × Datum) :=
  let tag : String × Datum := ("type", .text c.kind.tag)
  match c with
  | .compare _ column value => [("column", .text column), ("value", .ofScalar value), tag]
  | .between column low high =>
    [tag, ("column", .text column), ("values", .tuple [.ofScalar low, .ofScalar high])]
  | .among column values => [tag, ("column", .text column), ("values", .tuple (values.map .ofScalar))]
  | .like _ column pattern => [("column", .text column), ("pattern", .text pattern), tag]
  | .isNull _ column => [tag, ("column", .text column)]
  | .columnEqual left right => [tag, ("left", .text left), ("right", .text right)]
  | .combine _ parts => [("conditions", conditions parts), tag]

/-- The fields of a node by name, in the order of their declaration. -/
def fields (n : Node) : List (String × Datum) :=
  let tag : String × Datum := ("type", .text n.typeName)
  match n with
  | .table t =>
    let source : Datum := match t.source with
      | .name s => .text s
      | .query q => .node (.select q)
    [tag, ("source", source), ("alias", optionalText t.label)]
  | .join j =>
    [tag, ("table", .node (.table j.table)),
      ("condition", .ofOption (j.condition.map fun c => .node (.condition c))),
      ("join_type", .text j.kind.word)]
  | .select q =>
    [("tables", tables q.tables), ("joins", joins q.joins), ("select_fields", selectFields q.fields),
      tag, ("where_conditions", conditions q.filters), ("having_conditions", conditions q.groupFilters),
      ("limit_value", optionalCount q.limit), ("offset_value", optionalCount q.offset),
      ("order_by_specs", .tuple (q.orderBy.map .order)), ("group_by_columns", texts q.groupBy),
      ("union_queries", .tuple (q.unions.map .part))]
  | .projection p =>
    [("tables", tables p.tables), ("joins", joins p.joins), ("select_fields", selectFields p.fields)]
  | .condition c => conditionFields c
  | .delete d =>
    [("tables", tables d.tables), ("joins", joins d.joins), ("where_conditions", conditions d.filters),
      tag]
  | .update u =>
    [("tables", tables u.tables), ("joins", joins u.joins), ("where_conditions", conditions u.filters),
      tag, ("assignments", u.assignments.toDatum)]
  | .insert i =>
    [tag, ("table_name", .text i.table), ("column_names", .ofOption (i.columnNames.map texts)),
      ("rows", .tuple (i.rows.map Row.toDatum)),
      ("source_query", .ofOption (i.source.map fun q => .node (.select q)))]

end Node

namespace Datum

/-- The fields of an object by name. -/
def fields? : Datum → Option (List (String × Datum))
  | .node n => some n.fields
  | .field f => some [("name", .text f.name), ("alias", optionalText f.label)]
  | .order o => some [("field", .text o.field), ("direction", .text o.direction.word)]
  | .part u => some [("union_type", .text u.kind.word), ("query", .node (.select u.query))]
  | .settings s =>
    some [("app_env", .text s.appEnv), ("log_level", .text s.logLevel),
      ("default_flavor", .text s.defaultFlavor), ("subquery_alias", .text s.subqueryAlias)]
  | _ => none

/-- Fields as pairs of name and value. -/
def pairs (fields : List (String × Datum)) : List Datum := fields.map fun f => .tuple [.text f.1, f.2]

/-- The items of a collection. -/
def items? (d : Datum) : Option (List Datum) :=
  match d.asText?, d with
  | some s, _ => some ((Text.points s.toList).map fun p => .text (String.ofList p.held))
  | none, .list items | none, .tuple items => some items
  | none, .dict entries => some (entries.map Prod.fst)
  | none, d => d.fields?.map pairs

/-- An object is larger than an empty tuple. -/
theorem sizeOf_fields {d : Datum} {fields : List (String × Datum)} (h : d.fields? = some fields) :
    sizeOf (Datum.tuple []) < sizeOf d := by
  cases d with
  | node n => cases n <;> rename_i x <;> cases x <;> simp <;> omega
  | field f =>
    obtain ⟨name, label⟩ := f
    cases label <;> simp <;> omega
  | order o =>
    obtain ⟨field, direction⟩ := o
    cases direction <;> simp <;> omega
  | part u =>
    obtain ⟨kind, query⟩ := u
    cases kind <;> simp <;> omega
  | settings s =>
    obtain ⟨appEnv, _, _, _⟩ := s
    cases appEnv
    simp
    omega
  | _ => simp [fields?] at h

end Datum

end SqlAst
