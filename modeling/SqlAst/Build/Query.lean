import SqlAst.Build.Basic

/-!
# Building select statements

Every step gives a new statement; the one it starts from stays as it is. `setTable` is `from_`, `addJoin` is
`join`, which the four joins of a kind call, `addField` and `addFields` are `field` and `add_fields`, `setFields`
is `fields`, `addFilter` and `addGroupFilter` are `where` and `having`, and `addOrder`, `addGroups` and
`addUnion` are `order_by`, `group_by` and `union`. `clearFields` is `remove_fields`, and so on.
-/
namespace SqlAst

namespace Table

/-- A table from a name or a statement, and an alias. -/
def make (source label : Datum) : Outcome Table :=
  let es := Build.named [("source", source), ("alias", label)]
  (Fields.table none es (checkParts .data es)).orInvalid NodeKind.table.tag

/-- A table as it is, or one of the given name or statement: `_as_table`. -/
def ofDatum (d : Datum) : Outcome Table :=
  match d with
  | .node (.table t) => .ok t
  | d => make d .null

end Table

namespace Join

def make (table condition kind : Datum) : Outcome Join := do
  let t ← Table.ofDatum table
  let es := Build.named [("table", .node (.table t)), ("condition", condition), ("join_type", kind)]
  (Fields.join none es (checkParts .data es)).orInvalid NodeKind.join.tag

end Join

namespace SelectField

def make (fields : Fields) : Outcome SelectField :=
  (Fields.selectField fields).orInvalid "SelectField"

/-- A field of a name with an alias. -/
def named (name label : Datum) : Outcome SelectField :=
  make (Build.named [("name", name), ("alias", label)])

/-- A field as it is, of the given name, or with the given entries: `_as_field`. -/
def ofDatum (d : Datum) : Outcome SelectField :=
  match d, d.asText? with
  | .field f, _ => .ok f
  | .dict es, _ =>
    let keys := es.map fun e => e.1.asText?
    if keys.all Option.isSome ∧ some "model_class" ∉ keys then make es else Outcome.misuse .wrongType
  | d, some _ => make (Build.named [("name", d)])
  | _, none => Outcome.misuse .wrongType

/-- The fields of a collection. -/
def ofItems (d : Datum) : Outcome (List SelectField) := do (← Build.sequence d).mapM ofDatum

end SelectField

def OrderSpec.make (field direction : Datum) : Outcome OrderSpec :=
  (Fields.orderSpec (Build.named [("field", field), ("direction", direction)])).orInvalid "OrderSpec"

def UnionPart.make (query kind : Datum) : Outcome UnionPart :=
  let es := Build.named [("union_type", kind), ("query", query)]
  (Fields.unionPart es (checkParts .data es)).orInvalid "UnionPart"

/-- Conditions with one more at the end. -/
def addCondition (f : FieldName) (conditions : List Condition) (condition : Datum) :
    Checked (List Condition) :=
  Checked.map (conditions ++ ·)
    (Build.appended f conditions.length [condition] (checkPart .data .condition))

namespace Select

/-- The name of the type in reports. -/
def title : String := NodeKind.select.tag

def setTable (q : Select) (source label : Datum) : Outcome Select := do
  pure { q with tables := [← Table.make source label] }

def addJoin (q : Select) (table condition kind : Datum) : Outcome Select := do
  pure { q with joins := q.joins ++ [← Join.make table condition kind] }

def addField (q : Select) (name label : Datum) : Outcome Select := do
  pure { q with fields := q.fields ++ [← SelectField.named name label] }

def addFields (q : Select) (fields : Datum) : Outcome Select := do
  pure { q with fields := q.fields ++ (← SelectField.ofItems fields) }

def setFields (q : Select) (fields : Datum) : Outcome Select := do
  pure { q with fields := ← SelectField.ofItems fields }

def clearFields (q : Select) : Select := { q with fields := [] }

def addFilter (q : Select) (condition : Datum) : Outcome Select := do
  pure { q with filters := ← (addCondition .filters q.filters condition).orInvalid title }

def addGroupFilter (q : Select) (condition : Datum) : Outcome Select := do
  pure { q with groupFilters := ← (addCondition .groupFilters q.groupFilters condition).orInvalid title }

/-- The count for a limit or an offset; null stands for none. -/
def countOf (f : FieldName) (d : Datum) : Outcome (Option Nat) :=
  ((Checked.nullable Checked.count d).under (.key f.name)).orInvalid title

def setLimit (q : Select) (limit : Datum) : Outcome Select := do
  pure { q with limit := ← countOf .limit limit }

def clearLimit (q : Select) : Select := { q with limit := none }

def setOffset (q : Select) (offset : Datum) : Outcome Select := do
  pure { q with offset := ← countOf .offset offset }

def clearOffset (q : Select) : Select := { q with offset := none }

def addOrder (q : Select) (field direction : Datum) : Outcome Select := do
  pure { q with orderBy := q.orderBy ++ [← OrderSpec.make field direction] }

def clearOrder (q : Select) : Select := { q with orderBy := [] }

def addGroups (q : Select) (columns : List Datum) : Outcome Select := do
  let added ← (Build.appended .groupBy q.groupBy.length columns Checked.text).orInvalid title
  pure { q with groupBy := q.groupBy ++ added }

def clearGroups (q : Select) : Select := { q with groupBy := [] }

def addUnion (q : Select) (query kind : Datum) : Outcome Select := do
  pure { q with unions := q.unions ++ [← UnionPart.make query kind] }

end Select

namespace Projection

def setTable (p : Projection) (source label : Datum) : Outcome Projection := do
  pure { p with tables := [← Table.make source label] }

def addJoin (p : Projection) (table condition kind : Datum) : Outcome Projection := do
  pure { p with joins := p.joins ++ [← Join.make table condition kind] }

def addField (p : Projection) (name label : Datum) : Outcome Projection := do
  pure { p with fields := p.fields ++ [← SelectField.named name label] }

def addFields (p : Projection) (fields : Datum) : Outcome Projection := do
  pure { p with fields := p.fields ++ (← SelectField.ofItems fields) }

def setFields (p : Projection) (fields : Datum) : Outcome Projection := do
  pure { p with fields := ← SelectField.ofItems fields }

end Projection

end SqlAst
