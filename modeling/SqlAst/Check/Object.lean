import SqlAst.Check.Field

/-!
# Checks of objects by their fields

For each type of object, a check of its fields in the order of their declaration. `base` gives the values
of fields that are not given, if the object replaces another one; `inner` checks the parts.
-/
namespace SqlAst

namespace FieldName

def filters : FieldName := ⟨"where_conditions", "where"⟩
def groupFilters : FieldName := ⟨"having_conditions", "having"⟩
def limit : FieldName := ⟨"limit_value", "limit"⟩
def offset : FieldName := ⟨"offset_value", "offset"⟩
def orderBy : FieldName := ⟨"order_by_specs", "orderBy"⟩
def groupBy : FieldName := ⟨"group_by_columns", "groupBy"⟩
def unions : FieldName := ⟨"union_queries", "unionQueries"⟩
def fields : FieldName := ⟨"select_fields", "fields"⟩
def joinKind : FieldName := ⟨"join_type", "joinType"⟩
def unionKind : FieldName := ⟨"union_type", "type"⟩
def assignments : FieldName := ⟨"assignments", "values"⟩
def insertTable : FieldName := ⟨"table_name", "table"⟩
def columns : FieldName := ⟨"column_names", "columns"⟩
def rows : FieldName := ⟨"rows", "values"⟩
def insertSource : FieldName := ⟨"source_query", "query"⟩

end FieldName

namespace Fields

/-! ## Objects without conditions or queries in them -/

def selectField (es : Fields) : Checked SelectField :=
  SelectField.mk <$> es.required "name" none Checked.text
    <*> es.optional (.plain "alias") none (Checked.nullable Checked.text)

def orderSpec (es : Fields) : Checked OrderSpec :=
  OrderSpec.mk <$> es.required "field" none Checked.text
    <*> es.optional (.plain "direction") .ascending Checked.direction

/-! ## Conditions -/

/-- The fields of a leaf about one column. -/
def ofColumn {α : Type} (es : Fields) (column : Option String) (build : String → α) : Checked α :=
  build <$> es.required "column" column Checked.text

def condition (kind : ConditionKind) (base : Option Condition) (es : Fields)
    (inner : Inner (sizeOf es)) : Checked Condition :=
  let tag := es.tag kind.tag
  match kind with
  | .compare op =>
    let (column, value) := match base with
      | some (.compare _ column value) => (some column, value)
      | _ => (none, .null)
    es.ofColumn column (fun column value _ => .compare op column value)
      <*> es.optional (.plain "value") value Checked.scalar <*> tag
  | .between =>
    let (column, bounds) := match base with
      | some (.between column low high) => (some column, some (low, high))
      | _ => (none, none)
    (fun _ column bounds => .between column bounds.1 bounds.2) <$> tag
      <*> es.required "column" column Checked.text
      <*> es.required "values" bounds (Checked.pair Checked.scalar)
  | .among =>
    let (column, values) := match base with
      | some (.among column values) => (some column, values)
      | _ => (none, [])
    (fun _ column values => .among column values) <$> tag
      <*> es.required "column" column Checked.text
      <*> es.leaves (.plain "values") values Checked.scalar
  | .like negated =>
    let (column, pattern) := match base with
      | some (.like _ column pattern) => (some column, some pattern)
      | _ => (none, none)
    es.ofColumn column (fun column pattern _ => .like negated column pattern)
      <*> es.required "pattern" pattern Checked.text <*> tag
  | .isNull negated =>
    let column := match base with
      | some (.isNull _ column) => some column
      | _ => none
    (fun _ column => .isNull negated column) <$> tag <*> es.required "column" column Checked.text
  | .columnEqual =>
    let (left, right) := match base with
      | some (.columnEqual left right) => (some left, some right)
      | _ => (none, none)
    (fun _ left right => .columnEqual left right) <$> tag
      <*> es.required "left" left Checked.text <*> es.required "right" right Checked.text
  | .combine connective =>
    let parts := match base with
      | some (.combine _ parts) => parts
      | _ => []
    (fun parts _ => .combine connective parts)
      <$> es.parts (.plain "conditions") .condition parts inner <*> tag

/-! ## Tables, joins and queries -/

/-- A name, or a statement whose result is the table; what is neither fails both. -/
def source (d : Datum) (query : Checked Select) : Checked Source :=
  match d.asText? with
  | some s => .ok (.name s)
  | none =>
    match query with
    | .ok q => .ok (.query q)
    | .bad _ =>
      Checked.apply (Checked.map (fun _ => .query) ((Checked.text d).under (.key "str")))
        (query.under (.key NodeKind.select.tag))

def table (base : Option Table) (es : Fields) (inner : Inner (sizeOf es)) : Checked Table :=
  (fun _ source label => ⟨source, label⟩) <$> es.tag NodeKind.table.tag
    <*> es.check (.plain "source") (present (.plain "source") (base.map Table.source))
      (fun d h => source d (inner .select d h))
    <*> es.optional (.plain "alias") (base.bind Table.label) (Checked.nullable Checked.text)

def join (base : Option Join) (es : Fields) (inner : Inner (sizeOf es)) : Checked Join :=
  (fun _ table condition kind => ⟨table, condition, kind⟩) <$> es.tag NodeKind.join.tag
    <*> es.requiredPart (.plain "table") .table (base.map Join.table) inner
    <*> es.nullablePart (.plain "condition") .condition (base.bind Join.condition) inner
    <*> es.optional .joinKind ((base.map Join.kind).getD .inner) Checked.joinKind

def unionPart (es : Fields) (inner : Inner (sizeOf es)) : Checked UnionPart :=
  UnionPart.mk <$> es.optional .unionKind .distinct Checked.unionKind
    <*> es.requiredPart (.plain "query") .select none inner

/-- An object of the select list or of ORDER BY: itself, or data for one. -/
def element {α : Type} (is? : Datum → Option α) (ofFields : Fields → Checked α) (d : Datum) :
    Checked α :=
  match is? d, d with
  | some a, _ => .ok a
  | none, .dict es => ofFields es
  | none, _ => .fail .notModel

def selectFieldOf : Datum → Checked SelectField :=
  element (fun | .field f => some f | _ => none) selectField

def orderSpecOf : Datum → Checked OrderSpec :=
  element (fun | .order o => some o | _ => none) orderSpec

def select (base : Select) (es : Fields) (inner : Inner (sizeOf es)) : Checked Select :=
  (fun tables joins fields _ filters groupFilters limit offset orderBy groupBy unions =>
      ⟨tables, joins, fields, filters, groupFilters, limit, offset, orderBy, groupBy, unions⟩)
    <$> es.parts (.plain "tables") .table base.tables inner
    <*> es.parts (.plain "joins") .join base.joins inner
    <*> es.leaves .fields base.fields selectFieldOf
    <*> es.tag NodeKind.select.tag
    <*> es.parts .filters .condition base.filters inner
    <*> es.parts .groupFilters .condition base.groupFilters inner
    <*> es.optional .limit base.limit (Checked.nullable Checked.count)
    <*> es.optional .offset base.offset (Checked.nullable Checked.count)
    <*> es.leaves .orderBy base.orderBy orderSpecOf
    <*> es.leaves .groupBy base.groupBy Checked.text
    <*> es.parts .unions .unionPart base.unions inner

/-! ## Other statements -/

def projection (base : Projection) (es : Fields) (inner : Inner (sizeOf es)) : Checked Projection :=
  Projection.mk <$> es.parts (.plain "tables") .table base.tables inner
    <*> es.parts (.plain "joins") .join base.joins inner
    <*> es.leaves .fields base.fields selectFieldOf

def delete (base : Delete) (es : Fields) (inner : Inner (sizeOf es)) : Checked Delete :=
  (fun tables joins filters _ => ⟨tables, joins, filters⟩)
    <$> es.parts (.plain "tables") .table base.tables inner
    <*> es.parts (.plain "joins") .join base.joins inner
    <*> es.parts .filters .condition base.filters inner
    <*> es.tag NodeKind.delete.tag

def update (base : Update) (es : Fields) (inner : Inner (sizeOf es)) : Checked Update :=
  (fun tables joins filters _ assignments => ⟨tables, joins, filters, assignments⟩)
    <$> es.parts (.plain "tables") .table base.tables inner
    <*> es.parts (.plain "joins") .join base.joins inner
    <*> es.parts .filters .condition base.filters inner
    <*> es.tag NodeKind.update.tag
    <*> es.optional .assignments base.assignments Checked.row

def insert (base : Option Insert) (es : Fields) (inner : Inner (sizeOf es)) : Checked Insert :=
  (fun _ table columns rows source => ⟨table, columns, rows, source⟩)
    <$> es.tag NodeKind.insert.tag
    <*> es.check .insertTable (present .insertTable (base.map Insert.table)) (fun d _ => Checked.text d)
    <*> es.optional .columns (base.bind Insert.columnNames)
      (Checked.nullable fun d => Checked.items d fun a _ => Checked.text a)
    <*> es.leaves .rows ((base.map Insert.rows).getD []) Checked.row
    <*> es.nullablePart .insertSource .select (base.bind Insert.source) inner

end Fields

end SqlAst
