import SqlAst.Proofs.InsertRuns
import SqlAst.Proofs.NestedTags

/-!
# Nodes by their declared fields

A codec is a check together with the data that it gives for what it has read; such data passes the check
unchanged. The declared fields of a node are codecs under names, and a node is checked field by field.

* `NodeType.rules`: the declared fields of each type.
* `Checked.gather_eq_ok_iff`, `Checked.issues_gather`: checks side by side.
* `NodeType.map_fields_assemble`: a node assembled from data has the fields that its rules make of them.
-/
namespace SqlAst

/-! ## Checks side by side -/

namespace Checked

variable {α β γ : Type}

theorem map_map (g : β → γ) (f : α → β) (a : Checked α) : map g (map f a) = map (g ∘ f) a := by
  cases a <;> rfl

theorem map_apply (g : β → γ) (f : Checked (α → β)) (a : Checked α) :
    map g (apply f a) = apply (map (g ∘ ·) f) a := by
  cases f <;> cases a <;> rfl

theorem under_map (step : Step) (f : α → β) (a : Checked α) :
    (map f a).under step = map f (a.under step) := by
  cases a <;> rfl

theorem issues_map (f : α → β) (a : Checked α) : (map f a).issues = a.issues := by cases a <;> rfl

theorem issues_apply (f : Checked (α → β)) (a : Checked α) :
    (apply f a).issues = f.issues ++ a.issues := by
  cases f <;> cases a <;> simp [apply, issues]

theorem apply_eq_ok_iff {f : Checked (α → β)} {a : Checked α} {b : β} :
    apply f a = .ok b ↔ ∃ g x, f = .ok g ∧ a = .ok x ∧ g x = b := by
  cases f <;> cases a <;> simp [apply]

theorem map_eq_ok_iff {f : α → β} {a : Checked α} {b : β} :
    map f a = .ok b ↔ ∃ x, a = .ok x ∧ f x = b := by
  cases a <;> simp [map]

theorem under_eq_ok_iff {step : Step} {a : Checked α} {x : α} : a.under step = .ok x ↔ a = .ok x := by
  cases a <;> simp [under]

/-- Adds the result of a check to those of the checks before it. -/
def snoc (done : Checked (List α)) (c : Checked α) : Checked (List α) :=
  apply (map (fun xs x => xs ++ [x]) done) c

/-- The results of checks side by side, in their order. -/
def gather (cs : List (Checked α)) : Checked (List α) := cs.foldl snoc (.ok [])

theorem snoc_eq_ok_iff {done : Checked (List α)} {c : Checked α} {xs : List α} :
    snoc done c = .ok xs ↔ ∃ before x, done = .ok before ∧ c = .ok x ∧ before ++ [x] = xs := by
  simp only [snoc, apply_eq_ok_iff, map_eq_ok_iff]
  constructor
  · rintro ⟨_, x, ⟨before, hdone, rfl⟩, hc, hxs⟩
    exact ⟨before, x, hdone, hc, hxs⟩
  · rintro ⟨before, x, hdone, hc, hxs⟩
    exact ⟨_, x, ⟨before, hdone, rfl⟩, hc, hxs⟩

theorem foldl_snoc_eq_ok_iff (cs : List (Checked α)) {done : Checked (List α)} {xs : List α} :
    cs.foldl snoc done = .ok xs ↔
      ∃ before after, done = .ok before ∧ cs = after.map .ok ∧ before ++ after = xs := by
  induction cs generalizing done with
  | nil =>
    constructor
    · intro h
      exact ⟨xs, [], h, rfl, List.append_nil xs⟩
    · rintro ⟨before, after, hdone, hcs, rfl⟩
      obtain rfl : after = [] := List.map_eq_nil_iff.1 hcs.symm
      rw [List.append_nil]
      exact hdone
  | cons c rest ih =>
    rw [List.foldl_cons, ih]
    constructor
    · rintro ⟨both, after, hboth, rfl, rfl⟩
      obtain ⟨before, x, hdone, rfl, rfl⟩ := snoc_eq_ok_iff.1 hboth
      exact ⟨before, x :: after, hdone, rfl, by simp⟩
    · rintro ⟨before, after, hdone, hcs, rfl⟩
      obtain ⟨x, after, rfl, hc, hrest⟩ := List.map_eq_cons_iff.1 hcs.symm
      have hboth := snoc_eq_ok_iff.2 ⟨before, x, hdone, hc.symm, rfl⟩
      exact ⟨before ++ [x], after, hboth, hrest.symm, by simp⟩

theorem gather_eq_ok_iff (cs : List (Checked α)) {xs : List α} : gather cs = .ok xs ↔ cs = xs.map .ok := by
  rw [gather, foldl_snoc_eq_ok_iff]
  constructor
  · rintro ⟨before, after, hbefore, hcs, rfl⟩
    cases hbefore
    exact hcs
  · intro hcs
    exact ⟨[], xs, rfl, hcs, rfl⟩

theorem isOk_foldl_snoc (cs : List (Checked α)) (done : Checked (List α)) :
    (cs.foldl snoc done).isOk = (done.isOk && cs.all isOk) := by
  induction cs generalizing done with
  | nil => simp
  | cons c rest ih => rw [List.foldl_cons, ih, snoc, isOk_apply, isOk_map, List.all_cons, Bool.and_assoc]

theorem isOk_gather (cs : List (Checked α)) : (gather cs).isOk = cs.all isOk := by
  rw [gather, isOk_foldl_snoc]
  rfl

theorem issues_foldl_snoc (cs : List (Checked α)) (done : Checked (List α)) :
    (cs.foldl snoc done).issues = done.issues ++ cs.flatMap issues := by
  induction cs generalizing done with
  | nil => simp
  | cons c rest ih =>
    rw [List.foldl_cons, ih, snoc, issues_apply, issues_map, List.flatMap_cons, List.append_assoc]

theorem fmap_eq_map (f : α → β) (a : Checked α) : f <$> a = map f a := rfl

theorem seq_eq_apply (f : Checked (α → β)) (a : Checked α) : f <*> a = apply f a := rfl

theorem snoc_nil (f : α → β) (c : Checked α) : snoc (.ok []) (map f c) = map (fun a => [f a]) c := by
  cases c <;> rfl

theorem snoc_map (f : α → List γ) (g : β → γ) (a : Checked α) (b : Checked β) :
    snoc (map f a) (map g b) = apply (map (fun x y => f x ++ [g y]) a) b := by
  cases a <;> cases b <;> rfl

theorem snoc_apply (f : Checked (α → List γ)) (g : β → γ) (a : Checked α) (b : Checked β) :
    snoc (apply f a) (map g b) = apply (apply (map (fun h x y => h x ++ [g y]) f) a) b := by
  cases f <;> cases a <;> cases b <;> simp [apply, map, snoc]

/-- No check hides the issues of another. -/
theorem issues_gather (cs : List (Checked α)) : (gather cs).issues = cs.flatMap issues := by
  rw [gather, issues_foldl_snoc]
  rfl

end Checked

/-! ## Codecs -/

/-- A check with the data of what it reads, which passes unchanged. -/
structure Codec (α : Type) where
  check : Datum → Checked α
  datum : α → Datum
  check_datum : ∀ a, check (datum a) = .ok a

/-- What stands at a position, as data. -/
def Position.datum : (p : Position) → p.Value → Datum
  | .condition, c => .node (.condition c)
  | .table, t => .node (.table t)
  | .join, j => .node (.join j)
  | .select, q => .node (.select q)
  | .unionPart, u => .part u

theorem Position.check_datum (p : Position) (x : p.Value) : checkPart .data p (p.datum x) = .ok x := by
  rw [checkPart]
  cases p <;> rfl

def Source.datum : Source → Datum
  | .name s => .text s
  | .query q => .node (.select q)

theorem Source.check_datum (s : Source) :
    Fields.source s.datum (checkPart .data .select s.datum) = .ok s := by
  cases s with
  | name s => rfl
  | query q =>
    have hquery : checkPart .data .select (Source.query q).datum = .ok q := Position.select.check_datum q
    rw [hquery]
    rfl

namespace Codec

variable {α : Type}

def text : Codec String := ⟨Checked.text, .text, fun _ => rfl⟩

def scalar : Codec Scalar where
  check := Checked.scalar
  datum := .ofScalar
  check_datum v := by
    have hdatum : Datum.ofScalar v = .ofJson v.toJson := by cases v <;> rfl
    rw [hdatum, Checked.scalar_stored]

def tag (expected : String) : Codec Unit where
  check := Checked.tag expected
  datum _ := .text expected
  check_datum _ := if_pos rfl

def joinKind : Codec JoinKind where
  check := Checked.joinKind
  datum k := .text k.word
  check_datum k := by cases k <;> rfl

/-- An absent count or a count. -/
def limit : Codec (Option Nat) where
  check := Checked.nullable Checked.count
  datum := .optionalCount
  check_datum n := by cases n <;> rfl

def selectField : Codec SelectField := ⟨Fields.selectFieldOf, .field, fun _ => rfl⟩

def orderSpec : Codec OrderSpec := ⟨Fields.orderSpecOf, .order, fun _ => rfl⟩

def row : Codec Row := ⟨Checked.row, Row.toDatum, Insert.check_rowDatum⟩

def part (p : Position) : Codec p.Value := ⟨checkPart .data p, fun x => p.datum x, p.check_datum⟩

def source : Codec Source where
  check d := Fields.source d (checkPart .data .select d)
  datum := Source.datum
  check_datum := Source.check_datum

/-- Items of one sort. -/
def items (c : Codec α) : Codec (List α) where
  check d := Checked.items d fun a _ => c.check a
  datum xs := .tuple (xs.map c.datum)
  check_datum xs := Select.Clause.items_tuple xs c.check_datum

def nullable (c : Codec α) (h : ∀ a, c.datum a ≠ .null) : Codec (Option α) where
  check := Checked.nullable c.check
  datum a := .ofOption (a.map c.datum)
  check_datum a := by
    cases a with
    | none => rfl
    | some a =>
      show Checked.nullable c.check (c.datum a) = _
      rw [Checked.nullable.eq_2 _ _ (h a), c.check_datum]
      rfl

def pair (c : Codec α) : Codec (α × α) where
  check := Checked.pair c.check
  datum p := .tuple [c.datum p.1, c.datum p.2]
  check_datum p := by
    show Checked.apply (Checked.map Prod.mk ((c.check (c.datum p.1)).under _))
      ((c.check (c.datum p.2)).under _) = _
    rw [c.check_datum, c.check_datum]
    rfl

end Codec


/-! ## Declared fields -/

/-- A declared field: its name and the check of its values, which gives what is kept. -/
structure FieldRule where
  name : String
  check : Datum → Checked Datum

namespace Codec

variable {α : Type}

def rule (c : Codec α) (name : String) : FieldRule := ⟨name, fun d => Checked.map c.datum (c.check d)⟩

/-- Reads a field from the data of its name. -/
def read (c : Codec α) (name : String) (data : String → Datum) : Checked α :=
  (c.check (data name)).under (.key name)

/-- An absent name or text. -/
def label : Codec (Option String) := text.nullable fun _ h => by cases h

/-- Parts of one sort. -/
def parts (p : Position) : Codec (List p.Value) := (part p).items

def nullablePart (p : Position) : Codec (Option p.Value) :=
  (part p).nullable fun x h => by cases p <;> cases h

def columnNames : Codec (Option (List String)) := text.items.nullable fun _ h => by cases h

end Codec

namespace ConditionKind

open Codec

/-- The declared fields of a condition. -/
def rules (kind : ConditionKind) : List FieldRule :=
  let tag := (Codec.tag kind.tag).rule "type"
  match kind with
  | .compare _ => [text.rule "column", scalar.rule "value", tag]
  | .between => [tag, text.rule "column", scalar.pair.rule "values"]
  | .among => [tag, text.rule "column", scalar.items.rule "values"]
  | .like _ => [text.rule "column", text.rule "pattern", tag]
  | .isNull _ => [tag, text.rule "column"]
  | .columnEqual => [tag, text.rule "left", text.rule "right"]
  | .combine _ => [(parts .condition).rule "conditions", tag]

/-- A condition whose fields are read from the data of their names. -/
def assemble (kind : ConditionKind) (data : String → Datum) : Checked Condition :=
  let tag := (Codec.tag kind.tag).read "type" data
  match kind with
  | .compare op =>
    (fun column value _ => .compare op column value) <$> text.read "column" data
      <*> scalar.read "value" data <*> tag
  | .between =>
    (fun _ column bounds => .between column bounds.1 bounds.2) <$> tag <*> text.read "column" data
      <*> scalar.pair.read "values" data
  | .among =>
    (fun _ column values => .among column values) <$> tag <*> text.read "column" data
      <*> scalar.items.read "values" data
  | .like negated =>
    (fun column pattern _ => .like negated column pattern) <$> text.read "column" data
      <*> text.read "pattern" data <*> tag
  | .isNull negated => (fun _ column => .isNull negated column) <$> tag <*> text.read "column" data
  | .columnEqual =>
    (fun _ left right => .columnEqual left right) <$> tag <*> text.read "left" data
      <*> text.read "right" data
  | .combine connective =>
    (fun parts _ => .combine connective parts) <$> (parts .condition).read "conditions" data <*> tag

end ConditionKind

namespace NodeType

open Codec

/-- The declared fields of the nodes of a type, in their order. -/
def rules : NodeType → List FieldRule
  | .stored .table =>
    [(tag NodeKind.table.tag).rule "type", source.rule "source", label.rule "alias"]
  | .stored .join =>
    [(tag NodeKind.join.tag).rule "type", (part .table).rule "table",
      (nullablePart .condition).rule "condition", joinKind.rule "join_type"]
  | .stored .select =>
    [(parts .table).rule "tables", (parts .join).rule "joins", selectField.items.rule "select_fields",
      (tag NodeKind.select.tag).rule "type", (parts .condition).rule "where_conditions",
      (parts .condition).rule "having_conditions", limit.rule "limit_value",
      limit.rule "offset_value", orderSpec.items.rule "order_by_specs",
      text.items.rule "group_by_columns", (parts .unionPart).rule "union_queries"]
  | .stored (.condition kind) => kind.rules
  | .stored .delete =>
    [(parts .table).rule "tables", (parts .join).rule "joins",
      (parts .condition).rule "where_conditions", (tag NodeKind.delete.tag).rule "type"]
  | .stored .update =>
    [(parts .table).rule "tables", (parts .join).rule "joins",
      (parts .condition).rule "where_conditions", (tag NodeKind.update.tag).rule "type",
      row.rule "assignments"]
  | .stored .insert =>
    [(tag NodeKind.insert.tag).rule "type", text.rule "table_name", columnNames.rule "column_names",
      row.items.rule "rows", (nullablePart .select).rule "source_query"]
  | .projection =>
    [(parts .table).rule "tables", (parts .join).rule "joins", selectField.items.rule "select_fields"]

/-- A node whose fields are read from the data of their names. -/
def assemble (t : NodeType) (data : String → Datum) : Checked Node :=
  match t with
  | .stored .table =>
    Checked.map .table <|
      (fun _ source label => ⟨source, label⟩) <$> (tag NodeKind.table.tag).read "type" data
        <*> source.read "source" data <*> label.read "alias" data
  | .stored .join =>
    Checked.map .join <|
      (fun _ table condition kind => ⟨table, condition, kind⟩)
        <$> (tag NodeKind.join.tag).read "type" data <*> (part .table).read "table" data
        <*> (nullablePart .condition).read "condition" data <*> joinKind.read "join_type" data
  | .stored .select =>
    Checked.map .select <|
      (fun tables joins fields _ filters groupFilters limit offset orderBy groupBy unions =>
          ⟨tables, joins, fields, filters, groupFilters, limit, offset, orderBy, groupBy, unions⟩)
        <$> (parts .table).read "tables" data <*> (parts .join).read "joins" data
        <*> selectField.items.read "select_fields" data <*> (tag NodeKind.select.tag).read "type" data
        <*> (parts .condition).read "where_conditions" data
        <*> (parts .condition).read "having_conditions" data <*> limit.read "limit_value" data
        <*> limit.read "offset_value" data <*> orderSpec.items.read "order_by_specs" data
        <*> text.items.read "group_by_columns" data <*> (parts .unionPart).read "union_queries" data
  | .stored (.condition kind) => Checked.map .condition (kind.assemble data)
  | .stored .delete =>
    Checked.map .delete <|
      (fun tables joins filters _ => ⟨tables, joins, filters⟩)
        <$> (parts .table).read "tables" data <*> (parts .join).read "joins" data
        <*> (parts .condition).read "where_conditions" data <*> (tag NodeKind.delete.tag).read "type" data
  | .stored .update =>
    Checked.map .update <|
      (fun tables joins filters _ assignments => ⟨tables, joins, filters, assignments⟩)
        <$> (parts .table).read "tables" data <*> (parts .join).read "joins" data
        <*> (parts .condition).read "where_conditions" data <*> (tag NodeKind.update.tag).read "type" data
        <*> row.read "assignments" data
  | .stored .insert =>
    Checked.map .insert <|
      (fun _ table columns rows source => ⟨table, columns, rows, source⟩)
        <$> (tag NodeKind.insert.tag).read "type" data <*> text.read "table_name" data
        <*> columnNames.read "column_names" data <*> row.items.read "rows" data
        <*> (nullablePart .select).read "source_query" data
  | .projection =>
    Checked.map .projection <|
      Projection.mk <$> (parts .table).read "tables" data <*> (parts .join).read "joins" data
        <*> selectField.items.read "select_fields" data

end NodeType

/-! ## Fields of an assembled node -/

/-- Reads a field, under its name, from the data of the name. -/
def FieldRule.read (r : FieldRule) (data : String → Datum) : Checked (String × Datum) :=
  Checked.map (Prod.mk r.name) ((r.check (data r.name)).under (.key r.name))

theorem Codec.read_rule {α : Type} (c : Codec α) (name : String) (data : String → Datum) :
    (c.rule name).read data = Checked.map (fun a => (name, c.datum a)) (c.read name data) := by
  show Checked.map _ ((Checked.map c.datum (c.check (data name))).under _) = _
  rw [Checked.under_map, Checked.map_map]
  rfl

theorem ConditionKind.map_fields_assemble (kind : ConditionKind) (data : String → Datum) :
    Checked.map Node.conditionFields (kind.assemble data) =
      Checked.gather (kind.rules.map (·.read data)) := by
  cases kind <;>
    simp only [rules, assemble, List.map_cons, List.map_nil, Codec.read_rule, Checked.gather,
      List.foldl_cons, List.foldl_nil, Checked.snoc_nil, Checked.snoc_map, Checked.snoc_apply,
      Checked.fmap_eq_map, Checked.seq_eq_apply, Checked.map_map, Checked.map_apply] <;>
    rfl

theorem NodeType.map_fields_assemble (t : NodeType) (data : String → Datum) :
    Checked.map Node.fields (t.assemble data) = Checked.gather (t.rules.map (·.read data)) := by
  unfold NodeType.rules NodeType.assemble
  split
  case h_4 kind =>
    rw [Checked.map_map]
    exact kind.map_fields_assemble data
  all_goals
    simp only [List.map_cons, List.map_nil, Codec.read_rule, Checked.gather, List.foldl_cons,
      List.foldl_nil, Checked.snoc_nil, Checked.snoc_map, Checked.snoc_apply, Checked.fmap_eq_map,
      Checked.seq_eq_apply, Checked.map_map, Checked.map_apply]
    rfl

end SqlAst
