import Mathlib.Logic.Function.Basic
import SqlAst.Build.Query
import SqlAst.Proofs.StoredFields
import SqlAst.Render.Query

/-!
# Builder calls by their clauses

Each builder call of a select statement belongs to one clause: what it does there depends on its arguments
and on that clause alone, and it leaves the others as they are.

* `Select.rebuilt_eq`: checking all fields anew after one of them is replaced keeps the others.
* `Select.Call.perform_eq_rebuild`: a call is such a replacement, whatever it ends in.
* `Select.Call.perform_eq_ok_iff`: a call succeeds exactly if its arguments are accepted, and edits its clause.
-/
namespace SqlAst

namespace Select

/-! ## Clauses -/

/-- The clauses of a statement, one for each of its fields. -/
inductive Clause where
  | tables
  | joins
  | fields
  | filters
  | groupFilters
  | limit
  | offset
  | orderBy
  | groupBy
  | unions
  deriving DecidableEq

namespace Clause

/-- What a clause holds. -/
abbrev Value : Clause → Type
  | tables => List Table
  | joins => List Join
  | fields => List SelectField
  | filters | groupFilters => List Condition
  | limit | offset => Option Nat
  | orderBy => List OrderSpec
  | groupBy => List String
  | unions => List UnionPart

/-- The name of the field. -/
def fieldName : Clause → FieldName
  | tables => .plain "tables"
  | joins => .plain "joins"
  | fields => .fields
  | filters => .filters
  | groupFilters => .groupFilters
  | limit => .limit
  | offset => .offset
  | orderBy => .orderBy
  | groupBy => .groupBy
  | unions => .unions

/-- What a clause holds, as data. -/
def datum : (k : Clause) → k.Value → Datum
  | tables, ts => .tables ts
  | joins, js => .joins js
  | fields, fs => .selectFields fs
  | filters, cs | groupFilters, cs => .conditions cs
  | limit, n | offset, n => .optionalCount n
  | orderBy, os => .tuple (os.map .order)
  | groupBy, columns => .texts columns
  | unions, us => .tuple (us.map .part)

/-- The check of a field of a statement. -/
def check (k : Clause) (d : Datum) : Checked k.Value :=
  let unplaced : Checked k.Value :=
    match k with
    | tables => Checked.items d fun a _ => checkPart .data .table a
    | joins => Checked.items d fun a _ => checkPart .data .join a
    | fields => Checked.items d fun a _ => Fields.selectFieldOf a
    | filters | groupFilters => Checked.items d fun a _ => checkPart .data .condition a
    | limit | offset => Checked.nullable Checked.count d
    | orderBy => Checked.items d fun a _ => Fields.orderSpecOf a
    | groupBy => Checked.items d fun a _ => Checked.text a
    | unions => Checked.items d fun a _ => checkPart .data .unionPart a
  unplaced.under (.key k.fieldName.name)

end Clause

/-- What a statement has in a clause. -/
def get (q : Select) : (k : Clause) → k.Value
  | .tables => q.tables
  | .joins => q.joins
  | .fields => q.fields
  | .filters => q.filters
  | .groupFilters => q.groupFilters
  | .limit => q.limit
  | .offset => q.offset
  | .orderBy => q.orderBy
  | .groupBy => q.groupBy
  | .unions => q.unions

/-- The statement with another clause in place of its own. -/
def set (q : Select) : (k : Clause) → k.Value → Select
  | .tables, v => { q with tables := v }
  | .joins, v => { q with joins := v }
  | .fields, v => { q with fields := v }
  | .filters, v => { q with filters := v }
  | .groupFilters, v => { q with groupFilters := v }
  | .limit, v => { q with limit := v }
  | .offset, v => { q with offset := v }
  | .orderBy, v => { q with orderBy := v }
  | .groupBy, v => { q with groupBy := v }
  | .unions, v => { q with unions := v }

@[simp]
theorem get_set (q : Select) (k : Clause) (v : k.Value) : (q.set k v).get k = v := by cases k <;> rfl

theorem get_set_of_ne (q : Select) {k k' : Clause} (h : k ≠ k') (v : k.Value) :
    (q.set k v).get k' = q.get k' := by
  cases k <;> cases k' <;> first | rfl | exact absurd rfl h

/-- A statement is determined by its clauses. -/
theorem ext_get {q q' : Select} (h : ∀ k, q.get k = q'.get k) : q = q' := by
  obtain ⟨_, _, _, _, _, _, _, _, _, _⟩ := q
  obtain ⟨_, _, _, _, _, _, _, _, _, _⟩ := q'
  rw [Select.mk.injEq]
  exact ⟨h .tables, h .joins, h .fields, h .filters, h .groupFilters, h .limit, h .offset, h .orderBy,
    h .groupBy, h .unions⟩

/-! ## Checking anew -/

namespace Clause

theorem items_tuple {α : Type} {check : Datum → Checked α} {datum : α → Datum} (xs : List α)
    (h : ∀ x, check (datum x) = .ok x) :
    Checked.items (.tuple (xs.map datum)) (fun a _ => check a) = .ok xs := by
  have hread : Checked.eachFrom check 0 (xs.map datum) = .ok (xs.map id) :=
    Checked.eachFrom_ok (fun x _ => h x) 0
  rw [List.map_id] at hread
  exact (Checked.each_eq check _).trans hread

/-- What a clause holds passes its check. -/
theorem check_datum (k : Clause) (v : k.Value) : k.check (k.datum v) = .ok v := by
  cases k with
  | tables => exact congrArg (Checked.under _) (items_tuple v fun t => by rw [checkPart]; rfl)
  | joins => exact congrArg (Checked.under _) (items_tuple v fun j => by rw [checkPart]; rfl)
  | fields => exact congrArg (Checked.under _) (items_tuple v fun f => rfl)
  | filters => exact congrArg (Checked.under _) (items_tuple v fun c => by rw [checkPart]; rfl)
  | groupFilters => exact congrArg (Checked.under _) (items_tuple v fun c => by rw [checkPart]; rfl)
  | limit => cases v <;> rfl
  | offset => cases v <;> rfl
  | orderBy => exact congrArg (Checked.under _) (items_tuple v fun o => rfl)
  | groupBy => exact congrArg (Checked.under _) (items_tuple v fun s => rfl)
  | unions => exact congrArg (Checked.under _) (items_tuple v fun u => by rw [checkPart]; rfl)

/-- The fields of a statement with the given data. -/
def record (data : Clause → Datum) : Fields :=
  Build.named
    [("tables", data tables), ("joins", data joins), ("select_fields", data fields),
      ("type", .text title), ("where_conditions", data filters),
      ("having_conditions", data groupFilters), ("limit_value", data limit),
      ("offset_value", data offset), ("order_by_specs", data orderBy),
      ("group_by_columns", data groupBy), ("union_queries", data unions)]

end Clause

/-- Replaces the data of a clause and checks all fields of the new statement. -/
def rebuilt (q : Select) (k : Clause) (d : Datum) : Outcome Select :=
  let es := Build.named (Entries.put k.fieldName.name d (Node.select q).fields)
  (Fields.select {} es (checkParts .data es)).orInvalid title

theorem fields_put (q : Select) (k : Clause) (d : Datum) :
    Build.named (Entries.put k.fieldName.name d (Node.select q).fields) =
      Clause.record (Function.update (fun k => k.datum (q.get k)) k d) := by
  cases k <;> rfl

theorem select_record (data : Clause → Datum) :
    Fields.select {} (Clause.record data) (checkParts .data _) =
      (fun tables joins fields _ filters groupFilters limit offset orderBy groupBy unions =>
          ⟨tables, joins, fields, filters, groupFilters, limit, offset, orderBy, groupBy, unions⟩)
        <$> Clause.check .tables (data .tables)
        <*> Clause.check .joins (data .joins)
        <*> Clause.check .fields (data .fields)
        <*> Checked.ok ()
        <*> Clause.check .filters (data .filters)
        <*> Clause.check .groupFilters (data .groupFilters)
        <*> Clause.check .limit (data .limit)
        <*> Clause.check .offset (data .offset)
        <*> Clause.check .orderBy (data .orderBy)
        <*> Clause.check .groupBy (data .groupBy)
        <*> Clause.check .unions (data .unions) := by
  have htag : (Clause.record data).tag NodeKind.select.tag = .ok () := Fields.tag_given rfl
  rw [Fields.select, htag]
  rfl

/-- Only the replaced clause can be wrong, and the others are kept. -/
theorem rebuilt_eq (q : Select) (k : Clause) (d : Datum) :
    q.rebuilt k d = (Checked.map (q.set k) (k.check d)).orInvalid title := by
  have hkept (k' : Clause) (h : k' ≠ k) :
      k'.check (Function.update (fun k => k.datum (q.get k)) k d k') = .ok (q.get k') := by
    rw [Function.update_of_ne h, Clause.check_datum]
  have hnew : k.check (Function.update (fun k => k.datum (q.get k)) k d k) = k.check d := by
    rw [Function.update_self]
  rw [rebuilt, fields_put, select_record]
  cases k <;> simp (disch := decide) only [hkept, hnew] <;> cases Clause.check _ d <;> rfl

/-! ## Calls -/

/-- The builder calls of a clause, each with its arguments. -/
inductive Call : Clause → Type where
  | setTable (source label : Datum) : Call .tables
  | addJoin (table condition kind : Datum) : Call .joins
  | addField (name label : Datum) : Call .fields
  | addFields (fields : Datum) : Call .fields
  | setFields (fields : Datum) : Call .fields
  | clearFields : Call .fields
  | addFilter (condition : Datum) : Call .filters
  | addGroupFilter (condition : Datum) : Call .groupFilters
  | setLimit (count : Datum) : Call .limit
  | clearLimit : Call .limit
  | setOffset (count : Datum) : Call .offset
  | clearOffset : Call .offset
  | addOrder (field direction : Datum) : Call .orderBy
  | clearOrder : Call .orderBy
  | addGroups (columns : List Datum) : Call .groupBy
  | clearGroups : Call .groupBy
  | addUnion (query kind : Datum) : Call .unions

namespace Call

/-- Makes a call. -/
def perform {k : Clause} (c : Call k) (q : Select) : Outcome Select :=
  match c with
  | setTable source label => q.setTable source label
  | addJoin table condition kind => q.addJoin table condition kind
  | addField name label => q.addField name label
  | addFields fields => q.addFields fields
  | setFields fields => q.setFields fields
  | clearFields => pure q.clearFields
  | addFilter condition => q.addFilter condition
  | addGroupFilter condition => q.addGroupFilter condition
  | setLimit count => q.setLimit count
  | clearLimit => pure q.clearLimit
  | setOffset count => q.setOffset count
  | clearOffset => pure q.clearOffset
  | addOrder field direction => q.addOrder field direction
  | clearOrder => pure q.clearOrder
  | addGroups columns => q.addGroups columns
  | clearGroups => pure q.clearGroups
  | addUnion query kind => q.addUnion query kind

/-- The new data of the clause that a call makes from its arguments and the old clause. -/
def argument {k : Clause} (c : Call k) (q : Select) : Outcome Datum :=
  match c with
  | setTable source label => do pure (.tables [← Table.make source label])
  | addJoin table condition kind => do pure (.joins (q.joins ++ [← Join.make table condition kind]))
  | addField name label => do pure (.selectFields (q.fields ++ [← SelectField.named name label]))
  | addFields fields => do pure (.selectFields (q.fields ++ (← SelectField.ofItems fields)))
  | setFields fields => do pure (.selectFields (← SelectField.ofItems fields))
  | clearFields => pure (.selectFields [])
  | addFilter condition => pure (.tuple (q.filters.map (fun c => .node (.condition c)) ++ [condition]))
  | addGroupFilter condition =>
    pure (.tuple (q.groupFilters.map (fun c => .node (.condition c)) ++ [condition]))
  | setLimit count | setOffset count => pure count
  | clearLimit | clearOffset => pure .null
  | addOrder field direction => do
    pure (.tuple ((q.orderBy ++ [← OrderSpec.make field direction]).map .order))
  | clearOrder => pure (.tuple [])
  | addGroups columns => pure (.tuple (q.groupBy.map .text ++ columns))
  | clearGroups => pure (.tuple [])
  | addUnion query kind => do pure (.tuple ((q.unions ++ [← UnionPart.make query kind]).map .part))

/-- Makes a call by checking all fields of the new statement. -/
def rebuild {k : Clause} (c : Call k) (q : Select) : Outcome Select := do q.rebuilt k (← c.argument q)

end Call

/-! ### What a call does to its clause -/

/-- Puts a value in place of the old one. -/
def replacing {α : Type} (value : α) : α → α := fun _ => value

/-- Adds items at the end. -/
def appending {α : Type} (items : List α) : List α → List α := (· ++ items)

/-- The value of a check that succeeds. -/
def accepted? {α : Type} : Checked α → Option α
  | .ok a => some a
  | .bad _ => none

/-- What a call makes of its clause, if its arguments are accepted. -/
def Call.edit? {k : Clause} (c : Call k) : Option (k.Value → k.Value) :=
  match c with
  | setTable source label => (Table.make source label).toOption.map fun t => replacing [t]
  | addJoin table condition kind => (Join.make table condition kind).toOption.map fun j => appending [j]
  | addField name label => (SelectField.named name label).toOption.map fun f => appending [f]
  | addFields fields => (SelectField.ofItems fields).toOption.map appending
  | setFields fields => (SelectField.ofItems fields).toOption.map replacing
  | clearFields => some (replacing [])
  | addFilter condition | addGroupFilter condition =>
    (accepted? (checkPart .data .condition condition)).map fun c => appending [c]
  | setLimit count | setOffset count => (accepted? (Checked.nullable Checked.count count)).map replacing
  | clearLimit | clearOffset => some (replacing none)
  | addOrder field direction => (OrderSpec.make field direction).toOption.map fun o => appending [o]
  | clearOrder => some (replacing [])
  | addGroups columns => (columns.mapM Datum.asText?).map appending
  | clearGroups => some (replacing [])
  | addUnion query kind => (UnionPart.make query kind).toOption.map fun u => appending [u]

theorem eachFrom_append {α β : Type} {check : α → Checked β} {stored : β → α}
    (h : ∀ x, check (stored x) = .ok x) (xs : List β) (ys : List α) (index : Nat) :
    Checked.eachFrom check index (xs.map stored ++ ys) =
      Checked.map (xs ++ ·) (Checked.eachFrom check (index + xs.length) ys) := by
  induction xs generalizing index with
  | nil =>
    show Checked.eachFrom check index ys = Checked.map ([] ++ ·) (Checked.eachFrom check index ys)
    cases Checked.eachFrom check index ys <;> rfl
  | cons x rest ih =>
    rw [List.map_cons, List.cons_append, Checked.eachFrom, h, ih, List.length_cons,
      show index + 1 + rest.length = index + (rest.length + 1) by omega]
    cases Checked.eachFrom check (index + (rest.length + 1)) ys <;> rfl

/-- Items are accepted if each one is, wherever they stand. -/
theorem accepted?_eachFrom {α β : Type} (check : α → Checked β) (items : List α) (index : Nat) :
    accepted? (Checked.eachFrom check index items) = items.mapM fun a => accepted? (check a) := by
  induction items generalizing index with
  | nil => rfl
  | cons a rest ih =>
    rw [Checked.eachFrom, List.mapM_cons, ← ih (index + 1)]
    cases check a with
    | bad issues => cases Checked.eachFrom check (index + 1) rest <;> rfl
    | ok b => cases Checked.eachFrom check (index + 1) rest <;> rfl

theorem accepted?_text (d : Datum) : accepted? (Checked.text d) = d.asText? := by
  rw [Checked.text]
  cases d.asText? <;> rfl

theorem accepted?_texts (columns : List Datum) (index : Nat) :
    accepted? (Checked.eachFrom Checked.text index columns) = columns.mapM Datum.asText? := by
  rw [accepted?_eachFrom, funext accepted?_text]

theorem rebuilt_datum (q : Select) (k : Clause) (v : k.Value) :
    q.rebuilt k (k.datum v) = .ok (q.set k v) := by
  rw [rebuilt_eq, k.check_datum]
  rfl

/-- New items after old ones: only the new ones can be wrong. -/
theorem items_append {α : Type} {check : Datum → Checked α} {datum : α → Datum}
    (h : ∀ x, check (datum x) = .ok x) (xs : List α) (added : List Datum) :
    Checked.items (.tuple (xs.map datum ++ added)) (fun a _ => check a) =
      Checked.map (xs ++ ·) (Checked.eachFrom check xs.length added) := by
  have happend := eachFrom_append h xs added 0
  rw [Nat.zero_add] at happend
  exact (Checked.each_eq check _).trans happend

theorem addCondition_eq (f : FieldName) (cs : List Condition) (c : Datum) :
    (Checked.items (.tuple (cs.map (fun c => .node (.condition c)) ++ [c]))
      fun a _ => checkPart .data .condition a).under (.key f.name) = addCondition f cs c := by
  rw [items_append fun c => by rw [checkPart]; rfl, addCondition, Build.appended]
  cases Checked.eachFrom (checkPart .data .condition) cs.length [c] <;> rfl

namespace Call

variable {α : Type} {q q' : Select}

theorem bind_rebuilt (k : Clause) (x : Outcome α) (value : α → k.Value) :
    (do let a ← x; pure (q.set k (value a))) =
      (do let d ← (do let a ← x; pure (k.datum (value a))); q.rebuilt k d) := by
  cases x with
  | error e => rfl
  | ok a => exact (q.rebuilt_datum k (value a)).symm

theorem bind_orInvalid (k : Clause) (x : Checked k.Value) :
    (do let v ← x.orInvalid title; pure (q.set k v)) = (Checked.map (q.set k) x).orInvalid title := by
  cases x <;> rfl

/-- A call is a replacement of the data of its clause with all fields checked anew. -/
theorem perform_eq_rebuild {k : Clause} (c : Call k) (q : Select) : c.perform q = c.rebuild q := by
  cases c with
  | setTable source label => exact bind_rebuilt .tables (Table.make source label) fun t => [t]
  | addJoin table condition kind =>
    exact bind_rebuilt .joins (Join.make table condition kind) fun j => q.joins ++ [j]
  | addField name label =>
    exact bind_rebuilt .fields (SelectField.named name label) fun f => q.fields ++ [f]
  | addFields fields => exact bind_rebuilt .fields (SelectField.ofItems fields) fun fs => q.fields ++ fs
  | setFields fields => exact bind_rebuilt .fields (SelectField.ofItems fields) fun fs => fs
  | clearFields => exact (q.rebuilt_datum .fields []).symm
  | addFilter condition =>
    refine (bind_orInvalid .filters (addCondition .filters q.filters condition)).trans ?_
    rw [← addCondition_eq]
    exact (q.rebuilt_eq .filters _).symm
  | addGroupFilter condition =>
    refine (bind_orInvalid .groupFilters (addCondition .groupFilters q.groupFilters condition)).trans ?_
    rw [← addCondition_eq]
    exact (q.rebuilt_eq .groupFilters _).symm
  | setLimit count => exact (bind_orInvalid .limit _).trans (q.rebuilt_eq .limit count).symm
  | clearLimit => exact (q.rebuilt_datum .limit none).symm
  | setOffset count => exact (bind_orInvalid .offset _).trans (q.rebuilt_eq .offset count).symm
  | clearOffset => exact (q.rebuilt_datum .offset none).symm
  | addOrder field direction =>
    exact bind_rebuilt .orderBy (OrderSpec.make field direction) fun o => q.orderBy ++ [o]
  | clearOrder => exact (q.rebuilt_datum .orderBy []).symm
  | addGroups columns =>
    refine Eq.trans ?_ (q.rebuilt_eq .groupBy _).symm
    have htext (s : String) : Checked.text (.text s) = .ok s := rfl
    rw [Clause.check, items_append htext, perform, Select.addGroups, Build.appended]
    cases Checked.eachFrom Checked.text q.groupBy.length columns <;> rfl
  | clearGroups => exact (q.rebuilt_datum .groupBy []).symm
  | addUnion query kind =>
    exact bind_rebuilt .unions (UnionPart.make query kind) fun u => q.unions ++ [u]

theorem map_eq_some_iff (k : Clause) (o : Option α) (change : α → k.Value → k.Value) :
    (∃ e, o.map change = some e ∧ q' = q.set k (e (q.get k))) ↔
      ∃ a, o = some a ∧ q' = q.set k (change a (q.get k)) := by
  cases o <;> simp

theorem bind_eq_ok_iff (k : Clause) (x : Outcome α) (change : α → k.Value → k.Value) :
    (do let a ← x; pure (q.set k (change a (q.get k)))) = .ok q' ↔
      ∃ e, x.toOption.map change = some e ∧ q' = q.set k (e (q.get k)) := by
  rw [map_eq_some_iff]
  cases x with
  | error e =>
    constructor
    · intro h
      cases h
    · rintro ⟨a, h, -⟩
      cases h
  | ok a =>
    constructor
    · intro h
      exact ⟨a, rfl, (Except.ok.inj h).symm⟩
    · rintro ⟨b, h, hq⟩
      cases h
      rw [hq]
      rfl

theorem orInvalid_eq_ok_iff (k : Clause) {o : Option α} {y : Checked k.Value}
    (change : α → k.Value → k.Value) (h : accepted? y = o.map fun a => change a (q.get k)) :
    (do let v ← y.orInvalid title; pure (q.set k v)) = .ok q' ↔
      ∃ e, o.map change = some e ∧ q' = q.set k (e (q.get k)) := by
  rw [bind_orInvalid, map_eq_some_iff]
  cases y with
  | bad issues =>
    cases o with
    | none => simp [Checked.map, Checked.orInvalid]
    | some a => cases h
  | ok v =>
    cases o with
    | none => cases h
    | some a =>
      cases h
      simp [Checked.map, Checked.orInvalid, eq_comm]

theorem accepted?_addCondition (f : FieldName) (cs : List Condition) (c : Datum) :
    accepted? (addCondition f cs c) =
      (accepted? (checkPart .data .condition c)).map fun c => appending [c] cs := by
  rw [addCondition, Build.appended, Checked.eachFrom]
  cases checkPart .data .condition c <;> rfl

theorem accepted?_countOf (step : Step) (count : Datum) (n : Option Nat) :
    accepted? ((Checked.nullable Checked.count count).under step) =
      (accepted? (Checked.nullable Checked.count count)).map fun a => replacing a n := by
  cases Checked.nullable Checked.count count <;> rfl

theorem accepted?_columns (step : Step) (columns : List Datum) (old : List String) :
    accepted? (Checked.map (old ++ ·)
        ((Checked.eachFrom Checked.text old.length columns).under step)) =
      (columns.mapM Datum.asText?).map fun added => appending added old := by
  rw [← accepted?_texts columns old.length]
  cases Checked.eachFrom Checked.text old.length columns <;> rfl

/-- A call succeeds exactly if its arguments are accepted, and edits its clause. -/
theorem perform_eq_ok_iff {k : Clause} (c : Call k) :
    c.perform q = .ok q' ↔ ∃ e, c.edit? = some e ∧ q' = q.set k (e (q.get k)) := by
  cases c with
  | setTable source label => exact bind_eq_ok_iff .tables (Table.make source label) fun t => replacing [t]
  | addJoin table condition kind =>
    exact bind_eq_ok_iff .joins (Join.make table condition kind) fun j => appending [j]
  | addField name label =>
    exact bind_eq_ok_iff .fields (SelectField.named name label) fun f => appending [f]
  | addFields fields => exact bind_eq_ok_iff .fields (SelectField.ofItems fields) appending
  | setFields fields => exact bind_eq_ok_iff .fields (SelectField.ofItems fields) replacing
  | clearFields => exact bind_eq_ok_iff .fields (.ok ()) fun _ => replacing []
  | addFilter condition =>
    exact orInvalid_eq_ok_iff .filters (fun c => appending [c]) (accepted?_addCondition _ _ condition)
  | addGroupFilter condition =>
    exact orInvalid_eq_ok_iff .groupFilters (fun c => appending [c])
      (accepted?_addCondition _ _ condition)
  | setLimit count => exact orInvalid_eq_ok_iff .limit replacing (accepted?_countOf _ count q.limit)
  | clearLimit => exact bind_eq_ok_iff .limit (.ok ()) fun _ => replacing none
  | setOffset count => exact orInvalid_eq_ok_iff .offset replacing (accepted?_countOf _ count q.offset)
  | clearOffset => exact bind_eq_ok_iff .offset (.ok ()) fun _ => replacing none
  | addOrder field direction =>
    exact bind_eq_ok_iff .orderBy (OrderSpec.make field direction) fun o => appending [o]
  | clearOrder => exact bind_eq_ok_iff .orderBy (.ok ()) fun _ => replacing []
  | addGroups columns =>
    refine Iff.trans (iff_of_eq ?_) (orInvalid_eq_ok_iff .groupBy appending
      (accepted?_columns (.key FieldName.groupBy.name) columns q.groupBy))
    rw [perform, Select.addGroups, Build.appended]
    cases Checked.eachFrom Checked.text q.groupBy.length columns <;> rfl
  | clearGroups => exact bind_eq_ok_iff .groupBy (.ok ()) fun _ => replacing []
  | addUnion query kind =>
    exact bind_eq_ok_iff .unions (UnionPart.make query kind) fun u => appending [u]

end Call

end Select

end SqlAst
