import SqlAst.Proofs.Arguments
import SqlAst.Proofs.Clauses

/-!
# Runs of builder calls

What a call adds to its clause, or puts in its place, is told by its arguments. So a run of calls falls apart
into a run for each clause, and it does not matter how these are interleaved.

* `Select.Call.Appends`, `Select.Call.Puts`: what a call adds to its clause, and what it puts in its place.
* `Select.Call.edit?_eq_some_iff`: a call does one or the other.
* `Select.Run.perform_eq_ok_iff`: a run clause by clause.
* `Select.Run.decomposes`: where a run ends, in each clause, and that the order between clauses does not
  matter.
-/
namespace SqlAst.Select

/-! ## What a call does -/

/-- The items of a clause that is a list. -/
abbrev Clause.Item : Clause → Type
  | .tables => Table
  | .joins => Join
  | .fields => SelectField
  | .filters | .groupFilters => Condition
  | .limit | .offset => Nat
  | .orderBy => OrderSpec
  | .groupBy => String
  | .unions => UnionPart

/-- A clause with items added at the end; a limit and an offset are no lists and stay. -/
def Clause.extended : (k : Clause) → k.Value → List k.Item → k.Value
  | .tables, old, added => old ++ added
  | .joins, old, added => old ++ added
  | .fields, old, added => old ++ added
  | .filters, old, added => old ++ added
  | .groupFilters, old, added => old ++ added
  | .limit, old, _ => old
  | .offset, old, _ => old
  | .orderBy, old, added => old ++ added
  | .groupBy, old, added => old ++ added
  | .unions, old, added => old ++ added

theorem Clause.extended_nil (k : Clause) (v : k.Value) : k.extended v [] = v := by
  cases k <;> first | rfl | exact List.append_nil v

theorem Clause.extended_extended (k : Clause) (v : k.Value) (xs ys : List k.Item) :
    k.extended (k.extended v xs) ys = k.extended v (xs ++ ys) := by
  cases k <;> first | rfl | exact List.append_assoc v xs ys

namespace Call

/-- What a call puts in place of its clause. -/
inductive Puts : {k : Clause} → Call k → k.Value → Prop where
  | setTable {source label : Datum} {s : Source} {l : Option String} :
    source.IsSource s → label.IsOptional Datum.IsText l → Puts (.setTable source label) [⟨s, l⟩]
  | setFields {fields : Datum} {items : List Datum} {fs : List SelectField} :
    fields.items? = some items → List.Forall₂ Datum.IsField items fs → Puts (.setFields fields) fs
  | clearFields : Puts .clearFields []
  | setLimit {count : Datum} {n : Option Nat} : count.Counts n → Puts (.setLimit count) n
  | clearLimit : Puts .clearLimit none
  | setOffset {count : Datum} {n : Option Nat} : count.Counts n → Puts (.setOffset count) n
  | clearOffset : Puts .clearOffset none
  | clearOrder : Puts .clearOrder []
  | clearGroups : Puts .clearGroups []

/-- The items that a call adds at the end of its clause. -/
inductive Appends : {k : Clause} → Call k → List k.Item → Prop where
  | addJoin {table condition kind : Datum} {t : Table} {c : Option Condition} {joinKind : JoinKind} :
    table.IsJoined t → condition.IsOptional (Datum.IsPart .condition) c → kind.IsText joinKind.word →
    Appends (.addJoin table condition kind) [⟨t, c, joinKind⟩]
  | addField {name label : Datum} {s : String} {l : Option String} :
    name.IsText s → label.IsOptional Datum.IsText l → Appends (.addField name label) [⟨s, l⟩]
  | addFields {fields : Datum} {items : List Datum} {fs : List SelectField} :
    fields.items? = some items → List.Forall₂ Datum.IsField items fs → Appends (.addFields fields) fs
  | addFilter {condition : Datum} {c : Condition} :
    condition.IsPart .condition c → Appends (.addFilter condition) [c]
  | addGroupFilter {condition : Datum} {c : Condition} :
    condition.IsPart .condition c → Appends (.addGroupFilter condition) [c]
  | addOrder {field direction : Datum} {s : String} {sense : Direction} :
    field.IsText s → direction.IsText sense.word → Appends (.addOrder field direction) [⟨s, sense⟩]
  | addGroups {columns : List Datum} {names : List String} :
    List.Forall₂ Datum.IsText columns names → Appends (.addGroups columns) names
  | addUnion {query kind : Datum} {q : Select} {unionKind : UnionKind} :
    query.IsPart .select q → kind.IsText unionKind.word → Appends (.addUnion query kind) [⟨unionKind, q⟩]

/-- An edit puts a value in place of the clause, or adds items to it. -/
def Edits {k : Clause} (c : Call k) (e : k.Value → k.Value) : Prop :=
  (∃ v, c.Puts v ∧ e = fun _ => v) ∨ ∃ items, c.Appends items ∧ e = fun v => k.extended v items

section

variable {α : Type}

theorem accepted?_eq_some_iff {c : Checked α} {a : α} : accepted? c = some a ↔ c = .ok a := by
  cases c <;> simp [accepted?]

theorem toOption_eq_some_iff {o : Outcome α} {a : α} : o.toOption = some a ↔ o = .ok a := by
  cases o <;> simp [Except.toOption]

variable {k : Clause} {c : Call k} {o : Option α} {e : k.Value → k.Value}

theorem edits_of_puts (value : α → k.Value) (hputs : ∀ v, c.Puts v ↔ ∃ a, o = some a ∧ value a = v)
    (hno : ∀ items, ¬ c.Appends items) :
    (o.map fun a => replacing (value a)) = some e ↔ c.Edits e := by
  rw [Option.map_eq_some_iff]
  constructor
  · rintro ⟨a, ha, rfl⟩
    exact .inl ⟨value a, (hputs _).mpr ⟨a, ha, rfl⟩, rfl⟩
  · rintro (⟨v, hv, rfl⟩ | ⟨items, h, -⟩)
    · obtain ⟨a, ha, rfl⟩ := (hputs v).mp hv
      exact ⟨a, ha, rfl⟩
    · exact absurd h (hno items)

theorem edits_of_appends (added : α → List k.Item)
    (happends : ∀ items, c.Appends items ↔ ∃ a, o = some a ∧ added a = items) (hno : ∀ v, ¬ c.Puts v) :
    (o.map fun a v => k.extended v (added a)) = some e ↔ c.Edits e := by
  rw [Option.map_eq_some_iff]
  constructor
  · rintro ⟨a, ha, rfl⟩
    exact .inr ⟨added a, (happends _).mpr ⟨a, ha, rfl⟩, rfl⟩
  · rintro (⟨v, h, -⟩ | ⟨items, hitems, rfl⟩)
    · exact absurd h (hno v)
    · obtain ⟨a, ha, rfl⟩ := (happends items).mp hitems
      exact ⟨a, ha, rfl⟩

theorem clears_iff (value : k.Value) (hputs : c.Puts value) (honly : ∀ v, c.Puts v → v = value)
    (hno : ∀ items, ¬ c.Appends items) : some (replacing value) = some e ↔ c.Edits e :=
  edits_of_puts (o := some ()) (fun _ => value)
    (fun v => ⟨fun h => ⟨(), rfl, (honly v h).symm⟩, fun ⟨_, _, h⟩ => h ▸ hputs⟩) hno

end

/-! ### One lemma for each call -/

section

variable {source label table condition kind name fields field direction count query : Datum}

theorem edits_setTable (e : List Table → List Table) :
    (setTable source label).edit? = some e ↔ (setTable source label).Edits e := by
  refine edits_of_puts (k := .tables) (fun t : Table => [t]) (fun v => ?_) fun _ h => by cases h
  simp only [toOption_eq_some_iff, Table.make_iff]
  constructor
  · intro h
    cases h with
    | setTable hs hl => exact ⟨⟨_, _⟩, ⟨hs, hl⟩, rfl⟩
  · rintro ⟨⟨s, l⟩, ⟨hs, hl⟩, rfl⟩
    exact .setTable hs hl

theorem edits_addJoin (e : List Join → List Join) :
    (addJoin table condition kind).edit? = some e ↔ (addJoin table condition kind).Edits e := by
  refine edits_of_appends (k := .joins) (fun j : Join => [j]) (fun items => ?_) fun _ h => by cases h
  simp only [toOption_eq_some_iff, Join.make_iff]
  constructor
  · intro h
    cases h with
    | addJoin ht hc hk => exact ⟨⟨_, _, _⟩, ⟨ht, hc, hk⟩, rfl⟩
  · rintro ⟨⟨t, c, k⟩, ⟨ht, hc, hk⟩, rfl⟩
    exact .addJoin ht hc hk

theorem edits_addField (e : List SelectField → List SelectField) :
    (addField name label).edit? = some e ↔ (addField name label).Edits e := by
  refine edits_of_appends (k := .fields) (fun f : SelectField => [f]) (fun items => ?_) fun _ h => by cases h
  simp only [toOption_eq_some_iff, SelectField.named_iff]
  constructor
  · intro h
    cases h with
    | addField hs hl => exact ⟨⟨_, _⟩, ⟨hs, hl⟩, rfl⟩
  · rintro ⟨⟨s, l⟩, ⟨hs, hl⟩, rfl⟩
    exact .addField hs hl

theorem edits_addFields (e : List SelectField → List SelectField) :
    (addFields fields).edit? = some e ↔ (addFields fields).Edits e := by
  refine edits_of_appends (k := .fields) (fun fs : List SelectField => fs) (fun items => ?_)
    fun _ h => by cases h
  simp only [toOption_eq_some_iff, SelectField.ofItems_iff]
  constructor
  · intro h
    cases h with
    | addFields hitems hfields => exact ⟨_, ⟨_, hitems, hfields⟩, rfl⟩
  · rintro ⟨fs, ⟨ds, hitems, hfields⟩, rfl⟩
    exact .addFields hitems hfields

theorem edits_setFields (e : List SelectField → List SelectField) :
    (setFields fields).edit? = some e ↔ (setFields fields).Edits e := by
  refine edits_of_puts (k := .fields) (fun fs : List SelectField => fs) (fun v => ?_) fun _ h => by cases h
  simp only [toOption_eq_some_iff, SelectField.ofItems_iff]
  constructor
  · intro h
    cases h with
    | setFields hitems hfields => exact ⟨_, ⟨_, hitems, hfields⟩, rfl⟩
  · rintro ⟨fs, ⟨ds, hitems, hfields⟩, rfl⟩
    exact .setFields hitems hfields

theorem edits_addFilter (e : List Condition → List Condition) :
    (addFilter condition).edit? = some e ↔ (addFilter condition).Edits e := by
  refine edits_of_appends (k := .filters) (fun c : Condition => [c]) (fun items => ?_) fun _ h => by cases h
  simp only [accepted?_eq_some_iff]
  constructor
  · intro h
    cases h with
    | addFilter hc => exact ⟨_, checkPart_iff.mpr hc, rfl⟩
  · rintro ⟨c, hc, rfl⟩
    exact .addFilter (checkPart_iff.mp hc)

theorem edits_addGroupFilter (e : List Condition → List Condition) :
    (addGroupFilter condition).edit? = some e ↔ (addGroupFilter condition).Edits e := by
  refine edits_of_appends (k := .groupFilters) (fun c : Condition => [c]) (fun items => ?_)
    fun _ h => by cases h
  simp only [accepted?_eq_some_iff]
  constructor
  · intro h
    cases h with
    | addGroupFilter hc => exact ⟨_, checkPart_iff.mpr hc, rfl⟩
  · rintro ⟨c, hc, rfl⟩
    exact .addGroupFilter (checkPart_iff.mp hc)

theorem edits_setLimit (e : Option Nat → Option Nat) :
    (setLimit count).edit? = some e ↔ (setLimit count).Edits e := by
  refine edits_of_puts (k := .limit) (fun n : Option Nat => n) (fun v => ?_) fun _ h => by cases h
  simp only [accepted?_eq_some_iff, Checked.nullable_count_ok_iff]
  constructor
  · intro h
    cases h with
    | setLimit hn => exact ⟨_, hn, rfl⟩
  · rintro ⟨n, hn, rfl⟩
    exact .setLimit hn

theorem edits_setOffset (e : Option Nat → Option Nat) :
    (setOffset count).edit? = some e ↔ (setOffset count).Edits e := by
  refine edits_of_puts (k := .offset) (fun n : Option Nat => n) (fun v => ?_) fun _ h => by cases h
  simp only [accepted?_eq_some_iff, Checked.nullable_count_ok_iff]
  constructor
  · intro h
    cases h with
    | setOffset hn => exact ⟨_, hn, rfl⟩
  · rintro ⟨n, hn, rfl⟩
    exact .setOffset hn

theorem edits_addOrder (e : List OrderSpec → List OrderSpec) :
    (addOrder field direction).edit? = some e ↔ (addOrder field direction).Edits e := by
  refine edits_of_appends (k := .orderBy) (fun o : OrderSpec => [o]) (fun items => ?_) fun _ h => by cases h
  simp only [toOption_eq_some_iff, OrderSpec.make_iff]
  constructor
  · intro h
    cases h with
    | addOrder hs hd => exact ⟨⟨_, _⟩, ⟨hs, hd⟩, rfl⟩
  · rintro ⟨⟨s, d⟩, ⟨hs, hd⟩, rfl⟩
    exact .addOrder hs hd

theorem edits_addGroups {columns : List Datum} (e : List String → List String) :
    (addGroups columns).edit? = some e ↔ (addGroups columns).Edits e := by
  refine edits_of_appends (k := .groupBy) (fun names : List String => names) (fun items => ?_)
    fun _ h => by cases h
  have hread (names : List String) :
      columns.mapM Datum.asText? = some names ↔ List.Forall₂ Datum.IsText columns names :=
    mapM_eq_some_iff_forall₂
  simp only [hread]
  constructor
  · intro h
    cases h with
    | addGroups hnames => exact ⟨_, hnames, rfl⟩
  · rintro ⟨names, hnames, rfl⟩
    exact .addGroups hnames

theorem edits_addUnion (e : List UnionPart → List UnionPart) :
    (addUnion query kind).edit? = some e ↔ (addUnion query kind).Edits e := by
  refine edits_of_appends (k := .unions) (fun u : UnionPart => [u]) (fun items => ?_) fun _ h => by cases h
  simp only [toOption_eq_some_iff, UnionPart.make_iff]
  constructor
  · intro h
    cases h with
    | addUnion hq hk => exact ⟨⟨_, _⟩, ⟨hq, hk⟩, rfl⟩
  · rintro ⟨⟨k, q⟩, ⟨hq, hk⟩, rfl⟩
    exact .addUnion hq hk

end

/-- What a call edits is told by its arguments. -/
theorem edit?_eq_some_iff {k : Clause} (c : Call k) (e : k.Value → k.Value) :
    c.edit? = some e ↔ c.Edits e := by
  cases c with
  | setTable source label => exact edits_setTable e
  | addJoin table condition kind => exact edits_addJoin e
  | addField name label => exact edits_addField e
  | addFields fields => exact edits_addFields e
  | setFields fields => exact edits_setFields e
  | clearFields =>
    exact clears_iff (k := .fields) [] .clearFields (fun _ h => by cases h; rfl) fun _ h => by cases h
  | addFilter condition => exact edits_addFilter e
  | addGroupFilter condition => exact edits_addGroupFilter e
  | setLimit count => exact edits_setLimit e
  | clearLimit =>
    exact clears_iff (k := .limit) none .clearLimit (fun _ h => by cases h; rfl) fun _ h => by cases h
  | setOffset count => exact edits_setOffset e
  | clearOffset =>
    exact clears_iff (k := .offset) none .clearOffset (fun _ h => by cases h; rfl) fun _ h => by cases h
  | addOrder field direction => exact edits_addOrder e
  | clearOrder =>
    exact clears_iff (k := .orderBy) [] .clearOrder (fun _ h => by cases h; rfl) fun _ h => by cases h
  | addGroups columns => exact edits_addGroups e
  | clearGroups =>
    exact clears_iff (k := .groupBy) [] .clearGroups (fun _ h => by cases h; rfl) fun _ h => by cases h
  | addUnion query kind => exact edits_addUnion e

/-- A call makes one edit. -/
theorem Edits.unique {k : Clause} {c : Call k} {e e' : k.Value → k.Value} (h : c.Edits e) (h' : c.Edits e') :
    e = e' := by
  rw [← edit?_eq_some_iff] at h h'
  exact Option.some.inj (h.symm.trans h')

end Call

/-! ## Runs -/

/-- Builder calls in the order in which they are made. -/
abbrev Run := List (Σ k, Call k)

namespace Run

/-- Makes the calls of a run. -/
def perform (run : Run) (q : Select) : Outcome Select := run.foldlM (fun q c => c.2.perform q) q

/-- Makes the calls of a run, with all fields checked anew each time. -/
def rebuild (run : Run) (q : Select) : Outcome Select := run.foldlM (fun q c => c.2.rebuild q) q

/-- The calls of a clause. -/
def on (k : Clause) : Run → List (Call k)
  | [] => []
  | ⟨k', c⟩ :: rest => if h : k' = k then h ▸ c :: on k rest else on k rest

/-- Where the calls of a clause lead from one value of it to another. -/
inductive Leads {k : Clause} : List (Call k) → k.Value → k.Value → Prop where
  | nil (v : k.Value) : Leads [] v v
  | put {c : Call k} {rest : List (Call k)} {v w v' : k.Value} :
    c.Puts w → Leads rest w v' → Leads (c :: rest) v v'
  | append {c : Call k} {rest : List (Call k)} {items : List k.Item} {v v' : k.Value} :
    c.Appends items → Leads rest (k.extended v items) v' → Leads (c :: rest) v v'

/-- What holds of the clauses after a run: the calls of each lead from the old one to the new one. -/
def Reaches (run : Run) (q q' : Select) : Prop := ∀ k, Leads (run.on k) (q.get k) (q'.get k)

section

variable {k : Clause} {c : Call k} {before after rest : List (Call k)} {v v' w : k.Value}

theorem leads_cons_iff : Leads (c :: rest) v v' ↔ ∃ e, c.Edits e ∧ Leads rest (e v) v' := by
  constructor
  · intro h
    cases h with
    | put hputs hrest => exact ⟨_, .inl ⟨_, hputs, rfl⟩, hrest⟩
    | append happends hrest => exact ⟨_, .inr ⟨_, happends, rfl⟩, hrest⟩
  · rintro ⟨e, ⟨w, hputs, rfl⟩ | ⟨items, happends, rfl⟩, hrest⟩
    · exact .put hputs hrest
    · exact .append happends hrest

/-- Calls that all add items add them in their order, with every repetition. -/
theorem Leads.appended {calls : List (Call k)} {added : List (List k.Item)} (h : Leads calls v v')
    (hadded : List.Forall₂ Call.Appends calls added) : v' = k.extended v added.flatten := by
  induction hadded generalizing v with
  | nil =>
    cases h
    exact (k.extended_nil _).symm
  | cons hitems _ ih =>
    obtain ⟨e, he, hrest⟩ := leads_cons_iff.mp h
    rw [he.unique (.inr ⟨_, hitems, rfl⟩)] at hrest
    rw [ih hrest, k.extended_extended, List.flatten_cons]

/-- What came before a call that puts a value in place does not matter. -/
theorem Leads.replaced (h : Leads (before ++ c :: after) v v') (hc : c.Puts w) : Leads after w v' := by
  induction before generalizing v with
  | nil =>
    obtain ⟨e, he, hrest⟩ := leads_cons_iff.mp h
    rwa [he.unique (.inl ⟨_, hc, rfl⟩)] at hrest
  | cons _ _ ih =>
    obtain ⟨e, -, hrest⟩ := leads_cons_iff.mp h
    exact ih hrest

end

/-! ### All clauses together -/

theorem perform_eq_rebuild (run : Run) (q : Select) : run.perform q = run.rebuild q := by
  simp only [perform, rebuild, Call.perform_eq_rebuild]

variable {k k' : Clause} {q q' : Select}

theorem on_cons_self (c : Call k) (rest : Run) : on k (⟨k, c⟩ :: rest) = c :: on k rest := by
  rw [on, dif_pos rfl]

theorem on_cons_of_ne (h : k' ≠ k) (c : Call k') (rest : Run) : on k (⟨k', c⟩ :: rest) = on k rest := by
  rw [on, dif_neg h]

theorem perform_cons_eq_ok_iff (c : Call k) (rest : Run) :
    perform (⟨k, c⟩ :: rest) q = .ok q' ↔
      ∃ e, c.Edits e ∧ rest.perform (q.set k (e (q.get k))) = .ok q' := by
  rw [perform, List.foldlM_cons]
  constructor
  · intro h
    cases hc : c.perform q with
    | error failure =>
      rw [hc] at h
      cases h
    | ok next =>
      rw [hc] at h
      obtain ⟨e, he, rfl⟩ := c.perform_eq_ok_iff.mp hc
      exact ⟨e, (c.edit?_eq_some_iff e).mp he, h⟩
  · rintro ⟨e, he, h⟩
    rw [c.perform_eq_ok_iff.mpr ⟨e, (c.edit?_eq_some_iff e).mpr he, rfl⟩]
    exact h

theorem reaches_cons_iff (c : Call k) (rest : Run) :
    Reaches (⟨k, c⟩ :: rest) q q' ↔ ∃ e, c.Edits e ∧ Reaches rest (q.set k (e (q.get k))) q' := by
  constructor
  · intro h
    have hself := h k
    rw [on_cons_self, leads_cons_iff] at hself
    obtain ⟨e, he, hself⟩ := hself
    refine ⟨e, he, fun k' => ?_⟩
    by_cases hk : k = k'
    · subst hk
      rwa [get_set]
    · have hother := h k'
      rw [on_cons_of_ne hk] at hother
      rwa [get_set_of_ne q hk]
  · rintro ⟨e, he, h⟩ k'
    have hrest := h k'
    by_cases hk : k = k'
    · subst hk
      rw [get_set] at hrest
      rw [on_cons_self]
      exact leads_cons_iff.mpr ⟨e, he, hrest⟩
    · rw [get_set_of_ne q hk] at hrest
      rwa [on_cons_of_ne hk]

/-- A run succeeds exactly if the arguments of all calls are accepted. -/
theorem perform_eq_ok_iff (run : Run) : run.perform q = .ok q' ↔ run.Reaches q q' := by
  induction run generalizing q with
  | nil =>
    constructor
    · intro h k
      cases h
      exact .nil _
    · intro h
      refine congrArg Except.ok (ext_get fun k => ?_)
      generalize hv : q'.get k = v'
      have hk := h k
      rw [hv] at hk
      cases hk
      rfl
  | cons c rest ih =>
    rw [perform_cons_eq_ok_iff, reaches_cons_iff, exists_congr fun e => and_congr_right fun _ => ih]

end Run

end SqlAst.Select
