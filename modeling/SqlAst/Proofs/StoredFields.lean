import SqlAst.Check.Node
import SqlAst.Proofs.StoredNames

/-!
# Stored fields are read back

The check of an object finds in its stored form every field under its stored name, and takes what is not
there for its default. So it gives the object again, at every depth and for both forms of data.

* `Condition.check_stored`, `Select.check_stored`: what stands at a position is read back.
* `Node.check_stored`: a stored node is read back by the check of its type.
-/
namespace SqlAst

open Stored

/-! ## Entries of stored objects -/

namespace Datum

theorem ofJsonItems_eq_map (items : List Json) : ofJsonItems items = items.map ofJson := by
  induction items with
  | nil => rfl
  | cons j rest ih => simp [ofJsonItems, ih]

theorem valueAt?_ofJsonEntries (name : String) (es : List (String × Json)) :
    valueAt? name (ofJsonEntries es) = (Entries.last? name es).map ofJson := by
  induction es with
  | nil => rfl
  | cons e rest ih =>
    obtain ⟨k, j⟩ := e
    simp only [ofJsonEntries, valueAt?, ih, Entries.last?, asText?, Option.some.injEq]
    cases Entries.last? name rest with
    | some v => simp
    | none => by_cases h : k = name <;> simp [h]

theorem valueAt?_stored {name : String} {es : List (String × Json)} {j : Json}
    (h : Entries.last? name es = some j) : valueAt? name (ofJsonEntries es) = some (ofJson j) := by
  rw [valueAt?_ofJsonEntries, h]
  rfl

theorem valueAt?_notStored {name : String} {es : List (String × Json)}
    (h : Entries.last? name es = none) :
    valueAt? name (ofJsonEntries es) = none := by
  rw [valueAt?_ofJsonEntries, h]
  rfl

end Datum

/-! ## Fields that are there, and fields that are not -/

namespace Fields

variable {α : Type} {es : Fields} {f : FieldName} {d : Datum} {a : α}

theorem check_given {absent : Checked α} {value : (d : Datum) → sizeOf d < sizeOf es → Checked α}
    (h : Datum.valueAt? f.stored es = some d) (hv : ∀ hd, value d hd = .ok a) :
    es.check f absent value = .ok a := by
  unfold check
  split
  · rename_i d' h'
    obtain rfl : d' = d := Option.some.inj (h'.symm.trans h)
    rw [hv]
    rfl
  · rename_i h'
    rw [h] at h'
    cases h'

theorem check_absent {absent : Checked α} {value : (d : Datum) → sizeOf d < sizeOf es → Checked α}
    (h : Datum.valueAt? f.stored es = none) (h' : Datum.valueAt? f.name es = none) :
    es.check f absent value = absent := by
  unfold check
  split
  · rename_i hs
    rw [h] at hs
    cases hs
  · split
    · rename_i hn
      rw [h'] at hn
      cases hn
    · rfl

theorem optional_given {default : α} {value : Datum → Checked α}
    (h : Datum.valueAt? f.stored es = some d)
    (hv : value d = .ok a) : es.optional f default value = .ok a :=
  check_given h fun _ => hv

theorem optional_absent {default : α} {value : Datum → Checked α}
    (h : Datum.valueAt? f.stored es = none)
    (h' : Datum.valueAt? f.name es = none) : es.optional f default value = .ok default :=
  check_absent h h'

theorem required_given {name : String} {base : Option α} {value : Datum → Checked α}
    (h : Datum.valueAt? name es = some d) (hv : value d = .ok a) :
    es.required name base value = .ok a :=
  check_given h fun _ => hv

theorem tag_given {expected : String} (h : Datum.valueAt? "type" es = some (.text expected)) :
    es.tag expected = .ok () :=
  optional_given h (by simp [Checked.tag, Datum.asText?])

end Fields

namespace Checked

variable {α β : Type}

theorem eachFrom_ok {γ : Type} {check : α → Checked β} {stored : γ → α} {f : γ → β} {xs : List γ}
    (h : ∀ x ∈ xs, check (stored x) = .ok (f x)) (index : Nat) :
    eachFrom check index (xs.map stored) = .ok (xs.map f) := by
  induction xs generalizing index with
  | nil => rfl
  | cons x rest ih =>
    rw [List.map_cons, eachFrom, h x (by simp), ih fun y hy => h y (by simp [hy])]
    rfl

/-- Items are read one by one. -/
theorem items_read {γ : Type} {check : Datum → Checked β} {toJson : γ → Json} {f : γ → β} {xs : List γ}
    (h : ∀ x ∈ xs, check (.ofJson (toJson x)) = .ok (f x)) :
    items (.ofJson (.list (xs.map toJson))) (fun a _ => check a) = .ok (xs.map f) := by
  rw [Datum.ofJson, Datum.ofJsonItems_eq_map, List.map_map]
  exact (each_eq check _).trans (eachFrom_ok h 0)

/-- Stored items are read back. -/
theorem items_ok {check : Datum → Checked β} {toJson : β → Json} {xs : List β}
    (h : ∀ x ∈ xs, check (.ofJson (toJson x)) = .ok x) :
    items (.ofJson (.list (xs.map toJson))) (fun a _ => check a) = .ok xs := by
  have hread := items_read (f := id) h
  rwa [List.map_id] at hread

theorem scalar_stored (v : Scalar) : scalar (.ofJson v.toJson) = .ok v := by
  cases v with
  | float x =>
    obtain ⟨x, hx⟩ := x
    simp [Scalar.toJson, Datum.ofJson, scalar, hx]
  | _ => rfl

end Checked

namespace Fields

variable {form : Form} {es : Fields} {f : FieldName}

theorem leaves_given {α : Type} {default : List α} {item : Datum → Checked α} (toJson : α → Json)
    {xs : List α}
    (h : Datum.valueAt? f.stored es = some (.ofJson (.list (xs.map toJson))))
    (hx : ∀ x ∈ xs, item (.ofJson (toJson x)) = .ok x) : es.leaves f default item = .ok xs :=
  optional_given h (Checked.items_ok hx)

theorem parts_given {p : Position} {default : List p.Value} (toJson : p.Value → Json)
    {xs : List p.Value}
    (h : Datum.valueAt? f.stored es = some (.ofJson (.list (xs.map toJson))))
    (hx : ∀ x ∈ xs, checkPart form p (.ofJson (toJson x)) = .ok x) :
    es.parts f p default (checkParts form es) = .ok xs :=
  check_given h fun _ => Checked.items_ok hx

theorem requiredPart_given {p : Position} {base : Option p.Value} {d : Datum} {x : p.Value}
    (h : Datum.valueAt? f.stored es = some d) (hx : checkPart form p d = .ok x) :
    es.requiredPart f p base (checkParts form es) = .ok x :=
  check_given h fun _ => hx

theorem nullablePart_given {p : Position} {default : Option p.Value} {entries : Fields} {x : p.Value}
    (h : Datum.valueAt? f.stored es = some (.dict entries))
    (hx : checkPart form p (.dict entries) = .ok x) :
    es.nullablePart f p default (checkParts form es) = .ok (some x) := by
  refine check_given h fun hd => ?_
  show Checked.map some (checkPart form p (.dict entries)) = _
  rw [hx]
  rfl

theorem nullablePart_absent {p : Position} {inner : Inner (sizeOf es)}
    (h : Datum.valueAt? f.stored es = none) (h' : Datum.valueAt? f.name es = none) :
    es.nullablePart f p none inner = .ok none :=
  check_absent h h'

end Fields

/-! ## What stands at a position -/

theorem ConditionKind.ofTag?_tag (kind : ConditionKind) : ofTag? kind.tag = some kind := by
  cases kind with
  | compare op => cases op <;> decide
  | like negated => cases negated <;> decide
  | isNull negated => cases negated <;> decide
  | combine connective => cases connective <;> decide
  | _ => decide

theorem checkPart_condition {form : Form} {es : Fields} {kind : ConditionKind}
    (h : Datum.valueAt? "type" es = some (.text kind.tag)) :
    checkPart form .condition (.dict es) =
      (Fields.condition kind none es (checkParts form es)).under (.key kind.tag) := by
  have hshape : (Datum.dict es).conditionShape form = .tagged kind := by
    simp [Datum.conditionShape, h, Datum.asText?, ConditionKind.ofTag?_tag]
  rw [checkPart, Position.check.eq_3 _ _ _ _ hshape]
  rfl

theorem checkPart_table (form : Form) (es : Fields) :
    checkPart form .table (.dict es) = Fields.table none es (checkParts form es) := by
  rw [checkPart]
  rfl

theorem checkPart_join (form : Form) (es : Fields) :
    checkPart form .join (.dict es) = Fields.join none es (checkParts form es) := by
  rw [checkPart]
  rfl

theorem checkPart_select (form : Form) (es : Fields) :
    checkPart form .select (.dict es) = Fields.select {} es (checkParts form es) := by
  rw [checkPart]
  rfl

theorem checkPart_unionPart (form : Form) (es : Fields) :
    checkPart form .unionPart (.dict es) = Fields.unionPart es (checkParts form es) := by
  rw [checkPart]
  rfl

/-- The condition of a stored form is found under its tag. -/
theorem Condition.toJson_tag (c : Condition) :
    ∃ es, c.toJson = .object es ∧ Entries.last? "type" es = some (.text c.kind.tag) := by
  cases c with
  | compare op column value =>
    rw [Condition.toJson]
    by_cases hv : value = .null
    · exact ⟨_, rfl, by simp [hv, Stored.optional, Entries.last?, tagEntry, Condition.kind]⟩
    · exact ⟨_, rfl, by simp [hv, Stored.optional, Entries.last?, tagEntry, Condition.kind]⟩
  | _ => exact ⟨_, by rw [Condition.toJson], by simp [Entries.last?, tagEntry, Condition.kind]⟩

theorem Checked.pair_stored (low high : Scalar) :
    Checked.pair Checked.scalar (.ofJson (.list [low.toJson, high.toJson])) = .ok (low, high) := by
  show Checked.apply (Checked.map Prod.mk ((Checked.scalar (.ofJson low.toJson)).under _))
    ((Checked.scalar (.ofJson high.toJson)).under _) = _
  rw [Checked.scalar_stored, Checked.scalar_stored]
  rfl

/-- A comparison with null has no value in its stored form. -/
theorem Fields.value_stored {op : Comparison} {column : String} {value : Scalar}
    {es : List (String × Json)} (h : (Condition.compare op column value).toJson = .object es) :
    Fields.optional (Datum.ofJsonEntries es) (.plain "value") .null Checked.scalar = .ok value := by
  rw [Condition.toJson] at h
  injection h with h
  by_cases hv : value = .null
  · rw [if_pos hv] at h
    rw [hv]
    exact Fields.optional_absent (Datum.valueAt?_notStored (by rw [← h]; rfl))
      (Datum.valueAt?_notStored (by rw [← h]; rfl))
  · rw [if_neg hv] at h
    exact Fields.optional_given (Datum.valueAt?_stored (by rw [← h]; rfl)) (Checked.scalar_stored value)

theorem Condition.check_leaf {form : Form} {c : Condition} {es : List (String × Json)}
    (hc : ∀ k parts, c ≠ .combine k parts) (h : c.toJson = .object es) :
    Fields.condition c.kind none (Datum.ofJsonEntries es) (checkParts form _) = .ok c := by
  have text (name s : String) (hs : Entries.last? name es = some (.text s)) :
      Fields.required (Datum.ofJsonEntries es) name none Checked.text = .ok s :=
    Fields.required_given (Datum.valueAt?_stored hs) rfl
  have tag (kind : ConditionKind) (hs : Entries.last? "type" es = some (.text kind.tag)) :
      Fields.tag (Datum.ofJsonEntries es) kind.tag = .ok () :=
    Fields.tag_given (Datum.valueAt?_stored hs)
  cases c with
  | compare op column value =>
    show Fields.condition (.compare op) none _ _ = _
    have hvalue := Fields.value_stored h
    have hboth : Entries.last? "column" es = some (.text column) ∧
        Entries.last? "type" es = some (.text (ConditionKind.compare op).tag) := by
      rw [Condition.toJson] at h
      injection h with h
      rw [← h]
      split <;> exact ⟨rfl, rfl⟩
    simp only [Fields.condition, Fields.ofColumn, text "column" column hboth.1, hvalue, tag _ hboth.2]
    rfl
  | between column low high =>
    show Fields.condition .between none _ _ = _
    injection h with h
    have hvalues : Fields.required (Datum.ofJsonEntries es) "values" none
      (Checked.pair Checked.scalar) = .ok (low, high) :=
      Fields.required_given (Datum.valueAt?_stored (by rw [← h]; rfl)) (Checked.pair_stored low high)
    simp only [Fields.condition, text "column" column (by rw [← h]; rfl), hvalues,
      tag .between (by rw [← h]; rfl)]
    rfl
  | among column values =>
    show Fields.condition .among none _ _ = _
    injection h with h
    have hvalues : Fields.leaves (Datum.ofJsonEntries es) (.plain "values") [] Checked.scalar =
      .ok values :=
      Fields.leaves_given Scalar.toJson (Datum.valueAt?_stored (by rw [← h]; rfl))
        fun v _ => Checked.scalar_stored v
    simp only [Fields.condition, text "column" column (by rw [← h]; rfl), hvalues,
      tag .among (by rw [← h]; rfl)]
    rfl
  | like negated column pattern =>
    show Fields.condition (.like negated) none _ _ = _
    injection h with h
    simp only [Fields.condition, Fields.ofColumn, text "column" column (by rw [← h]; rfl),
      text "pattern" pattern (by rw [← h]; rfl), tag (.like negated) (by rw [← h]; rfl)]
    rfl
  | isNull negated column =>
    show Fields.condition (.isNull negated) none _ _ = _
    injection h with h
    simp only [Fields.condition, text "column" column (by rw [← h]; rfl),
      tag (.isNull negated) (by rw [← h]; rfl)]
    rfl
  | columnEqual left right =>
    show Fields.condition .columnEqual none _ _ = _
    injection h with h
    simp only [Fields.condition, text "left" left (by rw [← h]; rfl),
      text "right" right (by rw [← h]; rfl), tag .columnEqual (by rw [← h]; rfl)]
    rfl
  | combine k parts => exact absurd rfl (hc k parts)

/-- A condition whose fields are read back is told by its tag. -/
theorem Condition.checkPart_of_fields {form : Form} {c : Condition}
    (h : ∀ es, c.toJson = .object es →
      Fields.condition c.kind none (Datum.ofJsonEntries es) (checkParts form _) = .ok c) :
    checkPart form .condition (.ofJson c.toJson) = .ok c := by
  obtain ⟨es, hes, htag⟩ := c.toJson_tag
  rw [hes, Datum.ofJson, checkPart_condition (Datum.valueAt?_stored htag), h es hes]
  rfl

mutual

theorem Condition.check_fields (form : Form) (c : Condition) (es : List (String × Json))
    (h : c.toJson = .object es) :
    Fields.condition c.kind none (Datum.ofJsonEntries es) (checkParts form _) = .ok c := by
  match c with
  | .combine k parts =>
    show Fields.condition (.combine k) none _ _ = _
    injection h with h
    have hparts : Fields.parts (Datum.ofJsonEntries es) (.plain "conditions") .condition []
        (checkParts form _) = .ok parts := by
      refine Fields.parts_given Condition.toJson (Datum.valueAt?_stored ?_)
        (Condition.check_storedEach form parts)
      rw [← h, ← conditionItems_eq_map]
      rfl
    have htag : Fields.tag (Datum.ofJsonEntries es) (ConditionKind.combine k).tag = .ok () :=
      Fields.tag_given (Datum.valueAt?_stored (j := .text _) (by rw [← h]; rfl))
    simp only [Fields.condition, htag, hparts]
    rfl
  | .compare .. | .between .. | .among .. | .like .. | .isNull .. | .columnEqual .. =>
    exact Condition.check_leaf (by simp) h

theorem Condition.check_storedEach (form : Form) (cs : List Condition) :
    ∀ c ∈ cs, checkPart form .condition (.ofJson c.toJson) = .ok c := by
  match cs with
  | [] => simp
  | c :: rest =>
    intro x hx
    rcases List.mem_cons.1 hx with hx | hx
    · rw [hx]
      exact Condition.checkPart_of_fields (Condition.check_fields form c)
    · exact Condition.check_storedEach form rest x hx

end

theorem Condition.check_stored (form : Form) (c : Condition) :
    checkPart form .condition (.ofJson c.toJson) = .ok c :=
  Condition.check_storedEach form [c] c List.mem_cons_self

/-! ## Tables, joins and queries -/

/-- A field for an optional value is absent, or given with its value. -/
theorem Fields.nullable_stored {α : Type} (toJson : α → Json) {es : List (String × Json)}
    {f : FieldName}
    {value : Option α} {check : Datum → Checked α} (h : Entries.last? f.stored es = value.map toJson)
    (h' : value = none → Entries.last? f.name es = none)
    (hv : ∀ a, Checked.nullable check (.ofJson (toJson a)) = .ok (some a)) :
    Fields.optional (Datum.ofJsonEntries es) f none (Checked.nullable check) = .ok value := by
  cases value with
  | none =>
    exact Fields.optional_absent (Datum.valueAt?_notStored h) (Datum.valueAt?_notStored (h' rfl))
  | some a => exact Fields.optional_given (Datum.valueAt?_stored h) (hv a)

theorem Fields.label_stored (es : List (String × Json)) (label : Option String)
    (h : Entries.last? "alias" es = label.map Json.text) :
    Fields.optional (Datum.ofJsonEntries es) (.plain "alias") none (Checked.nullable Checked.text) =
      .ok label :=
  Fields.nullable_stored Json.text h (fun hnone => by rw [hnone] at h; exact h) fun _ => rfl

theorem SelectField.check_stored (f : SelectField) :
    Fields.selectFieldOf (.ofJson f.toJson) = .ok f := by
  obtain ⟨name, label⟩ := f
  obtain ⟨es, hes⟩ : ∃ es,
    ("name", Json.text name) :: Stored.optional "alias" (label.map .text) = es := ⟨_, rfl⟩
  have hname : Fields.required (Datum.ofJsonEntries es) "name" none Checked.text = .ok name :=
    Fields.required_given
      (Datum.valueAt?_stored (j := .text name) (by rw [← hes]; cases label <;> rfl)) rfl
  have hlabel := Fields.label_stored es label (by rw [← hes]; cases label <;> rfl)
  show Fields.selectField (Datum.ofJsonEntries (_ :: _)) = _
  rw [hes, Fields.selectField, hname, hlabel]
  rfl

theorem OrderSpec.check_stored (o : OrderSpec) : Fields.orderSpecOf (.ofJson o.toJson) = .ok o := by
  obtain ⟨field, direction⟩ := o
  have hfield : Fields.required (Datum.ofJsonEntries
      [("field", .text field), ("direction", .text direction.word)]) "field" none Checked.text =
        .ok field :=
    Fields.required_given (Datum.valueAt?_stored (j := .text field) rfl) rfl
  have hdirection : Fields.optional (Datum.ofJsonEntries
      [("field", .text field), ("direction", .text direction.word)]) (.plain "direction") .ascending
      Checked.direction = .ok direction :=
    Fields.optional_given (Datum.valueAt?_stored (j := .text direction.word) rfl)
      (by cases direction <;> rfl)
  show Fields.orderSpec _ = _
  rw [Fields.orderSpec, hfield, hdirection]
  rfl

theorem Checked.count_stored (n : Nat) : nullable count (.ofJson (.int n)) = .ok (some n) := rfl

theorem Select.toJson_object (q : Select) : ∃ es, q.toJson = .object es := by
  obtain ⟨tables, joins, fields, filters, groupFilters, limit, offset, orderBy, groupBy, unions⟩ := q
  exact ⟨_, by rw [Select.toJson]⟩

/-- The fields of a statement are read back if its tables, joins and unions are. -/
theorem Select.check_fields {form : Form} {q : Select} {es : List (String × Json)}
    (h : q.toJson = .object es)
    (htables : ∀ t ∈ q.tables, checkPart form .table (.ofJson t.toJson) = .ok t)
    (hjoins : ∀ j ∈ q.joins, checkPart form .join (.ofJson j.toJson) = .ok j)
    (hunions : ∀ u ∈ q.unions, checkPart form .unionPart (.ofJson u.toJson) = .ok u) :
    Fields.select {} (Datum.ofJsonEntries es) (checkParts form _) = .ok q := by
  obtain ⟨tables, joins, fields, filters, groupFilters, limit, offset, orderBy, groupBy, unions⟩ := q
  rw [Select.toJson, tableItems_eq_map, joinItems_eq_map, unionItems_eq_map] at h
  injection h with hes
  -- Every stored name is looked up in the same entries; the counts may be missing.
  have look {name : String} (j : Json) (hl : Entries.last? name
      ([("tables", .list (tables.map Table.toJson)), ("joins", .list (joins.map Join.toJson)),
        ("fields", .list (fields.map SelectField.toJson)), tagEntry NodeKind.select.tag,
        ("where", .list (filters.map Condition.toJson)),
        ("having", .list (groupFilters.map Condition.toJson))] ++
      Stored.optional "limit" (limit.map fun n => .int n) ++
        Stored.optional "offset" (offset.map fun n => .int n) ++
      [("orderBy", .list (orderBy.map OrderSpec.toJson)), ("groupBy", texts groupBy),
        ("unionQueries", .list (unions.map UnionPart.toJson))]) = some j) :
      Datum.valueAt? name (Datum.ofJsonEntries es) = some (.ofJson j) :=
    Datum.valueAt?_stored (by rw [← hes]; exact hl)
  have htag : Fields.tag (Datum.ofJsonEntries es) NodeKind.select.tag = .ok () :=
    Fields.tag_given (look (.text _) (by cases limit <;> cases offset <;> rfl))
  have hts : Fields.parts (Datum.ofJsonEntries es) (.plain "tables") .table [] (checkParts form _) =
    .ok tables :=
    Fields.parts_given Table.toJson (look _ (by cases limit <;> cases offset <;> rfl)) htables
  have hjs : Fields.parts (Datum.ofJsonEntries es) (.plain "joins") .join [] (checkParts form _) =
    .ok joins :=
    Fields.parts_given Join.toJson (look _ (by cases limit <;> cases offset <;> rfl)) hjoins
  have hus : Fields.parts (Datum.ofJsonEntries es) .unions .unionPart [] (checkParts form _) =
    .ok unions :=
    Fields.parts_given UnionPart.toJson (look _ (by cases limit <;> cases offset <;> rfl)) hunions
  have hfields : Fields.leaves (Datum.ofJsonEntries es) .fields [] Fields.selectFieldOf = .ok fields :=
    Fields.leaves_given SelectField.toJson (look _ (by cases limit <;> cases offset <;> rfl))
      fun f _ => f.check_stored
  have hfilters : Fields.parts (Datum.ofJsonEntries es) .filters .condition [] (checkParts form _) =
    .ok filters :=
    Fields.parts_given Condition.toJson (look _ (by cases limit <;> cases offset <;> rfl))
      fun c _ => c.check_stored form
  have hgroups : Fields.parts (Datum.ofJsonEntries es) .groupFilters .condition [] (checkParts form _) =
      .ok groupFilters :=
    Fields.parts_given Condition.toJson (look _ (by cases limit <;> cases offset <;> rfl))
      fun c _ => c.check_stored form
  have hlimit : Fields.optional (Datum.ofJsonEntries es) .limit none
    (Checked.nullable Checked.count) = .ok limit :=
    Fields.nullable_stored (fun n : Nat => Json.int n)
      (by rw [← hes]; cases limit <;> cases offset <;> rfl)
      (fun _ => by rw [← hes]; cases limit <;> cases offset <;> rfl) Checked.count_stored
  have hoffset : Fields.optional (Datum.ofJsonEntries es) .offset none
    (Checked.nullable Checked.count) =
      .ok offset :=
    Fields.nullable_stored (fun n : Nat => Json.int n)
      (by rw [← hes]; cases limit <;> cases offset <;> rfl)
      (fun _ => by rw [← hes]; cases limit <;> cases offset <;> rfl) Checked.count_stored
  have horder : Fields.leaves (Datum.ofJsonEntries es) .orderBy [] Fields.orderSpecOf = .ok orderBy :=
    Fields.leaves_given OrderSpec.toJson (look _ (by cases limit <;> cases offset <;> rfl))
      fun o _ => o.check_stored
  have hgroupBy : Fields.leaves (Datum.ofJsonEntries es) .groupBy [] Checked.text = .ok groupBy :=
    Fields.leaves_given Json.text (look _ (by cases limit <;> cases offset <;> rfl)) fun _ _ => rfl
  simp only [Fields.select, hts, hjs, hfields, htag, hfilters, hgroups, hlimit, hoffset, horder,
    hgroupBy, hus]
  rfl

mutual

theorem Table.check_stored (form : Form) (t : Table) :
    checkPart form .table (.ofJson t.toJson) = .ok t := by
  match t with
  | ⟨source, label⟩ =>
    obtain ⟨es, hes⟩ : ∃ es, [tagEntry NodeKind.table.tag, ("source", source.toJson)] ++
        Stored.optional "alias" (label.map .text) = es := ⟨_, rfl⟩
    have htag : Fields.tag (Datum.ofJsonEntries es) NodeKind.table.tag = .ok () :=
      Fields.tag_given (Datum.valueAt?_stored (j := .text _) (by rw [← hes]; cases label <;> rfl))
    have hsource : Fields.check (Datum.ofJsonEntries es) (.plain "source")
      (Fields.present (.plain "source") none)
        (fun d h => Fields.source d (checkParts form _ .select d h)) = .ok source := by
      refine Fields.check_given
        (Datum.valueAt?_stored (j := source.toJson) (by rw [← hes]; cases label <;> rfl))
        fun _ => ?_
      exact Source.check_stored form source
    have hlabel := Fields.label_stored es label (by rw [← hes]; cases label <;> rfl)
    rw [Table.toJson, hes, Datum.ofJson, checkPart_table]
    simp only [Fields.table, Option.map_none, Option.bind_none, htag, hsource, hlabel]
    rfl

theorem Source.check_stored (form : Form) (s : Source) :
    Fields.source (.ofJson s.toJson) (checkPart form .select (.ofJson s.toJson)) = .ok s := by
  match s with
  | .name n => rfl
  | .query q =>
    have hq := q.check_stored form
    obtain ⟨es, hes⟩ := q.toJson_object
    rw [Source.toJson, hq, hes]
    rfl

theorem Join.check_stored (form : Form) (j : Join) :
    checkPart form .join (.ofJson j.toJson) = .ok j := by
  match j with
  | ⟨table, condition, kind⟩ =>
    obtain ⟨es, hes⟩ : ∃ es, [tagEntry NodeKind.join.tag, ("table", table.toJson)] ++
        Stored.optional "condition" (condition.map Condition.toJson) ++
          [("joinType", .text kind.word)] = es :=
      ⟨_, rfl⟩
    have htag : Fields.tag (Datum.ofJsonEntries es) NodeKind.join.tag = .ok () :=
      Fields.tag_given (Datum.valueAt?_stored (j := .text _) (by rw [← hes]; cases condition <;> rfl))
    have htable : Fields.requiredPart (Datum.ofJsonEntries es) (.plain "table") .table none
        (checkParts form _) = .ok table :=
      Fields.requiredPart_given
        (Datum.valueAt?_stored (j := table.toJson) (by rw [← hes]; cases condition <;> rfl))
        (table.check_stored form)
    have hcondition : Fields.nullablePart (Datum.ofJsonEntries es) (.plain "condition") .condition none
        (checkParts form _) = .ok condition := by
      cases condition with
      | none =>
        exact Fields.nullablePart_absent (Datum.valueAt?_notStored (by rw [← hes]; rfl))
          (Datum.valueAt?_notStored (by rw [← hes]; rfl))
      | some c =>
        obtain ⟨entries, hc, -⟩ := c.toJson_tag
        have hread := c.check_stored form
        rw [hc] at hread
        exact Fields.nullablePart_given
          (Datum.valueAt?_stored (j := .object entries) (by rw [← hes, ← hc]; rfl)) hread
    have hkind : Fields.optional (Datum.ofJsonEntries es) .joinKind .inner Checked.joinKind =
      .ok kind :=
      Fields.optional_given
        (Datum.valueAt?_stored (j := .text kind.word) (by rw [← hes]; cases condition <;> rfl))
        (by cases kind <;> rfl)
    rw [Join.toJson, hes, Datum.ofJson, checkPart_join]
    simp only [Fields.join, Option.map_none, Option.bind_none, Option.getD_none, htag, htable,
      hcondition, hkind]
    rfl

theorem UnionPart.check_stored (form : Form) (u : UnionPart) :
    checkPart form .unionPart (.ofJson u.toJson) = .ok u := by
  match u with
  | ⟨kind, query⟩ =>
    obtain ⟨es, hes⟩ : ∃ es, [("type", Json.text kind.word), ("query", query.toJson)] = es := ⟨_, rfl⟩
    have hkind : Fields.optional (Datum.ofJsonEntries es) .unionKind .distinct Checked.unionKind =
      .ok kind :=
      Fields.optional_given (Datum.valueAt?_stored (j := .text kind.word) (by rw [← hes]; rfl))
        (by cases kind <;> rfl)
    have hquery : Fields.requiredPart (Datum.ofJsonEntries es) (.plain "query") .select none
        (checkParts form _) = .ok query :=
      Fields.requiredPart_given (Datum.valueAt?_stored (j := query.toJson) (by rw [← hes]; rfl))
        (query.check_stored form)
    rw [UnionPart.toJson, hes, Datum.ofJson, checkPart_unionPart]
    simp only [Fields.unionPart, hkind, hquery]
    rfl

theorem Select.check_stored (form : Form) (q : Select) :
    checkPart form .select (.ofJson q.toJson) = .ok q := by
  match q with
  | ⟨tables, joins, fields, filters, groupFilters, limit, offset, orderBy, groupBy, unions⟩ =>
    have htables := tables_check_stored form tables
    have hjoins := joins_check_stored form joins
    have hunions := unions_check_stored form unions
    obtain ⟨es, hes⟩ : ∃ es,
      (Select.mk tables joins fields filters groupFilters limit offset orderBy groupBy
      unions).toJson = .object es := Select.toJson_object _
    have hread := Select.check_fields hes htables hjoins hunions
    rw [hes, Datum.ofJson, checkPart_select]
    exact hread

theorem tables_check_stored (form : Form) (ts : List Table) :
    ∀ t ∈ ts, checkPart form .table (.ofJson t.toJson) = .ok t := by
  match ts with
  | [] => simp
  | t :: rest =>
    intro x hx
    rcases List.mem_cons.1 hx with hx | hx
    · rw [hx]
      exact t.check_stored form
    · exact tables_check_stored form rest x hx

theorem joins_check_stored (form : Form) (js : List Join) :
    ∀ j ∈ js, checkPart form .join (.ofJson j.toJson) = .ok j := by
  match js with
  | [] => simp
  | j :: rest =>
    intro x hx
    rcases List.mem_cons.1 hx with hx | hx
    · rw [hx]
      exact j.check_stored form
    · exact joins_check_stored form rest x hx

theorem unions_check_stored (form : Form) (us : List UnionPart) :
    ∀ u ∈ us, checkPart form .unionPart (.ofJson u.toJson) = .ok u := by
  match us with
  | [] => simp
  | u :: rest =>
    intro x hx
    rcases List.mem_cons.1 hx with hx | hx
    · rw [hx]
      exact u.check_stored form
    · exact unions_check_stored form rest x hx

end

/-! ## Rows and whole nodes -/

/-- A row is read from its entries; the value of a repeated column is its last. -/
theorem Row.check_entries (es : List (String × Scalar)) :
    Checked.row (.ofJson (.object (es.map fun e => (e.1, e.2.toJson)))) = .ok (Row.ofEntries es) := by
  have hassignment (e : String × Scalar) :
    Checked.assignment (.text e.1, .ofJson e.2.toJson) = .ok e := by
    rw [Checked.assignment, Checked.scalar_stored]
    rfl
  have hentries : (Datum.ofJsonEntries (es.map fun e => (e.1, e.2.toJson))).foldr
      (fun e done => Checked.apply (Checked.map List.cons (Checked.assignment e)) done)
        (.ok []) = .ok es := by
    induction es with
    | nil => rfl
    | cons e rest ih =>
      rw [List.map_cons, Datum.ofJsonEntries, List.foldr_cons, ih, hassignment]
      rfl
  show Checked.map Row.ofEntries _ = _
  rw [hentries]
  rfl

/-- A row is read back, its columns in their order. -/
theorem Row.check_stored (r : Row) : Checked.row (.ofJson r.toJson) = .ok r :=
  (Row.check_entries r.entries).trans (congrArg Checked.ok r.ofEntries_entries)

theorem Delete.check_fields (form : Form) (m : Delete) {es : List (String × Json)}
    (h : m.toJson = .object es) :
    Fields.delete {} (Datum.ofJsonEntries es) (checkParts form _) = .ok m := by
  obtain ⟨tables, joins, filters⟩ := m
  injection h with hes
  have hts : Fields.parts (Datum.ofJsonEntries es) (.plain "tables") .table [] (checkParts form _) =
    .ok tables :=
    Fields.parts_given Table.toJson (Datum.valueAt?_stored (by rw [← hes]; rfl))
      (tables_check_stored form tables)
  have hjs : Fields.parts (Datum.ofJsonEntries es) (.plain "joins") .join [] (checkParts form _) =
    .ok joins :=
    Fields.parts_given Join.toJson (Datum.valueAt?_stored (by rw [← hes]; rfl))
      (joins_check_stored form joins)
  have hfilters : Fields.parts (Datum.ofJsonEntries es) .filters .condition [] (checkParts form _) =
    .ok filters :=
    Fields.parts_given Condition.toJson (Datum.valueAt?_stored (by rw [← hes]; rfl))
      fun c _ => c.check_stored form
  have htag : Fields.tag (Datum.ofJsonEntries es) NodeKind.delete.tag = .ok () :=
    Fields.tag_given (Datum.valueAt?_stored (j := .text _) (by rw [← hes]; rfl))
  simp only [Fields.delete, hts, hjs, hfilters, htag]
  rfl

/-- The fields of an update are read back, whatever its row is read from. -/
theorem Update.check_fields (form : Form) (m : Update) {row : Json}
    (hrow : Checked.row (.ofJson row) = .ok m.assignments)
    {es : List (String × Json)}
    (hes : sources m.tables m.joins ++
    [filterEntry m.filters, tagEntry NodeKind.update.tag, ("values", row)] = es) :
    Fields.update {} (Datum.ofJsonEntries es) (checkParts form _) = .ok m := by
  obtain ⟨tables, joins, filters, assignments⟩ := m
  have hts : Fields.parts (Datum.ofJsonEntries es) (.plain "tables") .table [] (checkParts form _) =
    .ok tables :=
    Fields.parts_given Table.toJson (Datum.valueAt?_stored (by rw [← hes]; rfl))
      (tables_check_stored form tables)
  have hjs : Fields.parts (Datum.ofJsonEntries es) (.plain "joins") .join [] (checkParts form _) =
    .ok joins :=
    Fields.parts_given Join.toJson (Datum.valueAt?_stored (by rw [← hes]; rfl))
      (joins_check_stored form joins)
  have hfilters : Fields.parts (Datum.ofJsonEntries es) .filters .condition [] (checkParts form _) =
    .ok filters :=
    Fields.parts_given Condition.toJson (Datum.valueAt?_stored (by rw [← hes]; rfl))
      fun c _ => c.check_stored form
  have htag : Fields.tag (Datum.ofJsonEntries es) NodeKind.update.tag = .ok () :=
    Fields.tag_given (Datum.valueAt?_stored (j := .text _) (by rw [← hes]; rfl))
  have hassignments : Fields.optional (Datum.ofJsonEntries es) .assignments .empty Checked.row =
    .ok assignments :=
    Fields.optional_given (Datum.valueAt?_stored (j := row) (by rw [← hes]; rfl)) hrow
  simp only [Fields.update, hts, hjs, hfilters, htag, hassignments]
  rfl

/-- The fields of an insert are read back, whatever its rows are read from. -/
theorem Insert.check_fields (form : Form) (m : Insert) {rows : List Json}
    (hrows : Checked.items (.ofJson (.list rows)) (fun a _ => Checked.row a) = .ok m.rows)
    {es : List (String × Json)}
    (hes : [tagEntry NodeKind.insert.tag, ("table", .text m.table)] ++
      Stored.optional "columns" (m.columnNames.map texts) ++
      [("values", .list rows)] ++ Stored.optional "query" (m.source.map Select.toJson) = es) :
    Fields.insert none (Datum.ofJsonEntries es) (checkParts form _) = .ok m := by
  obtain ⟨table, columnNames, insertRows, source⟩ := m
  have htag : Fields.tag (Datum.ofJsonEntries es) NodeKind.insert.tag = .ok () :=
    Fields.tag_given
      (Datum.valueAt?_stored (j := .text _) (by rw [← hes]; cases columnNames <;> cases source <;> rfl))
  have htable : Fields.check (Datum.ofJsonEntries es) .insertTable (Fields.present .insertTable none)
      (fun d _ => Checked.text d) = .ok table :=
    Fields.check_given
      (Datum.valueAt?_stored (j := .text table)
        (by rw [← hes]; cases columnNames <;> cases source <;> rfl))
      fun _ => rfl
  have hcolumns : Fields.optional (Datum.ofJsonEntries es) .columns none
      (Checked.nullable fun d => Checked.items d fun a _ => Checked.text a) = .ok columnNames := by
    refine Fields.nullable_stored texts (by rw [← hes]; cases columnNames <;> cases source <;> rfl)
      (fun _ => by rw [← hes]; cases columnNames <;> cases source <;> rfl) fun names => ?_
    have hitems : Checked.items (.ofJson (texts names)) (fun a _ => Checked.text a) = .ok names :=
      Checked.items_ok fun _ _ => rfl
    exact congrArg (Checked.map some) hitems
  have hvalues : Fields.leaves (Datum.ofJsonEntries es) .rows [] Checked.row = .ok insertRows :=
    Fields.optional_given
      (Datum.valueAt?_stored (j := .list rows)
        (by rw [← hes]; cases columnNames <;> cases source <;> rfl)) hrows
  have hsource : Fields.nullablePart (Datum.ofJsonEntries es) .insertSource .select none
    (checkParts form _) =
      .ok source := by
    cases source with
    | none =>
      exact Fields.nullablePart_absent
        (Datum.valueAt?_notStored (by rw [← hes]; cases columnNames <;> rfl))
        (Datum.valueAt?_notStored (by rw [← hes]; cases columnNames <;> rfl))
    | some q =>
      obtain ⟨entries, hq⟩ := q.toJson_object
      have hread := q.check_stored form
      rw [hq] at hread
      exact Fields.nullablePart_given
        (Datum.valueAt?_stored (j := .object entries)
          (by rw [← hes, ← hq]; cases columnNames <;> rfl)) hread
  simp only [Fields.insert, Option.map_none, Option.bind_none, Option.getD_none, htag, htable,
    hcolumns, hvalues, hsource]
  rfl

/-- A stored node is read back by the check of its type. -/
theorem Node.check_stored (form : Form) (n : Node) {kind : NodeKind} (h : n.kind? = some kind) :
    (NodeType.stored kind).check form (.ofJson n.toJson) = .ok n := by
  cases n with
  | projection p => cases h
  | table t =>
    cases h
    have hread := t.check_stored form
    obtain ⟨source, label⟩ := t
    show NodeType.check _ form (.ofJson (Table.toJson _)) = _
    rw [Table.toJson, Datum.ofJson, checkPart_table] at hread
    rw [Table.toJson, Datum.ofJson]
    exact congrArg (Checked.map Node.table) hread
  | join j =>
    cases h
    have hread := j.check_stored form
    obtain ⟨table, condition, kind⟩ := j
    show NodeType.check _ form (.ofJson (Join.toJson _)) = _
    rw [Join.toJson, Datum.ofJson, checkPart_join] at hread
    rw [Join.toJson, Datum.ofJson]
    exact congrArg (Checked.map Node.join) hread
  | select q =>
    cases h
    have hread := q.check_stored form
    obtain ⟨es, hes⟩ := q.toJson_object
    show NodeType.check _ form (.ofJson q.toJson) = _
    rw [hes, Datum.ofJson, checkPart_select] at hread
    rw [hes, Datum.ofJson]
    exact congrArg (Checked.map Node.select) hread
  | condition c =>
    cases h
    obtain ⟨es, hes, -⟩ := c.toJson_tag
    show NodeType.check _ form (.ofJson c.toJson) = _
    rw [hes, Datum.ofJson]
    exact congrArg (Checked.map Node.condition) (c.check_fields form es hes)
  | delete m =>
    cases h
    exact congrArg (Checked.map Node.delete) (m.check_fields form rfl)
  | update m =>
    cases h
    exact congrArg (Checked.map Node.update) (m.check_fields form m.assignments.check_stored rfl)
  | insert m =>
    cases h
    exact congrArg (Checked.map Node.insert)
      (m.check_fields form (Checked.items_ok fun r _ => r.check_stored) rfl)

end SqlAst
