import SqlAst.Proofs.Parts
import SqlAst.Proofs.Payloads
import SqlAst.Proofs.Verdicts

/-!
# Tags that stand for no condition

An object where a condition is expected is told by its tag. One without a tag of conditions is an issue that
no other fault of the payload hides: the checks report all issues of all parts, and of these the first about
a tag decides.

* `Part.mistag?`: how such an object is reported.
* `checkPart_tags`: the tags that a check reports are those of the parts, in their order.
* `Decode.Reads.mistags`: what the readers make of a payload with a tag of nodes.
-/
namespace SqlAst

/-! ## Tags of parts -/

/-- The tag of an object, be it data or an object of the library. An object may have none; what is no object
at all has nothing. -/
def Datum.objectTag? : Datum → Option (Option Datum)
  | .dict es => some (valueAt? "type" es)
  | .node n => some (n.kind?.map fun kind => .text kind.tag)
  | .member _ | .field _ | .order _ | .part _ | .flavor _ | .settings _ | .error _ _ _ _ => some none
  | _ => none

/-- The kind of condition that a tag stands for. -/
def ConditionKind.ofDatum? (tag : Option Datum) : Option ConditionKind :=
  (tag.bind Datum.asText?).bind ofTag?

/-- A tag as it is reported: by its text, with halves of surrogate pairs replaced; no tag is null. -/
def Datum.reportedTag : Option Datum → Datum
  | some tag => .text (Text.replaced tag.phrase)
  | none => .null

theorem Datum.reportedTag_text {s : String} (h : Text.isWhole s = true) :
    reportedTag (some (.text s)) = .text s :=
  congrArg Datum.text (Text.replaced_eq_self_iff.mpr h)

/-- What is reported of an object that has no tag of conditions. -/
def Datum.mistag? (d : Datum) : Option Datum :=
  d.objectTag?.bind fun tag =>
    if (ConditionKind.ofDatum? tag).isSome then none else some (reportedTag tag)

/-- What is reported of a part: its tag, if it is an object in the place of a condition and no condition. -/
def Part.mistag? (part : Part) : Option Datum :=
  match part.position with
  | .condition => part.datum.mistag?
  | _ => none

/-- What is reported of the parts of a datum, itself included. -/
def Datum.mistags (p : Position) (d : Datum) : List Datum := (d.partsAt p).filterMap Part.mistag?

/-- What is reported of the parts in some slots of an object. -/
def Fields.mistags (es : Fields) (slots : List Slot) : List Datum :=
  (es.partsIn slots).filterMap Part.mistag?

@[simp]
theorem Fields.mistags_nil (es : Fields) : es.mistags [] = [] := rfl

@[simp]
theorem Fields.mistags_cons (es : Fields) (s : Slot) (slots : List Slot) :
    es.mistags (s :: slots) = (s.held es).flatMap (Datum.mistags s.position) ++ es.mistags slots := by
  simp only [mistags, partsIn, List.flatMap_cons, List.filterMap_append, List.filterMap_flatMap]
  rfl

theorem Datum.mistags_dict (p : Position) (es : Fields) :
    (Datum.dict es).mistags p =
      (Part.mistag? ⟨p, .dict es⟩).toList ++ es.mistags (p.slots es) := by
  rw [mistags, partsAt_dict, List.filterMap_cons]
  cases Part.mistag? ⟨p, .dict es⟩ <;> rfl

theorem Datum.mistags_of_not_dict {p : Position} {d : Datum} (h : ∀ es, d ≠ .dict es) :
    d.mistags p = (Part.mistag? ⟨p, d⟩).toList := by
  rw [mistags, partsAt_of_not_dict h, List.filterMap_cons]
  cases Part.mistag? ⟨p, d⟩ <;> rfl

/-- What is no object has nothing to report. -/
theorem Datum.mistags_of_no_object {p : Position} {d : Datum} (h : d.objectTag? = none) :
    d.mistags p = [] := by
  have hdict : ∀ es, d ≠ .dict es := by
    rintro es rfl
    cases h
  rw [mistags_of_not_dict hdict]
  cases p with
  | condition => simp [Part.mistag?, mistag?, h]
  | _ => rfl

/-! ## Tags that checks report -/

namespace Checked

variable {α β : Type}

/-- The tags that a check reports, in order. -/
def tags (c : Checked α) : List Datum := c.issues.filterMap Issue.tag?

@[simp]
theorem tags_ok (a : α) : (ok a).tags = [] := rfl

@[simp]
theorem tags_map (f : α → β) (a : Checked α) : (map f a).tags = a.tags := by cases a <;> rfl

@[simp]
theorem tags_apply (f : Checked (α → β)) (a : Checked α) : (apply f a).tags = f.tags ++ a.tags := by
  cases f with
  | ok f => cases a <;> rfl
  | bad is =>
    cases a with
    | ok a => exact (List.append_nil _).symm
    | bad js => exact List.filterMap_append

@[simp]
theorem tags_fmap (f : α → β) (a : Checked α) : (f <$> a).tags = a.tags := tags_map f a

@[simp]
theorem tags_seq (f : Checked (α → β)) (a : Checked α) : (f <*> a).tags = f.tags ++ a.tags :=
  tags_apply f a

@[simp]
theorem tags_under (step : Step) (a : Checked α) : (a.under step).tags = a.tags := by
  cases a with
  | ok a => rfl
  | bad is => exact List.filterMap_map

theorem tags_eachFrom {check : α → Checked β} {found : α → List Datum} {items : List α}
    (h : ∀ a ∈ items, (check a).tags = found a) (index : Nat) :
    (eachFrom check index items).tags = items.flatMap found := by
  induction items generalizing index with
  | nil => rfl
  | cons a rest ih =>
    have hrest := ih (fun b hb => h b (List.mem_cons_of_mem a hb)) (index + 1)
    simp only [eachFrom, tags_apply, tags_map, tags_under, h a List.mem_cons_self, hrest,
      List.flatMap_cons]

theorem tags_each {items : List α} {check : (a : α) → a ∈ items → Checked β} (found : α → List Datum)
    (h : ∀ a ha, (check a ha).tags = found a) : (each items check).tags = items.flatMap found := by
  have heach : (eachFrom (fun a : { a // a ∈ items } => check a.1 a.2) 0 items.attach).tags =
      items.attach.flatMap fun a => found a.1 := tags_eachFrom (fun a _ => h a.1 a.2) 0
  rw [each, heach, ← List.flatMap_map, List.attach_map_subtype_val]

/-- Only the items of a sequence have something to report. -/
theorem tags_items {d : Datum} {check : (a : Datum) → sizeOf a < sizeOf d → Checked α}
    (found : Datum → List Datum) (hfound : found (.tuple []) = [])
    (h : ∀ a ha, (check a ha).tags = found a) : (items d check).tags = d.elements.flatMap found := by
  cases d with
  | list xs => exact tags_each found fun a _ => h a _
  | tuple xs => exact tags_each found fun a _ => h a _
  | node | field | order | part | settings =>
    refine (tags_each (fun _ => []) fun _ _ => (h (.tuple []) _).trans hfound).trans ?_
    exact List.flatMap_eq_nil_iff.2 fun _ _ => rfl
  | _ => rfl

theorem tags_items_of_none {d : Datum} {check : (a : Datum) → sizeOf a < sizeOf d → Checked α}
    (h : ∀ a ha, (check a ha).tags = []) : (items d check).tags = [] :=
  (tags_items (fun _ => []) rfl h).trans (List.flatMap_eq_nil_iff.2 fun _ _ => rfl)

/-- Whether there is a tag to report decides the verdict of a check that does not pass. -/
theorem verdict_bad (is : List Issue) :
    (bad is : Checked α).verdict =
      .error (if (bad is : Checked α).tags = [] then .parse else .unknownType) := by
  have hany : is.any Issue.isTag = !(is.filterMap Issue.tag?).isEmpty := by
    induction is with
    | nil => rfl
    | cons i rest ih =>
      obtain ⟨place, kind⟩ := i
      cases kind
      case unknownTag | missingTag => rfl
      all_goals exact ih
  have hcode : Issue.code is = if is.filterMap Issue.tag? = [] then .parse else .unknownType := by
    unfold Issue.code
    rw [hany]
    cases is.filterMap Issue.tag? <;> rfl
  exact congrArg Except.error hcode

theorem verdict_unknownType_iff (c : Checked α) : c.verdict = .error .unknownType ↔ c.tags ≠ [] := by
  cases c with
  | ok a =>
    refine ⟨fun h => ?_, fun h => absurd (tags_ok a) h⟩
    cases h
  | bad is =>
    rw [verdict_bad]
    by_cases h : (bad is : Checked α).tags = []
    · simp [h]
    · simp [h]

theorem verdict_of_no_tags {c : Checked α} (h : c.tags = []) (hbad : c.isOk = false) :
    c.verdict = .error .parse := by
  cases c with
  | ok a => cases hbad
  | bad is => rw [verdict_bad, if_pos h]

/-! ### Leaves report none -/

@[simp]
theorem tags_text (d : Datum) : (text d).tags = [] := by
  unfold text
  split <;> rfl

theorem tags_unexpected {kind : IssueKind} (h : Issue.tag? ⟨[], kind⟩ = none) (s : String) :
    (unexpected kind s : Checked α).tags = [] := by
  unfold unexpected
  split
  · simp [tags, fail, issues, h]
  · rfl

@[simp]
theorem tags_nullable {check : Datum → Checked α} (h : ∀ d, (check d).tags = []) (d : Datum) :
    (nullable check d).tags = [] := by
  unfold nullable
  split
  · rfl
  · rw [tags_map, h]

@[simp]
theorem tags_tag (expected : String) (d : Datum) : (tag expected d).tags = [] := by
  unfold tag
  split
  · split
    · rfl
    · exact tags_unexpected rfl _
  · rfl

@[simp]
theorem tags_member (all : List α) (word : α → String) (d : Datum) : (member all word d).tags = [] := by
  unfold member
  split
  · split
    · rfl
    · exact tags_unexpected rfl _
  · rfl

@[simp]
theorem tags_scalar (d : Datum) : (scalar d).tags = [] := by
  unfold scalar
  split
  · rfl
  · rfl
  · rfl
  · split <;> rfl
  · split <;> rfl

theorem tags_integer (d : Datum) : (integer d).tags = [] := by
  unfold integer
  split
  · rfl
  · rfl
  · split
    · rfl
    · split
      · split <;> rfl
      · rfl
  · split
    · split
      · rfl
      · exact tags_unexpected rfl _
      · rfl
    · rfl

@[simp]
theorem tags_count (d : Datum) : (count d).tags = [] := by
  have h := tags_integer d
  unfold count
  split
  · rfl
  · rfl
  · rename_i is hbad
    rw [hbad] at h
    exact h

@[simp]
theorem tags_pair (d : Datum) : (pair scalar d).tags = [] := by
  unfold pair
  extract_lets two
  have htwo (xs : List Datum) : (two xs).tags = [] := by
    match xs with
    | [] => rfl
    | [a] =>
      have hmissing : (bad [⟨[.index 1], .missing⟩] : Checked Scalar).tags = [] := rfl
      simp [two, hmissing]
    | [a, b] => simp [two]
    | _ :: _ :: _ :: _ => rfl
  split
  · exact htwo _
  · exact htwo _
  · split
    · exact htwo _
    · rfl

@[simp]
theorem tags_row (d : Datum) : (row d).tags = [] := by
  unfold row
  split
  · rename_i entries
    rw [tags_map]
    induction entries with
    | nil => rfl
    | cons e rest ih =>
      have hentry : (assignment e).tags = [] := by simp [assignment]
      rw [List.foldr_cons, tags_apply, tags_map, hentry, ih]
      rfl
  · rfl

end Checked

/-! ## Fields -/

/-- A check of parts that reports the tags there are to report. -/
def Inner.Finds {bound : Nat} (inner : Inner bound) : Prop :=
  ∀ p d h, (inner p d h).tags = d.mistags p

namespace Fields

variable {α : Type} {es : Fields} {inner : Inner (sizeOf es)}

open Checked

theorem tags_check {f : FieldName} {absent : Checked α}
    {value : (d : Datum) → sizeOf d < sizeOf es → Checked α} (found : Datum → List Datum)
    (habsent : absent.tags = []) (h : ∀ d hd, (value d hd).tags = found d) :
    (es.check f absent value).tags = ((es.given? f).map found).getD [] := by
  cases hgiven : es.given? f with
  | none => rw [check_of_notGiven hgiven, habsent, Option.map_none, Option.getD_none]
  | some d =>
    obtain ⟨step, hcheck⟩ : ∃ step, es.check f absent value = (value d (sizeOf_given hgiven)).under step :=
      check_of_given hgiven
    rw [hcheck, tags_under, h, Option.map_some, Option.getD_some]

/-- A field that holds no objects of a kind. -/
theorem tags_check_of_none {f : FieldName} {absent : Checked α}
    {value : (d : Datum) → sizeOf d < sizeOf es → Checked α} (habsent : absent.tags = [])
    (h : ∀ d hd, (value d hd).tags = []) : (es.check f absent value).tags = [] := by
  rw [tags_check (fun _ => []) habsent h]
  cases es.given? f <;> rfl

@[simp]
theorem tags_optional {f : FieldName} {default : α} {value : Datum → Checked α}
    (h : ∀ d, (value d).tags = []) : (es.optional f default value).tags = [] :=
  tags_check_of_none rfl fun d _ => h d

@[simp]
theorem tags_present (f : FieldName) (base : Option α) : (present f base).tags = [] := by
  cases base <;> rfl

@[simp]
theorem tags_required {name : String} {base : Option α} {value : Datum → Checked α}
    (h : ∀ d, (value d).tags = []) : (es.required name base value).tags = [] :=
  tags_check_of_none (tags_present _ _) fun d _ => h d

@[simp]
theorem tags_tag (expected : String) : (es.tag expected).tags = [] :=
  tags_optional (Checked.tags_tag expected)

@[simp]
theorem tags_leaves {f : FieldName} {default : List α} {item : Datum → Checked α}
    (h : ∀ d, (item d).tags = []) : (es.leaves f default item).tags = [] :=
  tags_optional fun _ => tags_items_of_none fun a _ => h a

/-! ### Slots -/

theorem tags_parts (h : inner.Finds) (f : FieldName) (p : Position) (default : List p.Value) :
    (es.parts f p default inner).tags = ((Slot.mk f p true).held es).flatMap (Datum.mistags p) := by
  have hitems (d : Datum) (hd : sizeOf d < sizeOf es) :
      (items d fun a ha => inner p a (Nat.lt_trans ha hd)).tags = d.elements.flatMap (Datum.mistags p) :=
    tags_items _ (Datum.mistags_of_no_object rfl) fun a ha => h p a (Nat.lt_trans ha hd)
  rw [parts, tags_check (fun d => d.elements.flatMap (Datum.mistags p)) rfl hitems, Slot.held]
  cases es.given? f <;> rfl

/-- A field that holds one part. -/
theorem tags_one {f : FieldName} {p : Position} {absent : Checked α}
    {value : (d : Datum) → sizeOf d < sizeOf es → Checked α} (habsent : absent.tags = [])
    (h : ∀ d hd, (value d hd).tags = d.mistags p) :
    (es.check f absent value).tags = ((Slot.mk f p false).held es).flatMap (Datum.mistags p) := by
  rw [tags_check (Datum.mistags p) habsent h, Slot.held]
  cases es.given? f with
  | none => rfl
  | some d => exact (List.append_nil _).symm

theorem tags_nullablePart (h : inner.Finds) (f : FieldName) (p : Position) (default : Option p.Value) :
    (es.nullablePart f p default inner).tags =
      ((Slot.mk f p false).held es).flatMap (Datum.mistags p) := by
  refine tags_one rfl fun d hd => ?_
  split
  · exact (Datum.mistags_of_no_object rfl).symm
  · rw [tags_map, h]

theorem tags_requiredPart (h : inner.Finds) (f : FieldName) (p : Position) (base : Option p.Value) :
    (es.requiredPart f p base inner).tags =
      ((Slot.mk f p false).held es).flatMap (Datum.mistags p) :=
  tags_one (tags_present f base) fun d hd => h p d hd

/-- A name has nothing to report; what is no name is checked as a query. -/
theorem tags_source (h : inner.Finds) (d : Datum) (hd : sizeOf d < sizeOf es) :
    (source d (inner .select d hd)).tags = d.mistags .select := by
  have hquery := h .select d hd
  unfold source
  split
  · rename_i s hs
    have hdict : ∀ es, d ≠ .dict es := by
      rintro es rfl
      cases hs
    rw [Datum.mistags_of_not_dict hdict]
    rfl
  · split
    · rename_i q hq
      rw [hq] at hquery
      exact hquery
    · rw [tags_apply, tags_map, tags_under, tags_under, tags_text, List.nil_append, hquery]

/-! ## Objects -/

theorem tags_condition (h : inner.Finds) (kind : ConditionKind) (base : Option Condition) :
    (condition kind base es inner).tags = es.mistags (NodeKind.condition kind).slots := by
  cases kind with
  | combine connective =>
    simp only [condition, tags_seq, tags_fmap, tags_parts h, tags_tag, NodeKind.slots, mistags_cons,
      mistags_nil]
    rfl
  | _ => simp [condition, ofColumn, NodeKind.slots]

theorem tags_table (h : inner.Finds) (base : Option Table) :
    (table base es inner).tags = es.mistags NodeKind.table.slots := by
  have hsource : (es.check (.plain "source") (present (.plain "source") (base.map Table.source))
      fun d hd => source d (inner .select d hd)).tags =
        (Slot.source.held es).flatMap (Datum.mistags .select) :=
    tags_one (tags_present _ _) (tags_source h)
  simp [table, hsource, NodeKind.slots, Slot.source]

theorem tags_join (h : inner.Finds) (base : Option Join) :
    (join base es inner).tags = es.mistags NodeKind.join.slots := by
  simp [join, tags_requiredPart h, tags_nullablePart h, joinKind, NodeKind.slots, Slot.joined,
    Slot.joinCondition]

theorem tags_unionPart (h : inner.Finds) : (unionPart es inner).tags = es.mistags [.member] := by
  simp [unionPart, tags_requiredPart h, unionKind, Slot.member]

@[simp]
theorem tags_element {is? : Datum → Option α} {ofFields : Fields → Checked α}
    (h : ∀ es, (ofFields es).tags = []) (d : Datum) : (element is? ofFields d).tags = [] := by
  unfold element
  split
  · rfl
  · exact h _
  · rfl

@[simp]
theorem tags_selectFieldOf (d : Datum) : (selectFieldOf d).tags = [] :=
  tags_element (fun es => by simp [selectField]) d

@[simp]
theorem tags_orderSpecOf (d : Datum) : (orderSpecOf d).tags = [] :=
  tags_element (fun es => by simp [orderSpec, direction]) d

theorem tags_select (h : inner.Finds) (base : Select) :
    (select base es inner).tags = es.mistags NodeKind.select.slots := by
  simp [select, tags_parts h, NodeKind.slots, Slot.tables, Slot.joins, Slot.filters, Slot.groupFilters,
    Slot.unions]

theorem tags_delete (h : inner.Finds) (base : Delete) :
    (delete base es inner).tags = es.mistags NodeKind.delete.slots := by
  simp [delete, tags_parts h, NodeKind.slots, Slot.tables, Slot.joins, Slot.filters]

theorem tags_update (h : inner.Finds) (base : Update) :
    (update base es inner).tags = es.mistags NodeKind.update.slots := by
  simp [update, tags_parts h, NodeKind.slots, Slot.tables, Slot.joins, Slot.filters]

theorem tags_insert (h : inner.Finds) (base : Option Insert) :
    (insert base es inner).tags = es.mistags NodeKind.insert.slots := by
  have htable : (es.check .insertTable (present .insertTable (base.map Insert.table))
      fun d _ => Checked.text d).tags = [] :=
    tags_check_of_none (tags_present _ _) fun d _ => tags_text d
  have hcolumns (d : Datum) : (Checked.items d fun a _ => Checked.text a).tags = [] :=
    tags_items_of_none fun a _ => tags_text a
  simp [insert, htable, hcolumns, tags_nullablePart h, NodeKind.slots, Slot.insertSource]

end Fields

/-! ## What stands at a position -/

/-- A condition of the library has the tag of its kind. -/
theorem Datum.mistag?_condition (c : Condition) : (Datum.node (.condition c)).mistag? = none := by
  have hkind : ConditionKind.ofDatum? (some (.text c.kind.tag)) = some c.kind := c.kind.ofTag?_tag
  have htag : (Datum.node (.condition c)).objectTag? = some (some (.text c.kind.tag)) := rfl
  simp [mistag?, htag, hkind]

theorem Part.mistag?_elsewhere {p : Position} (hp : p ≠ .condition) (d : Datum) :
    Part.mistag? ⟨p, d⟩ = none := by
  cases p with
  | condition => exact absurd rfl hp
  | _ => rfl

theorem Datum.mistags_dict_elsewhere {p : Position} (hp : p ≠ .condition) (es : Fields) :
    (Datum.dict es).mistags p = es.mistags (p.slots es) := by
  rw [mistags_dict, Part.mistag?_elsewhere hp, Option.toList_none, List.nil_append]

theorem Position.tags_condition_dict (form : Form) (es : Fields) {inner : Inner (sizeOf (Datum.dict es))}
    (h : inner.Finds) :
    (Position.condition.check form (.dict es) inner).tags = (Datum.dict es).mistags .condition := by
  have hkind : ConditionKind.ofDatum? (Datum.valueAt? "type" es) = Fields.conditionKind? es := rfl
  rw [Datum.mistags_dict, Part.mistag?, Datum.mistag?, Datum.objectTag?, Option.bind_some, hkind]
  cases hk : Fields.conditionKind? es with
  | some kind =>
    rw [Position.check.eq_3 _ _ _ _ (Datum.conditionShape_of_kind hk form), Checked.tags_under,
      Fields.tags_condition (fun p a ha => h p a _), Position.slots_of_kind hk]
    rfl
  | none =>
    rw [Position.check.eq_2 _ _ _ _ (Datum.conditionShape_of_no_kind hk form),
      Position.slots_of_no_kind hk, Fields.mistags_nil, List.append_nil]
    cases Datum.valueAt? "type" es <;> rfl

/-- Only an object in the place of a condition has something to report, and no parts but itself. -/
theorem Position.tags_check_of_not_dict (p : Position) (form : Form) {d : Datum}
    {inner : Inner (sizeOf d)} (h : ∀ es, d ≠ .dict es) : (p.check form d inner).tags = d.mistags p := by
  rw [Datum.mistags_of_not_dict h]
  cases p with
  | condition =>
    rw [Part.mistag?]
    cases d with
    | dict es => exact absurd rfl (h es)
    | node n =>
      cases n with
      | condition c =>
        rw [Datum.mistag?_condition]
        rfl
      | _ => rfl
    | _ => cases form <;> rfl
  | _ =>
    cases d with
    | dict es => exact absurd rfl (h es)
    | node n => cases n <;> rfl
    | _ => rfl

theorem Position.tags_check (p : Position) (form : Form) (d : Datum) {inner : Inner (sizeOf d)}
    (h : inner.Finds) : (p.check form d inner).tags = d.mistags p := by
  by_cases hdict : ∃ es, d = .dict es
  · obtain ⟨es, rfl⟩ := hdict
    by_cases hp : p = .condition
    · subst hp
      exact Position.tags_condition_dict form es h
    · rw [Datum.mistags_dict_elsewhere hp]
      unfold Position.check
      cases p with
      | condition => exact absurd rfl hp
      | table => exact Fields.tags_table (fun p a ha => h p a _) none
      | join => exact Fields.tags_join (fun p a ha => h p a _) none
      | select => exact Fields.tags_select (fun p a ha => h p a _) {}
      | unionPart => exact Fields.tags_unionPart fun p a ha => h p a _
  · exact p.tags_check_of_not_dict form fun es hes => hdict ⟨es, hes⟩

/-- The tags that a check of what stands at a position reports are those of the parts, in their order. -/
theorem checkPart_tags (form : Form) (p : Position) (d : Datum) :
    (checkPart form p d).tags = d.mistags p := by
  -- By recursion on the size: what stands inside an object is smaller, so its checks find all their tags.
  rw [checkPart]
  exact p.tags_check form d fun q a _ => checkPart_tags form q a
termination_by sizeOf d

theorem checkParts_finds (form : Form) (es : Fields) : (checkParts form es).Finds :=
  fun p d _ => checkPart_tags form p d

theorem NodeKind.tags_check (kind : NodeKind) (form : Form) (es : Fields) :
    ((NodeType.stored kind).check form (.dict es)).tags = es.mistags kind.slots := by
  have h := checkParts_finds form es
  show ((NodeType.stored kind).ofFields form es).tags = _
  unfold NodeType.ofFields
  cases kind with
  | table => exact (Checked.tags_map _ _).trans (Fields.tags_table h none)
  | join => exact (Checked.tags_map _ _).trans (Fields.tags_join h none)
  | select => exact (Checked.tags_map _ _).trans (Fields.tags_select h {})
  | condition kind => exact (Checked.tags_map _ _).trans (Fields.tags_condition h kind none)
  | delete => exact (Checked.tags_map _ _).trans (Fields.tags_delete h {})
  | update => exact (Checked.tags_map _ _).trans (Fields.tags_update h {})
  | insert => exact (Checked.tags_map _ _).trans (Fields.tags_insert h none)

/-! ## Readers -/

namespace Decode

theorem decoded_of_tag (title : String) (text : Datum) {c : Checked Node} {tag : Datum}
    (h : c.tags.head? = some tag) :
    ∃ report, decoded title text c = .error (.fault (.unknownTag tag (some report))) := by
  cases c with
  | ok n => cases h
  | bad is =>
    have hhead : (is.filterMap Issue.tag?).head? = some tag := h
    refine ⟨⟨title, is⟩, ?_⟩
    rw [decoded, payloadFault_eq, hhead]

theorem decoded_of_no_tag (title : String) (text : Datum) {c : Checked Node} (h : c.tags.head? = none) :
    (∃ n, decoded title text c = .ok n) ∨
      ∃ report, decoded title text c = .error (.fault (.rejectedPayload report text)) := by
  cases c with
  | ok n => exact .inl ⟨n, rfl⟩
  | bad is =>
    have hhead : (is.filterMap Issue.tag?).head? = none := h
    refine .inr ⟨⟨title, is⟩, ?_⟩
    rw [decoded, payloadFault_eq, hhead]

/-- What the readers make of a payload with a tag of nodes. If objects stand in the place of conditions
without a tag of conditions, the first of them is reported, in the order of the fields and their items,
whatever else is wrong and wherever. If there are none, a payload that is not read is merely rejected. -/
theorem Reads.mistags {es : Fields} {kind : NodeKind} {o : Outcome Node} (hkind : es.kind? = some kind)
    (h : Reads es o) :
    match (es.mistags kind.slots).head? with
    | some tag =>
      Outcome.verdict? o = some (.error .unknownType) ∧
        ∃ report, o = .error (.fault (.unknownTag tag (some report)))
    | none => (∃ n, o = .ok n) ∨ Outcome.verdict? o = some (.error .parse) := by
  have htags := kind.tags_check .data es
  rw [h.eq_ofTagged, ofTagged_of_kind hkind, ofData, Target.check, ← htags]
  cases hhead : ((NodeType.stored kind).check .data (.dict es)).tags.head? with
  | some tag =>
    obtain ⟨report, hreport⟩ := decoded_of_tag kind.tag .null hhead
    exact ⟨congrArg Outcome.verdict? hreport, report, hreport⟩
  | none =>
    rcases decoded_of_no_tag kind.tag .null hhead with hok | ⟨report, hreport⟩
    · exact .inl hok
    · exact .inr (congrArg Outcome.verdict? hreport)

end Decode

/-! ## A payload with several faults -/

/-- A group filter with a tag that stands for no condition. -/
def bogusFilter : Datum := .dict [(.text "type", .text "Bogus")]

theorem mistags_bogusFilter : bogusFilter.mistags .condition = [.text "Bogus"] := by
  have hkind : ConditionKind.ofTag? "Bogus" = none := rfl
  have hreported : Datum.reportedTag (some (.text "Bogus")) = .text "Bogus" := Datum.reportedTag_text rfl
  simp [bogusFilter, Datum.mistags_dict, Part.mistag?, Datum.mistag?, Datum.objectTag?,
    ConditionKind.ofDatum?, Datum.valueAt?, Datum.asText?, Position.slots, Fields.conditionKind?, hkind,
    hreported]

/-- A table whose source is a query with the filter. -/
def bogusTable : Datum := .dict [(.text "source", .dict [(.text "having", .list [bogusFilter])])]

theorem mistags_bogusTable : bogusTable.mistags .table = [.text "Bogus"] := by
  let query : Fields := [(.text "having", .list [bogusFilter])]
  have hfilters : (Slot.groupFilters.held query).flatMap (Datum.mistags .condition) = [.text "Bogus"] :=
    (List.flatMap_singleton _ _).trans mistags_bogusFilter
  have hquery : (Datum.dict query).mistags .select = [.text "Bogus"] := by
    have hposition : Slot.groupFilters.position = .condition := rfl
    simp only [Datum.mistags_dict_elsewhere (p := .select) (by decide), Position.slots, NodeKind.slots,
      Fields.mistags_cons, hposition, hfilters]
    rfl
  have hsource : (Slot.source.held [(.text "source", .dict query)]).flatMap (Datum.mistags .select) =
      [.text "Bogus"] := (List.flatMap_singleton _ _).trans hquery
  rw [bogusTable, Datum.mistags_dict_elsewhere (p := .table) (by decide)]
  exact (Fields.mistags_cons _ _ _).trans (congrArg (· ++ []) hsource)

/-- A query with a negative limit, a group filter without a tag, and a number before the table. -/
def faultyQuery : Fields :=
  [(.text "limit", .int (-1)), (.text "having", .list [.dict []]), (.text "type", .text "SelectQuery"),
    (.text "tables", .list [.int 5, bogusTable])]

/-- The tag inside the table is reported, for tables come first among the fields. -/
theorem faultyQuery_reports : ∃ report,
    Decode.ofTagged (.dict faultyQuery) = .error (.fault (.unknownTag (.text "Bogus") (some report))) := by
  have hnumber : (Datum.int 5).mistags .table = [] := Datum.mistags_of_no_object rfl
  have hheld : Slot.tables.held faultyQuery = [.int 5, bogusTable] := rfl
  have htag : (faultyQuery.mistags NodeKind.select.slots).head? = some (.text "Bogus") := by
    rw [NodeKind.slots, Fields.mistags_cons, hheld, List.flatMap_cons, List.flatMap_cons]
    simp only [Slot.tables, hnumber, mistags_bogusTable]
    rfl
  have hkind : faultyQuery.kind? = some .select := rfl
  have h := Decode.Reads.mistags hkind .data
  rw [htag] at h
  exact h.2

end SqlAst
