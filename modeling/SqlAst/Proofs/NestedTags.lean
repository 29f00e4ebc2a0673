import SqlAst.Proofs.Mistags
import SqlAst.Proofs.TagCompletion

/-!
# Tags of tables, joins and queries inside payloads

Tables, joins and queries are told from where they stand, so a tag is no part of the choice: one that is not
that of their kind is a mere issue, and none at all is no issue.

* `Part.HasForeignTag`, `Part.LacksTag`: objects with a tag that is not theirs, and with none.
* `checkPart_ownTags`: what a check lets pass has no tag that is not its own.
* `Decode.Reads.nested_tags`: what the readers make of such tags.
-/
namespace SqlAst

/-- A table, join or query with a tag other than that of its kind. -/
def Part.HasForeignTag (part : Part) : Prop :=
  ∃ es kind tag, part.datum = .dict es ∧ part.position.kind? = some kind ∧
    Datum.valueAt? "type" es = some tag ∧ tag.asText? ≠ some kind.tag

/-- A table, join or query without a tag. -/
def Part.LacksTag (part : Part) : Prop :=
  part.position.kind?.isSome ∧ ∃ es, part.datum = .dict es ∧ Datum.valueAt? "type" es = none

/-! ## Checks that pass -/

namespace Checked

variable {α β : Type}

@[simp]
theorem isOk_map (f : α → β) (a : Checked α) : (map f a).isOk = a.isOk := by cases a <;> rfl

theorem isOk_apply (f : Checked (α → β)) (a : Checked α) : (apply f a).isOk = (f.isOk && a.isOk) := by
  cases f <;> cases a <;> rfl

@[simp]
theorem isOk_fmap (f : α → β) (a : Checked α) : (f <$> a).isOk = a.isOk := isOk_map f a

@[simp]
theorem isOk_seq (f : Checked (α → β)) (a : Checked α) : (f <*> a).isOk = (f.isOk && a.isOk) :=
  isOk_apply f a

@[simp]
theorem isOk_under (step : Step) (a : Checked α) : (a.under step).isOk = a.isOk := by cases a <;> rfl

theorem isOk_eachFrom {check : α → Checked β} {items : List α} {index : Nat}
    (h : (eachFrom check index items).isOk = true) : ∀ a ∈ items, (check a).isOk = true := by
  induction items generalizing index with
  | nil => exact fun a ha => absurd ha List.not_mem_nil
  | cons b rest ih =>
    rw [eachFrom, isOk_apply, isOk_map, isOk_under, Bool.and_eq_true] at h
    intro a ha
    rcases List.mem_cons.1 ha with rfl | ha
    · exact h.1
    · exact ih h.2 a ha

theorem isOk_items {check : Datum → Checked α} {d : Datum}
    (h : (items d fun a _ => check a).isOk = true) : ∀ a ∈ d.elements, (check a).isOk = true := by
  cases d with
  | list xs | tuple xs =>
    rw [items, each_eq] at h
    exact isOk_eachFrom h
  | _ => exact fun a ha => absurd ha List.not_mem_nil

end Checked

namespace Fields

variable {es : Fields} {form : Form}

theorem isOk_check {α : Type} {f : FieldName} {absent : Checked α}
    {value : (d : Datum) → sizeOf d < sizeOf es → Checked α}
    (h : (es.check f absent value).isOk = true) {d : Datum} (hd : es.given? f = some d) :
    (value d (sizeOf_given hd)).isOk = true := by
  obtain ⟨step, hstep⟩ : ∃ step, es.check f absent value = (value d (sizeOf_given hd)).under step :=
    check_of_given hd
  rwa [hstep, Checked.isOk_under] at h

/-- The objects in a slot pass. -/
def SlotPasses (form : Form) (es : Fields) (s : Slot) : Prop :=
  ∀ fs, .dict fs ∈ s.held es → (checkPart form s.position (.dict fs)).isOk = true

theorem slotPasses_several {f : FieldName} {p : Position}
    (h : ∀ d, es.given? f = some d → ∀ a ∈ d.elements, (checkPart form p a).isOk = true) :
    es.SlotPasses form ⟨f, p, true⟩ := by
  intro fs hfs
  unfold Slot.held at hfs
  split at hfs
  · rename_i d hd
    exact h d hd _ hfs
  · cases hfs

theorem slotPasses_one {f : FieldName} {p : Position}
    (h : ∀ fs, es.given? f = some (.dict fs) → (checkPart form p (.dict fs)).isOk = true) :
    es.SlotPasses form ⟨f, p, false⟩ := by
  intro fs hfs
  unfold Slot.held at hfs
  split at hfs
  · rename_i d hd
    have hsame : .dict fs = d := List.mem_singleton.1 hfs
    subst hsame
    exact h fs hd
  · cases hfs

theorem slotPasses_parts {f : FieldName} {p : Position} {default : List p.Value}
    (h : (es.parts f p default (checkParts form es)).isOk = true) : es.SlotPasses form ⟨f, p, true⟩ := by
  refine slotPasses_several fun d hd => ?_
  have hitems : (Checked.items d fun a _ => checkPart form p a).isOk = true := isOk_check h hd
  exact Checked.isOk_items hitems

theorem slotPasses_requiredPart {f : FieldName} {p : Position} {base : Option p.Value}
    (h : (es.requiredPart f p base (checkParts form es)).isOk = true) :
    es.SlotPasses form ⟨f, p, false⟩ :=
  slotPasses_one fun _ hd => isOk_check h hd

theorem slotPasses_nullablePart {f : FieldName} {p : Position} {default : Option p.Value}
    (h : (es.nullablePart f p default (checkParts form es)).isOk = true) :
    es.SlotPasses form ⟨f, p, false⟩ :=
  slotPasses_one fun _ hd => (Checked.isOk_map some _).symm.trans (isOk_check h hd)

/-- What is no name has to pass as a query. -/
theorem slotPasses_source {base : Option Table}
    (h : (es.check (.plain "source") (present (.plain "source") (base.map Table.source)) fun d hd =>
      source d (checkParts form es .select d hd)).isOk = true) :
    es.SlotPasses form .source := by
  refine slotPasses_one fun fs hd => ?_
  have hsource : (source (.dict fs) (checkPart form .select (.dict fs))).isOk = true := isOk_check h hd
  cases hquery : checkPart form .select (.dict fs) with
  | ok q => rfl
  | bad is =>
    rw [hquery] at hsource
    cases hsource

/-- The tag of an object that passes is that of its kind, if it has one. -/
theorem isOk_tag {expected : String} (h : (es.tag expected).isOk = true) {t : Datum}
    (ht : Datum.valueAt? "type" es = some t) : t.asText? = some expected := by
  have hgiven : es.given? (.plain "type") = some t := Option.or_eq_some_iff.2 (.inl ht)
  have hcheck : (es.check (.plain "type") (.ok ()) fun d _ => Checked.tag expected d).isOk = true := h
  have htag : (Checked.tag expected t).isOk = true := isOk_check hcheck hgiven
  unfold Checked.tag at htag
  split at htag
  · rename_i s hs
    split at htag
    · rename_i hsame
      rw [hs, hsame]
    · cases htag
  · cases htag

/-! ### Objects that pass -/

/-- An object that passes has no tag but its own, and the objects in its slots pass. -/
def Passes (form : Form) (own : Option NodeKind) (slots : List Slot) (es : Fields) : Prop :=
  (∀ kind, own = some kind → ∀ t, Datum.valueAt? "type" es = some t → t.asText? = some kind.tag) ∧
    ∀ s ∈ slots, es.SlotPasses form s

theorem Passes.of_tag {kind : NodeKind} {slots : List Slot} (htag : (es.tag kind.tag).isOk = true)
    (hslots : ∀ s ∈ slots, es.SlotPasses form s) : es.Passes form (some kind) slots := by
  refine ⟨fun kind' hkind t ht => ?_, hslots⟩
  cases hkind
  exact isOk_tag htag ht

theorem passes_table {base : Option Table} (h : (table base es (checkParts form es)).isOk = true) :
    es.Passes form (some .table) NodeKind.table.slots := by
  simp only [table, Checked.isOk_seq, Checked.isOk_fmap, Bool.and_eq_true] at h
  obtain ⟨⟨htag, hsource⟩, -⟩ := h
  refine Passes.of_tag htag ?_
  simp only [NodeKind.slots, List.forall_mem_cons]
  exact ⟨slotPasses_source hsource, List.forall_mem_nil _⟩

theorem passes_join {base : Option Join} (h : (join base es (checkParts form es)).isOk = true) :
    es.Passes form (some .join) NodeKind.join.slots := by
  simp only [join, Checked.isOk_seq, Checked.isOk_fmap, Bool.and_eq_true] at h
  obtain ⟨⟨⟨htag, htable⟩, hcondition⟩, -⟩ := h
  refine Passes.of_tag htag ?_
  simp only [NodeKind.slots, List.forall_mem_cons]
  exact ⟨slotPasses_requiredPart htable, slotPasses_nullablePart hcondition, List.forall_mem_nil _⟩

theorem passes_unionPart (h : (unionPart es (checkParts form es)).isOk = true) :
    es.Passes form none [.member] := by
  simp only [unionPart, Checked.isOk_seq, Checked.isOk_fmap, Bool.and_eq_true] at h
  exact ⟨nofun, List.forall_mem_singleton.2 (slotPasses_requiredPart h.2)⟩

theorem passes_select {base : Select} (h : (select base es (checkParts form es)).isOk = true) :
    es.Passes form (some .select) NodeKind.select.slots := by
  simp only [select, Checked.isOk_seq, Checked.isOk_fmap, Bool.and_eq_true] at h
  obtain ⟨⟨⟨⟨⟨⟨⟨⟨⟨⟨htables, hjoins⟩, -⟩, htag⟩, hfilters⟩, hgroupFilters⟩, -⟩, -⟩, -⟩, -⟩, hunions⟩ := h
  refine Passes.of_tag htag ?_
  simp only [NodeKind.slots, List.forall_mem_cons]
  exact ⟨slotPasses_parts htables, slotPasses_parts hjoins, slotPasses_parts hfilters,
    slotPasses_parts hgroupFilters, slotPasses_parts hunions, List.forall_mem_nil _⟩

theorem passes_delete {base : Delete} (h : (delete base es (checkParts form es)).isOk = true) :
    es.Passes form (some .delete) NodeKind.delete.slots := by
  simp only [delete, Checked.isOk_seq, Checked.isOk_fmap, Bool.and_eq_true] at h
  obtain ⟨⟨⟨htables, hjoins⟩, hfilters⟩, htag⟩ := h
  refine Passes.of_tag htag ?_
  simp only [NodeKind.slots, List.forall_mem_cons]
  exact ⟨slotPasses_parts htables, slotPasses_parts hjoins, slotPasses_parts hfilters,
    List.forall_mem_nil _⟩

theorem passes_update {base : Update} (h : (update base es (checkParts form es)).isOk = true) :
    es.Passes form (some .update) NodeKind.update.slots := by
  simp only [update, Checked.isOk_seq, Checked.isOk_fmap, Bool.and_eq_true] at h
  obtain ⟨⟨⟨⟨htables, hjoins⟩, hfilters⟩, htag⟩, -⟩ := h
  refine Passes.of_tag htag ?_
  simp only [NodeKind.slots, List.forall_mem_cons]
  exact ⟨slotPasses_parts htables, slotPasses_parts hjoins, slotPasses_parts hfilters,
    List.forall_mem_nil _⟩

theorem passes_insert {base : Option Insert} (h : (insert base es (checkParts form es)).isOk = true) :
    es.Passes form (some .insert) NodeKind.insert.slots := by
  simp only [insert, Checked.isOk_seq, Checked.isOk_fmap, Bool.and_eq_true] at h
  obtain ⟨⟨⟨⟨htag, -⟩, -⟩, -⟩, hsource⟩ := h
  refine Passes.of_tag htag ?_
  simp only [NodeKind.slots, List.forall_mem_cons]
  exact ⟨slotPasses_nullablePart hsource, List.forall_mem_nil _⟩

theorem slotPasses_condition {kind : ConditionKind} {base : Option Condition}
    (h : (condition kind base es (checkParts form es)).isOk = true) :
    ∀ s ∈ (NodeKind.condition kind).slots, es.SlotPasses form s := by
  cases kind with
  | combine connective =>
    simp only [condition, Checked.isOk_seq, Checked.isOk_fmap, Bool.and_eq_true] at h
    exact List.forall_mem_singleton.2 (slotPasses_parts h.1)
  | _ => exact List.forall_mem_nil _

end Fields

/-! ## Tags of what passes -/

/-- An object at a position that passes. -/
theorem Position.passes {p : Position} {form : Form} {es : Fields}
    (h : (checkPart form p (.dict es)).isOk = true) : es.Passes form p.kind? (p.slots es) := by
  cases p with
  | table =>
    rw [checkPart_table] at h
    exact Fields.passes_table h
  | join =>
    rw [checkPart_join] at h
    exact Fields.passes_join h
  | select =>
    rw [checkPart_select] at h
    exact Fields.passes_select h
  | unionPart =>
    rw [checkPart_unionPart] at h
    exact Fields.passes_unionPart h
  | condition =>
    refine ⟨nofun, ?_⟩
    rw [checkPart] at h
    cases hk : es.conditionKind? with
    | some kind =>
      rw [Position.check.eq_3 _ _ _ _ (Datum.conditionShape_of_kind hk form), Checked.isOk_under] at h
      rw [Position.slots_of_kind hk]
      exact Fields.slotPasses_condition h
    | none =>
      rw [Position.slots_of_no_kind hk]
      exact List.forall_mem_nil _

theorem NodeKind.passes {kind : NodeKind} {form : Form} {es : Fields}
    (h : ((NodeType.stored kind).check form (.dict es)).isOk = true) :
    ∀ s ∈ kind.slots, es.SlotPasses form s := by
  have h : ((NodeType.stored kind).ofFields form es).isOk = true := h
  unfold NodeType.ofFields at h
  cases kind with
  | table => exact (Fields.passes_table ((Checked.isOk_map _ _).symm.trans h)).2
  | join => exact (Fields.passes_join ((Checked.isOk_map _ _).symm.trans h)).2
  | select => exact (Fields.passes_select ((Checked.isOk_map _ _).symm.trans h)).2
  | condition kind => exact Fields.slotPasses_condition ((Checked.isOk_map _ _).symm.trans h)
  | delete => exact (Fields.passes_delete ((Checked.isOk_map _ _).symm.trans h)).2
  | update => exact (Fields.passes_update ((Checked.isOk_map _ _).symm.trans h)).2
  | insert => exact (Fields.passes_insert ((Checked.isOk_map _ _).symm.trans h)).2

/-- Only objects have tags. -/
theorem Part.not_hasForeignTag {p : Position} {d : Datum} (h : ∀ es, d ≠ .dict es) :
    ¬ (Part.mk p d).HasForeignTag := by
  rintro ⟨es, kind, tag, hd, -⟩
  exact h es hd

theorem Fields.partsIn_ownTags {form : Form} {es : Fields} {slots : List Slot}
    (hslots : ∀ s ∈ slots, es.SlotPasses form s)
    (h : ∀ (d : Datum), sizeOf d < sizeOf es → ∀ p, (checkPart form p d).isOk = true →
      ∀ part ∈ d.partsAt p, ¬ part.HasForeignTag) :
    ∀ part ∈ es.partsIn slots, ¬ part.HasForeignTag := by
  intro part hpart
  rw [partsIn, List.mem_flatMap] at hpart
  obtain ⟨s, hs, hpart⟩ := hpart
  obtain ⟨d, hd, hpart⟩ := List.mem_flatMap.1 hpart
  by_cases hdict : ∃ fs, d = .dict fs
  · obtain ⟨fs, rfl⟩ := hdict
    exact h _ (Slot.sizeOf_held hd) s.position (hslots s hs fs hd) part hpart
  · have hdict (fs : Fields) (hfs : d = .dict fs) : False := hdict ⟨fs, hfs⟩
    rw [Datum.partsAt_of_not_dict hdict, List.mem_singleton] at hpart
    subst hpart
    exact Part.not_hasForeignTag hdict

/-- What passes has no tags inside that are not their own. -/
theorem checkPart_ownTags {form : Form} {p : Position} {d : Datum}
    (h : (checkPart form p d).isOk = true) : ∀ part ∈ d.partsAt p, ¬ part.HasForeignTag := by
  induction d using Datum.byEntries generalizing p with
  | dict es ih =>
    -- That the object passes says two things: its tag is its own, and what its slots hold passes as well.
    obtain ⟨htag, hslots⟩ := Position.passes h
    have hparts := Fields.partsIn_ownTags hslots fun d hd q hq => ih d hd hq
    rw [Datum.partsAt_dict]
    refine List.forall_mem_cons.2 ⟨?_, hparts⟩
    rintro ⟨fs, kind, tag, hfs, hkind, hgiven, hforeign⟩
    cases hfs
    exact hforeign (htag kind hkind tag hgiven)
  | other d hdict =>
    rw [Datum.partsAt_of_not_dict hdict]
    exact List.forall_mem_singleton.2 (Part.not_hasForeignTag hdict)

theorem NodeKind.check_ownTags {kind : NodeKind} {form : Form} {es : Fields}
    (h : ((NodeType.stored kind).check form (.dict es)).isOk = true) :
    ∀ part ∈ es.partsIn kind.slots, ¬ part.HasForeignTag :=
  Fields.partsIn_ownTags (NodeKind.passes h) fun _ _ _ hd => checkPart_ownTags hd

/-! ## Tags after completion -/

/-- Completed parts have their tags. -/
theorem Part.not_lacksTag_completed (part : Part) : ¬ part.completed.LacksTag := by
  obtain ⟨p, d⟩ := part
  rintro ⟨hkind, es', hdatum, htype⟩
  by_cases hdict : ∃ es, d = .dict es
  · obtain ⟨es, rfl⟩ := hdict
    have hes' : Datum.dict (Fields.completed p.kind? (p.slots es) es) = .dict es' := by
      rw [← Datum.completed_dict]
      exact hdatum
    cases hes'
    obtain ⟨kind, hkind⟩ := Option.isSome_iff_exists.1 hkind
    have hkind : p.kind? = some kind := hkind
    have hnamed : Slot.named? (p.slots es) "type" = none := by
      cases p with
      | table | join | select => rfl
      | condition | unionPart => cases hkind
    rw [Fields.valueAt?_type_completed hnamed, hkind, Option.or_eq_none_iff] at htype
    cases htype.2
  · have hd : d = .dict es' :=
      (Datum.completed_of_not_dict fun es hes => hdict ⟨es, hes⟩).symm.trans hdatum
    exact hdict ⟨es', hd⟩

/-! ## Readers -/

/-- A completed payload has the tag of the payload. -/
theorem Fields.kind?_completed {es : Fields} {kind : NodeKind} (h : es.kind? = some kind) :
    Fields.kind? (es.completed (some kind) kind.slots) = some kind := by
  have hnamed : Slot.named? kind.slots "type" = none := by
    cases kind with
    | condition kind => cases kind <;> rfl
    | _ => rfl
  obtain ⟨s, hs, -⟩ := Option.bind_eq_some_iff.1 h
  obtain ⟨t, ht, -⟩ := Option.bind_eq_some_iff.1 hs
  rw [kind?, ht] at h
  rw [kind?, valueAt?_type_completed hnamed, ht, Option.some_or, h]

/-- What the readers make of tags inside a payload with a tag of nodes. That there is an unknown tag is
reported exactly if an object in the place of a condition has no tag of conditions. A table, join or query
with a tag that is not its own makes the payload merely a rejected one, if no condition is at fault; and
tables, joins and queries without a tag are read as if they had theirs. -/
theorem Decode.Reads.nested_tags {es : Fields} {kind : NodeKind} {o : Outcome Node}
    (hkind : es.kind? = some kind) (h : Reads es o) :
    let whole := es.completed (some kind) kind.slots
    (Outcome.verdict? o = some (.error .unknownType) ↔
        ∃ part ∈ es.partsIn kind.slots, part.mistag?.isSome) ∧
      ((∃ part ∈ es.partsIn kind.slots, part.HasForeignTag) →
        (∀ part ∈ es.partsIn kind.slots, part.mistag? = none) →
          Outcome.verdict? o = some (.error .parse)) ∧
      o = ofTagged (.dict whole) ∧ ∀ part ∈ whole.partsIn kind.slots, ¬ part.LacksTag := by
  let c := (NodeType.stored kind).check .data (.dict es)
  have htags : c.tags = es.mistags kind.slots := kind.tags_check .data es
  have ho : o = decoded kind.tag .null c := h.eq_ofTagged.trans (ofTagged_eq_decoded hkind)
  have hverdict : Outcome.verdict? o = some c.verdict := by rw [ho, verdict?_decoded]
  intro whole
  have hcompleted : Fields.kind? whole = some kind := Fields.kind?_completed hkind
  refine ⟨?_, ?_, ?_, ?_⟩
  · rw [hverdict, Option.some.injEq, Checked.verdict_unknownType_iff, htags, Fields.mistags, ne_eq,
      List.filterMap_eq_nil_iff]
    simp only [not_forall, Option.isSome_iff_ne_none, exists_prop]
  · rintro ⟨part, hpart, hforeign⟩ hnone
    have hbad : c.isOk = false := by
      rw [← Bool.not_eq_true]
      exact fun hok => NodeKind.check_ownTags hok part hpart hforeign
    have hno : c.tags = [] := by
      rw [htags]
      exact List.filterMap_eq_nil_iff.2 hnone
    rw [hverdict, Checked.verdict_of_no_tags hno hbad]
  · rw [ho, ofTagged_eq_decoded hcompleted, NodeType.check_completed]
  · have hparts : whole.partsIn kind.slots = (es.partsIn kind.slots).map Part.completed :=
      Fields.partsIn_completed kind.slots_placed fun p d _ => d.partsAt_completed p
    rw [hparts]
    intro part hpart
    obtain ⟨part, -, rfl⟩ := List.mem_map.1 hpart
    exact part.not_lacksTag_completed

/-- A table with a tag that stands for nothing. -/
def bogusTaggedTable : Fields := [(.text "type", .text "Bogus"), (.text "source", .text "a")]

theorem partsAt_bogusTaggedTable :
    (Datum.dict bogusTaggedTable).partsAt .table =
      [⟨.table, .dict bogusTaggedTable⟩, ⟨.select, .text "a"⟩] := by
  have hsource : Slot.source.held bogusTaggedTable = [.text "a"] := rfl
  have hname : (Datum.text "a").partsAt .select = [⟨.select, .text "a"⟩] :=
    Datum.partsAt_of_not_dict fun es h => by cases h
  rw [Datum.partsAt_dict, Position.slots, NodeKind.slots, Fields.partsIn, List.flatMap_singleton, hsource,
    List.flatMap_singleton, Slot.source, hname]

/-- A table without a tag. -/
def untaggedTable : Fields := [(.text "source", .text "a")]

/-- A query of one table. -/
def queryOf (table : Fields) : Fields :=
  [(.text "type", .text "SelectQuery"), (.text "tables", .list [.dict table])]

theorem ofTagged_untaggedTable :
    Decode.ofTagged (.dict (queryOf untaggedTable)) = .ok (.select { tables := [⟨.name "a", none⟩] }) := by
  have htable : checkPart .data .table (.dict untaggedTable) = .ok ⟨.name "a", none⟩ := by
    rw [checkPart_table]
    rfl
  have htables : (queryOf untaggedTable).parts (.plain "tables") .table [] (checkParts .data _) =
      .ok [⟨.name "a", none⟩] := by
    refine Fields.check_given (d := .list [.dict untaggedTable]) rfl fun _ => ?_
    have heach := Checked.each_eq (checkPart .data .table) [.dict untaggedTable]
    rw [Checked.eachFrom, htable] at heach
    exact heach
  have hselect : Fields.select {} (queryOf untaggedTable) (checkParts .data _) =
      .ok { tables := [⟨.name "a", none⟩] } := by
    rw [Fields.select, htables]
    rfl
  have hkind : (queryOf untaggedTable).kind? = some .select := rfl
  rw [Decode.ofTagged_eq_decoded hkind]
  show Decode.decoded _ _ (Checked.map Node.select (Fields.select {} (queryOf untaggedTable) _)) = _
  rw [hselect]
  rfl

/-- The unknown tag is not reported as such, and the missing one is not missed. -/
theorem bogusTaggedTable_rejected :
    Outcome.verdict? (Decode.ofTagged (.dict (queryOf bogusTaggedTable))) = some (.error .parse) ∧
      Decode.ofTagged (.dict (queryOf untaggedTable)) =
        .ok (.select { tables := [⟨.name "a", none⟩] }) := by
  have htables : Slot.tables.held (queryOf bogusTaggedTable) = [.dict bogusTaggedTable] := rfl
  have hposition : Slot.tables.position = .table := rfl
  have hparts : (queryOf bogusTaggedTable).partsIn NodeKind.select.slots =
      [⟨.table, .dict bogusTaggedTable⟩, ⟨.select, .text "a"⟩] := by
    simp only [Fields.partsIn, NodeKind.slots, List.flatMap_cons, htables, hposition,
      partsAt_bogusTaggedTable]
    rfl
  have hkind : (queryOf bogusTaggedTable).kind? = some .select := rfl
  have h := Decode.Reads.nested_tags hkind .data
  rw [hparts] at h
  refine ⟨h.2.1 ⟨_, List.mem_cons_self, ?_⟩ ?_, ofTagged_untaggedTable⟩
  · exact ⟨bogusTaggedTable, .table, .text "Bogus", rfl, rfl, rfl, by decide⟩
  · simp only [List.forall_mem_cons]
    exact ⟨rfl, rfl, List.forall_mem_nil _⟩

end SqlAst
