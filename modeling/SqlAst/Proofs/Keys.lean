import Mathlib.Data.List.Forall2
import SqlAst.Proofs.Parts
import SqlAst.Proofs.Payloads
import SqlAst.Proofs.Verdicts

/-!
# Keys that are read

An object is read by a fixed list of keys, each under its two names, and what stands under a key is a value
of its own, an object, or a sequence of objects. Whatever else an object has is not looked at, so two objects
that give alike data for these keys get the same verdict.

* `NodeType.keys`, `Place.keys`: the keys of nodes, and of all objects by the place where they stand.
* `NodeType.verdict_of_alike`, `Place.verdict_of_alike`: objects that are alike under their keys get the same
  verdict.
-/
namespace SqlAst

/-! ## Places, keys and what stands under them -/

/-- Where objects stand: as a payload, of any kind of node or of a given type, at a position inside another
object, in a select list, or in ORDER BY. -/
inductive Place where
  | payload
  | node (type : NodeType)
  | position (position : Position)
  | selectField
  | orderSpec

/-- What an object is read as. -/
abbrev Place.Value : Place → Type
  | .payload | .node _ => Node
  | .position p => p.Value
  | .selectField => SelectField
  | .orderSpec => OrderSpec

/-- What stands under a key. -/
inductive Content where
  | leaf
  | object (place : Place)
  | objects (place : Place)

/-- A key that is read. -/
structure Key where
  field : FieldName
  content : Content := .leaf

/-- The names under which a key can be given. -/
def Key.names (key : Key) : List String := [key.field.stored, key.field.name]

namespace Key

def plain (name : String) : Key := ⟨.plain name, .leaf⟩
def tag : Key := plain "type"
def tables : Key := ⟨.plain "tables", .objects (.position .table)⟩
def joins : Key := ⟨.plain "joins", .objects (.position .join)⟩
def selectFields : Key := ⟨.fields, .objects .selectField⟩
def filters : Key := ⟨.filters, .objects (.position .condition)⟩
def groupFilters : Key := ⟨.groupFilters, .objects (.position .condition)⟩

end Key

/-- The keys of a condition. -/
def ConditionKind.keys : ConditionKind → List Key
  | .compare _ => [.plain "column", .plain "value", .tag]
  | .between | .among => [.tag, .plain "column", .plain "values"]
  | .like _ => [.plain "column", .plain "pattern", .tag]
  | .isNull _ => [.tag, .plain "column"]
  | .columnEqual => [.tag, .plain "left", .plain "right"]
  | .combine _ => [⟨.plain "conditions", .objects (.position .condition)⟩, .tag]

/-- The keys of a node. -/
def NodeType.keys : NodeType → List Key
  | .stored .table => [.tag, ⟨.plain "source", .object (.position .select)⟩, .plain "alias"]
  | .stored .join =>
    [.tag, ⟨.plain "table", .object (.position .table)⟩,
      ⟨.plain "condition", .object (.position .condition)⟩, ⟨.joinKind, .leaf⟩]
  | .stored .select =>
    [.tables, .joins, .selectFields, .tag, .filters, .groupFilters, ⟨.limit, .leaf⟩, ⟨.offset, .leaf⟩,
      ⟨.orderBy, .objects .orderSpec⟩, ⟨.groupBy, .leaf⟩, ⟨.unions, .objects (.position .unionPart)⟩]
  | .stored (.condition kind) => kind.keys
  | .stored .delete => [.tables, .joins, .filters, .tag]
  | .stored .update => [.tables, .joins, .filters, .tag, ⟨.assignments, .leaf⟩]
  | .stored .insert =>
    [.tag, ⟨.insertTable, .leaf⟩, ⟨.columns, .leaf⟩, ⟨.rows, .leaf⟩,
      ⟨.insertSource, .object (.position .select)⟩]
  | .projection => [.tables, .joins, .selectFields]

/-- The keys of an object. Payloads and conditions are told from their tag, and of one that is told as
nothing only the tag is read. -/
def Place.keys (place : Place) (es : Fields) : List Key :=
  match place with
  | .payload => (es.kind?.map fun kind => (NodeType.stored kind).keys).getD [.tag]
  | .node t => t.keys
  | .position .condition => (es.conditionKind?.map ConditionKind.keys).getD [.tag]
  | .position .table => (NodeType.stored .table).keys
  | .position .join => (NodeType.stored .join).keys
  | .position .select => (NodeType.stored .select).keys
  | .position .unionPart => [⟨.unionKind, .leaf⟩, ⟨.plain "query", .object (.position .select)⟩]
  | .selectField => [.plain "name", .plain "alias"]
  | .orderSpec => [.plain "field", .plain "direction"]

/-- The check of what stands at a place. -/
def Place.check (place : Place) (d : Datum) : Checked place.Value :=
  match place with
  | .payload =>
    match d with
    | .dict es =>
      match Fields.kind? es with
      | some kind => (NodeType.stored kind).ofFields .data es
      | none => .fail .missingTag
    | _ => .fail .notModel
  | .node t => t.check .data d
  | .position p => checkPart .data p d
  | .selectField => Fields.selectFieldOf d
  | .orderSpec => Fields.orderSpecOf d

/-! ## Data that is read alike -/

/-- The same datum, or two objects with the same verdict. -/
def Place.Alike (place : Place) (d d' : Datum) : Prop :=
  d = d' ∨ ∃ es es', d = .dict es ∧ d' = .dict es' ∧ (place.check d).verdict = (place.check d').verdict

/-- Data under a key that is read alike: item by item, if it is a sequence of objects. -/
def Content.Alike : Content → Datum → Datum → Prop
  | .leaf => Eq
  | .object place => place.Alike
  | .objects place => fun d d' =>
    d = d' ∨ ∃ items items', List.Forall₂ place.Alike items items' ∧
      (d = .list items ∧ d' = .list items' ∨ d = .tuple items ∧ d' = .tuple items')

/-- Objects with data for the same of their keys, which is read alike. -/
def Fields.Alike (keys : List Key) (es es' : Fields) : Prop :=
  keys.Forall fun key => Option.Rel key.content.Alike (es.given? key.field) (es'.given? key.field)

theorem Place.Alike.refl (place : Place) (d : Datum) : place.Alike d d := .inl rfl

theorem Place.Alike.verdict {place : Place} {d d' : Datum} (h : place.Alike d d') :
    (place.check d).verdict = (place.check d').verdict := by
  rcases h with rfl | ⟨es, es', -, -, h⟩
  · rfl
  · exact h

theorem Content.Alike.refl (content : Content) (d : Datum) : content.Alike d d := by
  cases content with
  | leaf => exact rfl
  | object place => exact .inl rfl
  | objects place => exact .inl rfl

namespace Checked

theorem verdict_map_congr {α β : Type} {f : α → β} {a b : Checked α} (h : a.verdict = b.verdict) :
    (map f a).verdict = (map f b).verdict := by
  rw [verdict_map, verdict_map, h]

theorem verdict_seq_congr {α β : Type} {f g : Checked (α → β)} {a b : Checked α}
    (hf : f.verdict = g.verdict) (h : a.verdict = b.verdict) : (f <*> a).verdict = (g <*> b).verdict := by
  rw [verdict_seq, verdict_seq, hf, h]

theorem verdict_eachFrom_forall₂ {α β : Type} {check : α → Checked β} {items items' : List α}
    (h : List.Forall₂ (fun a b => (check a).verdict = (check b).verdict) items items') (index : Nat) :
    (eachFrom check index items).verdict = (eachFrom check index items').verdict := by
  induction h generalizing index with
  | nil => rfl
  | cons hfirst _ ih => simp only [eachFrom, verdict_apply, verdict_map, verdict_under, hfirst, ih]

theorem verdict_items_alike (place : Place) {d d' : Datum} (h : (Content.objects place).Alike d d') :
    (items d fun a _ => place.check a).verdict = (items d' fun a _ => place.check a).verdict := by
  rcases h with rfl | ⟨xs, xs', hitems, ⟨rfl, rfl⟩ | ⟨rfl, rfl⟩⟩
  · rfl
  all_goals
    show (each xs fun a _ => place.check a).verdict = (each xs' fun a _ => place.check a).verdict
    rw [each_eq, each_eq]
    exact verdict_eachFrom_forall₂ (hitems.imp fun _ _ => Place.Alike.verdict) 0

end Checked

open Checked

/-! ## Fields -/

namespace Fields

variable {α : Type} {es es' : Fields} {f : FieldName}

theorem verdict_check_alike {R : Datum → Datum → Prop} {absent : Checked α}
    {value : (d : Datum) → sizeOf d < sizeOf es → Checked α}
    {value' : (d : Datum) → sizeOf d < sizeOf es' → Checked α}
    (h : Option.Rel R (es.given? f) (es'.given? f))
    (hvalue : ∀ d d' hd hd', R d d' → (value d hd).verdict = (value' d' hd').verdict) :
    (es.check f absent value).verdict = (es'.check f absent value').verdict := by
  cases hgiven : es.given? f with
  | none =>
    cases hgiven' : es'.given? f with
    | none => rw [check_of_notGiven hgiven, check_of_notGiven hgiven']
    | some d' =>
      rw [hgiven, hgiven'] at h
      cases h
  | some d =>
    cases hgiven' : es'.given? f with
    | none =>
      rw [hgiven, hgiven'] at h
      cases h
    | some d' =>
      rw [hgiven, hgiven'] at h
      cases h with
      | some h =>
        obtain ⟨step, hcheck⟩ : ∃ step, es.check f absent value = (value d _).under step :=
          check_of_given hgiven
        obtain ⟨step', hcheck'⟩ : ∃ step, es'.check f absent value' = (value' d' _).under step :=
          check_of_given hgiven'
        rw [hcheck, hcheck', verdict_under, verdict_under]
        exact hvalue _ _ _ _ h

section

variable (h : Option.Rel Content.leaf.Alike (es.given? f) (es'.given? f))

include h

theorem verdict_leaf (absent : Checked α) (value : Datum → Checked α) :
    (es.check f absent fun d _ => value d).verdict = (es'.check f absent fun d _ => value d).verdict :=
  verdict_check_alike h fun d d' _ _ hd => by rw [show d = d' from hd]

theorem verdict_optional (default : α) (value : Datum → Checked α) :
    (es.optional f default value).verdict = (es'.optional f default value).verdict :=
  verdict_leaf h _ value

theorem verdict_leaves (default : List α) (item : Datum → Checked α) :
    (es.leaves f default item).verdict = (es'.leaves f default item).verdict :=
  verdict_optional h _ _

end

theorem verdict_required {name : String}
    (h : Option.Rel (Key.plain name).content.Alike (es.given? (Key.plain name).field)
      (es'.given? (Key.plain name).field)) (base : Option α) (value : Datum → Checked α) :
    (es.required name base value).verdict = (es'.required name base value).verdict :=
  verdict_leaf h _ value

theorem verdict_tag
    (h : Option.Rel Key.tag.content.Alike (es.given? Key.tag.field) (es'.given? Key.tag.field))
    (expected : String) : (es.tag expected).verdict = (es'.tag expected).verdict :=
  verdict_optional h () (Checked.tag expected)

theorem verdict_objects {place : Place}
    (h : Option.Rel (Content.objects place).Alike (es.given? f) (es'.given? f))
    (default : List place.Value) :
    (es.leaves f default place.check).verdict = (es'.leaves f default place.check).verdict :=
  verdict_check_alike h fun _ _ _ _ hd => verdict_items_alike place hd

variable {p : Position}

theorem verdict_parts_alike
    (h : Option.Rel (Content.objects (.position p)).Alike (es.given? f) (es'.given? f))
    (default : List p.Value) :
    (es.parts f p default (checkParts .data es)).verdict =
      (es'.parts f p default (checkParts .data es')).verdict :=
  verdict_check_alike h fun _ _ _ _ hd => verdict_items_alike (.position p) hd

section

variable (h : Option.Rel (Content.object (.position p)).Alike (es.given? f) (es'.given? f))

include h

theorem verdict_requiredPart_alike (base : Option p.Value) :
    (es.requiredPart f p base (checkParts .data es)).verdict =
      (es'.requiredPart f p base (checkParts .data es')).verdict :=
  verdict_check_alike h fun _ _ _ _ hd =>
    have hd : (Place.position p).Alike _ _ := hd
    hd.verdict

theorem verdict_nullablePart_alike (default : Option p.Value) :
    (es.nullablePart f p default (checkParts .data es)).verdict =
      (es'.nullablePart f p default (checkParts .data es')).verdict := by
  refine verdict_check_alike h fun d d' _ _ hd => ?_
  rcases hd with rfl | ⟨fs, fs', rfl, rfl, hd⟩
  · cases d <;> rfl
  · show (Checked.map some (checkPart .data p (.dict fs))).verdict =
      (Checked.map some (checkPart .data p (.dict fs'))).verdict
    rw [verdict_map, verdict_map]
    exact congrArg (Except.map some) hd

end

theorem verdict_source_alike
    (h : Option.Rel (Content.object (.position .select)).Alike (es.given? f) (es'.given? f))
    (absent : Checked Source) :
    (es.check f absent fun d hd => source d (checkParts .data es .select d hd)).verdict =
      (es'.check f absent fun d hd => source d (checkParts .data es' .select d hd)).verdict := by
  refine verdict_check_alike h fun d d' _ _ hd => ?_
  rcases hd with rfl | ⟨fs, fs', rfl, rfl, hd⟩
  · rfl
  · have htext : (source (.dict fs) (checkPart .data .select (.dict fs'))).verdict =
        (source (.dict fs') (checkPart .data .select (.dict fs'))).verdict := by
      cases checkPart .data .select (.dict fs') <;> rfl
    exact (verdict_source (.dict fs) hd).trans htext

end Fields

/-! ## Objects -/

open Fields

theorem Fields.verdict_condition_alike (kind : ConditionKind) {es es' : Fields}
    (h : es.Alike kind.keys es') :
    (Fields.condition kind none es (checkParts .data es)).verdict =
      (Fields.condition kind none es' (checkParts .data es')).verdict := by
  cases kind with
  | compare op =>
    obtain ⟨hcolumn, hvalue, htag⟩ := h
    iterate 2 refine verdict_seq_congr ?_ ?_
    · exact verdict_map_congr (verdict_required hcolumn _ _)
    · exact verdict_optional hvalue _ _
    · exact verdict_tag htag _
  | between =>
    obtain ⟨htag, hcolumn, hvalues⟩ := h
    iterate 2 refine verdict_seq_congr ?_ ?_
    · exact verdict_map_congr (verdict_tag htag _)
    · exact verdict_required hcolumn _ _
    · exact verdict_required hvalues _ _
  | among =>
    obtain ⟨htag, hcolumn, hvalues⟩ := h
    iterate 2 refine verdict_seq_congr ?_ ?_
    · exact verdict_map_congr (verdict_tag htag _)
    · exact verdict_required hcolumn _ _
    · exact verdict_leaves hvalues _ _
  | like negated =>
    obtain ⟨hcolumn, hpattern, htag⟩ := h
    iterate 2 refine verdict_seq_congr ?_ ?_
    · exact verdict_map_congr (verdict_required hcolumn _ _)
    · exact verdict_required hpattern _ _
    · exact verdict_tag htag _
  | isNull negated =>
    obtain ⟨htag, hcolumn⟩ := h
    refine verdict_seq_congr ?_ ?_
    · exact verdict_map_congr (verdict_tag htag _)
    · exact verdict_required hcolumn _ _
  | columnEqual =>
    obtain ⟨htag, hleft, hright⟩ := h
    iterate 2 refine verdict_seq_congr ?_ ?_
    · exact verdict_map_congr (verdict_tag htag _)
    · exact verdict_required hleft _ _
    · exact verdict_required hright _ _
  | combine connective =>
    obtain ⟨hparts, htag⟩ := h
    refine verdict_seq_congr ?_ ?_
    · exact verdict_map_congr (verdict_parts_alike hparts _)
    · exact verdict_tag htag _

theorem Fields.verdict_table_alike {es es' : Fields} (h : es.Alike (NodeType.stored .table).keys es') :
    (Fields.table none es (checkParts .data es)).verdict =
      (Fields.table none es' (checkParts .data es')).verdict := by
  obtain ⟨htag, hsource, hlabel⟩ := h
  iterate 2 refine verdict_seq_congr ?_ ?_
  · exact verdict_map_congr (verdict_tag htag _)
  · exact verdict_source_alike hsource _
  · exact verdict_optional hlabel _ _

theorem Fields.verdict_join_alike {es es' : Fields} (h : es.Alike (NodeType.stored .join).keys es') :
    (Fields.join none es (checkParts .data es)).verdict =
      (Fields.join none es' (checkParts .data es')).verdict := by
  obtain ⟨htag, htable, hcondition, hkind⟩ := h
  iterate 3 refine verdict_seq_congr ?_ ?_
  · exact verdict_map_congr (verdict_tag htag _)
  · exact verdict_requiredPart_alike htable _
  · exact verdict_nullablePart_alike hcondition _
  · exact verdict_optional hkind _ _

theorem Fields.verdict_select_alike {es es' : Fields} (h : es.Alike (NodeType.stored .select).keys es') :
    (Fields.select {} es (checkParts .data es)).verdict =
      (Fields.select {} es' (checkParts .data es')).verdict := by
  obtain ⟨htables, hjoins, hfields, htag, hfilters, hgroups, hlimit, hoffset, horder, hgroupBy,
    hunions⟩ := h
  iterate 10 refine verdict_seq_congr ?_ ?_
  · exact verdict_map_congr (verdict_parts_alike htables _)
  · exact verdict_parts_alike hjoins _
  · exact verdict_objects hfields _
  · exact verdict_tag htag _
  · exact verdict_parts_alike hfilters _
  · exact verdict_parts_alike hgroups _
  · exact verdict_optional hlimit _ _
  · exact verdict_optional hoffset _ _
  · exact verdict_objects horder _
  · exact verdict_leaves hgroupBy _ _
  · exact verdict_parts_alike hunions _

/-- Entries that are alike under the keys of a type make the same node of it, or the same kind of failure. -/
theorem NodeType.verdict_of_alike (t : NodeType) {es es' : Fields} (h : es.Alike t.keys es') :
    (t.ofFields .data es).verdict = (t.ofFields .data es').verdict := by
  unfold NodeType.ofFields
  cases t with
  | projection =>
    obtain ⟨htables, hjoins, hfields⟩ := h
    refine verdict_map_congr ?_
    iterate 2 refine verdict_seq_congr ?_ ?_
    · exact verdict_map_congr (verdict_parts_alike htables _)
    · exact verdict_parts_alike hjoins _
    · exact verdict_objects hfields _
  | stored kind =>
    cases kind with
    | table => exact verdict_map_congr (verdict_table_alike h)
    | join => exact verdict_map_congr (verdict_join_alike h)
    | select => exact verdict_map_congr (verdict_select_alike h)
    | condition kind => exact verdict_map_congr (verdict_condition_alike kind h)
    | delete =>
      obtain ⟨htables, hjoins, hfilters, htag⟩ := h
      refine verdict_map_congr ?_
      iterate 3 refine verdict_seq_congr ?_ ?_
      · exact verdict_map_congr (verdict_parts_alike htables _)
      · exact verdict_parts_alike hjoins _
      · exact verdict_parts_alike hfilters _
      · exact verdict_tag htag _
    | update =>
      obtain ⟨htables, hjoins, hfilters, htag, hassignments⟩ := h
      refine verdict_map_congr ?_
      iterate 4 refine verdict_seq_congr ?_ ?_
      · exact verdict_map_congr (verdict_parts_alike htables _)
      · exact verdict_parts_alike hjoins _
      · exact verdict_parts_alike hfilters _
      · exact verdict_tag htag _
      · exact verdict_optional hassignments _ _
    | insert =>
      obtain ⟨htag, htable, hcolumns, hrows, hsource⟩ := h
      refine verdict_map_congr ?_
      iterate 4 refine verdict_seq_congr ?_ ?_
      · exact verdict_map_congr (verdict_tag htag _)
      · exact verdict_leaf htable _ _
      · exact verdict_optional hcolumns _ _
      · exact verdict_leaves hrows _ _
      · exact verdict_nullablePart_alike hsource _

/-! ### Objects that are told from their tag -/

theorem NodeKind.tag_mem_keys (kind : NodeKind) : Key.tag ∈ (NodeType.stored kind).keys := by
  cases kind with
  | condition kind => cases kind <;> simp [NodeType.keys, ConditionKind.keys]
  | _ => simp [NodeType.keys]

theorem Fields.Alike.of_mem {keys : List Key} {es es' : Fields} (h : es.Alike keys es') {key : Key}
    (hkey : key ∈ keys) : Option.Rel key.content.Alike (es.given? key.field) (es'.given? key.field) :=
  List.forall_iff_forall_mem.1 h key hkey

theorem Fields.Alike.tag_eq {keys : List Key} {es es' : Fields} (h : es.Alike keys es')
    (htag : Key.tag ∈ keys) : Datum.valueAt? "type" es = Datum.valueAt? "type" es' := by
  have hrel := h.of_mem htag
  have hgiven (fs : Fields) : fs.given? Key.tag.field = Datum.valueAt? "type" fs := Option.or_self
  rw [hgiven, hgiven] at hrel
  generalize Datum.valueAt? "type" es = t, Datum.valueAt? "type" es' = t' at hrel
  cases hrel with
  | none => rfl
  | some heq => rw [show _ = _ from heq]

theorem Place.verdict_payload_alike {es es' : Fields} (h : es.Alike (Place.payload.keys es) es') :
    (Place.payload.check (.dict es)).verdict = (Place.payload.check (.dict es')).verdict := by
  unfold Place.check
  unfold Place.keys at h
  cases hkind : es.kind? with
  | none =>
    rw [hkind] at h
    have hkind' : es'.kind? = none := by
      rw [← hkind, Fields.kind?, Fields.kind?, h.tag_eq List.mem_cons_self]
    simp only [hkind, hkind']
  | some kind =>
    rw [hkind] at h
    have hkind' : es'.kind? = some kind := by
      rw [← hkind, Fields.kind?, Fields.kind?, h.tag_eq kind.tag_mem_keys]
    simp only [hkind, hkind']
    exact NodeType.verdict_of_alike _ h

theorem Place.verdict_condition_alike {es es' : Fields}
    (h : es.Alike ((Place.position .condition).keys es) es') :
    (checkPart .data .condition (.dict es)).verdict = (checkPart .data .condition (.dict es')).verdict := by
  rw [checkPart, checkPart]
  unfold Place.keys at h
  cases hkind : es.conditionKind? with
  | none =>
    rw [hkind] at h
    have htag := h.tag_eq List.mem_cons_self
    have hkind' : es'.conditionKind? = none := by
      rw [← hkind, Fields.conditionKind?, Fields.conditionKind?, htag]
    rw [Position.check.eq_2 _ _ _ _ (Datum.conditionShape_of_no_kind hkind _),
      Position.check.eq_2 _ _ _ _ (Datum.conditionShape_of_no_kind hkind' _), htag]
  | some kind =>
    rw [hkind] at h
    have htag := h.tag_eq (NodeKind.condition kind).tag_mem_keys
    have hkind' : es'.conditionKind? = some kind := by
      rw [← hkind, Fields.conditionKind?, Fields.conditionKind?, htag]
    rw [Position.check.eq_3 _ _ _ _ (Datum.conditionShape_of_kind hkind _),
      Position.check.eq_3 _ _ _ _ (Datum.conditionShape_of_kind hkind' _), verdict_under, verdict_under]
    exact Fields.verdict_condition_alike kind h

/-- Objects that are alike under the keys of the first get the same verdict. -/
theorem Place.verdict_of_alike (place : Place) {es es' : Fields} (h : es.Alike (place.keys es) es') :
    (place.check (.dict es)).verdict = (place.check (.dict es')).verdict := by
  cases place with
  | payload => exact verdict_payload_alike h
  | node t => exact t.verdict_of_alike h
  | selectField =>
    obtain ⟨hname, hlabel⟩ := h
    refine verdict_seq_congr ?_ ?_
    · exact verdict_map_congr (verdict_required hname _ _)
    · exact verdict_optional hlabel _ _
  | orderSpec =>
    obtain ⟨hfield, hdirection⟩ := h
    refine verdict_seq_congr ?_ ?_
    · exact verdict_map_congr (verdict_required hfield _ _)
    · exact verdict_optional hdirection _ _
  | position p =>
    cases p with
    | condition => exact verdict_condition_alike h
    | table =>
      show (checkPart .data .table _).verdict = (checkPart .data .table _).verdict
      rw [checkPart_table, checkPart_table]
      exact verdict_table_alike h
    | join =>
      show (checkPart .data .join _).verdict = (checkPart .data .join _).verdict
      rw [checkPart_join, checkPart_join]
      exact verdict_join_alike h
    | select =>
      show (checkPart .data .select _).verdict = (checkPart .data .select _).verdict
      rw [checkPart_select, checkPart_select]
      exact verdict_select_alike h
    | unionPart =>
      show (checkPart .data .unionPart _).verdict = (checkPart .data .unionPart _).verdict
      rw [checkPart_unionPart, checkPart_unionPart]
      obtain ⟨hkind, hquery⟩ := h
      refine verdict_seq_congr ?_ ?_
      · exact verdict_map_congr (verdict_optional hkind _ _)
      · exact verdict_requiredPart_alike hquery _

end SqlAst
