import SqlAst.Proofs.StoredFields

/-!
# Where parts stand

Objects hold tables, joins, queries, members of unions and conditions in some of their fields. Each kind of
object lists these fields as slots, in the order of their declaration. What the slots of a payload hold, and
the slots of what they hold, are its parts: field by field and item by item, at every depth.

* `NodeKind.slots`, `Position.slots`: the slots of nodes, and of what stands at a position.
* `Datum.partsAt`, `Fields.partsIn`: the parts of a datum and of the entries of an object.
* `Fields.check_of_given`, `Fields.check_of_notGiven`: the check of a field by what is given for it.
-/
namespace SqlAst

deriving instance DecidableEq for FieldName, Position

/-- A field that holds parts: one, or a sequence of them. -/
structure Slot where
  field : FieldName
  position : Position
  several : Bool
  deriving DecidableEq

/-- What stands at a position. -/
structure Part where
  position : Position
  datum : Datum

/-! ## Slots -/

namespace Slot

def tables : Slot := ⟨.plain "tables", .table, true⟩
def joins : Slot := ⟨.plain "joins", .join, true⟩
def filters : Slot := ⟨.filters, .condition, true⟩
def groupFilters : Slot := ⟨.groupFilters, .condition, true⟩
def unions : Slot := ⟨.unions, .unionPart, true⟩
def operands : Slot := ⟨.plain "conditions", .condition, true⟩
def source : Slot := ⟨.plain "source", .select, false⟩
def joined : Slot := ⟨.plain "table", .table, false⟩
def joinCondition : Slot := ⟨.plain "condition", .condition, false⟩
def member : Slot := ⟨.plain "query", .select, false⟩
def insertSource : Slot := ⟨.insertSource, .select, false⟩

end Slot

/-- The slots of a node, in the order of their declaration. -/
def NodeKind.slots : NodeKind → List Slot
  | .table => [.source]
  | .join => [.joined, .joinCondition]
  | .select => [.tables, .joins, .filters, .groupFilters, .unions]
  | .condition (.combine _) => [.operands]
  | .condition _ => []
  | .delete | .update => [.tables, .joins, .filters]
  | .insert => [.insertSource]

/-- The kind of condition that the entries of an object are tagged as. -/
def Fields.conditionKind? (es : Fields) : Option ConditionKind :=
  ((Datum.valueAt? "type" es).bind Datum.asText?).bind ConditionKind.ofTag?

theorem Datum.conditionShape_of_kind {es : Fields} {kind : ConditionKind}
    (h : Fields.conditionKind? es = some kind) (form : Form) :
    (Datum.dict es).conditionShape form = .tagged kind := by
  obtain ⟨s, hs, hkind⟩ := Option.bind_eq_some_iff.1 h
  obtain ⟨t, ht, hs⟩ := Option.bind_eq_some_iff.1 hs
  simp [conditionShape, ht, hs, hkind]

theorem Datum.conditionShape_of_no_kind {es : Fields} (h : Fields.conditionKind? es = none)
    (form : Form) :
    (Datum.dict es).conditionShape form = .flawed (match valueAt? "type" es with
      | some t => .unknownTag (Text.replaced t.phrase)
      | none => .missingTag) := by
  cases htype : valueAt? "type" es with
  | none => simp [conditionShape, htype]
  | some t =>
    have hnone : t.asText?.bind ConditionKind.ofTag? = none := by
      rw [← h, Fields.conditionKind?, htype]
      rfl
    simp [conditionShape, htype, hnone]

/-- The slots of an object at a position. Only conditions are told from their tag. -/
def Position.slots (p : Position) (es : Fields) : List Slot :=
  match p with
  | .condition => (es.conditionKind?.map fun kind => (NodeKind.condition kind).slots).getD []
  | .table => NodeKind.table.slots
  | .join => NodeKind.join.slots
  | .select => NodeKind.select.slots
  | .unionPart => [.member]

theorem Position.slots_of_kind {es : Fields} {kind : ConditionKind} (h : es.conditionKind? = some kind) :
    Position.condition.slots es = (NodeKind.condition kind).slots := by
  rw [slots, h]
  rfl

theorem Position.slots_of_no_kind {es : Fields} (h : es.conditionKind? = none) :
    Position.condition.slots es = [] := by
  rw [slots, h]
  rfl

/-! ## Parts -/

/-- The items of a sequence. -/
def Datum.elements : Datum → List Datum
  | .list items | .tuple items => items
  | _ => []

theorem Datum.sizeOf_elements {a d : Datum} (h : a ∈ d.elements) : sizeOf a < sizeOf d := by
  cases d with
  | list items | tuple items =>
    have hsize := List.sizeOf_lt_of_mem (show a ∈ items from h)
    simp only [Datum.list.sizeOf_spec, Datum.tuple.sizeOf_spec]
    omega
  | _ => cases h

/-- Induction on data by what stands in the entries of dictionaries, at any depth. -/
theorem Datum.byEntries {motive : Datum → Prop}
    (dict : ∀ es : Fields, (∀ a, sizeOf a < sizeOf es → motive a) → motive (.dict es))
    (other : ∀ d, (∀ es, d ≠ .dict es) → motive d) (d : Datum) : motive d := by
  match d with
  | .dict es => exact dict es fun a ha => byEntries dict other a
  | .null | .bool _ | .int _ | .float _ | .text _ | .list _ | .tuple _ | .date _ | .dateTime _ | .member _
  | .node _ | .field _ | .order _ | .part _ | .flavor _ | .settings _ | .exception _ _
  | .error _ _ _ _ => exact other _ fun _ h => by cases h
termination_by sizeOf d
decreasing_by
  simp only [Datum.dict.sizeOf_spec]
  omega

namespace Fields

/-- What is given for a field: under its stored name, or else under the name it has in calls. -/
def given? (es : Fields) (f : FieldName) : Option Datum :=
  (Datum.valueAt? f.stored es).or (Datum.valueAt? f.name es)

theorem sizeOf_given {es : Fields} {f : FieldName} {d : Datum} (h : es.given? f = some d) :
    sizeOf d < sizeOf es := by
  rcases Option.or_eq_some_iff.1 h with h | ⟨-, h⟩
  · exact Datum.sizeOf_entry h
  · exact Datum.sizeOf_entry h

end Fields

namespace Slot

/-- What the slot holds in an object. -/
def held (s : Slot) (es : Fields) : List Datum :=
  match es.given? s.field with
  | some d => if s.several then d.elements else [d]
  | none => []

theorem sizeOf_held {s : Slot} {es : Fields} {a : Datum} (h : a ∈ s.held es) : sizeOf a < sizeOf es := by
  unfold held at h
  split at h
  · rename_i d hd
    have hsize := Fields.sizeOf_given hd
    split at h
    · exact Nat.lt_trans (Datum.sizeOf_elements h) hsize
    · rw [List.mem_singleton.1 h]
      exact hsize
  · cases h

end Slot

/-- A datum at a position, followed by all parts inside it. -/
def Datum.partsAt (p : Position) (d : Datum) : List Part :=
  ⟨p, d⟩ ::
    match d with
    | .dict es => (p.slots es).flatMap fun s => (s.held es).attach.flatMap fun a => a.1.partsAt s.position
    | _ => []
  termination_by sizeOf d
  decreasing_by
    have := Slot.sizeOf_held a.2
    simp only [Datum.dict.sizeOf_spec]
    omega

/-- The parts in some slots of an object. -/
def Fields.partsIn (es : Fields) (slots : List Slot) : List Part :=
  slots.flatMap fun s => (s.held es).flatMap (Datum.partsAt s.position)

theorem Datum.partsAt_dict (p : Position) (es : Fields) :
    (Datum.dict es).partsAt p = ⟨p, .dict es⟩ :: es.partsIn (p.slots es) := by
  have hheld (s : Slot) : ((s.held es).attach.flatMap fun a => a.1.partsAt s.position) =
      (s.held es).flatMap (partsAt s.position) := by
    rw [← List.flatMap_map, List.attach_map_subtype_val]
  rw [partsAt]
  simp only [hheld]
  rfl

theorem Datum.partsAt_of_not_dict {p : Position} {d : Datum} (h : ∀ es, d ≠ .dict es) :
    d.partsAt p = [⟨p, d⟩] := by
  unfold partsAt
  split
  · exact absurd rfl (h _)
  · rfl

/-! ## Fields by what is given -/

namespace Fields

variable {α : Type} {es : Fields} {f : FieldName} {absent : Checked α}
  {value : (d : Datum) → sizeOf d < sizeOf es → Checked α}

theorem check_of_stored {d : Datum} (h : Datum.valueAt? f.stored es = some d) :
    es.check f absent value = (value d (Datum.sizeOf_entry h)).under (.key f.stored) := by
  unfold check
  split
  · rename_i a ha
    obtain rfl : a = d := Option.some.inj (ha.symm.trans h)
    rfl
  · rename_i hnone
    rw [h] at hnone
    cases hnone

theorem check_of_named {d : Datum} (hstored : Datum.valueAt? f.stored es = none)
    (h : Datum.valueAt? f.name es = some d) :
    es.check f absent value = (value d (Datum.sizeOf_entry h)).under (.key f.name) := by
  unfold check
  split
  · rename_i ha
    rw [hstored] at ha
    cases ha
  · split
    · rename_i a ha
      obtain rfl : a = d := Option.some.inj (ha.symm.trans h)
      rfl
    · rename_i hnone
      rw [h] at hnone
      cases hnone

theorem check_of_given {d : Datum} (h : es.given? f = some d) :
    ∃ step, es.check f absent value = (value d (sizeOf_given h)).under step := by
  rcases Option.or_eq_some_iff.1 h with hstored | ⟨hstored, hname⟩
  · exact ⟨_, check_of_stored hstored⟩
  · exact ⟨_, check_of_named hstored hname⟩

theorem check_of_notGiven (h : es.given? f = none) : es.check f absent value = absent := by
  obtain ⟨hstored, hname⟩ := Option.or_eq_none_iff.1 h
  exact check_absent hstored hname

end Fields

end SqlAst
