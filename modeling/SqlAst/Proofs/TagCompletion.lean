import Mathlib.Data.List.Basic
import SqlAst.Proofs.Parts

/-!
# Payloads with all tags

Tables, joins and queries are told from where they stand. To complete a payload is to give each of them the
tag of its kind if it has none, at every depth. Checks do not see the difference.

* `Datum.completed`, `Fields.completed`: the payload with the tags added.
* `Datum.partsAt_completed`: the parts of the completed datum are the completed parts.
* `checkPart_completed`, `NodeType.check_completed`: its check is that of the payload itself.
-/
namespace SqlAst

/-- The kind of node that an object at a position is, if where it stands tells. -/
def Position.kind? : Position → Option NodeKind
  | .table => some .table
  | .join => some .join
  | .select => some .select
  | .condition | .unionPart => none

/-- The slot that a name belongs to. -/
def Slot.named? (slots : List Slot) (name : String) : Option Slot :=
  slots.find? fun s => s.field.stored = name ∨ s.field.name = name

/-- The tag to add to an object: that of its kind, if it has none. -/
def Fields.lacking (own : Option NodeKind) (es : Fields) : Fields :=
  match Datum.valueAt? "type" es, own with
  | none, some kind => [(.text "type", .text kind.tag)]
  | _, _ => []

namespace Datum

mutual

/-- A datum at a position with all tags. -/
def completed (p : Position) : Datum → Datum
  | .dict es => .dict (Fields.lacking p.kind? es ++ entriesCompleted (p.slots es) es)
  | d => d

/-- Entries with all tags in some slots. -/
def entriesCompleted (slots : List Slot) : List (Datum × Datum) → List (Datum × Datum)
  | [] => []
  | (k, v) :: rest =>
    (k, match k.asText?.bind (Slot.named? slots) with
      | some s => if s.several then elementsCompleted s.position v else completed s.position v
      | none => v) :: entriesCompleted slots rest

/-- A sequence with all tags in its items. -/
def elementsCompleted (p : Position) : Datum → Datum
  | .list items => .list (itemsCompleted p items)
  | .tuple items => .tuple (itemsCompleted p items)
  | d => d

def itemsCompleted (p : Position) : List Datum → List Datum
  | [] => []
  | d :: rest => completed p d :: itemsCompleted p rest

end

end Datum

/-- The entries of an object with all tags, its own included. -/
def Fields.completed (own : Option NodeKind) (slots : List Slot) (es : Fields) : Fields :=
  es.lacking own ++ Datum.entriesCompleted slots es

/-- What a slot holds with all tags; nothing changes outside slots. -/
def Slot.completed (slot? : Option Slot) (d : Datum) : Datum :=
  match slot? with
  | some s => if s.several then d.elementsCompleted s.position else d.completed s.position
  | none => d

namespace Datum

theorem completed_dict (p : Position) (es : Fields) :
    (Datum.dict es).completed p = .dict (Fields.completed p.kind? (p.slots es) es) := by
  rw [completed, Fields.completed]

theorem completed_of_not_dict {p : Position} {d : Datum} (h : ∀ es, d ≠ .dict es) :
    d.completed p = d := by
  cases d with
  | dict es => exact absurd rfl (h es)
  | _ => rfl

theorem itemsCompleted_eq_map (p : Position) (items : List Datum) :
    itemsCompleted p items = items.map (completed p) := by
  induction items with
  | nil => rw [itemsCompleted, List.map_nil]
  | cons d rest ih => rw [itemsCompleted, ih, List.map_cons]

theorem elements_elementsCompleted (p : Position) (d : Datum) :
    (d.elementsCompleted p).elements = d.elements.map (completed p) := by
  cases d with
  | list items | tuple items => exact itemsCompleted_eq_map p items
  | _ => rfl

theorem valueAt?_entriesCompleted (slots : List Slot) (es : Fields) (name : String) :
    valueAt? name (entriesCompleted slots es) =
      (valueAt? name es).map (Slot.completed (Slot.named? slots name)) := by
  induction es with
  | nil => rfl
  | cons e rest ih =>
    obtain ⟨k, v⟩ := e
    rw [entriesCompleted, valueAt?, valueAt?, ih, Option.map_or]
    congr 1
    by_cases hk : k.asText? = some name
    · rw [if_pos hk, if_pos hk, hk]
      rfl
    · rw [if_neg hk, if_neg hk, Option.map_none]

end Datum

namespace Fields

variable {es : Fields} {own : Option NodeKind} {slots : List Slot}

theorem lacking_of_tag {t : Datum} (h : Datum.valueAt? "type" es = some t) : es.lacking own = [] := by
  unfold lacking
  rw [h]

theorem lacking_none : es.lacking none = [] := by
  unfold lacking
  split
  · rename_i h
    cases h
  · rfl

theorem lacking_of_no_tag {kind : NodeKind} (h : Datum.valueAt? "type" es = none) :
    es.lacking (some kind) = [(.text "type", .text kind.tag)] := by
  unfold lacking
  rw [h]

/-- Fields other than the tag are those of the slots. -/
theorem valueAt?_completed {name : String} (hname : own = none ∨ name ≠ "type") :
    Datum.valueAt? name (es.completed own slots) =
      (Datum.valueAt? name es).map (Slot.completed (Slot.named? slots name)) := by
  rw [completed, ← Datum.valueAt?_entriesCompleted]
  cases own with
  | none => rw [lacking_none, List.nil_append]
  | some kind =>
    cases htype : Datum.valueAt? "type" es with
    | some t => rw [lacking_of_tag htype, List.nil_append]
    | none =>
      have hkey : (Datum.text "type").asText? ≠ some name := by
        intro h
        rcases hname with hown | hname
        · cases hown
        · exact hname (Option.some.inj h).symm
      rw [lacking_of_no_tag htype, List.singleton_append, Datum.valueAt?, if_neg hkey, Option.or_none]

/-- An object keeps its tag, or gets that of its kind. -/
theorem valueAt?_type_completed (h : Slot.named? slots "type" = none) :
    Datum.valueAt? "type" (es.completed own slots) =
      (Datum.valueAt? "type" es).or (own.map fun kind => .text kind.tag) := by
  have hentries : Datum.valueAt? "type" (Datum.entriesCompleted slots es) = Datum.valueAt? "type" es := by
    rw [Datum.valueAt?_entriesCompleted, h]
    exact Option.map_id'
  rw [completed]
  cases htype : Datum.valueAt? "type" es with
  | some t => rw [lacking_of_tag htype, List.nil_append, hentries, htype, Option.some_or]
  | none =>
    rw [htype] at hentries
    cases own with
    | none => rw [lacking_none, List.nil_append, hentries]; rfl
    | some kind =>
      rw [lacking_of_no_tag htype, List.singleton_append, Datum.valueAt?, hentries]
      rfl

end Fields

theorem Checked.eachFrom_congr {α β : Type} {check check' : α → Checked β} {items : List α}
    (h : ∀ a ∈ items, check a = check' a) (index : Nat) :
    eachFrom check index items = eachFrom check' index items := by
  induction items generalizing index with
  | nil => rfl
  | cons a rest ih =>
    rw [eachFrom, eachFrom, h a List.mem_cons_self, ih fun b hb => h b (List.mem_cons_of_mem a hb)]

/-! ## Fields of completed objects -/

namespace Fields

variable {es : Fields} {own : Option NodeKind} {slots : List Slot}

/-- A field that is held in a slot, or in none, whichever of its names it is given under. -/
def Places (own : Option NodeKind) (slots : List Slot) (f : FieldName) (slot? : Option Slot) : Prop :=
  Slot.named? slots f.stored = slot? ∧ Slot.named? slots f.name = slot? ∧
    (own = none ∨ f.stored ≠ "type" ∧ f.name ≠ "type")
  deriving Decidable

theorem Places.of_other {f : FieldName} {slot? : Option Slot}
    (h : Places (some .table) slots f slot?) : Places own slots f slot? :=
  ⟨h.1, h.2.1, .inr (h.2.2.resolve_left nofun)⟩

variable {α : Type} {f : FieldName} {absent : Checked α} {slot? : Option Slot}

theorem check_completed {value : (d : Datum) → sizeOf d < sizeOf es → Checked α}
    {value' : (d : Datum) → sizeOf d < sizeOf (es.completed own slots) → Checked α}
    (hf : Places own slots f slot?)
    (h : ∀ d hd hd', value' (Slot.completed slot? d) hd' = value d hd) :
    (es.completed own slots).check f absent value' = es.check f absent value := by
  obtain ⟨hstored, hname, htype⟩ := hf
  have hs : Datum.valueAt? f.stored (es.completed own slots) =
      (Datum.valueAt? f.stored es).map (Slot.completed (Slot.named? slots f.stored)) :=
    valueAt?_completed (htype.imp_right And.left)
  have hn : Datum.valueAt? f.name (es.completed own slots) =
      (Datum.valueAt? f.name es).map (Slot.completed (Slot.named? slots f.name)) :=
    valueAt?_completed (htype.imp_right And.right)
  rw [hstored] at hs
  rw [hname] at hn
  cases hgiven : Datum.valueAt? f.stored es with
  | some d =>
    rw [hgiven, Option.map_some] at hs
    rw [check_of_stored hgiven, check_of_stored hs, h]
  | none =>
    rw [hgiven, Option.map_none] at hs
    cases hgiven' : Datum.valueAt? f.name es with
    | some d =>
      rw [hgiven', Option.map_some] at hn
      rw [check_of_named hgiven hgiven', check_of_named hs hn, h]
    | none =>
      rw [hgiven', Option.map_none] at hn
      rw [check_absent hgiven hgiven', check_absent hs hn]

theorem optional_completed {default : α} {value : Datum → Checked α} (hf : Places own slots f none) :
    (es.completed own slots).optional f default value = es.optional f default value :=
  check_completed hf fun _ _ _ => rfl

theorem required_completed {name : String} {base : Option α} {value : Datum → Checked α}
    (hf : Places own slots (.plain name) none) :
    (es.completed own slots).required name base value = es.required name base value :=
  check_completed hf fun _ _ _ => rfl

theorem leaves_completed {default : List α} {item : Datum → Checked α} (hf : Places own slots f none) :
    (es.completed own slots).leaves f default item = es.leaves f default item :=
  optional_completed hf

/-- The tag of its kind is as good as none. -/
theorem tag_completed {kind : NodeKind} (h : Slot.named? slots "type" = none)
    (hown : own = none ∨ own = some kind) :
    (es.completed own slots).tag kind.tag = es.tag kind.tag := by
  have htype : Datum.valueAt? "type" (es.completed own slots) =
      (Datum.valueAt? "type" es).or (own.map fun kind => .text kind.tag) := valueAt?_type_completed h
  cases hgiven : Datum.valueAt? "type" es with
  | some t =>
    rw [hgiven, Option.some_or] at htype
    have htag {es : Fields} (h : Datum.valueAt? "type" es = some t) :
        es.tag kind.tag = (Checked.tag kind.tag t).under (.key "type") :=
      show es.check (.plain "type") (.ok ()) (fun d _ => Checked.tag kind.tag d) = _ from check_of_stored h
    rw [htag htype, htag hgiven]
  | none =>
    have habsent : es.tag kind.tag = .ok () := optional_absent hgiven hgiven
    rw [hgiven, Option.none_or] at htype
    rw [habsent]
    rcases hown with rfl | rfl
    · exact optional_absent htype htype
    · exact tag_given htype

/-! ### Parts -/

variable {form : Form} {p : Position}

/-- Completing the parts of an object makes no difference. -/
def PartsKept (form : Form) (es : Fields) : Prop :=
  ∀ p d, sizeOf d < sizeOf es → checkPart form p (d.completed p) = checkPart form p d

theorem items_completed {d : Datum}
    (h : ∀ a ∈ d.elements, checkPart form p (a.completed p) = checkPart form p a) :
    Checked.items (d.elementsCompleted p) (fun a _ => checkPart form p a) =
      Checked.items d fun a _ => checkPart form p a := by
  have hmap (items : List Datum)
      (h : ∀ a ∈ items, checkPart form p (a.completed p) = checkPart form p a) :
      Checked.each (Datum.itemsCompleted p items) (fun a _ => checkPart form p a) =
        Checked.each items fun a _ => checkPart form p a := by
    rw [Checked.each_eq, Checked.each_eq, Datum.itemsCompleted_eq_map, Checked.eachFrom_map]
    exact Checked.eachFrom_congr h 0
  cases d with
  | list items => exact hmap items h
  | tuple items => exact hmap items h
  | _ => rfl

theorem parts_completed (h : es.PartsKept form) {default : List p.Value}
    (hf : Places own slots f (some ⟨f, p, true⟩)) :
    (es.completed own slots).parts f p default (checkParts form _) =
      es.parts f p default (checkParts form es) :=
  check_completed hf fun _ hd _ =>
    items_completed fun a ha => h p a (Nat.lt_trans (Datum.sizeOf_elements ha) hd)

theorem requiredPart_completed (h : es.PartsKept form) {base : Option p.Value}
    (hf : Places own slots f (some ⟨f, p, false⟩)) :
    (es.completed own slots).requiredPart f p base (checkParts form _) =
      es.requiredPart f p base (checkParts form es) :=
  check_completed hf fun d hd _ => h p d hd

theorem nullablePart_completed (h : es.PartsKept form) {default : Option p.Value}
    (hf : Places own slots f (some ⟨f, p, false⟩)) :
    (es.completed own slots).nullablePart f p default (checkParts form _) =
      es.nullablePart f p default (checkParts form es) := by
  refine check_completed hf fun d hd _ => ?_
  cases d with
  | null => rfl
  | _ => exact congrArg (Checked.map some) (h p _ hd)

theorem source_completed (d : Datum) (query : Checked Select) :
    source (d.completed .select) query = source d query := by
  cases d <;> rfl

/-! ## Completed objects -/

theorem table_completed (h : es.PartsKept form) (base : Option Table) :
    table base (es.completed (some .table) NodeKind.table.slots) (checkParts form _) =
      table base es (checkParts form es) := by
  have hsource : (es.completed (some .table) NodeKind.table.slots).check (.plain "source")
      (present (.plain "source") (base.map Table.source))
      (fun d hd => source d (checkParts form _ .select d hd)) =
        es.check (.plain "source") (present (.plain "source") (base.map Table.source))
          fun d hd => source d (checkParts form es .select d hd) := by
    have hplace : Places (some .table) NodeKind.table.slots (.plain "source") (some .source) := by decide
    refine check_completed hplace fun d hd _ => ?_
    exact (source_completed d _).trans (congrArg (source d) (h .select d hd))
  simp (disch := decide) only [table, tag_completed, hsource, optional_completed]

theorem join_completed (h : es.PartsKept form) (base : Option Join) :
    join base (es.completed (some .join) NodeKind.join.slots) (checkParts form _) =
      join base es (checkParts form es) := by
  simp (disch := decide) only [join, tag_completed, requiredPart_completed h,
    nullablePart_completed h, optional_completed]

/-- In a member of a union, the field that is stored as the tag of others is the kind of the union. -/
theorem unionPart_completed (h : es.PartsKept form) :
    unionPart (es.completed none [.member]) (checkParts form _) = unionPart es (checkParts form es) := by
  simp (disch := decide) only [unionPart, requiredPart_completed h, optional_completed]

theorem select_completed (h : es.PartsKept form) (base : Select) :
    select base (es.completed (some .select) NodeKind.select.slots) (checkParts form _) =
      select base es (checkParts form es) := by
  simp (disch := decide) only [select, parts_completed h, leaves_completed, tag_completed,
    optional_completed]

theorem delete_completed (h : es.PartsKept form) (base : Delete) :
    delete base (es.completed (some .delete) NodeKind.delete.slots) (checkParts form _) =
      delete base es (checkParts form es) := by
  simp (disch := decide) only [delete, parts_completed h, tag_completed]

theorem update_completed (h : es.PartsKept form) (base : Update) :
    update base (es.completed (some .update) NodeKind.update.slots) (checkParts form _) =
      update base es (checkParts form es) := by
  simp (disch := decide) only [update, parts_completed h, tag_completed, optional_completed]

theorem insert_completed (h : es.PartsKept form) (base : Option Insert) :
    insert base (es.completed (some .insert) NodeKind.insert.slots) (checkParts form _) =
      insert base es (checkParts form es) := by
  have htable : (es.completed (some .insert) NodeKind.insert.slots).check .insertTable
      (present .insertTable (base.map Insert.table)) (fun d _ => Checked.text d) =
        es.check .insertTable (present .insertTable (base.map Insert.table)) fun d _ => Checked.text d := by
    have hplace : Places (some .insert) NodeKind.insert.slots .insertTable none := by decide
    exact check_completed hplace fun _ _ _ => rfl
  simp (disch := decide) only [insert, htable, tag_completed, optional_completed, leaves_completed,
    nullablePart_completed h]

theorem condition_completed {kind : ConditionKind} (hown : own = none ∨ own = some (.condition kind))
    (h : es.PartsKept form) (base : Option Condition) :
    condition kind base (es.completed own (NodeKind.condition kind).slots) (checkParts form _) =
      condition kind base es (checkParts form es) := by
  have hnamed : Slot.named? (NodeKind.condition kind).slots "type" = none := by cases kind <;> rfl
  have htag : (es.completed own (NodeKind.condition kind).slots).tag kind.tag = es.tag kind.tag :=
    tag_completed hnamed hown
  cases kind with
  | combine connective =>
    simp only [condition, htag]
    simp (disch := (apply Places.of_other; decide)) only [NodeKind.slots, parts_completed h]
  | _ =>
    simp only [condition, htag, ofColumn]
    simp (disch := (apply Places.of_other; decide)) only [NodeKind.slots, required_completed,
      optional_completed, leaves_completed]

end Fields

/-! ## Data at positions -/

/-- Conditions keep their tags, and so their slots. -/
theorem Fields.valueAt?_type_condition (es : Fields) :
    Datum.valueAt? "type" (es.completed none (Position.condition.slots es)) =
      Datum.valueAt? "type" es := by
  have hnamed : Slot.named? (Position.condition.slots es) "type" = none := by
    cases hk : es.conditionKind? with
    | some kind =>
      rw [Position.slots_of_kind hk]
      cases kind <;> rfl
    | none =>
      rw [Position.slots_of_no_kind hk]
      rfl
  rw [valueAt?_type_completed hnamed]
  exact Option.or_none

theorem Position.slots_completed (p : Position) (es : Fields) :
    p.slots (es.completed p.kind? (p.slots es)) = p.slots es := by
  cases p with
  | condition =>
    have htype := es.valueAt?_type_condition
    simp only [kind?, slots] at htype ⊢
    unfold Fields.conditionKind? at htype ⊢
    rw [htype]
  | _ => rfl

theorem checkPart_condition_completed {form : Form} {es : Fields} (h : es.PartsKept form) :
    checkPart form .condition (.dict (es.completed none (Position.condition.slots es))) =
      checkPart form .condition (.dict es) := by
  -- A condition gets no tag, so it is told from the one it has, and only its operands are completed.
  have htype := es.valueAt?_type_condition
  have hkind : Fields.conditionKind? (es.completed none (Position.condition.slots es)) =
      es.conditionKind? := by
    rw [Fields.conditionKind?, htype, Fields.conditionKind?]
  rw [checkPart, checkPart]
  cases hk : es.conditionKind? with
  | some kind =>
    rw [Position.check.eq_3 _ _ _ _ (Datum.conditionShape_of_kind (hkind.trans hk) form),
      Position.check.eq_3 _ _ _ _ (Datum.conditionShape_of_kind hk form), Position.slots_of_kind hk]
    exact congrArg _ (Fields.condition_completed (.inl rfl) h none)
  | none =>
    rw [Position.check.eq_2 _ _ _ _ (Datum.conditionShape_of_no_kind (hkind.trans hk) form),
      Position.check.eq_2 _ _ _ _ (Datum.conditionShape_of_no_kind hk form), htype]

/-- Completing a datum makes no difference for its check, issues and their places included. -/
theorem checkPart_completed (form : Form) (p : Position) (d : Datum) :
    checkPart form p (d.completed p) = checkPart form p d := by
  induction d using Datum.byEntries generalizing p with
  | dict es ih =>
    have h : Fields.PartsKept form es := fun q a ha => ih a ha q
    rw [Datum.completed_dict]
    cases p with
    | table =>
      rw [checkPart_table, checkPart_table]
      exact Fields.table_completed h none
    | join =>
      rw [checkPart_join, checkPart_join]
      exact Fields.join_completed h none
    | select =>
      rw [checkPart_select, checkPart_select]
      exact Fields.select_completed h {}
    | unionPart =>
      rw [checkPart_unionPart, checkPart_unionPart]
      exact Fields.unionPart_completed h
    | condition => exact checkPart_condition_completed h
  | other d hdict => rw [Datum.completed_of_not_dict hdict]

/-- Nor does it for a whole node. -/
theorem NodeType.check_completed (kind : NodeKind) (form : Form) (es : Fields) :
    (NodeType.stored kind).check form (.dict (es.completed (some kind) kind.slots)) =
      (NodeType.stored kind).check form (.dict es) := by
  have h : Fields.PartsKept form es := fun p d _ => checkPart_completed form p d
  show (NodeType.stored kind).ofFields form _ = (NodeType.stored kind).ofFields form es
  unfold NodeType.ofFields
  cases kind with
  | table => exact congrArg (Checked.map Node.table) (Fields.table_completed h none)
  | join => exact congrArg (Checked.map Node.join) (Fields.join_completed h none)
  | select => exact congrArg (Checked.map Node.select) (Fields.select_completed h {})
  | condition kind =>
    exact congrArg (Checked.map Node.condition) (Fields.condition_completed (.inr rfl) h none)
  | delete => exact congrArg (Checked.map Node.delete) (Fields.delete_completed h {})
  | update => exact congrArg (Checked.map Node.update) (Fields.update_completed h {})
  | insert => exact congrArg (Checked.map Node.insert) (Fields.insert_completed h none)

/-! ## Parts of completed data -/

/-- A part with all tags. -/
def Part.completed (part : Part) : Part := ⟨part.position, part.datum.completed part.position⟩

/-- The slots of a list are found by both names of their fields, none of which is that of the tag. -/
def Slot.Placed (slots : List Slot) : Prop := ∀ s ∈ slots, Fields.Places (some .table) slots s.field (some s)

theorem NodeKind.slots_placed (kind : NodeKind) : Slot.Placed kind.slots := by
  cases kind with
  | condition kind =>
    cases kind with
    | combine connective =>
      rw [slots]
      unfold Slot.Placed
      decide
    | _ => exact fun s hs => absurd hs List.not_mem_nil
  | _ =>
    unfold Slot.Placed
    decide

theorem Position.slots_placed (p : Position) (es : Fields) : Slot.Placed (p.slots es) := by
  cases p with
  | condition =>
    cases hk : es.conditionKind? with
    | some kind =>
      rw [Position.slots_of_kind hk]
      exact (NodeKind.condition kind).slots_placed
    | none =>
      rw [Position.slots_of_no_kind hk]
      exact fun s hs => absurd hs List.not_mem_nil
  | table => exact NodeKind.table.slots_placed
  | join => exact NodeKind.join.slots_placed
  | select => exact NodeKind.select.slots_placed
  | unionPart =>
    rw [slots]
    unfold Slot.Placed
    decide

section

variable {own : Option NodeKind} {slots : List Slot} {es : Fields}

theorem Fields.given?_completed {f : FieldName} {slot? : Option Slot} (hf : Places own slots f slot?) :
    (es.completed own slots).given? f = (es.given? f).map (Slot.completed slot?) := by
  obtain ⟨hstored, hname, htype⟩ := hf
  rw [given?, given?, valueAt?_completed (htype.imp_right And.left),
    valueAt?_completed (htype.imp_right And.right), hstored, hname, Option.map_or]

theorem Slot.held_completed {s : Slot} (hs : Fields.Places own slots s.field (some s)) :
    s.held (es.completed own slots) = (s.held es).map (Datum.completed s.position) := by
  rw [held, held, Fields.given?_completed hs]
  cases es.given? s.field with
  | none => rfl
  | some d =>
    rw [Option.map_some]
    dsimp only
    rw [Slot.completed]
    cases s.several with
    | true => exact Datum.elements_elementsCompleted s.position d
    | false => rfl

theorem Fields.partsIn_completed (hslots : Slot.Placed slots)
    (h : ∀ p (d : Datum), sizeOf d < sizeOf es →
      (d.completed p).partsAt p = (d.partsAt p).map Part.completed) :
    (es.completed own slots).partsIn slots = (es.partsIn slots).map Part.completed := by
  rw [partsIn, partsIn, List.map_flatMap]
  refine List.flatMap_congr fun s hs => ?_
  rw [Slot.held_completed (hslots s hs).of_other, List.map_flatMap, List.flatMap_map]
  exact List.flatMap_congr fun d hd => h s.position d (Slot.sizeOf_held hd)

end

/-- The parts of a completed datum are the completed parts. -/
theorem Datum.partsAt_completed (p : Position) (d : Datum) :
    (d.completed p).partsAt p = (d.partsAt p).map Part.completed := by
  induction d using Datum.byEntries generalizing p with
  | dict es ih =>
    have hparts : (es.completed p.kind? (p.slots es)).partsIn (p.slots es) =
        (es.partsIn (p.slots es)).map Part.completed :=
      Fields.partsIn_completed (p.slots_placed es) fun q a ha => ih a ha q
    rw [completed_dict, partsAt_dict, partsAt_dict, p.slots_completed es, hparts, List.map_cons,
      Part.completed, completed_dict]
  | other d hdict =>
    rw [completed_of_not_dict hdict, partsAt_of_not_dict hdict, List.map_singleton, Part.completed,
      completed_of_not_dict hdict]

end SqlAst
