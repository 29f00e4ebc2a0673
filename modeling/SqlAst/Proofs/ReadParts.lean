import Mathlib.Logic.Relation
import SqlAst.Proofs.Codecs
import SqlAst.Proofs.NestedTags

/-!
# What the objects inside a payload are read as

An object that stands inside a payload is read on its own, and what it is read as stands inside the node that is
made of the payload. So a node is made only if every object inside can be read.

* `Piece`, `Node.Holds`: what stands inside a node, and the queries among it.
* `checkPart_reads`: what an object inside is read as stands inside what the whole is read as.
* `NodeType.reads`: the objects right inside a payload.
-/
namespace SqlAst

/-! ## Pieces of nodes -/

/-- What is stored at a position of a node. -/
structure Piece where
  position : Position
  value : position.Value

def Condition.pieces : Condition → List Piece
  | .combine _ parts => parts.map (.mk .condition)
  | _ => []

def Source.pieces : Source → List Piece
  | .name _ => []
  | .query q => [⟨.select, q⟩]

def Join.pieces (j : Join) : List Piece := ⟨.table, j.table⟩ :: j.condition.toList.map (.mk .condition)

def Select.pieces (q : Select) : List Piece :=
  q.tables.map (.mk .table) ++ q.joins.map (.mk .join) ++ q.filters.map (.mk .condition) ++
    q.groupFilters.map (.mk .condition) ++ q.unions.map (.mk .unionPart)

/-- The pieces right inside of what is stored at a position. -/
def Position.pieces : (p : Position) → p.Value → List Piece
  | .condition, c => c.pieces
  | .table, t => t.source.pieces
  | .join, j => j.pieces
  | .select, q => q.pieces
  | .unionPart, u => [⟨.select, u.query⟩]

/-- The pieces right inside of a node. -/
def Node.pieces : Node → List Piece
  | .table t => t.source.pieces
  | .join j => j.pieces
  | .select q => q.pieces
  | .projection p => p.tables.map (.mk .table) ++ p.joins.map (.mk .join)
  | .condition c => c.pieces
  | .delete m =>
    m.tables.map (.mk .table) ++ m.joins.map (.mk .join) ++ m.filters.map (.mk .condition)
  | .update m =>
    m.tables.map (.mk .table) ++ m.joins.map (.mk .join) ++ m.filters.map (.mk .condition)
  | .insert m => m.source.toList.map (.mk .select)

/-- A piece is another one, or stands inside it at any depth. -/
def Piece.Within (x y : Piece) : Prop :=
  Relation.ReflTransGen (fun inner outer => inner ∈ outer.position.pieces outer.value) x y

/-- A query is a node, or stands inside it at any depth. -/
def Node.Holds (n : Node) (q : Select) : Prop := n = .select q ∨ ∃ x ∈ n.pieces, Piece.Within ⟨.select, q⟩ x

/-! ## What is read right inside an object -/

namespace Checked

variable {α : Type} {check : Datum → Checked α}

theorem mem_of_eachFrom_ok {items : List Datum} {index : Nat} {xs : List α}
    (h : eachFrom check index items = .ok xs) : ∀ a ∈ items, ∃ x ∈ xs, check a = .ok x := by
  induction items generalizing index xs with
  | nil => exact fun a ha => absurd ha List.not_mem_nil
  | cons b rest ih =>
    rw [eachFrom, apply_eq_ok_iff] at h
    obtain ⟨g, ys, hfirst, hrest, rfl⟩ := h
    obtain ⟨x, hx, rfl⟩ := map_eq_ok_iff.1 hfirst
    rw [under_eq_ok_iff] at hx
    intro a ha
    rcases List.mem_cons.1 ha with rfl | ha
    · exact ⟨x, List.mem_cons_self, hx⟩
    · obtain ⟨y, hy, hread⟩ := ih hrest a ha
      exact ⟨y, List.mem_cons_of_mem _ hy, hread⟩

theorem mem_of_items_ok {d : Datum} {xs : List α} (h : (items d fun a _ => check a) = .ok xs) :
    ∀ a ∈ d.elements, ∃ x ∈ xs, check a = .ok x := by
  cases d with
  | list as | tuple as =>
    rw [items, each_eq] at h
    exact mem_of_eachFrom_ok h
  | _ => exact fun a ha => absurd ha List.not_mem_nil

end Checked

namespace Fields

variable {es : Fields} {form : Form}

theorem check_ok_of_given {α : Type} {f : FieldName} {absent : Checked α}
    {value : (d : Datum) → sizeOf d < sizeOf es → Checked α} {x : α} (h : es.check f absent value = .ok x)
    {d : Datum} (hd : es.given? f = some d) : value d (sizeOf_given hd) = .ok x := by
  obtain ⟨step, hstep⟩ : ∃ step, es.check f absent value = (value d (sizeOf_given hd)).under step :=
    check_of_given hd
  rwa [hstep, Checked.under_eq_ok_iff] at h

/-- The objects in a slot are read, and what they are read as is among the pieces. -/
def SlotReads (form : Form) (es : Fields) (xs : List Piece) (s : Slot) : Prop :=
  ∀ fs, .dict fs ∈ s.held es → ∃ v, checkPart form s.position (.dict fs) = .ok v ∧ ⟨s.position, v⟩ ∈ xs

/-- The objects in all of the slots. -/
def Reads (form : Form) (es : Fields) (xs : List Piece) (slots : List Slot) : Prop :=
  ∀ s ∈ slots, es.SlotReads form xs s

theorem slotReads_parts {f : FieldName} {p : Position} {default vs : List p.Value} {xs : List Piece}
    (h : es.parts f p default (checkParts form es) = .ok vs) (hxs : ∀ v ∈ vs, ⟨p, v⟩ ∈ xs) :
    es.SlotReads form xs ⟨f, p, true⟩ := by
  intro fs hfs
  unfold Slot.held at hfs
  split at hfs
  · rename_i d hd
    have hitems : (Checked.items d fun a _ => checkPart form p a) = .ok vs := check_ok_of_given h hd
    obtain ⟨v, hv, hread⟩ := Checked.mem_of_items_ok hitems _ hfs
    exact ⟨v, hread, hxs v hv⟩
  · cases hfs

theorem slotReads_one {f : FieldName} {p : Position} {xs : List Piece}
    (h : ∀ fs, es.given? f = some (.dict fs) → ∃ v, checkPart form p (.dict fs) = .ok v ∧ ⟨p, v⟩ ∈ xs) :
    es.SlotReads form xs ⟨f, p, false⟩ := by
  intro fs hfs
  unfold Slot.held at hfs
  split at hfs
  · rename_i d hd
    obtain rfl : .dict fs = d := List.mem_singleton.1 hfs
    exact h fs hd
  · cases hfs

theorem slotReads_requiredPart {f : FieldName} {p : Position} {base : Option p.Value} {v : p.Value}
    {xs : List Piece} (h : es.requiredPart f p base (checkParts form es) = .ok v) (hxs : ⟨p, v⟩ ∈ xs) :
    es.SlotReads form xs ⟨f, p, false⟩ :=
  slotReads_one fun _ hd => ⟨v, check_ok_of_given h hd, hxs⟩

theorem slotReads_nullablePart {f : FieldName} {p : Position} {default v : Option p.Value} {xs : List Piece}
    (h : es.nullablePart f p default (checkParts form es) = .ok v) (hxs : ∀ x ∈ v, ⟨p, x⟩ ∈ xs) :
    es.SlotReads form xs ⟨f, p, false⟩ := by
  refine slotReads_one fun fs hd => ?_
  have hread : Checked.map some (checkPart form p (.dict fs)) = .ok v := check_ok_of_given h hd
  obtain ⟨x, hx, rfl⟩ := Checked.map_eq_ok_iff.1 hread
  exact ⟨x, hx, hxs x rfl⟩

theorem slotReads_source {base : Option Table} {src : Source}
    (h : (es.check (.plain "source") (present (.plain "source") (base.map Table.source)) fun d hd =>
      source d (checkParts form es .select d hd)) = .ok src) : es.SlotReads form src.pieces .source := by
  refine slotReads_one fun fs hd => ?_
  have hsource : source (.dict fs) (checkPart form .select (.dict fs)) = .ok src := check_ok_of_given h hd
  cases hquery : checkPart form .select (.dict fs) with
  | ok q =>
    rw [hquery] at hsource
    obtain rfl := Checked.ok.inj hsource
    exact ⟨q, rfl, List.mem_singleton.2 rfl⟩
  | bad is =>
    rw [hquery] at hsource
    cases hsource

theorem reads_table {base : Option Table} {t : Table} (h : table base es (checkParts form es) = .ok t) :
    es.Reads form t.source.pieces NodeKind.table.slots := by
  simp only [table, Checked.fmap_eq_map, Checked.seq_eq_apply, Checked.apply_eq_ok_iff,
    Checked.map_eq_ok_iff] at h
  obtain ⟨g, label, ⟨g', src, ⟨tag, htag, rfl⟩, hsource, rfl⟩, hlabel, rfl⟩ := h
  exact List.forall_mem_singleton.2 (slotReads_source hsource)

theorem reads_join {base : Option Join} {j : Join} (h : join base es (checkParts form es) = .ok j) :
    es.Reads form j.pieces NodeKind.join.slots := by
  simp only [join, Checked.fmap_eq_map, Checked.seq_eq_apply, Checked.apply_eq_ok_iff,
    Checked.map_eq_ok_iff] at h
  obtain ⟨g₃, kind, ⟨g₂, condition, ⟨g₁, table, ⟨tag, -, rfl⟩, htable, rfl⟩, hcondition, rfl⟩, -, rfl⟩ := h
  simp only [Reads, NodeKind.slots, List.forall_mem_cons]
  refine ⟨slotReads_requiredPart htable (by simp [Join.pieces]),
    slotReads_nullablePart hcondition ?_, List.forall_mem_nil _⟩
  rintro c rfl
  simp [Join.pieces]

theorem reads_unionPart {u : UnionPart} (h : unionPart es (checkParts form es) = .ok u) :
    es.Reads form [⟨.select, u.query⟩] [.member] := by
  simp only [unionPart, Checked.fmap_eq_map, Checked.seq_eq_apply, Checked.apply_eq_ok_iff,
    Checked.map_eq_ok_iff] at h
  obtain ⟨g, query, ⟨kind, -, rfl⟩, hquery, rfl⟩ := h
  exact List.forall_mem_singleton.2 (slotReads_requiredPart hquery (by simp))

/-- A query is read field by field. -/
theorem select_ok {base q : Select} {inner : Inner (sizeOf es)} (h : select base es inner = .ok q) :
    (es.parts (.plain "tables") .table base.tables inner = .ok q.tables ∧
        es.parts (.plain "joins") .join base.joins inner = .ok q.joins ∧
        es.parts .filters .condition base.filters inner = .ok q.filters ∧
        es.parts .groupFilters .condition base.groupFilters inner = .ok q.groupFilters ∧
        es.parts .unions .unionPart base.unions inner = .ok q.unions) ∧
      es.optional .limit base.limit (Checked.nullable Checked.count) = .ok q.limit ∧
      es.optional .offset base.offset (Checked.nullable Checked.count) = .ok q.offset := by
  simp only [select, Checked.fmap_eq_map, Checked.seq_eq_apply, Checked.apply_eq_ok_iff,
    Checked.map_eq_ok_iff] at h
  obtain ⟨-, unions, ⟨-, groupBy, ⟨-, orderBy, ⟨-, offset, ⟨-, limit, ⟨-, groupFilters, ⟨-, filters,
    ⟨-, tag, ⟨-, fields, ⟨-, joins, ⟨tables, htables, rfl⟩, hjoins, rfl⟩, -, rfl⟩, -, rfl⟩, hfilters, rfl⟩,
    hgroupFilters, rfl⟩, hlimit, rfl⟩, hoffset, rfl⟩, -, rfl⟩, -, rfl⟩, hunions, rfl⟩ := h
  exact ⟨⟨htables, hjoins, hfilters, hgroupFilters, hunions⟩, hlimit, hoffset⟩

theorem reads_select {base q : Select} (h : select base es (checkParts form es) = .ok q) :
    es.Reads form q.pieces NodeKind.select.slots := by
  obtain ⟨⟨htables, hjoins, hfilters, hgroupFilters, hunions⟩, -, -⟩ := select_ok h
  simp only [Reads, NodeKind.slots, List.forall_mem_cons]
  exact ⟨slotReads_parts htables fun t ht => by simp [Select.pieces, ht],
    slotReads_parts hjoins fun j hj => by simp [Select.pieces, hj],
    slotReads_parts hfilters fun c hc => by simp [Select.pieces, hc],
    slotReads_parts hgroupFilters fun c hc => by simp [Select.pieces, hc],
    slotReads_parts hunions fun u hu => by simp [Select.pieces, hu], List.forall_mem_nil _⟩

theorem reads_projection {base q : Projection} (h : projection base es (checkParts form es) = .ok q) :
    es.Reads form (Node.projection q).pieces [.tables, .joins] := by
  simp only [projection, Checked.fmap_eq_map, Checked.seq_eq_apply, Checked.apply_eq_ok_iff,
    Checked.map_eq_ok_iff] at h
  obtain ⟨-, fields, ⟨-, joins, ⟨tables, htables, rfl⟩, hjoins, rfl⟩, -, rfl⟩ := h
  simp only [Reads, List.forall_mem_cons]
  exact ⟨slotReads_parts htables fun t ht => by simp [Node.pieces, ht],
    slotReads_parts hjoins fun j hj => by simp [Node.pieces, hj], List.forall_mem_nil _⟩

theorem reads_delete {base m : Delete} (h : delete base es (checkParts form es) = .ok m) :
    es.Reads form (Node.delete m).pieces NodeKind.delete.slots := by
  simp only [delete, Checked.fmap_eq_map, Checked.seq_eq_apply, Checked.apply_eq_ok_iff,
    Checked.map_eq_ok_iff] at h
  obtain ⟨-, tag, ⟨-, filters, ⟨-, joins, ⟨tables, htables, rfl⟩, hjoins, rfl⟩, hfilters, rfl⟩, -, rfl⟩ := h
  simp only [Reads, NodeKind.slots, List.forall_mem_cons]
  exact ⟨slotReads_parts htables fun t ht => by simp [Node.pieces, ht],
    slotReads_parts hjoins fun j hj => by simp [Node.pieces, hj],
    slotReads_parts hfilters fun c hc => by simp [Node.pieces, hc], List.forall_mem_nil _⟩

theorem reads_update {base m : Update} (h : update base es (checkParts form es) = .ok m) :
    es.Reads form (Node.update m).pieces NodeKind.update.slots := by
  simp only [update, Checked.fmap_eq_map, Checked.seq_eq_apply, Checked.apply_eq_ok_iff,
    Checked.map_eq_ok_iff] at h
  obtain ⟨-, assignments, ⟨-, tag, ⟨-, filters, ⟨-, joins, ⟨tables, htables, rfl⟩, hjoins, rfl⟩, hfilters,
    rfl⟩, -, rfl⟩, -, rfl⟩ := h
  simp only [Reads, NodeKind.slots, List.forall_mem_cons]
  exact ⟨slotReads_parts htables fun t ht => by simp [Node.pieces, ht],
    slotReads_parts hjoins fun j hj => by simp [Node.pieces, hj],
    slotReads_parts hfilters fun c hc => by simp [Node.pieces, hc], List.forall_mem_nil _⟩

theorem reads_insert {base : Option Insert} {m : Insert} (h : insert base es (checkParts form es) = .ok m) :
    es.Reads form (Node.insert m).pieces NodeKind.insert.slots := by
  simp only [insert, Checked.fmap_eq_map, Checked.seq_eq_apply, Checked.apply_eq_ok_iff,
    Checked.map_eq_ok_iff] at h
  obtain ⟨-, src, ⟨-, rows, ⟨-, columns, ⟨-, name, ⟨tag, -, rfl⟩, -, rfl⟩, -, rfl⟩, -, rfl⟩, hsource, rfl⟩ := h
  simp only [Reads, NodeKind.slots, List.forall_mem_singleton]
  refine slotReads_nullablePart hsource ?_
  rintro q rfl
  simp [Node.pieces]

theorem reads_condition {kind : ConditionKind} {base : Option Condition} {c : Condition}
    (h : condition kind base es (checkParts form es) = .ok c) :
    es.Reads form c.pieces (NodeKind.condition kind).slots := by
  cases kind with
  | combine connective =>
    simp only [condition, Checked.fmap_eq_map, Checked.seq_eq_apply, Checked.apply_eq_ok_iff,
      Checked.map_eq_ok_iff] at h
    obtain ⟨-, tag, ⟨parts, hparts, rfl⟩, -, rfl⟩ := h
    exact List.forall_mem_singleton.2 (slotReads_parts hparts fun c hc => by simp [Condition.pieces, hc])
  | _ => exact List.forall_mem_nil _

end Fields

/-! ## What is read inside, at any depth -/

theorem Position.reads {p : Position} {form : Form} {es : Fields} {v : p.Value}
    (h : checkPart form p (.dict es) = .ok v) : es.Reads form (p.pieces v) (p.slots es) := by
  cases p with
  | table =>
    rw [checkPart_table] at h
    exact Fields.reads_table h
  | join =>
    rw [checkPart_join] at h
    exact Fields.reads_join h
  | select =>
    rw [checkPart_select] at h
    exact Fields.reads_select h
  | unionPart =>
    rw [checkPart_unionPart] at h
    exact Fields.reads_unionPart h
  | condition =>
    cases hk : es.conditionKind? with
    | some kind =>
      rw [checkPart, Position.check.eq_3 _ _ _ _ (Datum.conditionShape_of_kind hk form),
        Checked.under_eq_ok_iff] at h
      rw [Position.slots_of_kind hk]
      exact Fields.reads_condition h
    | none =>
      rw [Position.slots_of_no_kind hk]
      exact List.forall_mem_nil _

/-- If what stands in the slots is read down to an object inside, so is the whole. -/
theorem Fields.Reads.exists_within {form : Form} {es fs : Fields} {slots : List Slot} {xs : List Piece}
    {p : Position} (h : es.Reads form xs slots) (hin : ⟨p, .dict fs⟩ ∈ es.partsIn slots)
    (hinner : ∀ d, sizeOf d < sizeOf es → ∀ (q : Position) (v : q.Value), checkPart form q d = .ok v →
      ⟨p, .dict fs⟩ ∈ d.partsAt q → ∃ w, checkPart form p (.dict fs) = .ok w ∧ Piece.Within ⟨p, w⟩ ⟨q, v⟩) :
    ∃ w, checkPart form p (.dict fs) = .ok w ∧ ∃ x ∈ xs, Piece.Within ⟨p, w⟩ x := by
  rw [partsIn, List.mem_flatMap] at hin
  obtain ⟨s, hs, hin⟩ := hin
  obtain ⟨d, hd, hin⟩ := List.mem_flatMap.1 hin
  by_cases hdict : ∃ gs, d = .dict gs
  · obtain ⟨gs, rfl⟩ := hdict
    obtain ⟨v, hv, hmem⟩ := h s hs gs hd
    obtain ⟨w, hw, hwithin⟩ := hinner _ (Slot.sizeOf_held hd) s.position v hv hin
    exact ⟨w, hw, _, hmem, hwithin⟩
  · have hdict (gs : Fields) (hgs : d = .dict gs) : False := hdict ⟨gs, hgs⟩
    rw [Datum.partsAt_of_not_dict hdict, List.mem_singleton] at hin
    cases hin
    exact (hdict fs rfl).elim

/-- What an object inside is read as stands inside what the whole is read as. -/
theorem checkPart_reads {form : Form} {p : Position} {d : Datum} {v : p.Value}
    (h : checkPart form p d = .ok v) {q : Position} {fs : Fields} (hin : ⟨q, .dict fs⟩ ∈ d.partsAt p) :
    ∃ w, checkPart form q (.dict fs) = .ok w ∧ Piece.Within ⟨q, w⟩ ⟨p, v⟩ := by
  induction d using Datum.byEntries generalizing p with
  | dict es ih =>
    rw [Datum.partsAt_dict] at hin
    rcases List.mem_cons.1 hin with heq | hin
    · cases heq
      exact ⟨v, h, .refl⟩
    · obtain ⟨w, hw, x, hx, hwithin⟩ :=
        (Position.reads h).exists_within hin fun d hd r u hu hin => ih d hd hu hin
      exact ⟨w, hw, hwithin.tail hx⟩
  | other d hdict =>
    rw [Datum.partsAt_of_not_dict hdict, List.mem_singleton] at hin
    cases hin
    exact (hdict fs rfl).elim

/-! ## Whole payloads -/

/-- The slots of an object that a node of a type is made of. -/
def NodeType.slots : NodeType → List Slot
  | .stored kind => kind.slots
  | .projection => [.tables, .joins]

theorem NodeType.reads {t : NodeType} {form : Form} {es : Fields} {n : Node}
    (h : t.check form (.dict es) = .ok n) : es.Reads form n.pieces t.slots := by
  have h : t.ofFields form es = .ok n := h
  unfold NodeType.ofFields at h
  split at h
  all_goals
    obtain ⟨x, hx, rfl⟩ := Checked.map_eq_ok_iff.1 h
  · exact Fields.reads_table hx
  · exact Fields.reads_join hx
  · exact Fields.reads_select hx
  · exact Fields.reads_condition hx
  · exact Fields.reads_delete hx
  · exact Fields.reads_update hx
  · exact Fields.reads_insert hx
  · exact Fields.reads_projection hx

/-- An object of a payload that stands for a query: the payload itself, or one inside. -/
def NodeType.HasQuery (t : NodeType) (es fs : Fields) : Prop :=
  t = .stored .select ∧ fs = es ∨ ⟨.select, .dict fs⟩ ∈ es.partsIn t.slots

/-- If a node is made of a payload, the queries in the payload are read, and stand in the node. -/
theorem NodeType.exists_query {t : NodeType} {form : Form} {es fs : Fields} {n : Node}
    (h : t.check form (.dict es) = .ok n) (hquery : t.HasQuery es fs) :
    ∃ q, checkPart form .select (.dict fs) = .ok q ∧ n.Holds q := by
  rcases hquery with ⟨rfl, rfl⟩ | hin
  · obtain ⟨q, hq, rfl⟩ := Checked.map_eq_ok_iff.1 h
    rw [checkPart_select]
    exact ⟨q, hq, .inl rfl⟩
  · obtain ⟨q, hq, x, hx, hwithin⟩ :=
      (NodeType.reads h).exists_within hin fun d _ p v hv hin => checkPart_reads hv hin
    exact ⟨q, hq, .inr ⟨x, hx, hwithin⟩⟩

theorem NodeType.tags_check (t : NodeType) (form : Form) (es : Fields) :
    (t.check form (.dict es)).tags = es.mistags t.slots := by
  cases t with
  | stored kind => exact kind.tags_check form es
  | projection =>
    have hparts := checkParts_finds form es
    have htags : (Fields.projection {} es (checkParts form es)).tags = es.mistags [.tables, .joins] := by
      simp [Fields.projection, Fields.tags_parts hparts, Slot.tables, Slot.joins]
    exact (Checked.tags_map _ _).trans htags

end SqlAst
