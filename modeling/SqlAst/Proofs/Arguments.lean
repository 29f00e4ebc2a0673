import SqlAst.Proofs.Counts
import SqlAst.Proofs.Sequences

/-!
# What the arguments of builders stand for

A builder takes its arguments loosely: a name or a statement for a table, a field or its name or a
dictionary with both, a member of a vocabulary or its word. Each relation below says of a datum what it
stands for, and each check or maker of a part gives just that.

* `checkPart_iff`: an object is taken as it is, or read from the data of a dictionary.
* `Table.make_iff`, `Join.make_iff`, `SelectField.ofItems_iff`, `OrderSpec.make_iff`, `UnionPart.make_iff`:
  what is made of the arguments.
-/
namespace SqlAst

namespace Datum

variable {α : Type}

/-- An object that may be left out, which null stands for. -/
def IsOptional (is : Datum → α → Prop) (d : Datum) : Option α → Prop
  | none => d = .null
  | some a => is d a

/-- A text, or a member of a vocabulary, which counts as its word. -/
def IsText (d : Datum) (s : String) : Prop := d.asText? = some s

/-- An object for a position: itself, or one that the data of a dictionary are read as. -/
def IsPart (p : Position) (d : Datum) (x : p.Value) : Prop :=
  d = p.datum x ∨ ∃ entries, d = .dict entries ∧ checkPart .data p (.dict entries) = .ok x

/-- The source of a table: a name or a statement. -/
inductive IsSource (d : Datum) : Source → Prop where
  | name {s : String} : d.IsText s → IsSource d (.name s)
  | query {q : Select} : d.IsPart .select q → IsSource d (.query q)

/-- The table of a join: a table, or a source without an alias. -/
inductive IsJoined : Datum → Table → Prop where
  | table (t : Table) : IsJoined (.node (.table t)) t
  | source {d : Datum} {s : Source} : d.IsSource s → IsJoined d ⟨s, none⟩

/-- A field of a select list: a field, a name, or a dictionary with a name and perhaps an alias. -/
inductive IsField : Datum → SelectField → Prop where
  | field (f : SelectField) : IsField (.field f) f
  | name {d : Datum} {s : String} : d.IsText s → IsField d ⟨s, none⟩
  | entries {entries : Fields} {name : Datum} {s : String} {label : Option String} :
    (∀ e ∈ entries, ∃ key, e.1.IsText key ∧ key ≠ "model_class") →
    valueAt? "name" entries = some name → name.IsText s →
    (ofOption (valueAt? "alias" entries)).IsOptional IsText label → IsField (.dict entries) ⟨s, label⟩

end Datum

/-! ## Checks -/

namespace Checked

variable {α : Type}

theorem text_iff {d : Datum} {s : String} : text d = .ok s ↔ d.IsText s := by
  rw [text, Datum.IsText]
  cases d.asText? <;> simp [fail]

/-- A check of what may be left out, if it refuses null. -/
theorem nullable_iff {check : Datum → Checked α} {is : Datum → α → Prop}
    (h : ∀ d a, check d = .ok a ↔ is d a) (hnull : ∀ a, check .null ≠ .ok a) {d : Datum} {a : Option α} :
    nullable check d = .ok a ↔ d.IsOptional is a := by
  by_cases hd : d = .null
  · subst hd
    cases a with
    | none => exact iff_of_true rfl rfl
    | some a =>
      refine iff_of_false (fun hc => ?_) fun hi => hnull a ((h _ a).mpr hi)
      cases Checked.ok.inj hc
  · rw [nullable.eq_2 _ _ hd, map_eq_ok_iff]
    cases a with
    | none => exact iff_of_false (by rintro ⟨x, -, hx⟩; cases hx) hd
    | some a => simp only [Option.some.injEq, exists_eq_right, h, Datum.IsOptional]

theorem nullable_text_iff {d : Datum} {s : Option String} :
    nullable text d = .ok s ↔ d.IsOptional Datum.IsText s :=
  nullable_iff (fun _ _ => text_iff) fun _ h => by cases h

/-- The members of a vocabulary are told by their words. -/
theorem member_iff {all : List α} {word : α → String} (hall : ∀ a, a ∈ all)
    (hinj : Function.Injective word) {d : Datum} {a : α} :
    member all word d = .ok a ↔ d.IsText (word a) := by
  rw [member, Datum.IsText]
  cases d.asText? with
  | none => simp [fail]
  | some s =>
    dsimp only
    cases hfind : all.find? (word · = s) with
    | none =>
      rw [List.find?_eq_none] at hfind
      refine iff_of_false (fun h => by unfold unexpected fail at h; cases h) fun h => ?_
      exact hfind a (hall a) (decide_eq_true (Option.some.inj h).symm)
    | some b =>
      have hb : word b = s := by simpa using List.find?_some hfind
      subst hb
      rw [Checked.ok.injEq, Option.some.injEq]
      exact ⟨congrArg word, fun h => hinj h⟩

theorem joinKind_iff {d : Datum} {kind : JoinKind} : joinKind d = .ok kind ↔ d.IsText kind.word :=
  member_iff (fun a => by cases a <;> decide) fun a b h => by revert h; cases a <;> cases b <;> decide

theorem unionKind_iff {d : Datum} {kind : UnionKind} : unionKind d = .ok kind ↔ d.IsText kind.word :=
  member_iff (fun a => by cases a <;> decide) fun a b h => by revert h; cases a <;> cases b <;> decide

theorem direction_iff {d : Datum} {direction : Direction} :
    Checked.direction d = .ok direction ↔ d.IsText direction.word :=
  member_iff (fun a => by cases a <;> decide) fun a b h => by revert h; cases a <;> cases b <;> decide

end Checked

/-- An object at a position is taken as it is, or read from a dictionary; nothing else is taken. -/
theorem checkPart_iff {p : Position} {d : Datum} {x : p.Value} :
    checkPart .data p d = .ok x ↔ d.IsPart p x := by
  constructor
  · intro h
    cases d with
    | dict entries => exact .inr ⟨entries, rfl, h⟩
    | node n =>
      refine .inl ?_
      rw [checkPart] at h
      cases p <;> cases n <;> cases h
      all_goals rfl
    | part u =>
      refine .inl ?_
      rw [checkPart] at h
      cases p <;> cases h
      rfl
    | _ =>
      rw [checkPart] at h
      cases p <;> cases h
  · rintro (rfl | ⟨entries, rfl, h⟩)
    · exact p.check_datum x
    · exact h

/-! ## What is made -/

namespace Fields

theorem source_iff {d : Datum} {s : Source} :
    Fields.source d (checkPart .data .select d) = .ok s ↔ d.IsSource s := by
  unfold Fields.source
  cases htext : d.asText? with
  | some t =>
    rw [Checked.ok.injEq]
    constructor
    · rintro rfl
      exact .name htext
    · rintro (h | h)
      · rw [Datum.IsText, htext, Option.some.injEq] at h
        rw [h]
      · rcases h with rfl | ⟨entries, rfl, -⟩ <;> cases htext
  | none =>
    dsimp only
    cases hquery : checkPart .data .select d with
    | ok q =>
      rw [Checked.ok.injEq]
      constructor
      · rintro rfl
        exact .query (checkPart_iff.mp hquery)
      · rintro (h | h)
        · rw [Datum.IsText, htext] at h
          cases h
        · rw [← checkPart_iff, hquery, Checked.ok.injEq] at h
          rw [h]
    | bad issues =>
      refine iff_of_false (fun h => ?_) fun h => ?_
      · rw [Checked.apply_eq_ok_iff] at h
        obtain ⟨_, _, -, h, -⟩ := h
        cases h
      · rcases h with h | h
        · rw [Datum.IsText, htext] at h
          cases h
        · rw [← checkPart_iff, hquery] at h
          cases h

/-- A field with one name: its check, or what stands for an absent one. -/
theorem check_plain {α : Type} {entries : Fields} {name : String} {absent : Checked α}
    {value : Datum → Checked α} :
    entries.check (.plain name) absent (fun d _ => value d) =
      ((Datum.valueAt? name entries).map fun d => (value d).under (.key name)).getD absent := by
  cases h : Datum.valueAt? name entries with
  | none => exact check_absent h h
  | some d =>
    unfold Fields.check
    split
    · rename_i d' h'
      obtain rfl := Option.some.inj (h'.symm.trans h)
      rfl
    · rename_i h'
      cases h'.symm.trans h

theorem selectField_iff {entries : Fields} {f : SelectField} :
    Fields.selectField entries = .ok f ↔
      (∃ name, Datum.valueAt? "name" entries = some name ∧ name.IsText f.name) ∧
        (Datum.ofOption (Datum.valueAt? "alias" entries)).IsOptional Datum.IsText f.label := by
  have hname {s : String} : entries.required "name" none Checked.text = .ok s ↔
      ∃ name, Datum.valueAt? "name" entries = some name ∧ name.IsText s := by
    rw [required, check_plain]
    cases Datum.valueAt? "name" entries <;> simp [present, Checked.under_eq_ok_iff, Checked.text_iff]
  have hlabel {s : Option String} :
      entries.optional (.plain "alias") none (Checked.nullable Checked.text) = .ok s ↔
        (Datum.ofOption (Datum.valueAt? "alias" entries)).IsOptional Datum.IsText s := by
    rw [optional, check_plain, ← Checked.nullable_text_iff]
    cases Datum.valueAt? "alias" entries with
    | none => rfl
    | some d => exact Checked.under_eq_ok_iff
  rw [Fields.selectField, Checked.fmap_eq_map, Checked.seq_eq_apply, Checked.apply_eq_ok_iff]
  simp only [Checked.map_eq_ok_iff, hname, hlabel]
  constructor
  · rintro ⟨g, label, ⟨name, h, rfl⟩, hl, rfl⟩
    exact ⟨h, hl⟩
  · rintro ⟨h, hl⟩
    exact ⟨_, _, ⟨_, h, rfl⟩, hl, rfl⟩

end Fields

theorem Table.make_iff {source label : Datum} {t : Table} :
    Table.make source label = .ok t ↔
      source.IsSource t.source ∧ label.IsOptional Datum.IsText t.label := by
  have hmake : Table.make source label =
      ((fun _ s l => ⟨s, l⟩) <$> Checked.ok ()
        <*> (Fields.source source (checkPart .data .select source)).under (.key "source")
        <*> (Checked.nullable Checked.text label).under (.key "alias")).orInvalid NodeKind.table.tag := rfl
  obtain ⟨s, l⟩ := t
  rw [hmake, Checked.orInvalid_eq_ok_iff, ← Fields.source_iff, ← Checked.nullable_text_iff]
  cases Fields.source source (checkPart .data .select source) <;>
    cases Checked.nullable Checked.text label <;>
      simp [Checked.fmap_eq_map, Checked.seq_eq_apply, Checked.map, Checked.apply, Checked.under]

theorem Table.ofDatum_iff {d : Datum} {t : Table} : Table.ofDatum d = .ok t ↔ d.IsJoined t := by
  unfold Table.ofDatum
  split
  · rename_i t'
    rw [Except.ok.injEq]
    constructor
    · rintro rfl
      exact .table t'
    · rintro (- | h)
      · rfl
      · rcases h with h | h
        · cases h
        · rcases h with h | ⟨_, h, -⟩ <;> cases h
  · rename_i hne
    rw [Table.make_iff]
    obtain ⟨source, label⟩ := t
    constructor
    · rintro ⟨hs, hl⟩
      cases label with
      | none => exact .source hs
      | some s => cases hl
    · rintro (- | h)
      · exact absurd rfl (hne _)
      · exact ⟨h, rfl⟩

theorem Join.make_iff {table condition kind : Datum} {j : Join} :
    Join.make table condition kind = .ok j ↔
      table.IsJoined j.table ∧ condition.IsOptional (Datum.IsPart .condition) j.condition ∧
        kind.IsText j.kind.word := by
  have hmake : Join.make table condition kind = (do
      let t ← Table.ofDatum table
      ((fun _ t c k => ⟨t, c, k⟩) <$> Checked.ok ()
        <*> (checkPart .data .table (.node (.table t))).under (.key "table")
        <*> (Checked.nullable (checkPart .data .condition) condition).under (.key "condition")
        <*> (Checked.joinKind kind).under (.key "join_type")).orInvalid NodeKind.join.tag) := by
    cases condition <;> rfl
  have hcondition {c : Option Condition} :
      Checked.nullable (checkPart .data .condition) condition = .ok c ↔
        condition.IsOptional (Datum.IsPart .condition) c :=
    Checked.nullable_iff (fun _ _ => checkPart_iff) fun c h => by rw [checkPart] at h; cases h
  obtain ⟨t, c, k⟩ := j
  rw [hmake, ← Table.ofDatum_iff, ← hcondition, ← Checked.joinKind_iff]
  cases Table.ofDatum table with
  | error e => exact iff_of_false (fun h => by cases h) fun h => by cases h.1
  | ok t' =>
    have htable : checkPart .data .table (.node (.table t')) = .ok t' := Position.table.check_datum t'
    show Checked.orInvalid _ _ = .ok _ ↔ _
    rw [htable, Checked.orInvalid_eq_ok_iff]
    cases Checked.nullable (checkPart .data .condition) condition <;> cases Checked.joinKind kind <;>
      simp [Checked.fmap_eq_map, Checked.seq_eq_apply, Checked.map, Checked.apply, Checked.under]

namespace SelectField

/-- A text alone makes a field of this name. -/
theorem make_name_iff {d : Datum} {s : String} {f : SelectField} (hs : d.IsText s) :
    make (Build.named [("name", d)]) = .ok f ↔ ⟨s, none⟩ = f := by
  rw [make, Checked.orInvalid_eq_ok_iff, Fields.selectField_iff]
  obtain ⟨name, label⟩ := f
  constructor
  · rintro ⟨⟨_, h, hn⟩, hl⟩
    cases h
    obtain rfl := Option.some.inj (hs.symm.trans hn)
    cases label with
    | none => rfl
    | some l => cases hl
  · intro h
    cases h
    exact ⟨⟨d, rfl, hs⟩, rfl⟩

theorem ofDatum_text_iff {d : Datum} {s : String} {f : SelectField} (hs : d.IsText s)
    (hmake : ofDatum d = make (Build.named [("name", d)])) (hdict : ∀ entries, d ≠ .dict entries)
    (hfield : ∀ f', d ≠ .field f') : ofDatum d = .ok f ↔ d.IsField f := by
  rw [hmake, make_name_iff hs]
  constructor
  · rintro rfl
    exact .name hs
  · intro h
    cases h with
    | field => exact absurd rfl (hfield _)
    | name hs' => rw [Option.some.inj (hs.symm.trans hs')]
    | entries => exact absurd rfl (hdict _)

/-- What the keys of a dictionary have to be for its entries to be passed as arguments. -/
theorem keys_iff {entries : Fields} :
    ((entries.map fun e => e.1.asText?).all Option.isSome ∧
        some "model_class" ∉ entries.map fun e => e.1.asText?) ↔
      ∀ e ∈ entries, ∃ key, e.1.IsText key ∧ key ≠ "model_class" := by
  rw [List.all_eq_true, List.forall_mem_map]
  constructor
  · rintro ⟨hall, hno⟩ e he
    obtain ⟨key, hkey⟩ := Option.isSome_iff_exists.mp (hall e he)
    exact ⟨key, hkey, fun h => hno (List.mem_map.mpr ⟨e, he, by rw [hkey, h]⟩)⟩
  · intro h
    refine ⟨fun e he => ?_, fun hmem => ?_⟩
    · obtain ⟨key, hkey, -⟩ := h e he
      exact Option.isSome_iff_exists.mpr ⟨key, hkey⟩
    · obtain ⟨e, he, hmodel⟩ := List.mem_map.mp hmem
      obtain ⟨key, hkey, hne⟩ := h e he
      exact hne (Option.some.inj (hkey.symm.trans hmodel))

theorem ofDatum_dict_iff {entries : Fields} {f : SelectField} :
    ofDatum (.dict entries) = .ok f ↔ Datum.IsField (.dict entries) f := by
  rw [ofDatum]
  by_cases h : ∀ e ∈ entries, ∃ key, e.1.IsText key ∧ key ≠ "model_class"
  · rw [if_pos (keys_iff.mpr h), make, Checked.orInvalid_eq_ok_iff, Fields.selectField_iff]
    constructor
    · rintro ⟨⟨name, hn, hs⟩, hl⟩
      exact .entries h hn hs hl
    · intro hf
      cases hf with
      | name hs => cases hs
      | entries _ hn hs hl => exact ⟨⟨_, hn, hs⟩, hl⟩
  · rw [if_neg (mt keys_iff.mp h)]
    refine iff_of_false (fun hmade => by cases hmade) fun hf => ?_
    cases hf with
    | name hs => cases hs
    | entries hall => exact h hall

theorem ofDatum_iff {d : Datum} {f : SelectField} : ofDatum d = .ok f ↔ d.IsField f := by
  cases d with
  | field f' =>
    constructor
    · intro h
      cases h
      exact .field f
    · intro h
      cases h with
      | field => rfl
      | name hs => cases hs
  | text s => exact ofDatum_text_iff (s := s) rfl rfl (fun _ h => by cases h) fun _ h => by cases h
  | member m => exact ofDatum_text_iff (s := m.value) rfl rfl (fun _ h => by cases h) fun _ h => by cases h
  | dict entries => exact ofDatum_dict_iff
  | _ =>
    refine iff_of_false (fun h => by cases h) fun h => ?_
    cases h with
    | name hs => cases hs

end SelectField

theorem SelectField.ofItems_iff {d : Datum} {fs : List SelectField} :
    SelectField.ofItems d = .ok fs ↔
      ∃ items, d.items? = some items ∧ List.Forall₂ Datum.IsField items fs := by
  rw [ofItems, Build.sequence]
  cases d.items? with
  | none => exact iff_of_false (fun h => by cases h) (by rintro ⟨_, h, -⟩; cases h)
  | some items =>
    show items.mapM ofDatum = .ok fs ↔ _
    simp only [mapM_eq_ok_iff_forall₂, Option.some.injEq, exists_eq_left', SelectField.ofDatum_iff]

theorem SelectField.named_iff {name label : Datum} {f : SelectField} :
    SelectField.named name label = .ok f ↔
      name.IsText f.name ∧ label.IsOptional Datum.IsText f.label := by
  rw [named, make, Checked.orInvalid_eq_ok_iff, Fields.selectField_iff]
  exact and_congr_left' ⟨fun ⟨_, h, hn⟩ => by cases h; exact hn, fun h => ⟨_, rfl, h⟩⟩

theorem OrderSpec.make_iff {field direction : Datum} {o : OrderSpec} :
    OrderSpec.make field direction = .ok o ↔
      field.IsText o.field ∧ direction.IsText o.direction.word := by
  have hmake : OrderSpec.make field direction =
      (OrderSpec.mk <$> (Checked.text field).under (.key "field")
        <*> (Checked.direction direction).under (.key "direction")).orInvalid "OrderSpec" := rfl
  rw [hmake, Checked.orInvalid_eq_ok_iff, Checked.both_eq_ok_iff]
  simp only [Checked.under_eq_ok_iff, Checked.text_iff, Checked.direction_iff]
  constructor
  · rintro ⟨n, d, hn, hd, rfl⟩
    exact ⟨hn, hd⟩
  · rintro ⟨hn, hd⟩
    exact ⟨_, _, hn, hd, rfl⟩

theorem UnionPart.make_iff {query kind : Datum} {u : UnionPart} :
    UnionPart.make query kind = .ok u ↔
      query.IsPart .select u.query ∧ kind.IsText u.kind.word := by
  have hmake : UnionPart.make query kind =
      (UnionPart.mk <$> (Checked.unionKind kind).under (.key "union_type")
        <*> (checkPart .data .select query).under (.key "query")).orInvalid "UnionPart" := rfl
  rw [hmake, Checked.orInvalid_eq_ok_iff, Checked.both_eq_ok_iff]
  simp only [Checked.under_eq_ok_iff, Checked.unionKind_iff]
  constructor
  · rintro ⟨k, q, hk, hq, rfl⟩
    exact ⟨checkPart_iff.mp hq, hk⟩
  · rintro ⟨hq, hk⟩
    exact ⟨_, _, hk, checkPart_iff.mpr hq, by cases u; rfl⟩

end SqlAst
