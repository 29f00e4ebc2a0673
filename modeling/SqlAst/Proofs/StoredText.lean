import SqlAst.Proofs.JsonText
import SqlAst.Proofs.StoredNames

/-!
# The text of stored nodes

What a node is serialized to: the text of its stored form with replacements for the halves in the names of
columns. All doubles of a node are finite, so the text is JSON and is read back as the value it was
written from.

* `Json.withWholeNames_eq_self`: a settled value has nothing to replace.
* `Node.spellable_toJson`: the stored form of a node can be written.
* `Node.read_serialized`: both readers give the stored form from the text, or find an integer too long.
-/
namespace SqlAst

/-! ## Leaves of stored forms -/

namespace Json

theorem mem_itemLeaves {l : Json} {items : List Json} :
    l ∈ itemLeaves items ↔ ∃ j ∈ items, l ∈ j.leaves := by
  induction items with
  | nil => simp [itemLeaves]
  | cons j rest ih => simp [itemLeaves, ih]

theorem mem_entryLeaves {l : Json} {es : List (String × Json)} :
    l ∈ entryLeaves es ↔ ∃ e ∈ es, l ∈ e.2.leaves := by
  induction es with
  | nil => simp [entryLeaves]
  | cons e rest ih => simp [entryLeaves, ih]

theorem spellable_list {items : List Json} (h : ∀ j ∈ items, j.Spellable) : (list items).Spellable := by
  intro l hl
  obtain ⟨j, hj, hlj⟩ := mem_itemLeaves.1 hl
  exact h j hj l hlj

theorem spellable_object {es : List (String × Json)} (h : ∀ e ∈ es, e.2.Spellable) :
    (object es).Spellable := by
  intro l hl
  obtain ⟨e, he, hle⟩ := mem_entryLeaves.1 hl
  exact h e he l hle

theorem spellable_map {α : Type} {toJson : α → Json} {items : List α}
    (h : ∀ x ∈ items, (toJson x).Spellable) :
    (list (items.map toJson)).Spellable := by
  refine spellable_list fun j hj => ?_
  obtain ⟨x, hx, rfl⟩ := List.mem_map.1 hj
  exact h x hx

theorem spellable_text (s : String) : (text s).Spellable := by
  intro l hl
  rw [List.mem_singleton.1 hl]
  rfl

theorem spellable_int (i : Int) : (int i).Spellable := by
  intro l hl
  rw [List.mem_singleton.1 hl]
  rfl

/-- The fields of a stored form with an optional one among them. -/
theorem spellable_optional {key : String} {value : Option Json} (h : ∀ j ∈ value, j.Spellable) :
    ∀ e ∈ Stored.optional key value, e.2.Spellable := by
  intro e he
  cases value with
  | none => cases he
  | some j =>
    rw [List.mem_singleton.1 he]
    exact h j rfl

end Json

open Json Stored

theorem Scalar.spellable_toJson (v : Scalar) : v.toJson.Spellable := by
  intro l hl
  cases v with
  | float d =>
    rw [List.mem_singleton.1 hl]
    exact d.2
  | _ =>
    rw [List.mem_singleton.1 hl]
    rfl

theorem spellable_texts (items : List String) : (texts items).Spellable :=
  spellable_map fun s _ => spellable_text s

theorem SelectField.spellable_toJson (f : SelectField) : f.toJson.Spellable := by
  refine spellable_object ?_
  simp only [List.forall_mem_cons]
  refine ⟨spellable_text _, spellable_optional ?_⟩
  simp [spellable_text]

theorem OrderSpec.spellable_toJson (o : OrderSpec) : o.toJson.Spellable := by
  refine spellable_object ?_
  simp [spellable_text]

theorem Row.spellable_toJson (r : Row) : r.toJson.Spellable := by
  refine spellable_object fun e he => ?_
  obtain ⟨x, -, rfl⟩ := List.mem_map.1 he
  exact x.2.spellable_toJson

mutual

theorem Condition.spellable_toJson (c : Condition) : c.toJson.Spellable := by
  match c with
  | .compare op column value =>
    rw [Condition.toJson]
    refine spellable_object ?_
    simp only [List.forall_mem_append, List.cons_append, List.forall_mem_cons]
    refine ⟨spellable_text _, spellable_optional ?_, spellable_text _, by simp⟩
    have hvalue := value.spellable_toJson
    split <;> simp [hvalue]
  | .between column low high =>
    rw [Condition.toJson]
    have hvalues : (Json.list ([low, high].map Scalar.toJson)).Spellable :=
      spellable_map fun v _ => v.spellable_toJson
    refine spellable_object ?_
    simp only [List.forall_mem_cons]
    exact ⟨spellable_text _, spellable_text _, hvalues, by simp⟩
  | .among column values =>
    rw [Condition.toJson]
    refine spellable_object ?_
    simp only [List.forall_mem_cons]
    exact ⟨spellable_text _, spellable_text _, spellable_map fun v _ => v.spellable_toJson, by simp⟩
  | .like negated column pattern =>
    rw [Condition.toJson]
    exact spellable_object (by simp [spellable_text, tagEntry])
  | .isNull negated column =>
    rw [Condition.toJson]
    exact spellable_object (by simp [spellable_text, tagEntry])
  | .columnEqual left right =>
    rw [Condition.toJson]
    exact spellable_object (by simp [spellable_text, tagEntry])
  | .combine connective parts =>
    rw [Condition.toJson]
    refine spellable_object ?_
    simp only [List.forall_mem_cons]
    exact ⟨spellable_conditionItems parts, spellable_text _, by simp⟩

theorem spellable_conditionItems (cs : List Condition) : (Json.list (conditionItems cs)).Spellable := by
  match cs with
  | [] => exact spellable_list (by simp [conditionItems])
  | c :: rest =>
    intro l hl
    rcases List.mem_append.1 hl with hl | hl
    · exact c.spellable_toJson l hl
    · exact spellable_conditionItems rest l hl

end

mutual

theorem Source.spellable_toJson (s : Source) : s.toJson.Spellable := by
  match s with
  | .name n => exact spellable_text n
  | .query q => exact q.spellable_toJson

theorem Table.spellable_toJson (t : Table) : t.toJson.Spellable := by
  match t with
  | ⟨source, label⟩ =>
    rw [Table.toJson]
    refine spellable_object ?_
    simp only [List.forall_mem_append, List.forall_mem_cons]
    exact ⟨⟨spellable_text _, source.spellable_toJson, by simp⟩,
      spellable_optional (by simp [spellable_text])⟩

theorem Join.spellable_toJson (j : Join) : j.toJson.Spellable := by
  match j with
  | ⟨table, condition, kind⟩ =>
    rw [Join.toJson]
    refine spellable_object ?_
    simp only [List.forall_mem_append, List.forall_mem_cons]
    exact ⟨⟨⟨spellable_text _, table.spellable_toJson, by simp⟩,
      spellable_optional (by simp [Condition.spellable_toJson])⟩, spellable_text _, by simp⟩

theorem UnionPart.spellable_toJson (u : UnionPart) : u.toJson.Spellable := by
  match u with
  | ⟨kind, query⟩ =>
    rw [UnionPart.toJson]
    refine spellable_object ?_
    simp only [List.forall_mem_cons]
    exact ⟨spellable_text _, query.spellable_toJson, by simp⟩

theorem Select.spellable_toJson (q : Select) : q.toJson.Spellable := by
  match q with
  | ⟨tables, joins, fields, filters, groupFilters, limit, offset, orderBy, groupBy, unions⟩ =>
    have hcount (n : Option Nat) : ∀ j ∈ n.map fun n => Json.int n, j.Spellable := by
      cases n <;> simp [spellable_int]
    rw [Select.toJson]
    refine spellable_object ?_
    simp only [List.forall_mem_append, List.forall_mem_cons]
    exact ⟨⟨⟨⟨spellable_tableItems tables, spellable_joinItems joins,
      spellable_map fun f _ => f.spellable_toJson, spellable_text _,
        spellable_map fun c _ => c.spellable_toJson,
      spellable_map fun c _ => c.spellable_toJson, by simp⟩, spellable_optional (hcount limit)⟩,
      spellable_optional (hcount offset)⟩, spellable_map fun o _ => o.spellable_toJson,
        spellable_texts groupBy,
      spellable_unionItems unions, by simp⟩

theorem spellable_tableItems (ts : List Table) : (Json.list (tableItems ts)).Spellable := by
  match ts with
  | [] => exact spellable_list (by simp [tableItems])
  | t :: rest =>
    rw [tableItems]
    intro l hl
    rcases List.mem_append.1 hl with hl | hl
    · exact t.spellable_toJson l hl
    · exact spellable_tableItems rest l hl

theorem spellable_joinItems (js : List Join) : (Json.list (joinItems js)).Spellable := by
  match js with
  | [] => exact spellable_list (by simp [joinItems])
  | j :: rest =>
    rw [joinItems]
    intro l hl
    rcases List.mem_append.1 hl with hl | hl
    · exact j.spellable_toJson l hl
    · exact spellable_joinItems rest l hl

theorem spellable_unionItems (us : List UnionPart) : (Json.list (unionItems us)).Spellable := by
  match us with
  | [] => exact spellable_list (by simp [unionItems])
  | u :: rest =>
    rw [unionItems]
    intro l hl
    rcases List.mem_append.1 hl with hl | hl
    · exact u.spellable_toJson l hl
    · exact spellable_unionItems rest l hl

end

theorem spellable_sources (tables : List Table) (joins : List Join) :
    ∀ e ∈ sources tables joins, e.2.Spellable := by
  simp only [sources, List.forall_mem_cons]
  exact ⟨spellable_map fun t _ => t.spellable_toJson,
    spellable_map fun j _ => j.spellable_toJson, by simp⟩

/-- The stored form of a node can be written. -/
theorem Node.spellable_toJson (n : Node) : n.toJson.Spellable := by
  cases n with
  | table t => exact t.spellable_toJson
  | join j => exact j.spellable_toJson
  | select q => exact q.spellable_toJson
  | projection p =>
    refine spellable_object ?_
    simp only [List.forall_mem_append, List.forall_mem_cons]
    exact ⟨spellable_sources _ _, spellable_map fun f _ => f.spellable_toJson, by simp⟩
  | condition c => exact c.spellable_toJson
  | delete m =>
    refine spellable_object ?_
    simp only [List.forall_mem_append, List.forall_mem_cons]
    exact ⟨spellable_sources _ _, spellable_map fun c _ => c.spellable_toJson,
      spellable_text _, by simp⟩
  | update m =>
    refine spellable_object ?_
    simp only [List.forall_mem_append, List.forall_mem_cons]
    exact ⟨spellable_sources _ _, spellable_map fun c _ => c.spellable_toJson, spellable_text _,
      m.assignments.spellable_toJson, by simp⟩
  | insert m =>
    refine spellable_object ?_
    simp only [List.forall_mem_append, List.forall_mem_cons]
    exact ⟨⟨⟨⟨spellable_text _, spellable_text _, by simp⟩,
      spellable_optional (by simp [spellable_texts])⟩,
      spellable_map fun r _ => r.spellable_toJson, by simp⟩,
      spellable_optional (by simp [Select.spellable_toJson])⟩

/-! ## Names of written values -/

namespace Json

mutual

/-- What is settled has nothing left to replace. -/
theorem withWholeNames_settled (j : Json) : j.settled.withWholeNames = j.settled := by
  match j with
  | .null => rfl
  | .bool _ => rfl
  | .int _ => rfl
  | .float _ => rfl
  | .text _ => rfl
  | .list items =>
    rw [settled_list, withWholeNames, withWholeNamesItems_eq_map, List.map_map]
    exact congrArg Json.list (List.map_congr_left (withWholeNames_settledItems items))
  | .object es =>
    have hentries : settled (.object es) =
        .object (Entries.unique (es.map fun e => (Text.replaced e.1, e.2.settled))) := by
      simp only [settled, withWholeNames, unique, withWholeNamesEntries_eq_map, uniqueValues_eq_map,
        List.map_map, Function.comp_def]
    rw [hentries, withWholeNames, withWholeNamesEntries_eq_map, List.map_congr_left (g := id),
      List.map_id]
    intro e he
    obtain ⟨x, hx, rfl⟩ := List.mem_map.1 (Entries.mem_unique he)
    rw [withWholeNames_settledValues es x hx, Text.replaced_eq_self_iff.mpr (Text.isWhole_replaced x.1)]
    rfl

theorem withWholeNames_settledItems (items : List Json) :
    ∀ j ∈ items, j.settled.withWholeNames = j.settled := by
  match items with
  | [] => simp
  | j :: rest =>
    simp only [List.forall_mem_cons]
    exact ⟨withWholeNames_settled j, withWholeNames_settledItems rest⟩

theorem withWholeNames_settledValues (es : List (String × Json)) :
    ∀ e ∈ es, e.2.settled.withWholeNames = e.2.settled := by
  match es with
  | [] => simp
  | e :: rest =>
    simp only [List.forall_mem_cons]
    exact ⟨withWholeNames_settled e.2, withWholeNames_settledValues rest⟩

end

theorem withWholeNames_eq_self {j : Json} (h : j.settled = j) : j.withWholeNames = j := by
  rw [← h]
  exact withWholeNames_settled j

mutual

/-- Names are no leaves. -/
theorem leaves_withWholeNames (j : Json) : j.withWholeNames.leaves = j.leaves := by
  match j with
  | .null => rfl
  | .bool _ => rfl
  | .int _ => rfl
  | .float _ => rfl
  | .text _ => rfl
  | .list items => exact itemLeaves_withWholeNames items
  | .object es => exact entryLeaves_withWholeNames es

theorem itemLeaves_withWholeNames (items : List Json) :
    itemLeaves (withWholeNamesItems items) = itemLeaves items := by
  match items with
  | [] => rfl
  | j :: rest =>
    rw [withWholeNamesItems, itemLeaves, itemLeaves, leaves_withWholeNames j,
      itemLeaves_withWholeNames rest]

theorem entryLeaves_withWholeNames (es : List (String × Json)) :
    entryLeaves (withWholeNamesEntries es) = entryLeaves es := by
  match es with
  | [] => rfl
  | (_, j) :: rest =>
    rw [withWholeNamesEntries, entryLeaves, entryLeaves, leaves_withWholeNames j,
      entryLeaves_withWholeNames rest]

end

mutual

/-- With replacements in its names a value has texts of characters only, if its other texts are such. -/
theorem isWhole_strings_withWholeNames (j : Json) (h : j.isWhole = true) :
    ∀ t ∈ j.withWholeNames.strings, Text.isWhole t = true := by
  match j with
  | .null => simp [withWholeNames, strings]
  | .bool _ => simp [withWholeNames, strings]
  | .int _ => simp [withWholeNames, strings]
  | .float _ => simp [withWholeNames, strings]
  | .text s =>
    intro t ht
    rw [List.mem_singleton.1 ht]
    exact h
  | .list items => exact isWhole_itemStrings_withWholeNames items h
  | .object es => exact isWhole_entryStrings_withWholeNames es h

theorem isWhole_itemStrings_withWholeNames (items : List Json) (h : wholeItems items = true) :
    ∀ t ∈ itemStrings (withWholeNamesItems items), Text.isWhole t = true := by
  match items with
  | [] => simp [withWholeNamesItems, itemStrings]
  | j :: rest =>
    rw [wholeItems, Bool.and_eq_true] at h
    rw [withWholeNamesItems, itemStrings, List.forall_mem_append]
    exact ⟨isWhole_strings_withWholeNames j h.1, isWhole_itemStrings_withWholeNames rest h.2⟩

theorem isWhole_entryStrings_withWholeNames (es : List (String × Json)) (h : wholeValues es = true) :
    ∀ t ∈ entryStrings (withWholeNamesEntries es), Text.isWhole t = true := by
  match es with
  | [] => simp [withWholeNamesEntries, entryStrings]
  | (k, j) :: rest =>
    rw [wholeValues, Bool.and_eq_true] at h
    rw [withWholeNamesEntries, entryStrings, List.forall_mem_cons, List.forall_mem_append]
    exact ⟨Text.isWhole_replaced k, isWhole_strings_withWholeNames j h.1,
      isWhole_entryStrings_withWholeNames rest h.2⟩

end

end Json

/-! ## Reading what was serialized -/

/-- Both readers give the stored form of a node from its text, unless an integer in it is too long. -/
theorem Node.read_serialized [Json.StrictReader] {n : Node} {s : String} (h : n.serialize? = some s) :
    Json.read s = (if n.toJson.isShort then .ok n.toJson.withWholeNames else .error .oversized) ∧
      Json.readStrictly? s = if n.toJson.isShorter then some n.toJson.withWholeNames else none := by
  have htext : n.toJson.isWhole = true ∧ s = n.toJson.withWholeNames.write compact := by
    unfold Node.serialize? at h
    dsimp only at h
    split at h
    · rename_i hwhole
      exact ⟨hwhole, (Option.some.inj h).symm⟩
    · cases h
  have hleaves := n.toJson.leaves_withWholeNames
  have hspellable : n.toJson.withWholeNames.Spellable := by
    intro l hl
    rw [hleaves] at hl
    exact n.spellable_toJson l hl
  have hshort : n.toJson.withWholeNames.isShort = n.toJson.isShort := congrArg (List.all · fits) hleaves
  have hshorter : n.toJson.withWholeNames.isShorter = n.toJson.isShorter :=
    congrArg (List.all · fitsStrictly) hleaves
  rw [htext.2, ← hshort, ← hshorter]
  exact ⟨read_write hspellable, readStrictly?_write hspellable (isWhole_strings_withWholeNames _ htext.1)⟩

end SqlAst
