import SqlAst.Proofs.DataRoundTrip
import SqlAst.Proofs.StoredText

/-!
# Nodes come back from their text

The text of a node is read as its data: by the reader of JSON, which leaves the last of repeated columns
to be chosen, and by the strict reader that the checks of types are made on. So each reader of nodes gives
the node with replaced columns, if no integer is beyond the limit of digits, and nothing otherwise.

* `Node.check_written`: the value of a serialized node is read as the node with replaced columns.
* `Node.text_round_trip`: when there is a text, what it is read as, and when that is the node.
-/
namespace SqlAst

open Stored

/-! ## Values of serialized nodes -/

theorem Row.check_written (r : Row) :
    Checked.row (.ofJson r.toJson.withWholeNames) = .ok r.replaced := by
  have hscalar (v : Scalar) : v.toJson.withWholeNames = v.toJson :=
    Json.withWholeNames_eq_self (settled_scalar v)
  have hentries : r.toJson.withWholeNames =
      .object ((r.entries.map fun e => (Text.replaced e.1, e.2)).map fun e => (e.1, e.2.toJson)) := by
    simp only [Row.toJson, Json.withWholeNames, Json.withWholeNamesEntries_eq_map, List.map_map,
      Function.comp_def, hscalar]
  rw [hentries]
  exact Row.check_entries _

theorem Json.withWholeNames_object {es : List (String × Json)} (h : ∀ e ∈ es, Text.isWhole e.1 = true) :
    (Json.object es).withWholeNames = .object (es.map fun e => (e.1, e.2.withWholeNames)) := by
  rw [Json.withWholeNames, Json.withWholeNamesEntries_eq_map]
  refine congrArg Json.object (List.map_congr_left fun e he => ?_)
  rw [Text.replaced_eq_self_iff.mpr (h e he)]

/-- Entries of which each value is settled. -/
theorem map_withWholeNames {es : List (String × Json)} (h : ∀ e ∈ es, e.2.settled = e.2) :
    (es.map fun e => (e.1, e.2.withWholeNames)) = es := by
  rw [List.map_congr_left (g := id), List.map_id]
  intro e he
  rw [Json.withWholeNames_eq_self (h e he)]
  rfl

theorem Update.withWholeNames_toJson (m : Update) :
    m.toJson.withWholeNames = .object (sources m.tables m.joins ++
      [filterEntry m.filters, tagEntry NodeKind.update.tag,
      ("values", m.assignments.toJson.withWholeNames)]) := by
  have hfilters := Json.withWholeNames_eq_self (settled_filterEntry m.filters)
  have hnames : ∀ e ∈ sources m.tables m.joins ++
      [filterEntry m.filters, tagEntry NodeKind.update.tag, ("values", m.assignments.toJson)],
      Text.isWhole e.1 = true := by
    simp only [sources, filterEntry, tagEntry, List.forall_mem_append, List.forall_mem_cons]
    decide
  rw [Update.toJson, Json.withWholeNames_object hnames, List.map_append,
    map_withWholeNames (settled_sources _ _)]
  simp only [List.map_cons, List.map_nil, hfilters]
  rfl

theorem Insert.withWholeNames_toJson (m : Insert) :
    m.toJson.withWholeNames = .object ([tagEntry NodeKind.insert.tag, ("table", .text m.table)] ++
      Stored.optional "columns" (m.columnNames.map texts) ++
      [("values", .list (m.rows.map fun r => r.toJson.withWholeNames))] ++
      Stored.optional "query" (m.source.map Select.toJson)) := by
  have hnames : ∀ e ∈ [tagEntry NodeKind.insert.tag, ("table", Json.text m.table)] ++
      Stored.optional "columns" (m.columnNames.map texts) ++
        [("values", Json.list (m.rows.map Row.toJson))] ++
      Stored.optional "query" (m.source.map Select.toJson), Text.isWhole e.1 = true := by
    have hwhole : ∀ key ∈ ["type", "table", "columns", "values", "query"],
      Text.isWhole key = true := by decide
    cases m.columnNames <;> cases m.source <;> simp [Stored.optional, tagEntry, hwhole]
  have hrows : (Json.list (m.rows.map Row.toJson)).withWholeNames =
      .list (m.rows.map fun r => r.toJson.withWholeNames) := by
    rw [Json.withWholeNames, Json.withWholeNamesItems_eq_map, List.map_map]
    rfl
  rw [Insert.toJson, Json.withWholeNames_object hnames]
  simp only [List.map_append, map_withWholeNames (settled_columnNames m.columnNames),
    map_withWholeNames (settled_sourceQuery m.source), List.map_cons, List.map_nil, hrows]
  rfl

/-- The value that the text of a node is read as gives the node with replaced columns. -/
theorem Node.check_written (form : Form) (n : Node) {kind : NodeKind} (h : n.kind? = some kind) :
    (NodeType.stored kind).check form (.ofJson n.toJson.withWholeNames) = .ok n.replaced := by
  have hsame (hr : n.toJson.settled = n.toJson) (hn : n.replaced = n) :
      (NodeType.stored kind).check form (.ofJson n.toJson.withWholeNames) = .ok n.replaced := by
    rw [Json.withWholeNames_eq_self hr, hn]
    exact n.check_stored form h
  cases n with
  | table t => exact hsame t.settled_toJson rfl
  | join j => exact hsame j.settled_toJson rfl
  | select q => exact hsame q.settled_toJson rfl
  | projection p => cases h
  | condition c => exact hsame c.settled_toJson rfl
  | delete m => exact hsame m.settled_toJson rfl
  | update m =>
    cases h
    show NodeType.check _ form (.ofJson m.toJson.withWholeNames) = _
    rw [m.withWholeNames_toJson]
    exact congrArg (Checked.map Node.update)
      (m.replaced.check_fields form m.assignments.check_written rfl)
  | insert m =>
    cases h
    show NodeType.check _ form (.ofJson m.toJson.withWholeNames) = _
    rw [m.withWholeNames_toJson]
    exact congrArg (Checked.map Node.insert)
      (m.replaced.check_fields form (Checked.items_read fun r _ => r.check_written) rfl)

theorem Condition.check_written (form : Form) (c : Condition) :
    Decode.Target.check .anyCondition form (.ofJson c.toJson.withWholeNames) = .ok (.condition c) := by
  rw [Json.withWholeNames_eq_self c.settled_toJson]
  exact c.check_anyCondition form

/-! ## The readers of texts -/

section

variable {n : Node} {kind : NodeKind} {s : String}

theorem Node.ofTaggedText_serialized (h : n.kind? = some kind) (hs : n.serialize? = some s) :
    Decode.ofTaggedText (.text s) =
      if n.toJson.isShort then .ok n.replaced else Outcome.misuse .wrongValue := by
  have hread := (Node.read_serialized hs).1
  unfold Decode.ofTaggedText
  dsimp only [Datum.asText?]
  rw [hread]
  cases n.toJson.isShort with
  | true => exact n.ofTagged_settled h
  | false => rfl

/-- A reader of texts that checks the value of the strict reader. -/
theorem Node.ofText_serialized [Json.StrictReader] (hs : n.serialize? = some s) (t : Decode.Target)
    (ht : t.check .text (.ofJson n.toJson.withWholeNames) = .ok n.replaced) :
    Decode.ofText t (.text s) =
      if n.toJson.isShorter then .ok n.replaced
      else .error (.fault (Decode.payloadFault ⟨t.title, [⟨[], .malformedJson⟩]⟩ (.text s))) := by
  have hread := (Node.read_serialized hs).2
  unfold Decode.ofText Decode.checkText
  dsimp only [Datum.asText?]
  rw [hread]
  cases n.toJson.isShorter with
  | true => exact congrArg (Decode.decoded t.title (.text s)) ht
  | false => rfl

theorem Outcome.ite_ok_eq_ok_iff {α : Type} {b : Bool} {x y : α} {e : Failure} :
    (if b then .ok x else .error e : Outcome α) = .ok y ↔ b = true ∧ x = y := by
  cases b with
  | true => rw [if_pos rfl, Except.ok.injEq, and_iff_right rfl]
  | false => exact iff_of_false nofun nofun

end

/-! ## The round trip -/

/-- There is a text of a node exactly if the texts in it are whole. It is read as the data of the node
exactly if no integer is too long, and then each reader of nodes gives the node with replaced columns, the
strict one by the way it counts digits; so the node comes back exactly if its columns are whole as well. -/
theorem Node.text_round_trip [Json.StrictReader] (n : Node) {kind : NodeKind} (h : n.kind? = some kind) :
    n.serialize?.isSome = n.toJson.isWhole ∧
      ∀ s, n.serialize? = some s →
        ((Json.read s).map Json.unique = .ok n.toJson.withWholeNames.unique ↔ n.toJson.isShort = true) ∧
        (n.toJson.isShort = true → Decode.ofTaggedText (.text s) = .ok n.replaced) ∧
        (n.toJson.isShorter = true → Decode.ofText (.node (.stored kind)) (.text s) = .ok n.replaced) ∧
        (Decode.ofTaggedText (.text s) = .ok n ↔ n.toJson.isShort = true ∧ n.HasWholeColumns) ∧
        (Decode.ofText (.node (.stored kind)) (.text s) = .ok n ↔
          n.toJson.isShorter = true ∧ n.HasWholeColumns) ∧
        ∀ c, n = .condition c →
          (Decode.ofText .anyCondition (.text s) = .ok n ↔ n.toJson.isShorter = true) := by
  refine ⟨?_, fun s hs => ?_⟩
  · unfold Node.serialize?
    dsimp only
    split
    · rename_i hw
      exact hw.symm
    · rename_i hw
      exact (Bool.eq_false_iff.2 hw).symm
  have hread := (Node.read_serialized hs).1
  have htagged := Node.ofTaggedText_serialized h hs
  have htext := Node.ofText_serialized hs (.node (.stored kind)) (n.check_written .text h)
  refine ⟨?_, fun hshort => ?_, fun hshorter => ?_, ?_, ?_, fun c hc => ?_⟩
  · rw [hread]
    cases n.toJson.isShort with
    | true => exact iff_of_true rfl rfl
    | false => exact iff_of_false nofun nofun
  · rw [htagged, if_pos hshort]
  · rw [htext, if_pos hshorter]
  · rw [htagged]
    exact Outcome.ite_ok_eq_ok_iff.trans (and_congr_right' n.replaced_eq_self_iff)
  · rw [htext]
    exact Outcome.ite_ok_eq_ok_iff.trans (and_congr_right' n.replaced_eq_self_iff)
  · have hany := Node.ofText_serialized hs .anyCondition (by rw [hc]; exact c.check_written .text)
    rw [hany, Outcome.ite_ok_eq_ok_iff, hc]
    exact and_iff_left rfl

/-- The text of the update is read as an update of another column. -/
theorem halfColumnUpdate_misread :
    (Node.update halfColumnUpdate).kind? = some .update ∧
      ∃ s, (Node.update halfColumnUpdate).serialize? = some s ∧
        Decode.ofTaggedText (.text s) =
          .ok (.update
            { halfColumnUpdate with assignments := Row.ofEntries [("\ufffd\ufffd\ufffd", .int 1)] }) ∧
        Decode.ofTaggedText (.text s) ≠ .ok (.update halfColumnUpdate) := by
  obtain ⟨hsome, htexts⟩ := (Node.update halfColumnUpdate).text_round_trip rfl
  have hwhole : (Node.update halfColumnUpdate).toJson.isWhole = true := by decide
  have hshort : (Node.update halfColumnUpdate).toJson.isShort = true := by decide
  obtain ⟨s, hs⟩ := Option.isSome_iff_exists.1 (hsome.trans hwhole)
  obtain ⟨-, hreads, -, htagged, -⟩ := htexts s hs
  refine ⟨rfl, s, hs, hreads hshort, fun hsame => ?_⟩
  exact absurd ((htagged.1 hsame).2 _ (List.mem_singleton.2 rfl)) (by decide)

end SqlAst
