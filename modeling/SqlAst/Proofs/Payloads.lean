import SqlAst.Proofs.Refusals

/-!
# Payloads of any node

The readers of any node choose by the tag of the payload; all else is left to the check of the chosen type.

* `Fields.kind?`: the kind of node that the tag stands for.
* `Decode.ofTagged_of_kind`, `Decode.ofTagged_of_no_kind`: the choice.
* `Decode.payloadFault_eq`: the fault of a payload that does not pass.
* `Action.outcome_deserialize`: reading in a session ends as the reader does, whatever the session.
-/
namespace SqlAst

/-- The kind of node that the entries of a payload are tagged as. -/
def Fields.kind? (es : Fields) : Option NodeKind :=
  ((Datum.valueAt? "type" es).bind Datum.asText?).bind NodeKind.ofTag?

/-- The tag that an issue is about, if it is about one. -/
def Issue.tag? (i : Issue) : Option Datum :=
  match i.kind with
  | .unknownTag tag => some (.text tag)
  | .missingTag => some .null
  | _ => none

namespace Decode

variable {es : Fields}

theorem ofOption_kind (es : Fields) :
    (Datum.ofOption (Datum.valueAt? "type" es)).asText?.bind NodeKind.ofTag? = es.kind? := by
  unfold Fields.kind?
  cases Datum.valueAt? "type" es <;> rfl

/-- A payload with a tag of nodes is read as that kind of node. -/
theorem ofTagged_of_kind {kind : NodeKind} (h : es.kind? = some kind) :
    ofTagged (.dict es) = ofData (.node (.stored kind)) (.dict es) := by
  have htag := (ofOption_kind es).trans h
  unfold ofTagged
  dsimp only
  rw [htag]

theorem ofTagged_eq_decoded {kind : NodeKind} (h : es.kind? = some kind) :
    ofTagged (.dict es) = decoded kind.tag .null ((NodeType.stored kind).check .data (.dict es)) :=
  ofTagged_of_kind h

theorem ofTagged_of_no_kind (h : es.kind? = none) :
    ofTagged (.dict es) = .error (.fault (.unknownTag (.ofOption (Datum.valueAt? "type" es)) none)) := by
  have htag := (ofOption_kind es).trans h
  unfold ofTagged
  dsimp only
  rw [htag]

/-- The first issue about a tag decides which fault there is. -/
theorem payloadFault_eq (report : Report) (text : Datum) :
    payloadFault report text =
      match (report.issues.filterMap Issue.tag?).head? with
      | some tag => .unknownTag tag (some report)
      | none => .rejectedPayload report text := by
  rw [List.head?_filterMap]
  rfl

/-- A text is read as the data of its value. -/
theorem ofTaggedText_of_read {s : String} {j : Json} (h : Json.read s = .ok j) :
    ofTaggedText (.text s) = ofTagged (.ofJson j.unique) := by
  unfold ofTaggedText
  rw [Datum.asText?]
  dsimp only
  rw [h]

theorem ofTaggedText_of_malformed {s : String} {reason : Json.Reason} {left : Nat}
    (h : Json.read s = .error (.malformed reason left)) :
    ofTaggedText (.text s) = .error (.fault (.malformedJson reason (Json.place s.toList left) s)) := by
  unfold ofTaggedText
  rw [Datum.asText?]
  dsimp only
  rw [h]

theorem ofTaggedText_of_oversized {s : String} (h : Json.read s = .error .oversized) :
    ofTaggedText (.text s) = Outcome.misuse .wrongValue := by
  unfold ofTaggedText
  rw [Datum.asText?]
  dsimp only
  rw [h]

end Decode

namespace Action

theorem outcome_deserialize (text : Datum) (s : Session) :
    (deserialize text).outcome s = Decode.ofTaggedText text := by
  obtain ⟨spans, htraced⟩ := traced_outcome "sqltree.deserialize" "sqltree.nodes.builder" "INTERNAL" []
    (do
      let n ← ofOutcome (Decode.ofTaggedText text)
      log "sqltree.nodes.builder" 10 ("Deserialized " ++ n.typeName ++ " node")
      pure n) s
  refine htraced.trans ?_
  cases h : Decode.ofTaggedText text with
  | ok n => rfl
  | error e => exact outcome_bind_error (outcome_ofOutcome _ _)

end Action

/-- The ways to read the entries of a payload: as they are, or from a text in some session. -/
inductive Decode.Reads (es : Fields) : Outcome Node → Prop where
  | data : Reads es (ofTagged (.dict es))
  | text {s : String} {j : Json} (session : Session) :
    Json.read s = .ok j → Datum.ofJson j.unique = .dict es →
      Reads es ((Action.deserialize (.text s)).outcome session)

/-- All ways end alike. -/
theorem Decode.Reads.eq_ofTagged {es : Fields} {o : Outcome Node} (h : Reads es o) :
    o = ofTagged (.dict es) := by
  cases h with
  | data => rfl
  | text session hread hentries =>
    rw [Action.outcome_deserialize, ofTaggedText_of_read hread, hentries]

end SqlAst
