import SqlAst.Proofs.Agreement
import SqlAst.Proofs.LongIntegers
import SqlAst.Proofs.Payloads
import SqlAst.Proofs.StoredNames

/-!
# Classes of texts

What reading any node from a text ends in depends on the text alone, not on the session: on whether it is
JSON, whether that is an object with a tag of nodes, and whether the object passes as that kind of node. One
class of texts ends in no fault of the library: those with an integer that is too long to read.

* `TextClass.of`: the class of a text.
* `Outcome.ending`: the end of a call as the caller sees it.
* `NodeType.check_kind`: what passes as a kind of node is of that kind.
* `Action.deserialize_ending`: the end of reading, by the class of the text.
-/
namespace SqlAst

/-! ## Classes -/

/-- The kind of node that a value stands for as a tag: only texts are tags. -/
def Json.nodeKind? : Json → Option NodeKind
  | .text t => NodeKind.ofTag? t
  | _ => none

inductive TextClass where
  /-- No JSON. -/
  | malformed
  /-- JSON, as far as it is read, up to an integer with too many digits. -/
  | oversized
  | noObject
  /-- An object without a tag of nodes. -/
  | untagged
  | tagged (kind : NodeKind) (payload : Fields)

/-- The class of a text. Of repeated keys the last counts. -/
def TextClass.of (s : String) : TextClass :=
  match Json.read s with
  | .error (.malformed _ _) => .malformed
  | .error .oversized => .oversized
  | .ok (.object es) =>
    match (Entries.last? "type" es).bind Json.nodeKind? with
    | some kind => .tagged kind (Datum.ofJsonEntries (Entries.unique (Json.uniqueValues es)))
    | none => .untagged
  | .ok _ => .noObject

namespace TextClass

section

variable {s : String} {es : List (String × Json)}

theorem of_malformed {reason : Json.Reason} {left : Nat}
    (h : Json.read s = .error (.malformed reason left)) : of s = .malformed := by rw [of, h]

theorem of_oversized (h : Json.read s = .error .oversized) : of s = .oversized := by rw [of, h]

theorem of_noObject {j : Json} (h : Json.read s = .ok j) (hj : ∀ es, j ≠ .object es) :
    of s = .noObject := by
  rw [of, h]
  cases j with
  | object es => exact absurd rfl (hj es)
  | _ => rfl

theorem of_untagged (h : Json.read s = .ok (.object es))
    (htag : (Entries.last? "type" es).bind Json.nodeKind? = none) : of s = .untagged := by
  rw [of, h]
  dsimp only
  rw [htag]

theorem of_tagged {kind : NodeKind} (h : Json.read s = .ok (.object es))
    (htag : (Entries.last? "type" es).bind Json.nodeKind? = some kind) :
    of s = .tagged kind (Datum.ofJsonEntries (Entries.unique (Json.uniqueValues es))) := by
  rw [of, h]
  dsimp only
  rw [htag]

end

theorem of_eq_oversized_iff (s : String) : of s = .oversized ↔ Json.read s = .error .oversized := by
  refine ⟨fun h => ?_, of_oversized⟩
  unfold of at h
  split at h
  · cases h
  · assumption
  · split at h <;> cases h
  · cases h

end TextClass

/-- How a call that gives a node ends: with a node of a kind, with a fault of a code and the type of the
error behind it, or with an error of another type. -/
inductive Ending where
  | node (kind : Option NodeKind)
  | fault (code : FaultCode) (cause : Option String)
  | other (typeName : String)
  deriving DecidableEq

def Outcome.ending : Outcome Node → Ending
  | .ok n => .node n.kind?
  | .error (.fault f) => .fault f.code (f.cause?.map Cause.typeName)
  | .error e => .other e.typeName

/-! ## Repeated keys -/

namespace Entries

variable {α β : Type}

theorem last?_of_notMem {es : List (String × α)} {key : String} (h : key ∉ keys es) :
    last? key es = none := by
  induction es with
  | nil => rfl
  | cons e rest ih =>
    obtain ⟨k, v⟩ := e
    simp only [keys, List.map_cons, List.mem_cons, not_or] at h
    have hkey : (k == key) = false := beq_eq_false_iff_ne.2 fun hk => h.1 hk.symm
    rw [last?, ih h.2, hkey]
    rfl

theorem last?_put {done : List (String × α)} (h : (keys done).Nodup) (k key : String) (v : α) :
    last? key (put k v done) = if k = key then some v else last? key done := by
  induction done with
  | nil =>
    by_cases hk : k = key
    · simp [put, last?, hk]
    · simp [put, last?, hk]
  | cons e rest ih =>
    obtain ⟨k', v'⟩ := e
    obtain ⟨hnot, hrest⟩ := List.nodup_cons.1 h
    rw [put]
    by_cases hsame : k' = k
    · subst hsame
      rw [if_pos (beq_self_eq_true k'), last?, last?]
      by_cases hk : k' = key
      · subst hk
        rw [last?_of_notMem hnot]
        simp
      · simp [hk]
    · rw [if_neg (by simpa using hsame), last?, ih hrest, last?]
      by_cases hk : k = key
      · subst hk
        simp
      · simp [hk]

theorem last?_merge {done : List (String × α)} (h : (keys done).Nodup) (es : List (String × α))
    (key : String) : last? key (merge done es) = (last? key es).or (last? key done) := by
  induction es generalizing done with
  | nil => rfl
  | cons e rest ih =>
    have hstep : merge done (e :: rest) = merge (put e.1 e.2 done) rest := rfl
    rw [hstep, ih (nodup_put h), last?_put h, last?]
    cases last? key rest with
    | some v => rfl
    | none => by_cases hk : e.1 = key <;> simp [hk]

/-- Making keys unique keeps their last values. -/
theorem last?_unique (es : List (String × α)) (key : String) : last? key (unique es) = last? key es := by
  have hnil : (keys ([] : List (String × α))).Nodup := List.nodup_nil
  rw [unique, last?_merge hnil]
  exact Option.or_none

end Entries

theorem Json.asText?_ofJson_unique (j : Json) :
    (Datum.ofJson j.unique).asText?.bind NodeKind.ofTag? = j.nodeKind? := by
  cases j <;> rfl

/-- The tag of a payload is the last of the object in the text. -/
theorem Fields.kind?_unique (es : List (String × Json)) :
    Fields.kind? (Datum.ofJsonEntries (Entries.unique (Json.uniqueValues es))) =
      (Entries.last? "type" es).bind Json.nodeKind? := by
  rw [kind?, Datum.valueAt?_ofJsonEntries, Entries.last?_unique, Json.uniqueValues_eq_map,
    Entries.last?_map]
  cases Entries.last? "type" es with
  | none => rfl
  | some j => exact j.asText?_ofJson_unique

/-! ## Kinds of what passes -/

namespace Checked

variable {α β : Type}

/-- What a check gives, if it passes, has a property. -/
def Gives (P : α → Prop) (c : Checked α) : Prop := ∀ a, c = .ok a → P a

theorem gives_map {P : β → Prop} {f : α → β} {c : Checked α} (h : c.Gives fun a => P (f a)) :
    (map f c).Gives P := by
  intro b hb
  cases c with
  | ok a =>
    cases hb
    exact h a rfl
  | bad is => cases hb

theorem gives_seq {P : β → Prop} {f : Checked (α → β)} (h : f.Gives fun g => ∀ a, P (g a))
    (c : Checked α) : (f <*> c).Gives P := by
  intro b hb
  have hb : apply f c = .ok b := hb
  cases f with
  | ok g =>
    cases c with
    | ok a =>
      cases hb
      exact h g rfl a
    | bad is => cases hb
  | bad is => cases c <;> cases hb

end Checked

theorem Fields.condition_kind (kind : ConditionKind) (base : Option Condition) (es : Fields)
    (inner : Inner (sizeOf es)) :
    (Fields.condition kind base es inner).Gives fun c => c.kind = kind := by
  cases kind with
  | isNull | combine =>
    refine Checked.gives_seq ?_ _
    exact Checked.gives_map fun _ _ _ => rfl
  | _ =>
    refine Checked.gives_seq (Checked.gives_seq ?_ _) _
    exact Checked.gives_map fun _ _ _ _ => rfl

/-- What passes as a kind of node is of that kind. -/
theorem NodeType.check_kind (kind : NodeKind) (form : Form) (es : Fields) :
    ((NodeType.stored kind).check form (.dict es)).Gives fun n => n.kind? = some kind := by
  show ((NodeType.stored kind).ofFields form es).Gives _
  unfold NodeType.ofFields
  cases kind with
  | condition kind =>
    have hkind := Fields.condition_kind kind none es (checkParts form es)
    exact Checked.gives_map fun c hc => congrArg (some ∘ NodeKind.condition) (hkind c hc)
  | _ => exact Checked.gives_map fun _ _ => rfl

/-! ## Readers -/

namespace Decode

/-- What does not pass is a fault with one of two codes, and with the report behind it. -/
theorem ending_decoded_bad (title : String) (text : Datum) (is : List Issue) :
    Outcome.ending (decoded title text (.bad is)) = .fault .parse (some "ValidationError") ∨
      Outcome.ending (decoded title text (.bad is)) = .fault .unknownType (some "ValidationError") := by
  rw [decoded, payloadFault_eq]
  split
  · exact .inr rfl
  · exact .inl rfl

/-- The end of reading an object with the tag of a kind. -/
theorem ofTagged_ending {kind : NodeKind} {payload : Fields} (h : payload.kind? = some kind) :
    let o := ofTagged (.dict payload)
    if ((NodeType.stored kind).check .data (.dict payload)).isOk then
      ∃ n es, o = .ok n ∧ n.kind? = some kind ∧ n.toJson = .object es ∧
        Entries.last? "type" es = some (.text kind.tag)
    else
      Outcome.ending o = .fault .parse (some "ValidationError") ∨
        Outcome.ending o = .fault .unknownType (some "ValidationError") := by
  have hkind := NodeType.check_kind kind .data payload
  rw [ofTagged_eq_decoded h]
  cases hcheck : (NodeType.stored kind).check .data (.dict payload) with
  | ok n =>
    obtain ⟨es, hstored, htag⟩ := n.toJson_tag (hkind n hcheck)
    exact ⟨n, es, rfl, hkind n hcheck, hstored, htag⟩
  | bad is => exact ending_decoded_bad kind.tag .null is

end Decode

namespace Action

/-- Reading any node from a text ends by the class of the text, in every session. Texts that are no JSON,
that are no object, and objects without a tag of nodes end in faults with a code and a cause of their own;
an object with a tag gives a node that is stored with this tag exactly if it passes, and a fault with a
report if not. Only a text with an integer that is too long ends otherwise: it has more digits in a row than
an integer may have, and any JSON with such an integer is such a text. -/
theorem deserialize_ending (s : String) (session : Session) :
    let o := (deserialize (.text s)).outcome session
    (match TextClass.of s with
      | .malformed => o.ending = .fault .parse (some "JSONDecodeError")
      | .noObject => o.ending = .fault .parse (some "TypeError")
      | .untagged => o.ending = .fault .unknownType none
      | .tagged kind payload =>
        if ((NodeType.stored kind).check .data (.dict payload)).isOk then
          ∃ n es, o = .ok n ∧ n.kind? = some kind ∧ n.toJson = .object es ∧
            Entries.last? "type" es = some (.text kind.tag)
        else
          o.ending = .fault .parse (some "ValidationError") ∨
            o.ending = .fault .unknownType (some "ValidationError")
      | .oversized => o.ending = .other "ValueError" ∧ Json.HasLongRun s.toList) ∧
      ∀ d : Json.Doc, TextClass.of d.text = .oversized ↔ d.hasShortIntegers = false := by
  intro o
  have ho : o = Decode.ofTaggedText (.text s) := outcome_deserialize (.text s) session
  refine ⟨?_, ?_⟩
  · cases hread : Json.read s with
    | error e =>
      cases e with
      | malformed reason left =>
        rw [TextClass.of_malformed hread, ho, Decode.ofTaggedText_of_malformed hread]
        rfl
      | oversized =>
        rw [TextClass.of_oversized hread, ho, Decode.ofTaggedText_of_oversized hread]
        exact ⟨rfl, Json.read_oversized hread⟩
    | ok j =>
      -- JSON is read as the data of its value, which has a tag if the object in the text has one.
      have hvalue := ho.trans (Decode.ofTaggedText_of_read hread)
      cases j with
      | object es =>
        have hkind := Fields.kind?_unique es
        cases htag : (Entries.last? "type" es).bind Json.nodeKind? with
        | some kind =>
          rw [TextClass.of_tagged hread htag, hvalue]
          exact Decode.ofTagged_ending (hkind.trans htag)
        | none =>
          rw [TextClass.of_untagged hread htag, hvalue]
          exact congrArg Outcome.ending (Decode.ofTagged_of_no_kind (hkind.trans htag))
      | _ =>
        rw [TextClass.of_noObject hread nofun, hvalue]
        rfl
  · intro d
    rw [TextClass.of_eq_oversized_iff, d.read_text]
    cases d.hasShortIntegers with
    | true => exact iff_of_false nofun nofun
    | false => exact iff_of_true rfl rfl

end Action

/-! ### A text that escapes -/

namespace Json.Doc

/-- A one with zeros behind it. -/
def longOne (zeros : Nat) : Numeral := { paddedOne zeros with exponent := none }

/-- A table whose source is such a number. -/
def longTable (zeros : Nat) : Json.Doc :=
  .object noBlanks [
    (tagName, .quoted (.plain "Table" (by decide))),
    (⟨noBlanks, .plain "source" (by decide), noBlanks⟩, .number (longOne zeros))]

theorem text_longTable (zeros : Nat) : (longTable zeros).text =
    "\x7b\"type\":\"Table\",\"source\":1" ++ String.ofList (List.replicate zeros '0') ++ "\x7d" := by
  have hone : (longOne zeros).text = '1' :: (List.replicate zeros '0' ++ []) := rfl
  have hchars : (longTable zeros).spelled.text =
      "\x7b\"type\":\"Table\",\"source\":".toList ++ ((longOne zeros).text ++ [] ++ ['\x7d']) := rfl
  apply String.toList_injective
  rw [text, String.toList_ofList, hchars, hone]
  simp

theorem hasShortIntegers_longTable (zeros : Nat) :
    (longTable zeros).hasShortIntegers = decide (zeros < digitLimit) := by
  have hlength : (longOne zeros).whole.length = zeros + 1 := by simp [longOne, paddedOne]
  show ((longOne zeros).isReadable && true) = _
  rw [Bool.and_true, Numeral.isReadable, hlength]
  rfl

/-- With 4300 zeros its text is of the class without a fault. -/
theorem longTable_escapes :
    let s := (longTable 4300).text
    s = "\x7b\"type\":\"Table\",\"source\":1" ++ String.ofList (List.replicate 4300 '0') ++ "\x7d" ∧
      Outcome.ending ((Action.deserialize (.text s)).outcome {}) = .other "ValueError" := by
  have hintegers : (longTable 4300).hasShortIntegers = false :=
    (hasShortIntegers_longTable 4300).trans (by decide)
  have hend := Action.deserialize_ending (longTable 4300).text {}
  have hclass : TextClass.of (longTable 4300).text = .oversized := (hend.2 (longTable 4300)).2 hintegers
  rw [hclass] at hend
  exact ⟨text_longTable 4300, hend.1.1⟩

end Json.Doc

end SqlAst
