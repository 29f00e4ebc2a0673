import SqlAst.Proofs.DataRoundTrip
import SqlAst.Proofs.JsonGrammar
import SqlAst.Proofs.Verdicts

/-!
# Readers of nodes agree

A text with the tag of a kind can be read by that tag or by its type, and in two ways: through the value that
the reader of JSON gives, or by the strict reader of JSON. A condition can also be read as any condition.
All of them check the same value, so they come to one verdict on it. Only the readers of JSON differ, on
numbers with many digits.

* `Json.unique_of_distinct`: where no key is repeated, there is nothing to choose.
* `Json.Doc.readings`, `Agree`: the readers, and what it is that they end alike.
* `Json.Doc.readings_agree_iff`: the texts that they agree on.
-/
namespace SqlAst

/-! ## Distinct keys -/

namespace Json

mutual

/-- Whether no object has a key twice, at any depth. -/
def HasDistinctKeys : Json → Prop
  | .list items => ItemsHaveDistinctKeys items
  | .object entries => (Entries.keys entries).Nodup ∧ ValuesHaveDistinctKeys entries
  | .null | .bool _ | .int _ | .float _ | .text _ => True

def ItemsHaveDistinctKeys : List Json → Prop
  | [] => True
  | j :: rest => j.HasDistinctKeys ∧ ItemsHaveDistinctKeys rest

def ValuesHaveDistinctKeys : List (String × Json) → Prop
  | [] => True
  | (_, j) :: rest => j.HasDistinctKeys ∧ ValuesHaveDistinctKeys rest

end

mutual

/-- Where no key is repeated, there is nothing to choose. -/
theorem unique_of_distinct (j : Json) (h : j.HasDistinctKeys) : j.unique = j := by
  match j with
  | .list items => rw [unique, uniqueItems_of_distinct items h]
  | .object entries =>
    obtain ⟨hnodup, hvalues⟩ := h
    rw [unique, uniqueValues_of_distinct entries hvalues, Entries.unique_of_nodup hnodup]
  | .null | .bool _ | .int _ | .float _ | .text _ => rfl

theorem uniqueItems_of_distinct (items : List Json) (h : ItemsHaveDistinctKeys items) :
    uniqueItems items = items := by
  match items with
  | [] => rfl
  | j :: rest => rw [uniqueItems, unique_of_distinct j h.1, uniqueItems_of_distinct rest h.2]

theorem uniqueValues_of_distinct (entries : List (String × Json)) (h : ValuesHaveDistinctKeys entries) :
    uniqueValues entries = entries := by
  match entries with
  | [] => rfl
  | (_, j) :: rest => rw [uniqueValues, unique_of_distinct j h.1, uniqueValues_of_distinct rest h.2]

end

end Json

/-! ## The readers -/

/-- What data with the tag of a kind can be read as. -/
def NodeKind.targets (kind : NodeKind) : List Decode.Target :=
  .node (.stored kind) ::
    match kind with
    | .condition _ => [.anyCondition]
    | _ => []

/-- What the readers make of a text with the tag of a kind, and of its value. -/
def Json.Doc.readings [Json.StrictReader] (d : Json.Doc) (kind : NodeKind) : List (Outcome Node) :=
  let text : Datum := .text d.text
  let data := Datum.ofJson d.value
  [Decode.ofTaggedText text, Decode.ofTagged data] ++
    kind.targets.flatMap fun t => [Decode.ofData t data, Decode.ofText t text]

/-- Whether all calls give the same node, or all end with faults of the same code. -/
def Agree (outcomes : List (Outcome Node)) : Prop :=
  ∃ verdict, ∀ o ∈ outcomes, Outcome.verdict? o = some verdict

/-- A text whose object has the tag of a kind, and in which no object has a key twice. -/
structure Json.Doc.HasTag (d : Json.Doc) (kind : NodeKind) : Prop where
  distinct : d.value.HasDistinctKeys
  tagged : ∃ es, d.value = .object es ∧ Entries.last? "type" es = some (.text kind.tag)

namespace Json.Doc

variable {d : Json.Doc} {kind : NodeKind}

/-- The verdict of the type on the value of a text. -/
def verdict (d : Json.Doc) (kind : NodeKind) : Except FaultCode Node :=
  ((Decode.Target.node (.stored kind)).check .data (.ofJson d.value)).verdict

theorem HasTag.verdict_check (h : d.HasTag kind) {t : Decode.Target} (ht : t ∈ kind.targets)
    (form : Form) : (t.check form (.ofJson d.value)).verdict = d.verdict kind := by
  rw [t.verdict_check form .data]
  rcases List.mem_cons.1 ht with rfl | ht
  · rfl
  · cases kind with
    | condition k =>
      obtain rfl := List.mem_singleton.1 ht
      obtain ⟨es, hes, htag⟩ := h.tagged
      unfold verdict
      rw [hes, Datum.ofJson]
      exact Decode.Target.verdict_anyCondition (Datum.valueAt?_stored htag) .data
    | _ => cases ht

theorem HasTag.verdict?_ofData (h : d.HasTag kind) {t : Decode.Target} (ht : t ∈ kind.targets) :
    Outcome.verdict? (Decode.ofData t (.ofJson d.value)) = some (d.verdict kind) := by
  rw [Decode.ofData, Decode.verdict?_decoded, h.verdict_check ht]

theorem HasTag.verdict?_ofTagged (h : d.HasTag kind) :
    Outcome.verdict? (Decode.ofTagged (.ofJson d.value)) = some (d.verdict kind) := by
  have hread := h.verdict?_ofData (t := .node (.stored kind)) List.mem_cons_self
  obtain ⟨es, hes, htag⟩ := h.tagged
  rw [hes] at hread ⊢
  rw [Decode.ofTagged_object htag, hread]

/-- A text with a long integer makes the reader by tag end without a code. -/
theorem HasTag.verdict?_ofTaggedText (h : d.HasTag kind) :
    Outcome.verdict? (Decode.ofTaggedText (.text d.text)) =
      if d.hasShortIntegers then some (d.verdict kind) else none := by
  have hread := d.read_text
  unfold Decode.ofTaggedText
  dsimp only [Datum.asText?]
  rw [hread]
  cases d.hasShortIntegers with
  | true =>
    show Outcome.verdict? (Decode.ofTagged (.ofJson d.value.unique)) = _
    rw [unique_of_distinct _ h.distinct, h.verdict?_ofTagged]
    rfl
  | false => rfl

/-- The strict reader takes a text with a long number for no JSON at all. -/
theorem HasTag.verdict?_ofText [StrictReader] (h : d.HasTag kind) {t : Decode.Target} (ht : t ∈ kind.targets) :
    Outcome.verdict? (Decode.ofText t (.text d.text)) =
      some (if d.hasShortNumbers then d.verdict kind else .error .parse) := by
  have hread := d.readStrictly?_text
  unfold Decode.ofText Decode.checkText
  dsimp only [Datum.asText?]
  rw [hread, Decode.verdict?_decoded]
  cases d.hasShortNumbers with
  | true => exact congrArg some (h.verdict_check ht .text)
  | false => rfl

/-- The readers agree exactly on the texts without numbers that are long to the strict reader, and on those
without long integers whose value is rejected for another reason than a tag. -/
theorem readings_agree_iff [StrictReader] (h : d.HasTag kind) :
    Agree (d.readings kind) ↔ d.hasShortNumbers = true ∨
      (d.hasShortIntegers = true ∧
        Outcome.verdict? (Decode.ofTagged (.ofJson d.value)) = some (.error .parse)) := by
  have hmine : Decode.Target.node (.stored kind) ∈ kind.targets := List.mem_cons_self
  rw [h.verdict?_ofTagged, Option.some.injEq]
  constructor
  · rintro ⟨v, hv⟩
    have htaggedText := hv _ (List.mem_append_left _ List.mem_cons_self)
    have htagged := hv _ (List.mem_append_left _ (List.mem_cons_of_mem _ List.mem_cons_self))
    have htext : Outcome.verdict? (Decode.ofText (.node (.stored kind)) (.text d.text)) = some v :=
      hv _ (List.mem_append_right _ (List.mem_flatMap.2 ⟨_, hmine, by simp⟩))
    rw [h.verdict?_ofTaggedText] at htaggedText
    rw [h.verdict?_ofTagged] at htagged
    rw [h.verdict?_ofText hmine] at htext
    obtain rfl := Option.some.inj htagged
    cases hshort : d.hasShortNumbers with
    | true => exact .inl rfl
    | false =>
      refine .inr ⟨?_, ?_⟩
      · by_contra hlong
        rw [if_neg hlong] at htaggedText
        cases htaggedText
      · rw [hshort] at htext
        exact (Option.some.inj htext).symm
  · intro hagree
    have hintegers : d.hasShortIntegers = true := hagree.elim hasShortIntegers_of_numbers And.left
    refine ⟨d.verdict kind, fun o ho => ?_⟩
    simp only [readings, List.mem_append, List.mem_cons, List.not_mem_nil, or_false,
      List.mem_flatMap] at ho
    rcases ho with (rfl | rfl) | ⟨t, ht, rfl | rfl⟩
    · rw [h.verdict?_ofTaggedText, if_pos hintegers]
    · exact h.verdict?_ofTagged
    · exact h.verdict?_ofData ht
    · rw [h.verdict?_ofText ht]
      rcases hagree with hshort | ⟨-, hparse⟩
      · rw [if_pos hshort]
      · rw [hparse, ite_self]

/-! ### A text that they disagree on -/

/-- One, as a one with zeros and the exponent that takes them away again. -/
def paddedOne (zeros : Nat) : Numeral where
  negative := false
  whole := '1' :: List.replicate zeros '0'
  exponent := some
    { upper := false
      sign := some .minus
      digits := Nat.toDigits 10 zeros
      ne_nil := Nat.toDigits_ne_nil
      isDigit := fun _ hc => Nat.isDigit_of_mem_toDigits (by decide) (by decide) hc }
  isWhole := by
    refine .inr ⟨'1', _, rfl, by decide, fun c hc => ?_⟩
    rcases List.mem_cons.1 hc with rfl | hc
    · rfl
    · rw [(List.mem_replicate.1 hc).2]
      rfl

theorem value_paddedOne (zeros : Nat) : (paddedOne zeros).value = .float (.nearest false 1 0) := by
  have hwhole : Nat.ofDigitChars 10 ('1' :: List.replicate zeros '0') 0 = 1 * 10 ^ zeros := by
    rw [Nat.ofDigitChars_cons, Nat.ofDigitChars_replicate_zero, Nat.mul_comm]
    rfl
  have hexponent : Nat.ofDigitChars 10 (Nat.toDigits 10 zeros) 0 = zeros :=
    Nat.ofDigitChars_toDigits (by decide) (by decide)
  have hvalue : (paddedOne zeros).value = .float (.nearest false
      (Nat.ofDigitChars 10 ('1' :: List.replicate zeros '0' ++ []) 0)
      (signed true (Nat.ofDigitChars 10 (Nat.toDigits 10 zeros) 0) - ([] : List Char).length)) := rfl
  rw [hvalue, List.append_nil, hwhole, hexponent, Binary64.nearest_shift]
  congr 2
  simp [signed]

/-- A comparison with one, which is padded by zeros. -/
def paddedEqual (zeros : Nat) : Json.Doc :=
  .object {} [
    ({ quotation := .plain "column" (by decide) }, .quoted (.plain "c" (by decide))),
    ({ quotation := .plain "value" (by decide) }, .number (paddedOne zeros)),
    ({ quotation := .plain "type" (by decide) }, .quoted (.plain "EqualCondition" (by decide)))]

def noBlanks : Json.Blanks := {}

/-- The name of a tag. -/
def tagName : Json.Name := { quotation := .plain "type" (by decide) }

theorem text_paddedEqual (zeros : Nat) : (paddedEqual zeros).text =
    "\x7b\"column\":\"c\",\"value\":1" ++ String.ofList (List.replicate zeros '0') ++ "e-" ++
      String.ofList (Nat.toDigits 10 zeros) ++ ",\"type\":\"EqualCondition\"\x7d" := by
  have hone : (paddedOne zeros).text =
      '1' :: (List.replicate zeros '0' ++ 'e' :: '-' :: Nat.toDigits 10 zeros) := rfl
  have hchars : (paddedEqual zeros).spelled.text =
      "\x7b\"column\":\"c\",\"value\":".toList ++
        ((paddedOne zeros).text ++ ",\"type\":\"EqualCondition\"".toList ++ ['\x7d']) := rfl
  apply String.toList_injective
  rw [text, String.toList_ofList, hchars, hone]
  simp

/-- The condition that is meant. -/
def equalOne : Condition := .compare .equal "c" (.float ⟨.nearest false 1 0, by decide⟩)

theorem value_paddedEqual (zeros : Nat) : (paddedEqual zeros).value = equalOne.toJson := by
  have hentries : (paddedEqual zeros).value = .object [
      ((Quotation.plain "column" (by decide)).value, .text (Quotation.plain "c" (by decide)).value),
      ((Quotation.plain "value" (by decide)).value, (paddedOne zeros).value),
      ((Quotation.plain "type" (by decide)).value,
        .text (Quotation.plain "EqualCondition" (by decide)).value)] := rfl
  rw [hentries, value_paddedOne]
  simp only [Quotation.value_plain]
  rfl

theorem hasTag_paddedEqual (zeros : Nat) :
    (paddedEqual zeros).HasTag (.condition (.compare .equal)) := by
  have hvalue := value_paddedEqual zeros
  refine ⟨?_, equalOne.toJson_tag.imp fun es hes => ⟨hvalue.trans hes.1, hes.2⟩⟩
  rw [hvalue]
  exact ⟨by decide, trivial, trivial, trivial, trivial⟩

theorem hasShortNumbers_paddedEqual (zeros : Nat) :
    (paddedEqual zeros).hasShortNumbers = decide (zeros < digitLimit) := by
  have hlength : (paddedOne zeros).whole.length = zeros + 1 := by simp [paddedOne]
  show ((paddedOne zeros).isShort && true) = _
  rw [Bool.and_true, Numeral.isShort, hlength]
  rfl

/-- Behind 4300 zeros the reader by tag still finds the condition, and the strict reader rejects the text. -/
theorem paddedEqual_disputed :
    let d := paddedEqual 4300
    d.text = "\x7b\"column\":\"c\",\"value\":1" ++ String.ofList (List.replicate 4300 '0') ++
        "e-4300,\"type\":\"EqualCondition\"\x7d" ∧
      d.HasTag (.condition (.compare .equal)) ∧
      Outcome.verdict? (Decode.ofTaggedText (.text d.text)) = some (.ok (.condition equalOne)) ∧
      Outcome.verdict? (Decode.ofText (.node (.stored (.condition (.compare .equal)))) (.text d.text)) =
        some (.error .parse) ∧
      ¬ Agree (d.readings (.condition (.compare .equal))) := by
  have htag := hasTag_paddedEqual 4300
  have hlong : (paddedEqual 4300).hasShortNumbers = false :=
    (hasShortNumbers_paddedEqual 4300).trans (by decide)
  have hread : Decode.ofTagged (.ofJson (paddedEqual 4300).value) = .ok (.condition equalOne) := by
    rw [value_paddedEqual]
    exact (Node.condition equalOne).ofTagged_toJson rfl
  refine ⟨?_, htag, ?_, ?_, fun hagree => ?_⟩
  · have hdigits : String.ofList (Nat.toDigits 10 4300) = "4300" := by decide
    have htail : "e-" ++ ("4300" ++ ",\"type\":\"EqualCondition\"\x7d") =
        "e-4300,\"type\":\"EqualCondition\"\x7d" := by decide
    rw [text_paddedEqual, hdigits, ← htail]
    simp only [String.append_assoc]
  · rw [htag.verdict?_ofTaggedText, ← htag.verdict?_ofTagged, hread]
    rfl
  · rw [htag.verdict?_ofText List.mem_cons_self, hlong]
    rfl
  · rcases (readings_agree_iff htag).1 hagree with hshort | ⟨-, hparse⟩
    · rw [hlong] at hshort
      cases hshort
    · rw [hread] at hparse
      cases hparse

end Json.Doc

end SqlAst
