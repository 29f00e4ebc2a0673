import Mathlib.Data.List.TakeWhile
import SqlAst.Json.Reader

/-!
# Integers that are too long to read

On an integer with too many digits the reader of JSON gives up, and does not say that the text is no JSON.
Only a text with as many digits in a row comes to that.

* `ofTokens_oversized`: there is a token for such an integer.
* `tokens_oversized`: the text has its digits.
* `read_oversized`: both together.
-/
namespace SqlAst.Json

/-- More digits in a row than an integer may have. -/
def HasLongRun (cs : List Char) : Prop :=
  ∃ digits, digits <:+: cs ∧ (∀ c ∈ digits, Text.isDecimalDigit c = true) ∧ digitLimit < digits.length

theorem HasLongRun.of_suffix {cs ds : List Char} (h : HasLongRun cs) (hs : cs <:+ ds) : HasLongRun ds :=
  h.imp fun _ hd => ⟨hd.1.trans hs.isInfix, hd.2⟩

/-! ## The machine -/

namespace State

variable {s : State} {rest : List Char} {token : Token}

theorem takeValue_oversized (h : s.takeValue rest token = .error .oversized) : token = .oversized := by
  cases token with
  | oversized => rfl
  | mark c =>
    rw [takeValue] at h
    split at h
    · cases h
    · split at h <;> cases h
  | _ => cases h

/-- Where a name is wanted, numbers do not matter. -/
theorem takeName_ne_oversized : s.takeName rest token ≠ .error .oversized := by
  intro h
  unfold takeName at h
  split at h
  · split at h <;> cases h
  · cases h
  · cases h

theorem step_oversized {place : List Char × Token} (h : s.step place = .error .oversized) :
    place.2 = .oversized := by
  obtain ⟨rest, token⟩ := place
  unfold step at h
  dsimp only at h
  split at h
  case h_1 => exact takeValue_oversized h
  case h_3 => exact takeValue_oversized h
  case h_4 => exact absurd h takeName_ne_oversized
  case h_6 => exact absurd h takeName_ne_oversized
  all_goals cases h

end State

theorem foldlM_oversized {ts : List (List Char × Token)} {s : State}
    (h : ts.foldlM State.step s = .error .oversized) : ∃ place ∈ ts, place.2 = .oversized := by
  induction ts generalizing s with
  | nil => cases h
  | cons place rest ih =>
    rw [List.foldlM_cons] at h
    cases hstep : s.step place with
    | ok s' =>
      rw [hstep] at h
      obtain ⟨found, hfound, hoversized⟩ := ih h
      exact ⟨found, List.mem_cons_of_mem place hfound, hoversized⟩
    | error e =>
      rw [hstep] at h
      cases h
      exact ⟨place, List.mem_cons_self, State.step_oversized hstep⟩

theorem ofTokens_oversized {ts : List (List Char × Token)} (h : ofTokens ts = .error .oversized) :
    ∃ place ∈ ts, place.2 = .oversized := by
  unfold ofTokens at h
  cases hrun : ts.foldlM State.step .start with
  | ok s =>
    rw [hrun] at h
    have hfinish : s.finish = .error .oversized := h
    unfold State.finish at hfinish
    split at hfinish <;> cases hfinish
  | error e =>
    rw [hrun] at h
    cases h
    exact foldlM_oversized hrun

/-! ## Tokens -/

theorem wholeDigits_isPrefix (cs : List Char) : wholeDigits cs <+: cs := by
  unfold wholeDigits
  split
  · exact ⟨_, rfl⟩
  · exact List.takeWhile_prefix _

theorem isDecimalDigit_wholeDigits {cs : List Char} :
    ∀ c ∈ wholeDigits cs, Text.isDecimalDigit c = true := by
  intro c hc
  unfold wholeDigits at hc
  split at hc
  · rw [List.mem_singleton.1 hc]
    rfl
  · exact List.mem_takeWhile_imp hc

theorem number?_oversized {cs : List Char} {length : Nat} (h : number? cs = some (.oversized, length)) :
    HasLongRun cs := by
  unfold number? at h
  extract_lets negative digits whole afterWhole fraction fractionLength exponent signLength n token at h
  have hdigits : digits <:+ cs := by
    simp only [digits]
    split
    · exact List.drop_suffix 1 cs
    · exact List.suffix_rfl
  have hlong : digitLimit < whole.length := by
    split at h
    · cases h
    · split at h
      · by_cases hlong : digitLimit < whole.length
        · exact hlong
        · have htoken : token = .atom (.int (if negative then -n else n)) (.ofDigits negative whole.length) :=
            if_neg hlong
          rw [htoken] at h
          cases h
      · cases h
  have hwhole : whole <:+: cs := (wholeDigits_isPrefix digits).isInfix.trans hdigits.isInfix
  exact ⟨whole, hwhole, isDecimalDigit_wholeDigits, hlong⟩

theorem plainToken_oversized {c : Char} {r : List Char} {length : Nat}
    (h : plainToken c r = (.oversized, length)) : HasLongRun (c :: r) := by
  unfold plainToken at h
  cases hword : word? (c :: r) with
  | some found =>
    obtain ⟨w, -, hw⟩ := Option.map_eq_some_iff.1 hword
    rw [hword, ← hw] at h
    cases h
  | none =>
    rw [hword, Option.none_or] at h
    cases hnumber : number? (c :: r) with
    | some found =>
      rw [hnumber, Option.getD_some] at h
      exact number?_oversized (hnumber.trans (congrArg some h))
    | none =>
      rw [hnumber] at h
      cases h

mutual

/-- A token for a long integer has its digits in the text. -/
theorem tokens_oversized (cs : List Char) {place : List Char × Token} (h : place ∈ tokens cs)
    (hplace : place.2 = .oversized) : HasLongRun cs := by
  -- The recursion is that of the reader: what it goes on with is a suffix, so digits there are digits here.
  match cs with
  | [] =>
    rw [tokens] at h
    cases h
  | c :: r =>
    rw [tokens] at h
    split at h
    · exact (tokens_oversized r h hplace).of_suffix (List.suffix_cons c r)
    · split at h
      · exact (quotedTokens_oversized _ _ r h hplace).of_suffix (List.suffix_cons c r)
      · rcases List.mem_cons.1 h with rfl | h
        · have hplain : plainToken c r = (.oversized, (plainToken c r).2) := Prod.ext hplace rfl
          exact plainToken_oversized hplain
        · exact (tokens_oversized _ h hplace).of_suffix ((List.drop_suffix _ r).trans (List.suffix_cons c r))
termination_by cs.length
decreasing_by all_goals (simp only [List.length_cons, List.length_drop]; omega)

theorem quotedTokens_oversized (start done cs : List Char)
    {place : List Char × Token} (h : place ∈ quotedTokens start done cs)
    (hplace : place.2 = .oversized) : HasLongRun cs := by
  match cs with
  | [] =>
    rw [quotedTokens, List.mem_singleton] at h
    subst h
    cases hplace
  | c :: r =>
    have hr : r <:+ c :: r := List.suffix_cons c r
    rw [quotedTokens] at h
    split at h
    · rcases List.mem_cons.1 h with rfl | h
      · cases hplace
      · exact (tokens_oversized r h hplace).of_suffix hr
    · split at h
      · split at h
        · exact (quotedTokens_oversized _ _ _ h hplace).of_suffix ((List.drop_suffix _ r).trans hr)
        · rw [List.mem_singleton.1 h] at hplace
          cases hplace
      · split at h
        · rw [List.mem_singleton.1 h] at hplace
          cases hplace
        · exact (quotedTokens_oversized _ _ r h hplace).of_suffix hr
termination_by cs.length
decreasing_by all_goals (simp only [List.length_cons, List.length_drop]; omega)

end

/-- Reading a text gives up only if it has more digits in a row than an integer may have. -/
theorem read_oversized {s : String} (h : read s = .error .oversized) : HasLongRun s.toList := by
  unfold read readChars at h
  split at h
  · cases h
  · obtain ⟨place, hplace, hoversized⟩ := ofTokens_oversized h
    exact tokens_oversized s.toList hplace hoversized

end SqlAst.Json
