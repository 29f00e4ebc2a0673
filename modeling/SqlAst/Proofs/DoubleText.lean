import SqlAst.Number.Layout
import SqlAst.Proofs.Decimal

/-!
# Spelled doubles

The digits that a layout sets out, and the characters that a spelled double consists of.

* `toDigits_eq_significant`: the digits of a number are its significant ones and zeros.
* `isMagnitude_magnitudeText`: a spelled magnitude begins with a digit and goes on with the characters of
  numbers.
-/
namespace SqlAst

/-! ## Significant digits -/

namespace Layout

theorem toDigits_eq_significant (n : Nat) :
    ∃ k, Nat.toDigits 10 n = significantDigits n ++ List.replicate k '0' := by
  have hsplit := List.takeWhile_append_dropWhile (p := (· = '0')) (l := (Nat.toDigits 10 n).reverse)
  have hzeros : (Nat.toDigits 10 n).reverse.takeWhile (· = '0') =
      List.replicate ((Nat.toDigits 10 n).reverse.takeWhile (· = '0')).length '0' := by
    rw [List.eq_replicate_iff]
    refine ⟨rfl, fun c hc => ?_⟩
    have hall :=
      List.all_eq_true.1 (List.all_takeWhile (p := (· = '0')) (l := (Nat.toDigits 10 n).reverse))
    simpa using hall c hc
  refine ⟨((Nat.toDigits 10 n).reverse.takeWhile (· = '0')).length, ?_⟩
  have hrev := congrArg List.reverse hsplit
  rw [List.reverse_append, List.reverse_reverse, hzeros, List.reverse_replicate] at hrev
  exact hrev.symm

theorem isDigit_of_mem_significant {n : Nat} {c : Char} (h : c ∈ significantDigits n) :
    c.isDigit = true := by
  obtain ⟨k, hk⟩ := toDigits_eq_significant n
  have hmem : c ∈ Nat.toDigits 10 n := by
    rw [hk]
    exact List.mem_append_left _ h
  exact Nat.isDigit_of_mem_toDigits (by decide) (by decide) hmem

/-- The value of the digits, and the power of ten that the zeros behind them are worth. -/
theorem ofDigitChars_significant (n : Nat) :
    Nat.ofDigitChars 10 (significantDigits n) 0 *
      10 ^ ((Nat.toDigits 10 n).length - (significantDigits n).length) = n := by
  obtain ⟨k, hk⟩ := toDigits_eq_significant n
  have hvalue := Nat.ofDigitChars_ten_toDigits (n := n)
  rw [hk, Nat.ofDigitChars_append, Nat.ofDigitChars_replicate_zero] at hvalue
  rw [hk, List.length_append, List.length_replicate, Nat.add_sub_cancel_left, Nat.mul_comm]
  exact hvalue

theorem significantDigits_ne_nil {n : Nat} (h : n ≠ 0) : significantDigits n ≠ [] := by
  intro hnil
  have hvalue := ofDigitChars_significant n
  rw [hnil] at hvalue
  exact h (by simpa using hvalue.symm)

/-! ## Characters -/

/-- The characters of numbers. -/
def isNumeral (c : Char) : Prop := c.isDigit = true ∨ c = '.' ∨ c = 'e' ∨ c = '+' ∨ c = '-'

/-- What begins with a digit and goes on with the characters of numbers. -/
def IsMagnitude (cs : List Char) : Prop := ∃ c r, cs = c :: r ∧ c.isDigit = true ∧ ∀ x ∈ r, isNumeral x

theorem isMagnitude_append {a b : List Char} (ha : a ≠ []) (hd : ∀ c ∈ a, c.isDigit = true)
    (hb : ∀ c ∈ b, isNumeral c) : IsMagnitude (a ++ b) := by
  cases a with
  | nil => exact absurd rfl ha
  | cons c r =>
    refine ⟨c, r ++ b, rfl, hd c (by simp), fun x hx => ?_⟩
    rcases List.mem_append.1 hx with hr | hb'
    · exact .inl (hd x (by simp [hr]))
    · exact hb x hb'

theorem isDigit_of_mem_natText {width n : Nat} {c : Char} (h : c ∈ Text.natText width n) :
    c.isDigit = true := by
  rcases List.mem_append.1 h with hz | hd
  · rw [List.eq_of_mem_replicate hz]
    rfl
  · exact Nat.isDigit_of_mem_toDigits (by decide) (by decide) hd

theorem isMagnitude_arrange (l : Layout) {digits : List Char} (hne : digits ≠ [])
    (hd : ∀ c ∈ digits, c.isDigit = true) (power : Int) : IsMagnitude (l.arrange digits power) := by
  have hzeros {k : Nat} {c : Char} (h : c ∈ List.replicate k '0') : c.isDigit = true := by
    rw [List.eq_of_mem_replicate h]
    rfl
  have htake {k : Nat} (hk : 0 < k) : digits.take k ≠ [] := by
    simp [hne, hk.ne']
  unfold arrange
  split
  · split
    · show IsMagnitude (['0'] ++ '.' :: (List.replicate (-power - 1).toNat '0' ++ digits))
      refine isMagnitude_append (by simp) (by simp) fun c hc => ?_
      simp only [List.mem_cons, List.mem_append] at hc
      rcases hc with rfl | hz | hm
      · exact .inr (.inl rfl)
      · exact .inl (hzeros hz)
      · exact .inl (hd c hm)
    · rw [List.append_assoc]
      refine isMagnitude_append (htake (Nat.succ_pos _)) (fun c hc => hd c (List.mem_of_mem_take hc))
        fun c hc => ?_
      simp only [List.mem_append, List.mem_cons] at hc
      rcases hc with hz | rfl | hm
      · exact .inl (hzeros hz)
      · exact .inr (.inl rfl)
      · split at hm
        · rw [List.mem_singleton.1 hm]
          exact .inl rfl
        · exact .inl (hd c (List.mem_of_mem_drop hm))
  · rw [List.append_assoc]
    refine isMagnitude_append (htake Nat.one_pos) (fun c hc => hd c (List.mem_of_mem_take hc))
      fun c hc => ?_
    simp only [List.mem_append, List.mem_cons] at hc
    rcases hc with ht | rfl | hs | hn
    · split at ht
      · cases ht
      · rcases List.mem_cons.1 ht with rfl | hm
        · exact .inr (.inl rfl)
        · exact .inl (hd c (List.mem_of_mem_drop hm))
    · exact .inr (.inr (.inl rfl))
    · split at hs
      · exact .inr (.inr (.inr (.inr hs)))
      · exact .inr (.inr (.inr (.inl hs)))
    · exact .inl (isDigit_of_mem_natText hn)

theorem isMagnitude_magnitudeText (l : Layout) {d : Binary64} (hf : d.isFinite = true) :
    IsMagnitude (l.magnitudeText d) := by
  unfold magnitudeText
  split
  · rename_i hn
    have hne := significantDigits_ne_nil (Binary64.shortest_digits_ne_zero hf hn)
    exact isMagnitude_arrange l hne (fun c hc => isDigit_of_mem_significant hc) _
  · exact ⟨'0', ['.', '0'], rfl, rfl, by simp [isNumeral]⟩

/-- A spelled double: a minus sign, if it is negative, and a magnitude. -/
theorem finiteText_eq (l : Layout) (d : Binary64) :
    l.finiteText d = (if d.isNegative then ['-'] else []) ++ l.magnitudeText d := by
  unfold finiteText
  split <;> rfl

end Layout

end SqlAst
