import Mathlib.Data.Rat.Cast.Order
import Mathlib.Tactic.FieldSimp
import Mathlib.Tactic.Linarith
import Mathlib.Tactic.NormNum
import SqlAst.Proofs.NumberReading
import SqlAst.Text.Blank

/-!
# Numbers in loose spellings

A decimal number may stand between blanks and have a sign, single underscores between its digits, and a
fraction. Whole numbers are read from more texts than these: zeros and underscores may stand in any order once a
zero has come, and behind them a minus sign.

* `Decimal`, `Denotes`: the number that a text is as a decimal number, and in the looser spellings.
* `Denotes.of_decimal`: decimal numbers keep their values in the looser spellings.
* `Numeral.value_eq_intCast_iff`: a number is whole exactly if its fraction consists of zeros.
-/
namespace SqlAst.Json

/-! ## Values of digits -/

theorem digitValue_le {c : Char} (h : c.isDigit = true) : c.toNat - '0'.toNat ≤ 9 := by
  simp only [Char.isDigit, Bool.and_eq_true, decide_eq_true_eq] at h
  have hle : c.toNat ≤ 57 := h.2
  show c.toNat - 48 ≤ 9
  omega

theorem digitValue_pos {c : Char} (h : c.isDigit = true) (hc : c ≠ '0') : 1 ≤ c.toNat - '0'.toNat := by
  simp only [Char.isDigit, Bool.and_eq_true, decide_eq_true_eq] at h
  have hle : 48 ≤ c.toNat := h.1
  have hne : c.toNat ≠ 48 := fun heq => hc (Char.toNat_inj.1 heq)
  show 1 ≤ c.toNat - 48
  omega

/-- Digits are less than one more in the place before them. -/
theorem ofDigitChars_bounds {ds : List Char} (h : ∀ c ∈ ds, c.isDigit = true) (init : Nat) :
    10 ^ ds.length * init ≤ Nat.ofDigitChars 10 ds init ∧
      Nat.ofDigitChars 10 ds init < 10 ^ ds.length * (init + 1) := by
  induction ds generalizing init with
  | nil => simp
  | cons c r ih =>
    obtain ⟨hc, hr⟩ := List.forall_mem_cons.1 h
    obtain ⟨hlower, hupper⟩ := ih hr (10 * init + (c.toNat - '0'.toNat))
    have hdigit := digitValue_le hc
    rw [Nat.ofDigitChars_cons, List.length_cons, Nat.pow_succ, Nat.mul_assoc, Nat.mul_assoc]
    constructor
    · exact (Nat.mul_le_mul_left _ (by omega)).trans hlower
    · exact hupper.trans_le (Nat.mul_le_mul_left _ (by omega))

theorem ofDigitChars_lt {ds : List Char} (h : ∀ c ∈ ds, c.isDigit = true) :
    Nat.ofDigitChars 10 ds 0 < 10 ^ ds.length := by
  simpa using (ofDigitChars_bounds h 0).2

/-- Only zeros have the value zero. -/
theorem ofDigitChars_eq_zero_iff {ds : List Char} (h : ∀ c ∈ ds, c.isDigit = true) :
    Nat.ofDigitChars 10 ds 0 = 0 ↔ ∀ c ∈ ds, c = '0' := by
  induction ds with
  | nil => simp
  | cons c r ih =>
    obtain ⟨hc, hr⟩ := List.forall_mem_cons.1 h
    by_cases hzero : c = '0'
    · subst hzero
      have hrest : Nat.ofDigitChars 10 ('0' :: r) 0 = Nat.ofDigitChars 10 r 0 := rfl
      rw [hrest, ih hr]
      simp
    · have hpos : 0 < Nat.ofDigitChars 10 (c :: r) 0 := by
        rw [Nat.ofDigitChars_cons]
        have hdigit := digitValue_pos hc hzero
        exact Nat.lt_of_lt_of_le (Nat.mul_pos (Nat.pow_pos (by decide)) (by omega))
          (ofDigitChars_bounds hr _).1
      exact iff_of_false hpos.ne' fun hall => hzero (hall c List.mem_cons_self)

theorem IsWhole.isDigit {ds : List Char} (h : IsWhole ds) : ∀ c ∈ ds, c.isDigit = true := by
  rcases h with rfl | ⟨c, r, rfl, -, hd⟩
  · simp
  · exact hd

/-- Digits without a superfluous zero are as many as their value needs. -/
theorem IsWhole.length_le_iff {ds : List Char} (h : IsWhole ds) {k : Nat} (hk : 0 < k) :
    ds.length ≤ k ↔ Nat.ofDigitChars 10 ds 0 < 10 ^ k := by
  constructor
  · exact fun hle => (ofDigitChars_lt (h.isDigit)).trans_le (Nat.pow_le_pow_right (by decide) hle)
  · intro hlt
    rcases h with rfl | ⟨c, r, rfl, hc, hd⟩
    · exact hk
    · obtain ⟨hdigit, hr⟩ := List.forall_mem_cons.1 hd
      have hpos := digitValue_pos hdigit hc
      have hge : 10 ^ r.length ≤ Nat.ofDigitChars 10 (c :: r) 0 := by
        rw [Nat.ofDigitChars_cons]
        exact (Nat.le_mul_of_pos_right _ (by omega)).trans (ofDigitChars_bounds hr _).1
      exact (Nat.pow_lt_pow_iff_right (by decide)).1 (hge.trans_lt hlt)

end SqlAst.Json

namespace SqlAst.Whole

open Json (IsWhole signText signed fractionText)

/-! ## Spellings -/

/-- Digits with single underscores between some of them, and the digits alone. -/
inductive Grouped : List Char → List Char → Prop where
  | digit {c : Char} (hc : c.isDigit = true) : Grouped [c] [c]
  | next {c : Char} {text digits : List Char} (hc : c.isDigit = true) (rest : Grouped text digits) :
    Grouped (c :: text) (c :: digits)
  | apart {c : Char} {text digits : List Char} (hc : c.isDigit = true) (rest : Grouped text digits) :
    Grouped (c :: '_' :: text) (c :: digits)

/-- A sign in front of digits, and whether it is the minus sign. -/
inductive Sign : List Char → Bool → Prop where
  | none : Sign [] false
  | plus : Sign ['+'] false
  | minus : Sign ['-'] true

/-- Nothing, or a zero and then zeros and underscores in any order. -/
def Padding (cs : List Char) : Prop := cs = [] ∨ ∃ r, cs = '0' :: r ∧ ∀ c ∈ r, c = '0' ∨ c = '_'

/-- What the reader takes in front of digits: a sign with padding behind it, or padding with the minus sign
behind it. -/
inductive Front : List Char → Bool → Prop where
  | early {sign padding : List Char} {negative : Bool} (hsign : Sign sign negative)
    (hpadding : Padding padding) : Front (sign ++ padding) negative
  | late {sign padding gap : List Char} (hsign : Sign sign false) (hpadding : Padding padding)
    (hne : padding ≠ []) (hgap : gap = [] ∨ gap = ['_']) : Front (sign ++ (padding ++ '-' :: gap)) true

/-- A decimal number: its sign, and its digits in front of the point and behind it. -/
structure Numeral where
  negative : Bool
  whole : List Char
  fraction : List Char

namespace Numeral

def value (m : Numeral) : ℚ :=
  (if m.negative then -1 else 1) *
    (Nat.ofDigitChars 10 m.whole 0 + Nat.ofDigitChars 10 m.fraction 0 / 10 ^ m.fraction.length)

/-- The number stands in a text, with blanks around it and something of a kind in front of its digits. -/
inductive Spelled (front : List Char → Bool → Prop) (m : Numeral) : List Char → Prop where
  | mk {before lead whole after : List Char} (hbefore : ∀ c ∈ before, Text.isWhiteSpace c = true)
    (hlead : front lead m.negative) (hwhole : Grouped whole m.whole)
    (hfraction : ∀ c ∈ m.fraction, c.isDigit = true) (hafter : ∀ c ∈ after, Text.isWhiteSpace c = true) :
    Spelled front m (before ++ (lead ++ (whole ++ fractionText m.fraction)) ++ after)

end Numeral

/-- The number that a text is as a decimal number. -/
def Decimal (cs : List Char) (q : ℚ) : Prop := ∃ m : Numeral, m.Spelled Sign cs ∧ m.value = q

/-- The number that a text is in the spellings of the reader. -/
def Denotes (cs : List Char) (q : ℚ) : Prop :=
  ∃ m : Numeral, m.Spelled Front cs ∧ IsWhole m.whole ∧ m.value = q

/-! ## Values -/

theorem Numeral.value_eq_intCast_iff (m : Numeral) (hf : ∀ c ∈ m.fraction, c.isDigit = true) (i : Int) :
    m.value = i ↔ (∀ c ∈ m.fraction, c = '0') ∧ signed m.negative (Nat.ofDigitChars 10 m.whole 0) = i := by
  have hlt := Json.ofDigitChars_lt hf
  rw [← Json.ofDigitChars_eq_zero_iff hf]
  unfold value
  generalize Nat.ofDigitChars 10 m.whole 0 = w, Nat.ofDigitChars 10 m.fraction 0 = f at hlt ⊢
  have hpow : (0 : ℚ) < 10 ^ m.fraction.length := by positivity
  -- Without its sign the value is a whole number only if the fraction is nothing.
  have hwhole (j : Int) : (w : ℚ) + f / 10 ^ m.fraction.length = j ↔ f = 0 ∧ (w : Int) = j := by
    constructor
    · intro h
      have hnonneg : (0 : ℚ) ≤ f / 10 ^ m.fraction.length := by positivity
      have hless : (f : ℚ) / 10 ^ m.fraction.length < 1 := by
        rw [div_lt_one hpow]
        exact_mod_cast hlt
      have hlower : (w : Int) ≤ j := by
        have : (w : ℚ) ≤ j := by linarith
        exact_mod_cast this
      have hupper : j < (w : Int) + 1 := by
        have : (j : ℚ) < w + 1 := by linarith
        exact_mod_cast this
      have hj : (w : Int) = j := by omega
      have hjq : (w : ℚ) = j := by exact_mod_cast hj
      have hzero : (f : ℚ) / 10 ^ m.fraction.length = 0 := by linarith
      refine ⟨?_, hj⟩
      rcases div_eq_zero_iff.1 hzero with hf | hf
      · exact_mod_cast hf
      · exact absurd hf hpow.ne'
    · rintro ⟨rfl, rfl⟩
      simp
  cases m.negative with
  | false =>
    rw [if_neg (by decide), one_mul, hwhole]
    rfl
  | true =>
    rw [if_pos rfl, neg_one_mul, neg_eq_iff_eq_neg, ← Int.cast_neg, hwhole]
    show _ ∧ _ ↔ _ ∧ -(w : Int) = i
    omega

/-! ## Characters of numbers -/

/-- A character that is no digit. -/
theorem ne_of_isDigit {c d : Char} (hc : c.isDigit = true) (hd : d.isDigit = false) : c ≠ d := by
  rintro rfl
  rw [hc] at hd
  cases hd

theorem isWhiteSpace_of_isDigit {c : Char} (h : c.isDigit = true) : Text.isWhiteSpace c = false := by
  simp only [Char.isDigit, Bool.and_eq_true, decide_eq_true_eq] at h
  have hlower : 48 ≤ c.toNat := h.1
  have hupper : c.toNat ≤ 57 := h.2
  simp only [Text.isWhiteSpace, Bool.or_eq_false_iff, Bool.and_eq_false_iff, decide_eq_false_iff_not]
  omega

theorem isDigit_of_isDecimalDigit {c : Char} (h : Text.isDecimalDigit c = true) : c.isDigit = true := by
  simp only [Text.isDecimalDigit, Bool.and_eq_true, decide_eq_true_eq] at h
  simp only [Char.isDigit, Bool.and_eq_true, decide_eq_true_eq]
  exact h

namespace Grouped

variable {text digits : List Char}

theorem isDigit (h : Grouped text digits) : ∀ c ∈ digits, c.isDigit = true := by
  induction h with
  | digit hc => simpa using hc
  | next hc _ ih => exact List.forall_mem_cons.2 ⟨hc, ih⟩
  | apart hc _ ih => exact List.forall_mem_cons.2 ⟨hc, ih⟩

theorem ne_nil (h : Grouped text digits) : digits ≠ [] := by cases h <;> simp

theorem mem (h : Grouped text digits) : ∀ c ∈ text, c.isDigit = true ∨ c = '_' := by
  induction h with
  | digit hc => simpa using Or.inl hc
  | next hc _ ih => exact List.forall_mem_cons.2 ⟨.inl hc, ih⟩
  | apart hc _ ih => exact List.forall_mem_cons.2 ⟨.inl hc, List.forall_mem_cons.2 ⟨.inr rfl, ih⟩⟩

/-- Grouped digits begin with a digit. -/
theorem exists_cons (h : Grouped text digits) :
    ∃ c r s, text = c :: r ∧ digits = c :: s ∧ c.isDigit = true := by
  cases h with
  | digit hc => exact ⟨_, _, _, rfl, rfl, hc⟩
  | next hc _ => exact ⟨_, _, _, rfl, rfl, hc⟩
  | apart hc _ => exact ⟨_, _, _, rfl, rfl, hc⟩

theorem zero (h : Grouped text ['0']) : text = ['0'] := by
  cases h with
  | digit => rfl
  | next _ rest => exact absurd rfl rest.ne_nil
  | apart _ rest => exact absurd rfl rest.ne_nil

theorem filter (h : Grouped text digits) : text.filter (· ≠ '_') = digits := by
  have hkeep {c : Char} (hc : c.isDigit = true) (r : List Char) :
      (c :: r).filter (· ≠ '_') = c :: r.filter (· ≠ '_') :=
    List.filter_cons_of_pos (by simpa using ne_of_isDigit hc (by decide))
  induction h with
  | digit hc => exact hkeep hc []
  | next hc _ ih => rw [hkeep hc, ih]
  | apart hc _ ih => rw [hkeep hc, List.filter_cons_of_neg (by decide), ih]

theorem getLast?_ne (h : Grouped text digits) : text.getLast? ≠ some '_' := by
  induction h with
  | digit hc => simpa using ne_of_isDigit hc (by decide)
  | next hc rest ih =>
    obtain ⟨d, r, s, rfl, -, -⟩ := rest.exists_cons
    exact ih
  | apart hc rest ih =>
    obtain ⟨d, r, s, rfl, -, -⟩ := rest.exists_cons
    exact ih

end Grouped

theorem grouped_self {ds : List Char} (hne : ds ≠ []) (h : ∀ c ∈ ds, c.isDigit = true) : Grouped ds ds := by
  induction ds with
  | nil => exact absurd rfl hne
  | cons c r ih =>
    obtain ⟨hc, hr⟩ := List.forall_mem_cons.1 h
    by_cases hnil : r = []
    · rw [hnil]
      exact .digit hc
    · exact .next hc (ih hnil hr)

/-! ## Decimal numbers -/

theorem Padding.mem {padding : List Char} (h : Padding padding) : ∀ c ∈ padding, c = '0' ∨ c = '_' := by
  rcases h with rfl | ⟨r, rfl, hr⟩
  · exact List.forall_mem_nil _
  · exact List.forall_mem_cons.2 ⟨.inl rfl, hr⟩

/-- The first zeros of grouped digits are padding. -/
theorem Grouped.split {text digits : List Char} (h : Grouped text digits) :
    ∃ padding text' digits', Padding padding ∧ text = padding ++ text' ∧ Grouped text' digits' ∧
      IsWhole digits' ∧ Nat.ofDigitChars 10 digits' 0 = Nat.ofDigitChars 10 digits 0 := by
  have hwhole {c : Char} {text digits : List Char} (h : Grouped text (c :: digits)) (hc : c ≠ '0') :
      ∃ padding text' digits', Padding padding ∧ text = padding ++ text' ∧ Grouped text' digits' ∧
        IsWhole digits' ∧ Nat.ofDigitChars 10 digits' 0 = Nat.ofDigitChars 10 (c :: digits) 0 :=
    ⟨[], text, c :: digits, .inl rfl, rfl, h, .inr ⟨c, digits, rfl, hc, h.isDigit⟩, rfl⟩
  induction h with
  | @digit c hc =>
    by_cases hzero : c = '0'
    · subst hzero
      exact ⟨[], ['0'], ['0'], .inl rfl, rfl, .digit hc, .inl rfl, rfl⟩
    · exact hwhole (.digit hc) hzero
  | @next c text digits hc rest ih =>
    by_cases hzero : c = '0'
    · subst hzero
      obtain ⟨padding, text', digits', hpadding, rfl, hgrouped, hw, hvalue⟩ := ih
      exact ⟨'0' :: padding, text', digits', .inr ⟨padding, rfl, hpadding.mem⟩, rfl, hgrouped, hw, hvalue⟩
    · exact hwhole (.next hc rest) hzero
  | @apart c text digits hc rest ih =>
    by_cases hzero : c = '0'
    · subst hzero
      obtain ⟨padding, text', digits', hpadding, rfl, hgrouped, hw, hvalue⟩ := ih
      exact ⟨'0' :: '_' :: padding, text', digits',
        .inr ⟨'_' :: padding, rfl, List.forall_mem_cons.2 ⟨.inr rfl, hpadding.mem⟩⟩, rfl, hgrouped, hw,
        hvalue⟩
    · exact hwhole (.apart hc rest) hzero

/-- A decimal number is in the spellings of the reader, which takes its first zeros for padding. -/
theorem Denotes.of_decimal {cs : List Char} {q : ℚ} (h : Decimal cs q) : Denotes cs q := by
  obtain ⟨m, ⟨hbefore, hsign, hwhole, hfraction, hafter⟩, rfl⟩ := h
  rename_i before sign whole after
  obtain ⟨padding, text, digits, hpadding, rfl, hgrouped, hw, hvalue⟩ := hwhole.split
  have hspelled : (Numeral.mk m.negative digits m.fraction).Spelled Front
      (before ++ (sign ++ padding ++ (text ++ fractionText m.fraction)) ++ after) :=
    .mk hbefore (.early hsign hpadding) hgrouped hfraction hafter
  refine ⟨⟨m.negative, digits, m.fraction⟩, by simpa using hspelled, hw, ?_⟩
  simp only [Numeral.value, hvalue]

theorem mem_fractionText {fraction : List Char} (h : ∀ c ∈ fraction, c.isDigit = true) :
    ∀ c ∈ fractionText fraction, c.isDigit = true ∨ c = '.' := by
  intro c hc
  unfold fractionText at hc
  split at hc
  · cases hc
  · rcases List.mem_cons.1 hc with rfl | hc
    · exact .inr rfl
    · exact .inl (h c hc)

/-- Behind its first digit a decimal number has no minus sign. -/
theorem Decimal.not_mem_minus {c : Char} {r : List Char} {q : ℚ} (h : Decimal (c :: r) q)
    (hc : c.isDigit = true) : '-' ∉ r := by
  obtain ⟨m, hspelled, -⟩ := h
  generalize hcs : c :: r = cs at hspelled
  obtain ⟨hbefore, hsign, hwhole, hfraction, hafter⟩ := hspelled
  rename_i before sign whole after
  have hfirst : before = [] := by
    cases before with
    | nil => rfl
    | cons d s =>
      obtain ⟨rfl, -⟩ := List.cons.inj hcs
      exact absurd (hbefore c List.mem_cons_self) (by rw [isWhiteSpace_of_isDigit hc]; decide)
  subst hfirst
  generalize m.negative = negative at hsign
  cases hsign with
  | plus => exact absurd (List.cons.inj hcs).1 (ne_of_isDigit hc (by decide))
  | minus => exact absurd (List.cons.inj hcs).1 (ne_of_isDigit hc (by decide))
  | none =>
    intro hminus
    have hmem : '-' ∈ whole ++ fractionText m.fraction ++ after := by
      simpa [hcs] using List.mem_cons_of_mem c hminus
    rcases List.mem_append.1 hmem with hmem | hmem
    · rcases List.mem_append.1 hmem with hmem | hmem
      · exact absurd (hwhole.mem _ hmem) (by decide)
      · exact absurd (mem_fractionText hfraction _ hmem) (by decide)
    · exact absurd (hafter _ hmem) (by decide)

end SqlAst.Whole
