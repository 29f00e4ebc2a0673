import Mathlib.Data.Int.Log
import Mathlib.Data.Nat.Log
import Mathlib.Data.Rat.Floor
import Mathlib.Tactic.FieldSimp
import Mathlib.Tactic.Linarith
import Mathlib.Tactic.Ring
import SqlAst.Number.Shortest

/-!
# Doubles and decimal numbers

`Binary64.nearest` depends on the value of a decimal number only, not on how it is split into digits and
a power of ten, and the shortest digits of a double read back as that double.

* `magnitudeBits_congr`, `nearest_shift`: equal quotients round to the same double.
* `nearest_exact`: the exact decimal value of a finite double rounds to it.
* `nearest_shortest`: so do its shortest digits.
-/
namespace SqlAst.Binary64

/-! ## Rounding a quotient -/

theorem roundQuotient_mul {c : Nat} (hc : 0 < c) (num den : Nat) :
    roundQuotient (c * num) (c * den) = roundQuotient num den := by
  unfold roundQuotient
  have hless : 2 * (c * (num % den)) < c * den ↔ 2 * (num % den) < den := by
    rw [Nat.mul_left_comm]; exact Nat.mul_lt_mul_left hc
  have hsame : 2 * (c * (num % den)) = c * den ↔ 2 * (num % den) = den := by
    rw [Nat.mul_left_comm]; exact Nat.mul_right_inj hc.ne'
  simp only [Nat.mul_div_mul_left _ _ hc, Nat.mul_mod_mul_left, hless, hsame]

theorem roundQuotient_congr {num den num' den' : Nat} (hd : 0 < den) (hd' : 0 < den')
    (h : num * den' = num' * den) : roundQuotient num den = roundQuotient num' den' := by
  rw [← roundQuotient_mul hd' num den, ← roundQuotient_mul hd num' den', Nat.mul_comm den' num, h,
    Nat.mul_comm num' den, Nat.mul_comm den' den]

theorem roundQuotient_whole (m : Nat) {den : Nat} (hd : 0 < den) : roundQuotient (m * den) den = m := by
  simp [roundQuotient, Nat.mul_div_cancel _ hd, hd]

/-! ## The power of two that a quotient reaches -/

theorem two_zpow_le_iff {num den : Nat} (hd : 0 < den) (e : Int) :
    den * 2 ^ e.toNat ≤ num * 2 ^ (-e).toNat ↔ (2 : ℚ) ^ e ≤ (num : ℚ) / den := by
  have hq : (0 : ℚ) < den := by exact_mod_cast hd
  rw [le_div_iff₀ hq]
  rcases Int.le_total 0 e with he | he
  · obtain ⟨n, rfl⟩ := Int.eq_ofNat_of_zero_le he
    rw [show (-(n : Int)).toNat = 0 by omega, Int.toNat_natCast, zpow_natCast, pow_zero, mul_one]
    rw [← Nat.cast_le (α := ℚ)]
    push_cast
    rw [mul_comm]
  · obtain ⟨n, hn⟩ : ∃ n : Nat, e = -(n : Int) := ⟨(-e).toNat, by omega⟩
    subst hn
    rw [neg_neg, Int.toNat_natCast, show (-(n : Int)).toNat = 0 by omega, zpow_neg, zpow_natCast,
      pow_zero, mul_one, inv_mul_le_iff₀ (by positivity), ← Nat.cast_le (α := ℚ)]
    push_cast
    rw [mul_comm]

/-- The estimate from the lengths of numerator and denominator is too large by one at most. -/
theorem log_bounds {num den : Nat} (hn : 0 < num) (hd : 0 < den) :
    (num.log2 : Int) - den.log2 - 1 ≤ Int.log 2 ((num : ℚ) / den) ∧
      Int.log 2 ((num : ℚ) / den) ≤ (num.log2 : Int) - den.log2 := by
  have hdq : (0 : ℚ) < den := by exact_mod_cast hd
  have hpos : (0 : ℚ) < (num : ℚ) / den := div_pos (by exact_mod_cast hn) hdq
  have n1 : (2 : ℚ) ^ num.log2 ≤ num := by exact_mod_cast Nat.log2_self_le hn.ne'
  have n2 : (num : ℚ) < 2 ^ (num.log2 + 1) := by exact_mod_cast Nat.lt_log2_self
  have d1 : (2 : ℚ) ^ den.log2 ≤ den := by exact_mod_cast Nat.log2_self_le hd.ne'
  have d2 : (den : ℚ) < 2 ^ (den.log2 + 1) := by exact_mod_cast Nat.lt_log2_self
  constructor
  · rw [← Int.zpow_le_iff_le_log (by decide) hpos]
    rw [show (num.log2 : Int) - den.log2 - 1 = num.log2 - (den.log2 + 1 : Nat) by push_cast; ring]
    rw [Nat.cast_ofNat, zpow_sub₀ (by norm_num), zpow_natCast, zpow_natCast]
    exact div_le_div₀ (by exact_mod_cast hn.le) n1 hdq d2.le
  · rw [← Int.lt_add_one_iff, ← Int.lt_zpow_iff_log_lt (by decide) hpos]
    rw [show (num.log2 : Int) - den.log2 + 1 = (num.log2 + 1 : Nat) - den.log2 by push_cast; ring]
    rw [Nat.cast_ofNat, zpow_sub₀ (by norm_num), zpow_natCast, zpow_natCast]
    exact div_lt_div₀ n2 d1 (by positivity) (by positivity)

theorem floorLog2_eq {num den : Nat} (hn : 0 < num) (hd : 0 < den) :
    floorLog2 num den = Int.log 2 ((num : ℚ) / den) := by
  have hpos : (0 : ℚ) < (num : ℚ) / den := div_pos (by exact_mod_cast hn) (by exact_mod_cast hd)
  obtain ⟨lower, upper⟩ := log_bounds hn hd
  have hreach (e : Int) : den * 2 ^ e.toNat ≤ num * 2 ^ (-e).toNat ↔
    e ≤ Int.log 2 ((num : ℚ) / den) := by
    rw [two_zpow_le_iff hd, ← Int.zpow_le_iff_le_log (by decide) hpos, Nat.cast_ofNat]
  simp only [floorLog2, Nat.pow_eq, hreach]
  split <;> omega

theorem cast_div_congr {num den num' den' : Nat} (hd : 0 < den) (hd' : 0 < den')
    (h : num * den' = num' * den) : (num : ℚ) / den = (num' : ℚ) / den' := by
  rw [div_eq_div_iff (by exact_mod_cast hd.ne') (by exact_mod_cast hd'.ne')]
  exact_mod_cast h

theorem floorLog2_congr {num den num' den' : Nat} (hn : 0 < num) (hd : 0 < den) (hn' : 0 < num')
    (hd' : 0 < den') (h : num * den' = num' * den) : floorLog2 num den = floorLog2 num' den' := by
  rw [floorLog2_eq hn hd, floorLog2_eq hn' hd', cast_div_congr hd hd' h]

/-- Equal quotients have the same nearest double. -/
theorem magnitudeBits_congr {num den num' den' : Nat} (hn : 0 < num) (hd : 0 < den) (hn' : 0 < num')
    (hd' : 0 < den') (h : num * den' = num' * den) :
    magnitudeBits num den = magnitudeBits num' den' := by
  unfold magnitudeBits
  rw [floorLog2_congr hn hd hn' hd' h]
  generalize max (floorLog2 num' den' - 52) (-1074) = q
  have hround : roundQuotient (num * 2 ^ (-q).toNat) (den * 2 ^ q.toNat) =
      roundQuotient (num' * 2 ^ (-q).toNat) (den' * 2 ^ q.toNat) := by
    apply roundQuotient_congr (Nat.mul_pos hd (Nat.two_pow_pos _)) (Nat.mul_pos hd' (Nat.two_pow_pos _))
    calc num * 2 ^ (-q).toNat * (den' * 2 ^ q.toNat)
        = num * den' * (2 ^ (-q).toNat * 2 ^ q.toNat) := by ring
      _ = num' * 2 ^ (-q).toNat * (den * 2 ^ q.toNat) := by rw [h]; ring
  simp only [Nat.pow_eq, hround]

/-! ## Digits and a power of ten -/

theorem lt_pow_length_toDigits (n : Nat) : n < 10 ^ (Nat.toDigits 10 n).length :=
  (Nat.length_toDigits_le_iff (by decide) Nat.length_toDigits_pos).1 (Nat.le_refl _)

theorem length_toDigits_mul_pow {m : Nat} (hm : 0 < m) (k : Nat) :
    (Nat.toDigits 10 (m * 10 ^ k)).length = (Nat.toDigits 10 m).length + k := by
  have hk : 0 < 10 ^ k := Nat.pow_pos (by decide)
  have hpos : 0 < (Nat.toDigits 10 m).length := Nat.length_toDigits_pos
  apply Nat.le_antisymm
  · rw [Nat.length_toDigits_le_iff (by decide) (by omega), Nat.pow_add]
    exact Nat.mul_lt_mul_of_pos_right (lt_pow_length_toDigits m) hk
  · have hless := lt_pow_length_toDigits (m * 10 ^ k)
    have hlong : k < (Nat.toDigits 10 (m * 10 ^ k)).length := by
      rw [← Nat.pow_lt_pow_iff_right (a := 10) (by decide)]
      exact Nat.lt_of_le_of_lt (Nat.le_mul_of_pos_left _ hm) hless
    obtain ⟨j, hj⟩ := Nat.exists_eq_add_of_lt hlong
    rw [hj, Nat.add_assoc, Nat.add_comm k, Nat.pow_add] at hless
    have hm' : m < 10 ^ (j + 1) := Nat.lt_of_mul_lt_mul_right hless
    have := (Nat.length_toDigits_le_iff (b := 10) (by decide) (Nat.succ_pos j)).2 hm'
    omega

/-- Zeros at the end of the digits are worth a power of ten. -/
theorem nearest_shift (negative : Bool) (m k : Nat) (e : Int) :
    nearest negative (m * 10 ^ k) e = nearest negative m (e + k) := by
  have ten (n : Nat) : 0 < 10 ^ n := Nat.pow_pos (by decide)
  rcases Nat.eq_zero_or_pos m with rfl | hm
  · simp [nearest]
  have hne : m * 10 ^ k ≠ 0 := (Nat.mul_pos hm (ten k)).ne'
  have hreach : ((Nat.toDigits 10 (m * 10 ^ k)).length : Int) + e =
    (Nat.toDigits 10 m).length + (e + k) := by
    rw [length_toDigits_mul_pow hm]; push_cast; ring
  have hbits : magnitudeBits (m * 10 ^ k * 10 ^ e.toNat) (10 ^ (-e).toNat) =
      magnitudeBits (m * 10 ^ (e + k).toNat) (10 ^ (-(e + k)).toNat) := by
    apply magnitudeBits_congr (Nat.mul_pos (Nat.mul_pos hm (ten _)) (ten _)) (ten _)
      (Nat.mul_pos hm (ten _)) (ten _)
    have hexp : k + e.toNat + (-(e + k)).toNat = (e + k).toNat + (-e).toNat := by omega
    calc m * 10 ^ k * 10 ^ e.toNat * 10 ^ (-(e + k)).toNat
        = m * 10 ^ (k + e.toNat + (-(e + k)).toNat) := by ring
      _ = m * 10 ^ (e + k).toNat * 10 ^ (-e).toNat := by rw [hexp]; ring
  simp only [nearest, Nat.pow_eq, hreach, hbits, hne, hm.ne', false_or]

/-! ## The exact value -/

variable {d : Binary64}

theorem significand_lt (d : Binary64) : d.significand < 2 ^ 53 := by
  have hf : d.fraction < 2 ^ 52 := Nat.mod_lt _ (by decide)
  unfold significand
  simp only [Nat.pow_eq]
  split <;> omega

/-- The bits of the magnitude, from significand and scale. -/
theorem magnitude_eq (d : Binary64) :
    (d.scale + 1074).toNat * 2 ^ 52 + d.significand = d.bits.toNat % 2 ^ 63 := by
  have hf : d.bits.toNat % 2 ^ 63 = d.exponentField * 2 ^ 52 + d.fraction := by
    unfold exponentField fraction
    simp only [Nat.pow_eq]
    omega
  rw [hf]
  unfold scale significand
  simp only [Nat.pow_eq]
  split <;> omega

theorem ofMagnitude_eq (d : Binary64) : ofMagnitude d.isNegative (d.bits.toNat % 2 ^ 63) = d := by
  have hlt := d.bits.toNat_lt
  have hsum : (d.bits.toNat % 2 ^ 63 + if d.isNegative then 2 ^ 63 else 0) = d.bits.toNat := by
    unfold isNegative
    by_cases h : 2 ^ 63 ≤ d.bits.toNat
    · rw [if_pos (by simpa using h)]
      omega
    · rw [if_neg (by simpa using h)]
      omega
  rw [ofMagnitude, Nat.pow_eq, hsum, UInt64.ofNat_toNat]

theorem significand_pos (h : d.isNonzero = true) : 0 < d.significand := by
  have hm := magnitude_eq d
  have hne : d.bits.toNat % 2 ^ 63 ≠ 0 := by simpa [isNonzero] using h
  by_contra hz
  have hs : d.significand = 0 := by omega
  unfold significand at hs
  simp only [Nat.pow_eq] at hs
  split at hs
  · rename_i he
    unfold scale significand at hm
    rw [if_pos he, he] at hm
    omega
  · omega

theorem exponentField_lt (h : d.isFinite = true) : d.exponentField < 2047 := by
  have hne : d.exponentField ≠ 2047 := by simpa [isFinite] using h
  have : d.exponentField < 2 ^ 11 := Nat.mod_lt _ (by decide)
  omega

theorem quotient_value (m : Nat) (s : Int) :
    ((m * 2 ^ s.toNat : Nat) : ℚ) / ((2 ^ (-s).toNat : Nat) : ℚ) = m * 2 ^ s := by
  push_cast
  rw [mul_div_assoc, ← zpow_natCast, ← zpow_natCast, ← zpow_sub₀ (by norm_num)]
  rw [show (s.toNat : Int) - (-s).toNat = s by omega]

/-- The power of two that a scaled significand reaches. -/
theorem le_floorLog2_iff {m : Nat} (hm : 0 < m) (s : Int) (k : Nat) :
    s + k ≤ floorLog2 (m * 2 ^ s.toNat) (2 ^ (-s).toNat) ↔ 2 ^ k ≤ m := by
  have hs : (0 : ℚ) < 2 ^ s := zpow_pos (by norm_num) s
  have hmq : (0 : ℚ) < m := by exact_mod_cast hm
  rw [floorLog2_eq (Nat.mul_pos hm (Nat.two_pow_pos _)) (Nat.two_pow_pos _), quotient_value,
    ← Int.zpow_le_iff_le_log (by decide) (mul_pos hmq hs), Nat.cast_ofNat, zpow_add₀ (by norm_num),
      mul_comm,
    mul_le_mul_iff_left₀ hs, zpow_natCast]
  exact_mod_cast Iff.rfl

/-- Rounding a scaled significand gives it back, as the double has room for it. -/
theorem magnitudeBits_quotient (hf : d.isFinite = true) (hn : d.isNonzero = true) :
    magnitudeBits d.quotient.1 d.quotient.2 = d.bits.toNat % 2 ^ 63 := by
  have hm := significand_pos hn
  have hup : ¬ d.scale + (53 : Nat) ≤
    floorLog2 (d.significand * 2 ^ d.scale.toNat) (2 ^ (-d.scale).toNat) := by
    rw [le_floorLog2_iff hm, Nat.not_le]
    exact significand_lt d
  have hq : max (floorLog2 d.quotient.1 d.quotient.2 - 52) (-1074) = d.scale := by
    show max (floorLog2 (d.significand * 2 ^ d.scale.toNat) (2 ^ (-d.scale).toNat) - 52)
      (-1074) = d.scale
    by_cases he : d.exponentField = 0
    · have hs : d.scale = -1074 := by simp [scale, he]
      omega
    · have hlow : d.scale + (52 : Nat) ≤
        floorLog2 (d.significand * 2 ^ d.scale.toNat) (2 ^ (-d.scale).toNat) := by
        rw [le_floorLog2_iff hm, significand, if_neg he, Nat.pow_eq]
        omega
      have hs : -1074 ≤ d.scale := by
        unfold scale
        omega
      omega
  have hround : roundQuotient (d.quotient.1 * 2 ^ (-d.scale).toNat) (d.quotient.2 * 2 ^ d.scale.toNat) =
      d.significand := by
    unfold quotient
    simp only [Nat.pow_eq]
    rw [show d.significand * 2 ^ d.scale.toNat * 2 ^ (-d.scale).toNat =
      d.significand * (2 ^ (-d.scale).toNat * 2 ^ d.scale.toNat) by ring]
    exact roundQuotient_whole _ (Nat.mul_pos (Nat.two_pow_pos _) (Nat.two_pow_pos _))
  have hlt : d.bits.toNat % 2 ^ 63 ≤ infiniteMagnitude := by
    have he := exponentField_lt hf
    unfold exponentField at he
    unfold infiniteMagnitude
    simp only [Nat.pow_eq] at he ⊢
    omega
  unfold magnitudeBits
  simp only [Nat.pow_eq, hq, hround, magnitude_eq]
  exact Nat.min_eq_left hlt

/-- The exact decimal value is neither too long nor too small to be rounded. -/
theorem exact_reach (hf : d.isFinite = true) (hn : d.isNonzero = true) :
    -330 ≤ ((Nat.toDigits 10 d.exact.digits).length : Int) + d.exact.exponent ∧
      ((Nat.toDigits 10 d.exact.digits).length : Int) + d.exact.exponent ≤ 310 := by
  have hm := significand_pos hn
  have hm53 := significand_lt d
  have he := exponentField_lt hf
  have hs : -1074 ≤ d.scale ∧ d.scale ≤ 971 := by
    unfold scale
    omega
  unfold exact
  simp only [Nat.pow_eq]
  split
  · rename_i hpos
    have hlt : d.significand * 2 ^ d.scale.toNat < 10 ^ 310 :=
      calc d.significand * 2 ^ d.scale.toNat
          ≤ 2 ^ 53 * 2 ^ d.scale.toNat := Nat.mul_le_mul_right _ hm53.le
        _ ≤ 2 ^ 53 * 2 ^ 971 := Nat.mul_le_mul_left _ (Nat.pow_le_pow_right (by decide) (by omega))
        _ < 10 ^ 310 := by decide +kernel
    have := (Nat.length_toDigits_le_iff (b := 10) (by decide) (by decide)).2 hlt
    dsimp only
    omega
  · obtain ⟨n, hn⟩ : ∃ n : Nat, d.scale = -(n : Int) := ⟨(-d.scale).toNat, by omega⟩
    rw [hn, neg_neg, Int.toNat_natCast]
    dsimp only
    have hup : (Nat.toDigits 10 (d.significand * 5 ^ n)).length ≤ 16 + n := by
      rw [Nat.length_toDigits_le_iff (by decide) (by omega), Nat.pow_add]
      calc d.significand * 5 ^ n
          < 10 ^ 16 * 5 ^ n := Nat.mul_lt_mul_of_pos_right (by omega) (Nat.pow_pos (by decide))
        _ ≤ 10 ^ 16 * 10 ^ n := Nat.mul_le_mul_left _ (Nat.pow_le_pow_left (by decide) n)
    refine ⟨?_, by omega⟩
    by_contra hlow
    have hshort : (Nat.toDigits 10 (d.significand * 5 ^ n)).length ≤ n - 331 := by omega
    have hlong := lt_pow_length_toDigits (d.significand * 5 ^ n)
    have hbig : 10 ^ (n - 331) ≤ 5 ^ n :=
      calc 10 ^ (n - 331) = 2 ^ (n - 331) * 5 ^ (n - 331) := by rw [← Nat.mul_pow]
        _ ≤ 5 ^ 331 * 5 ^ (n - 331) := by
          apply Nat.mul_le_mul_right
          calc 2 ^ (n - 331) ≤ 2 ^ 743 := Nat.pow_le_pow_right (by decide) (by omega)
            _ ≤ 5 ^ 331 := by decide +kernel
        _ = 5 ^ n := by rw [← Nat.pow_add, Nat.add_sub_cancel' (by omega)]
    have hchain : d.significand * 5 ^ n < 10 ^ (n - 331) :=
      Nat.lt_of_lt_of_le hlong (Nat.pow_le_pow_right (by decide) hshort)
    have : 5 ^ n ≤ d.significand * 5 ^ n := Nat.le_mul_of_pos_left _ hm
    omega

theorem nearest_exact (hf : d.isFinite = true) (hn : d.isNonzero = true) :
    nearest d.isNegative d.exact.digits d.exact.exponent = d := by
  have hm := significand_pos hn
  obtain ⟨hlow, hhigh⟩ := exact_reach hf hn
  have hdigits : 0 < d.exact.digits := by
    unfold exact
    split <;> exact Nat.mul_pos hm (Nat.pow_pos (by decide))
  have hbits : magnitudeBits (d.exact.digits * 10 ^ d.exact.exponent.toNat)
    (10 ^ (-d.exact.exponent).toNat) =
      magnitudeBits d.quotient.1 d.quotient.2 := by
    apply magnitudeBits_congr (Nat.mul_pos hdigits (Nat.pow_pos (by decide))) (Nat.pow_pos (by decide))
      (Nat.mul_pos hm (Nat.two_pow_pos _)) (Nat.two_pow_pos _)
    unfold exact
    split
    · rename_i hpos
      rw [show (-d.scale).toNat = 0 by omega]
      simp
    · rename_i hneg
      rw [show d.scale.toNat = 0 by omega]
      simp only [Nat.pow_eq, pow_zero, mul_one]
      rw [Nat.mul_assoc, ← Nat.mul_pow]
  rw [nearest, if_neg (by omega), if_neg (by omega), Nat.pow_eq, Nat.pow_eq, hbits,
    magnitudeBits_quotient hf hn, ofMagnitude_eq]

/-! ## The shortest digits -/

theorem candidate_reads {n : Nat} {c : Decimal} (h : d.candidate? n = some c) :
    nearest d.isNegative c.digits c.exponent = d := by
  unfold candidate? at h
  dsimp only at h
  split at h
  · rename_i hbelow habove
    split at h
    · cases h
      exact eq_of_beq hbelow
    · cases h
      exact eq_of_beq habove
  · rename_i hbelow habove
    cases h
    exact eq_of_beq hbelow
  · rename_i hbelow habove
    cases h
    exact eq_of_beq habove
  · cases h

/-- The shortest digits of a double read back as the double. -/
theorem nearest_shortest (hf : d.isFinite = true) (hn : d.isNonzero = true) :
    nearest d.isNegative d.shortest.digits d.shortest.exponent = d := by
  unfold shortest
  cases hfound : (List.range 17).findSome? fun n => d.candidate? (n + 1) with
  | none => exact nearest_exact hf hn
  | some c =>
    obtain ⟨n, -, hc⟩ := List.exists_of_findSome?_eq_some hfound
    exact candidate_reads hc

theorem shortest_digits_ne_zero (hf : d.isFinite = true) (hn : d.isNonzero = true) :
    d.shortest.digits ≠ 0 := by
  intro hz
  have h := nearest_shortest hf hn
  rw [hz] at h
  have hzero : d = zero d.isNegative := by simpa [nearest] using h.symm
  rw [hzero] at hn
  cases hs : d.isNegative <;> simp [hs, zero, ofMagnitude, isNonzero] at hn

end SqlAst.Binary64
