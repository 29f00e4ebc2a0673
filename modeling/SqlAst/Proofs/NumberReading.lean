import SqlAst.Json.Token
import SqlAst.Proofs.DoubleText

/-!
# Written numbers are read back

The reader of JSON takes from the front of a text the longest number. What stands behind a number that was
written begins with no character that could continue it, so the reader takes exactly the number.

* `number?_intText`: a written integer is read as this integer if it has not too many digits.
* `number?_finiteText`: a written double is read as this double.
-/
namespace SqlAst.Json

open Layout (significantDigits)

/-! ## Where a number ends -/

/-- A text whose first character does not continue a number. -/
def EndsNumber (rest : List Char) : Prop :=
  ∀ c ∈ rest.head?, Text.isDecimalDigit c = false ∧ c ≠ '.' ∧ c ≠ 'e' ∧ c ≠ 'E'

theorem endsNumber_nil : EndsNumber [] := fun _ hc => nomatch hc

theorem isDecimalDigit_of_isDigit {c : Char} (h : c.isDigit = true) : Text.isDecimalDigit c = true := by
  simp only [Char.isDigit, Bool.and_eq_true, decide_eq_true_eq] at h
  simp only [Text.isDecimalDigit, Bool.and_eq_true, decide_eq_true_eq]
  exact h

/-- The digits in front of what is no digit. -/
theorem takeWhile_digits {ds rest : List Char} (hd : ∀ c ∈ ds, c.isDigit = true)
    (hr : ∀ c ∈ rest.head?, Text.isDecimalDigit c = false) :
    (ds ++ rest).takeWhile Text.isDecimalDigit = ds := by
  have hrest : rest.takeWhile Text.isDecimalDigit = [] := by
    cases rest with
    | nil => rfl
    | cons c r => simp [hr c rfl]
  rw [List.takeWhile_append_of_pos fun c hc => isDecimalDigit_of_isDigit (hd c hc), hrest,
    List.append_nil]

/-- Digits of a whole number: a zero alone, or digits that begin with another one. -/
def IsWhole (ds : List Char) : Prop :=
  ds = ['0'] ∨ ∃ c r, ds = c :: r ∧ c ≠ '0' ∧ ∀ x ∈ ds, x.isDigit = true

theorem IsWhole.ne_nil {ds : List Char} (h : IsWhole ds) : ds ≠ [] := by
  rcases h with rfl | ⟨c, r, rfl, -⟩ <;> simp

/-- A whole number does not begin with a minus sign. -/
theorem IsWhole.head_ne {ds : List Char} (h : IsWhole ds) (rest : List Char) :
    (ds ++ rest).head? ≠ some '-' := by
  rcases h with rfl | ⟨c, r, rfl, -, hd⟩
  · simp
  · intro hc
    have hdigit := hd c (by simp)
    rw [Option.some.inj hc] at hdigit
    exact absurd hdigit (by decide)

theorem wholeDigits_append {ds rest : List Char} (h : IsWhole ds)
    (hr : ∀ c ∈ rest.head?, Text.isDecimalDigit c = false) : wholeDigits (ds ++ rest) = ds := by
  rcases h with rfl | ⟨c, r, rfl, hc, hd⟩
  · rfl
  · have htake := takeWhile_digits hd hr
    unfold wholeDigits
    split
    · rename_i heq
      exact absurd (List.cons.inj heq).1 hc
    · exact htake

/-- The digits of a number other than zero begin with another digit than zero. -/
theorem toDigits_head {n : Nat} (h : n ≠ 0) : ∃ c r, Nat.toDigits 10 n = c :: r ∧ c ≠ '0' := by
  induction n using Nat.strongRecOn with
  | ind n ih =>
    rw [Nat.toDigits_eq_if (by decide)]
    split
    · rename_i hlt
      have hchar : ∀ m < 10, m ≠ 0 → Nat.digitChar m ≠ '0' := by decide
      exact ⟨_, [], rfl, hchar n hlt h⟩
    · rename_i hle
      obtain ⟨c, r, hdigits, hc⟩ := ih (n / 10) (by omega) (by omega)
      exact ⟨c, r ++ [Nat.digitChar (n % 10)], by rw [hdigits]; rfl, hc⟩

theorem isWhole_toDigits (n : Nat) : IsWhole (Nat.toDigits 10 n) := by
  by_cases h : n = 0
  · rw [h]
    exact .inl (Nat.toDigits_zero 10)
  · obtain ⟨c, r, hdigits, hc⟩ := toDigits_head h
    exact .inr ⟨c, r, hdigits, hc, fun x hx => Nat.isDigit_of_mem_toDigits (by decide) (by decide) hx⟩

/-! ## The parts of a number -/

/-- A minus sign, or nothing. -/
def signText (negative : Bool) : List Char := if negative then ['-'] else []

theorem exponent?_ends {rest : List Char} (h : EndsNumber rest) : exponent? rest = none := by
  cases rest with
  | nil => rfl
  | cons c r =>
    obtain ⟨-, -, he, hE⟩ := h c rfl
    simp [exponent?, he, hE]

theorem fractionDigits_ends {rest : List Char} (h : EndsNumber rest) : fractionDigits rest = [] := by
  unfold fractionDigits
  split
  · exact absurd rfl (h '.' rfl).2.1
  · rfl

theorem ofDigitChars_natText (width n : Nat) : Nat.ofDigitChars 10 (Text.natText width n) 0 = n := by
  rw [Text.natText, Text.zeroPadded, Nat.ofDigitChars_append, Nat.ofDigitChars_replicate_zero,
    Nat.mul_zero]
  exact Nat.ofDigitChars_ten_toDigits

/-- The value of a number with a sign. -/
def signed (negative : Bool) (n : Nat) : Int := if negative then -n else n

/-- An exponent is read with its sign. -/
theorem exponent?_digits {mark : Char} {sign digits rest : List Char} (hmark : mark = 'e' ∨ mark = 'E')
    (hsign : sign = [] ∨ sign = ['+'] ∨ sign = ['-']) (hne : digits ≠ [])
    (hd : ∀ c ∈ digits, c.isDigit = true) (hr : EndsNumber rest) :
    exponent? (mark :: (sign ++ (digits ++ rest))) =
      some (signed (sign = ['-']) (Nat.ofDigitChars 10 digits 0), 1 + sign.length + digits.length) := by
  have htake : (digits ++ rest).takeWhile Text.isDecimalDigit = digits :=
    takeWhile_digits hd fun c hc => (hr c hc).1
  rcases hsign with rfl | rfl | rfl
  · obtain ⟨c, r, rfl⟩ := List.exists_cons_of_ne_nil hne
    have hplus : ¬ (c = '+' ∨ c = '-') := by
      rintro (rfl | rfl) <;> exact absurd (hd _ List.mem_cons_self) (by decide)
    simp only [List.cons_append] at htake
    simp only [exponent?, if_pos hmark, List.nil_append, List.cons_append, if_neg hplus,
      List.length_nil, List.drop_zero, htake, hne, if_false]
    rfl
  · simp only [exponent?, if_pos hmark, List.cons_append, List.nil_append, true_or, if_true,
      List.length_singleton, List.drop_succ_cons, List.drop_zero, htake, hne, if_false]
    rfl
  · simp only [exponent?, if_pos hmark, List.cons_append, List.nil_append, or_true, if_true,
      List.length_singleton, List.drop_succ_cons, List.drop_zero, htake, hne, if_false]
    rfl

/-- A written exponent is read with its sign. -/
theorem exponent?_written (power : Int) (width : Nat) {rest : List Char} (h : EndsNumber rest) :
    exponent? ('e' :: (if power < 0 then '-' else '+') :: (Text.natText width power.natAbs ++ rest)) =
      some (power, 2 + (Text.natText width power.natAbs).length) := by
  have hne : Text.natText width power.natAbs ≠ [] := by
    simp [Text.natText, Text.zeroPadded, Nat.toDigits_ne_nil]
  have hread (sign : List Char) (hsign : sign = [] ∨ sign = ['+'] ∨ sign = ['-']) :=
    exponent?_digits (.inl rfl) hsign hne (fun c hc => Layout.isDigit_of_mem_natText hc) h
  rw [ofDigitChars_natText] at hread
  by_cases hneg : power < 0
  · rw [if_pos hneg]
    refine (hread ['-'] (.inr (.inr rfl))).trans ?_
    rw [show signed (['-'] = ['-']) power.natAbs = power by show -(power.natAbs : Int) = power; omega]
    rfl
  · rw [if_neg hneg]
    refine (hread ['+'] (.inr (.inl rfl))).trans ?_
    rw [show signed (['+'] = ['-']) power.natAbs = power by show (power.natAbs : Int) = power; omega]
    rfl

/-! ## Whole texts of numbers -/

/-- A sign makes no difference to fewer digits than the limit. -/
theorem Strictness.ofDigits_of_lt (negative : Bool) {n : Nat} (h : n < digitLimit) :
    Strictness.ofDigits negative n = .always :=
  if_pos (by cases negative <;> simp <;> omega)

/-- What the sign of a number adds to its digits, as the strict reader counts them. -/
def signDigits [StrictReader] (negative : Bool) : Nat := if negative && StrictReader.countsSign then 1 else 0

theorem Strictness.holds_ofDigits [StrictReader] (negative : Bool) (n : Nat) :
    (Strictness.ofDigits negative n).holds = decide (n + signDigits negative ≤ digitLimit) := by
  unfold Strictness.ofDigits signDigits
  cases negative with
  | false => by_cases h : n ≤ digitLimit <;> simp [h, Strictness.holds]
  | true =>
    by_cases hall : n + 1 ≤ digitLimit
    · have hfew : n ≤ digitLimit := Nat.le_of_succ_le hall
      cases hcounts : StrictReader.countsSign <;> simp [hall, hfew, Strictness.holds]
    · by_cases hfew : n ≤ digitLimit <;> cases hcounts : StrictReader.countsSign <;>
        simp [hall, hfew, Strictness.holds, hcounts]

/-- A whole number is read as an integer. -/
theorem number?_whole (negative : Bool) {ds rest : List Char} (h : IsWhole ds) (hr : EndsNumber rest) :
    number? (signText negative ++ ds ++ rest) =
      some (if digitLimit < ds.length then .oversized
          else .atom (.int (signed negative (Nat.ofDigitChars 10 ds 0))) (.ofDigits negative ds.length),
        (signText negative ++ ds).length) := by
  have hwhole := wholeDigits_append h fun c hc => (hr c hc).1
  have hhead := h.head_ne rest
  cases negative with
  | true =>
    show number? ('-' :: (ds ++ rest)) = _
    simp only [number?, List.head?_cons, if_true, List.drop_succ_cons, List.drop_zero, hwhole,
      List.drop_left, fractionDigits_ends hr, exponent?_ends hr, h.ne_nil, if_false, and_self]
    rw [Nat.add_comm]
    rfl
  | false =>
    show number? (ds ++ rest) = _
    simp only [number?, hhead, if_false, hwhole, List.drop_left, fractionDigits_ends hr,
      exponent?_ends hr, h.ne_nil, if_true, List.drop_zero, and_self, Nat.zero_add]
    rfl

/-- A point and the digits of a fraction, or nothing. -/
def fractionText (fraction : List Char) : List Char := if fraction = [] then [] else '.' :: fraction

theorem fractionDigits_append {fraction tail : List Char} (hf : ∀ c ∈ fraction, c.isDigit = true)
    (ht : ∀ c ∈ tail.head?, Text.isDecimalDigit c = false ∧ c ≠ '.') :
    fractionDigits (fractionText fraction ++ tail) = fraction := by
  by_cases h : fraction = []
  · rw [h]
    show fractionDigits tail = []
    unfold fractionDigits
    split
    · exact absurd rfl (ht '.' rfl).2
    · rfl
  · rw [fractionText, if_neg h]
    exact takeWhile_digits hf fun c hc => (ht c hc).1

/-- The length of a fraction as the reader counts it. -/
theorem length_fractionText (fraction : List Char) :
    (fractionText fraction).length = if fraction = [] then 0 else 1 + fraction.length := by
  unfold fractionText
  split
  · rfl
  · rw [List.length_cons, Nat.add_comm]

/-- A number with a fraction or an exponent is read as the double nearest to it; a strict reader takes it if
not too many digits stand in front. -/
theorem number?_split (negative : Bool) (whole fraction tail : List Char) (power : Int) (k : Nat)
    (hw : IsWhole whole) (hf : ∀ c ∈ fraction, c.isDigit = true)
    (ht : ∀ c ∈ tail.head?, Text.isDecimalDigit c = false ∧ c ≠ '.')
    (hexponent : (exponent? tail).getD (0, 0) = (power, k))
    (hsome : ¬ (fraction = [] ∧ exponent? tail = none)) :
    number? (signText negative ++ (whole ++ (fractionText fraction ++ tail))) =
      some (.atom (.float (.nearest negative (Nat.ofDigitChars 10 (whole ++ fraction) 0)
        (power - fraction.length))) (.ofDigits negative whole.length),
        (signText negative).length + whole.length + (fractionText fraction).length + k) := by
  have hfirst : ∀ c ∈ (fractionText fraction ++ tail).head?, Text.isDecimalDigit c = false := by
    intro c hc
    unfold fractionText at hc
    split at hc
    · exact (ht c hc).1
    · rw [← Option.some.inj hc]
      decide
  have hwhole := wholeDigits_append hw hfirst
  have hfraction := fractionDigits_append hf ht
  have hhead := hw.head_ne (fractionText fraction ++ tail)
  cases negative with
  | true =>
    show number? ('-' :: (whole ++ (fractionText fraction ++ tail))) = _
    simp only [number?, List.head?_cons, if_true, List.drop_succ_cons, List.drop_zero, hwhole,
      List.drop_left,
      hfraction, ← length_fractionText, hw.ne_nil, if_false, hsome, hexponent, decide_true]
    rfl
  | false =>
    show number? (whole ++ (fractionText fraction ++ tail)) = _
    simp only [number?, hhead, if_false, hwhole, List.drop_left, hfraction, ← length_fractionText,
      hw.ne_nil, hsome, hexponent, decide_false]
    rfl

theorem number?_parts (negative : Bool) (whole fraction tail : List Char) (power : Int) (k : Nat)
    (hw : IsWhole whole) (hlimit : whole.length < digitLimit) (hf : ∀ c ∈ fraction, c.isDigit = true)
    (ht : ∀ c ∈ tail.head?, Text.isDecimalDigit c = false ∧ c ≠ '.')
    (hexponent : (exponent? tail).getD (0, 0) = (power, k))
    (hsome : ¬ (fraction = [] ∧ exponent? tail = none)) :
    number? (signText negative ++ (whole ++ (fractionText fraction ++ tail))) =
      some (.atom (.float (.nearest negative (Nat.ofDigitChars 10 (whole ++ fraction) 0)
        (power - fraction.length))) .always,
        (signText negative).length + whole.length + (fractionText fraction).length + k) := by
  rw [number?_split negative whole fraction tail power k hw hf ht hexponent hsome,
    Strictness.ofDigits_of_lt negative hlimit]

/-! ## Written integers and doubles -/

theorem number?_intText (i : Int) {rest : List Char} (hr : EndsNumber rest) :
    number? (Text.intText i ++ rest) =
      some (if digitLimit < (Nat.toDigits 10 i.natAbs).length then .oversized
          else .atom (.int i) (.ofDigits (i < 0) (Nat.toDigits 10 i.natAbs).length),
        (Text.intText i).length) := by
  cases i with
  | ofNat n =>
    have hread := number?_whole false (isWhole_toDigits n) hr
    rw [Nat.ofDigitChars_ten_toDigits] at hread
    have hsign : decide (Int.ofNat n < 0) = false := decide_eq_false (Int.not_lt.mpr (Int.natCast_nonneg n))
    rw [hsign]
    exact hread
  | negSucc n =>
    have hread := number?_whole true (isWhole_toDigits (n + 1)) hr
    rw [Nat.ofDigitChars_ten_toDigits] at hread
    rw [decide_eq_true (Int.negSucc_lt_zero n)]
    exact hread

section Arranged

variable {c : Char} {r rest : List Char} (negative : Bool) (hc : c ≠ '0')
  (hd : ∀ x ∈ c :: r, x.isDigit = true)
  (hr : EndsNumber rest)

include hd hr

/-- A number below one, set out with zeros behind the point. -/
theorem number?_below (z : Nat) :
    number? (signText negative ++ ('0' :: '.' :: (List.replicate z '0' ++ c :: r) ++ rest)) =
      some (.atom (.float (.nearest negative (Nat.ofDigitChars 10 (c :: r) 0) (-z - (c :: r).length)))
        .always, (signText negative ++ '0' :: '.' :: (List.replicate z '0' ++ c :: r)).length) := by
  have hf : ∀ x ∈ List.replicate z '0' ++ c :: r, x.isDigit = true := by
    intro x hx
    rcases List.mem_append.1 hx with hz | hx
    · rw [List.eq_of_mem_replicate hz]
      rfl
    · exact hd x hx
  have hne : List.replicate z '0' ++ c :: r ≠ [] := by simp
  have htext : fractionText (List.replicate z '0' ++ c :: r) =
    '.' :: (List.replicate z '0' ++ c :: r) := if_neg hne
  have hread :=
    number?_parts negative ['0'] (List.replicate z '0' ++ c :: r) rest 0 0 (.inl rfl) (by decide) hf
    (fun x hx => ⟨(hr x hx).1, (hr x hx).2.1⟩) (by rw [exponent?_ends hr]; rfl) (fun h => hne h.1)
  have hvalue : Nat.ofDigitChars 10 (['0'] ++ (List.replicate z '0' ++ c :: r)) 0 =
      Nat.ofDigitChars 10 (c :: r) 0 := by
    rw [Nat.ofDigitChars_append, Nat.ofDigitChars_append, Nat.ofDigitChars_replicate_zero]
    rfl
  rw [htext, hvalue] at hread
  refine hread.trans ?_
  rw [show (0 : Int) - (List.replicate z '0' ++ c :: r).length = -z - (c :: r).length by
    rw [List.length_append, List.length_replicate]; omega]
  simp only [List.length_append, List.length_cons, List.length_nil, Option.some.injEq, Prod.mk.injEq,
    true_and]
  omega

include hc

/-- A number without a fraction, set out with zeros in front of the point. -/
theorem number?_padded (z : Nat) (hlimit : (c :: r).length + z < digitLimit) :
    number? (signText negative ++ (c :: r ++ List.replicate z '0' ++ ['.', '0'] ++ rest)) =
      some (.atom (.float (.nearest negative (Nat.ofDigitChars 10 (c :: r) 0) z)) .always,
        (signText negative ++ (c :: r ++ List.replicate z '0' ++ ['.', '0'])).length) := by
  have hw : IsWhole (c :: r ++ List.replicate z '0') := by
    refine .inr ⟨c, r ++ List.replicate z '0', rfl, hc, fun x hx => ?_⟩
    rcases List.mem_append.1 hx with hx | hz
    · exact hd x hx
    · rw [List.eq_of_mem_replicate hz]
      rfl
  have hread := number?_parts negative (c :: r ++ List.replicate z '0') ['0'] rest 0 0 hw
    (by rwa [List.length_append, List.length_replicate]) (List.all_eq_true.1 rfl)
    (fun x hx => ⟨(hr x hx).1, (hr x hx).2.1⟩) (by rw [exponent?_ends hr]; rfl) (fun h => by simp at h)
  have hvalue : Nat.ofDigitChars 10 (c :: r ++ List.replicate z '0' ++ ['0']) 0 =
      Nat.ofDigitChars 10 (c :: r) 0 * 10 ^ (z + 1) := by
    rw [List.append_assoc, ← List.replicate_succ', Nat.ofDigitChars_append,
      Nat.ofDigitChars_replicate_zero, Nat.mul_comm]
  have htext : fractionText ['0'] = ['.', '0'] := rfl
  rw [hvalue, Binary64.nearest_shift, htext] at hread
  rw [List.append_assoc _ ['.', '0'] rest]
  refine hread.trans ?_
  rw [show (0 : Int) - (['0'] : List Char).length + (z + 1 : Nat) = z by simp]
  simp only [List.length_append, Option.some.injEq, Prod.mk.injEq, true_and]
  omega

/-- A number with the point inside its digits. -/
theorem number?_inside {w : Nat} (hpos : 0 < w) (hw : w < (c :: r).length) (hlimit : w < digitLimit) :
    number? (signText negative ++ ((c :: r).take w ++ '.' :: (c :: r).drop w ++ rest)) =
      some (.atom (.float (.nearest negative (Nat.ofDigitChars 10 (c :: r) 0) (w - (c :: r).length)))
        .always, (signText negative ++ ((c :: r).take w ++ '.' :: (c :: r).drop w)).length) := by
  have hwhole : IsWhole ((c :: r).take w) := by
    obtain ⟨v, rfl⟩ := Nat.exists_eq_succ_of_ne_zero hpos.ne'
    exact .inr ⟨c, r.take v, rfl, hc, fun x hx => hd x (List.mem_of_mem_take hx)⟩
  have hne : (c :: r).drop w ≠ [] := by simpa using hw
  have htext : fractionText ((c :: r).drop w) = '.' :: (c :: r).drop w := if_neg hne
  have hread := number?_parts negative ((c :: r).take w) ((c :: r).drop w) rest 0 0 hwhole
    ((List.length_take_le _ _).trans_lt hlimit)
    (fun x hx => hd x (List.mem_of_mem_drop hx)) (fun x hx => ⟨(hr x hx).1, (hr x hx).2.1⟩)
    (by rw [exponent?_ends hr]; rfl) (fun h => hne h.1)
  rw [htext, List.take_append_drop] at hread
  rw [List.append_assoc _ _ rest]
  refine hread.trans ?_
  rw [show (0 : Int) - ((c :: r).drop w).length = w - (c :: r).length by rw [List.length_drop]; omega]
  simp only [List.length_append, Option.some.injEq, Prod.mk.injEq, true_and]
  omega

/-- A number with one digit in front of the point, and an exponent. -/
theorem number?_scientific (power : Int) (width : Nat) :
    number? (signText negative ++ ([c] ++ (if (c :: r).length ≤ 1 then [] else '.' :: r) ++
        'e' :: (if power < 0 then '-' else '+') :: Text.natText width power.natAbs ++ rest)) =
      some (.atom (.float (.nearest negative (Nat.ofDigitChars 10 (c :: r) 0)
        (power + 1 - (c :: r).length))) .always,
        (signText negative ++ ([c] ++ (if (c :: r).length ≤ 1 then [] else '.' :: r) ++
          'e' :: (if power < 0 then '-' else '+') :: Text.natText width power.natAbs)).length) := by
  have hwhole : IsWhole [c] := .inr ⟨c, [], rfl, hc, by simpa using hd c (by simp)⟩
  have htext : (if (c :: r).length ≤ 1 then [] else '.' :: r) = fractionText r := by
    cases r <;> simp [fractionText]
  have hexponent := exponent?_written power width hr
  have hread := number?_parts negative [c] r
    ('e' :: (if power < 0 then '-' else '+') :: (Text.natText width power.natAbs ++ rest)) power
    (2 + (Text.natText width power.natAbs).length) hwhole (show 1 < digitLimit by decide)
    (fun x hx => hd x (List.mem_cons_of_mem _ hx)) (by simp [Text.isDecimalDigit])
      (by rw [hexponent]; rfl)
    (by rw [hexponent]; simp)
  rw [htext, List.append_assoc, List.append_assoc]
  refine hread.trans ?_
  rw [show power - r.length = power + 1 - (c :: r).length by rw [List.length_cons]; omega]
  simp only [List.length_append, List.length_cons, Option.some.injEq, Prod.mk.injEq,
    List.singleton_append, true_and]
  simp only [List.length_nil]
  omega

/-- A number is read back from either form that it is set out in. -/
theorem number?_arrange {l : Layout} (hl : l.endPlain ≤ 16) (power : Int) :
    number? (signText negative ++ l.arrange (c :: r) power ++ rest) =
      some (.atom (.float (.nearest negative (Nat.ofDigitChars 10 (c :: r) 0)
        (power + 1 - (c :: r).length))) .always,
        (signText negative ++ l.arrange (c :: r) power).length) := by
  rw [List.append_assoc]
  unfold Layout.arrange
  split
  · rename_i hplain
    have hend : power < 16 := Int.lt_of_lt_of_le hplain.2 hl
    split
    · rename_i hneg
      have hread := number?_below negative hd hr (-power - 1).toNat
      rw [show -((-power - 1).toNat : Int) - (c :: r).length =
        power + 1 - (c :: r).length by omega] at hread
      exact hread
    · rename_i hpos
      dsimp only
      split
      · rename_i hfew
        have hlimit : (c :: r).length + (power.toNat + 1 - (c :: r).length) < digitLimit := by
          unfold digitLimit
          omega
        have hread := number?_padded negative hc hd hr (power.toNat + 1 - (c :: r).length) hlimit
        rw [show ((power.toNat + 1 - (c :: r).length : Nat) : Int) =
          power + 1 - (c :: r).length by omega] at hread
        rw [List.take_of_length_le hfew]
        exact hread
      · rename_i hmany
        have hlimit : power.toNat + 1 < digitLimit := by
          unfold digitLimit
          omega
        have hread := number?_inside negative hc hd hr (Nat.succ_pos power.toNat) (by omega) hlimit
        rw [show ((power.toNat.succ : Nat) : Int) - (c :: r).length =
          power + 1 - (c :: r).length by omega] at hread
        rw [show power.toNat + 1 - (c :: r).length = 0 by omega, List.replicate_zero, List.append_nil]
        exact hread
  · exact number?_scientific negative hc hd hr power _

end Arranged

/-- The significant digits of a double are worth the double. -/
theorem nearest_significantDigits {d : Binary64} (hf : d.isFinite = true) (hn : d.isNonzero = true) :
    Binary64.nearest d.isNegative (Nat.ofDigitChars 10 (significantDigits d.shortest.digits) 0)
      (d.shortest.exponent + (Nat.toDigits 10 d.shortest.digits).length - 1 + 1 -
        (significantDigits d.shortest.digits).length) = d := by
  obtain ⟨k, hk⟩ := Layout.toDigits_eq_significant d.shortest.digits
  have hlength : (Nat.toDigits 10 d.shortest.digits).length =
      (significantDigits d.shortest.digits).length + k := by
    rw [hk, List.length_append, List.length_replicate]
  have hvalue := Layout.ofDigitChars_significant d.shortest.digits
  rw [hlength, Nat.add_sub_cancel_left] at hvalue
  have hread := Binary64.nearest_shortest hf hn
  rw [← hvalue, Binary64.nearest_shift] at hread
  rw [hlength]
  refine Eq.trans (congrArg _ ?_) hread
  omega

theorem number?_finiteText {l : Layout} (hl : l.endPlain ≤ 16) {d : Binary64} (hf : d.isFinite = true)
    {rest : List Char} (hr : EndsNumber rest) :
    number? (l.finiteText d ++ rest) = some (.atom (.float d) .always, (l.finiteText d).length) := by
  rw [Layout.finiteText_eq]
  show number? (signText d.isNegative ++ l.magnitudeText d ++ rest) =
    some (_, (signText d.isNegative ++ l.magnitudeText d).length)
  unfold Layout.magnitudeText
  split
  · rename_i hn
    have hvalue := nearest_significantDigits hf hn
    obtain ⟨k, hk⟩ := Layout.toDigits_eq_significant d.shortest.digits
    obtain ⟨c, r, hhead, hc⟩ := toDigits_head (Binary64.shortest_digits_ne_zero hf hn)
    dsimp only
    cases hs : significantDigits d.shortest.digits with
    | nil => exact absurd hs (Layout.significantDigits_ne_nil (Binary64.shortest_digits_ne_zero hf hn))
    | cons c' r' =>
      rw [hs] at hk hvalue
      have hsame : c' = c := (List.cons.inj (hk.symm.trans hhead)).1
      have hdigits : ∀ x ∈ c' :: r', x.isDigit = true := fun x hx =>
        Layout.isDigit_of_mem_significant (hs ▸ hx)
      rw [number?_arrange d.isNegative (hsame ▸ hc) hdigits hr hl, hvalue]
  · rename_i hz
    have hread := number?_parts d.isNegative ['0'] ['0'] rest 0 0 (.inl rfl)
      (by decide) (List.all_eq_true.1 rfl) (fun x hx => ⟨(hr x hx).1, (hr x hx).2.1⟩)
        (by rw [exponent?_ends hr]; rfl)
      (fun h => by simp at h)
    have hzero : Binary64.nearest d.isNegative 0 (0 - (['0'] : List Char).length) = d := by
      have hbits := Binary64.ofMagnitude_eq d
      have hmagnitude : d.bits.toNat % 2 ^ 63 = 0 := by simpa [Binary64.isNonzero] using hz
      rw [hmagnitude] at hbits
      simpa [Binary64.nearest, Binary64.zero] using hbits
    rw [show Nat.ofDigitChars 10 (['0'] ++ ['0']) 0 = 0 from rfl, hzero] at hread
    rw [List.append_assoc]
    refine hread.trans ?_
    simp [fractionText]

end SqlAst.Json
