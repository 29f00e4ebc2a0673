import Mathlib.Order.Monotone.Basic
import SqlAst.Calendar.Date

/-!
# Numbers of days

The numbers count the days from 0001-01-01 to 9999-12-31 one by one. A week belongs to the year of its Thursday
and is counted by the Thursdays of this year, so that the days around New Year may be in a week of another year.

* `Date.ofDayNumber?_eq_some_iff`: the day of a number is found.
* `Date.exists_dayNumber`: each number up to that of the last day is the number of a day.
* `Date.ofWeek?_eq_some_iff`: a week date stands for the day with this weekday in this week, and for none if there
  is no such day.
-/
namespace SqlAst

/-! ## Lengths of years and months -/

/-- The number of days of a year. -/
def yearLength (y : Nat) : Nat := if isLeapYear y then 366 else 365

theorem isLeapYear_iff {y : Nat} : isLeapYear y = true ↔ 4 ∣ y ∧ (100 ∣ y → 400 ∣ y) := by
  simp [isLeapYear, Nat.dvd_iff_mod_eq_zero, imp_iff_not_or]

theorem monthLength_bounds (y m : Nat) : 1 ≤ monthLength y m ∧ monthLength y m ≤ 31 := by
  unfold monthLength
  split
  · split <;> decide
  · split <;> decide

theorem isDay_iff {y m d : Nat} :
    isDay y m d = true ↔ (1 ≤ y ∧ y ≤ 9999) ∧ (1 ≤ m ∧ m ≤ 12) ∧ 1 ≤ d ∧ d ≤ monthLength y m := by
  simp [isDay, and_assoc]

theorem daysBeforeYear_succ {y : Nat} (h : 1 ≤ y) : daysBeforeYear (y + 1) = daysBeforeYear y + yearLength y := by
  obtain ⟨k, rfl⟩ := Nat.exists_eq_succ_of_ne_zero (Nat.ne_of_gt h)
  have hcenturies : k / 100 ≤ k / 4 := Nat.div_le_div_left (by decide) (by decide)
  have h4 : 100 ∣ k + 1 → 4 ∣ k + 1 := Nat.dvd_trans (by decide)
  have h100 : 400 ∣ k + 1 → 100 ∣ k + 1 := Nat.dvd_trans (by decide)
  simp only [daysBeforeYear, yearLength, isLeapYear_iff, Nat.add_sub_cancel, Nat.succ_eq_add_one, Nat.succ_div]
  generalize k / 4 = a, k / 100 = b, k / 400 = c at *
  by_cases hb : 100 ∣ k + 1
  · by_cases hc : 400 ∣ k + 1 <;> simp only [h4 hb, hb, hc, if_true, if_false, true_and, forall_true_left] <;> omega
  · simp only [hb, mt h100 hb, if_false, false_implies, and_true]
    split <;> omega

theorem monotone_daysBeforeYear : Monotone daysBeforeYear := by
  refine monotone_nat_of_le_succ fun y => ?_
  cases y with
  | zero => exact Nat.le_refl 0
  | succ y =>
    rw [daysBeforeYear_succ (Nat.succ_pos y)]
    exact Nat.le_add_right _ _

/-- Before every year but the first there is at least a year. -/
theorem daysBeforeYear_cases {y : Nat} (h : 1 ≤ y) : y = 1 ∨ 365 ≤ daysBeforeYear y := by
  by_cases hfirst : y = 1
  · exact .inl hfirst
  · exact .inr (monotone_daysBeforeYear (show 2 ≤ y by omega))

theorem daysBeforeMonth_succ (y : Nat) {m : Nat} (h : 1 ≤ m) :
    daysBeforeMonth y (m + 1) = daysBeforeMonth y m + monthLength y m := by
  obtain ⟨k, rfl⟩ := Nat.exists_eq_succ_of_ne_zero (Nat.ne_of_gt h)
  simp [daysBeforeMonth, List.range_succ]

theorem monotone_daysBeforeMonth (y : Nat) : Monotone (daysBeforeMonth y) := by
  refine monotone_nat_of_le_succ fun m => ?_
  cases m with
  | zero => exact Nat.le_refl 0
  | succ m =>
    rw [daysBeforeMonth_succ y (Nat.succ_pos m)]
    exact Nat.le_add_right _ _

/-- A year ends with its twelfth month. -/
theorem daysBeforeMonth_thirteen (y : Nat) : daysBeforeMonth y 13 = yearLength y := by
  cases h : isLeapYear y <;> simp only [daysBeforeMonth, monthLength, yearLength, h] <;> rfl

/-! ## The day of a number -/

theorem yearOfDayNumber_eq {y n : Nat} (hy : 1 ≤ y) (hafter : daysBeforeYear y < n)
    (hbefore : n ≤ daysBeforeYear (y + 1)) : yearOfDayNumber n = y := by
  have hnext := daysBeforeYear_succ hy
  -- The estimate is off by one year at most.
  have hestimate : (n - 1) * 400 / 146097 + 1 = y ∨ (n - 1) * 400 / 146097 + 1 = y + 1 ∨
      (n - 1) * 400 / 146097 + 1 + 1 = y := by
    unfold daysBeforeYear at hafter hbefore
    omega
  unfold yearOfDayNumber
  rcases hestimate with h | h | h
  · rw [h]
    simp only [if_neg (Nat.not_le.mpr hafter), if_neg (Nat.not_lt.mpr hbefore)]
  · rw [h]
    simp only [if_pos hbefore, Nat.add_sub_cancel]
  · have hearlier : ¬ n ≤ daysBeforeYear ((n - 1) * 400 / 146097 + 1) := by
      have := monotone_daysBeforeYear (Nat.le_of_succ_le (Nat.le_of_eq h))
      omega
    simp only [if_neg hearlier, h, if_pos hafter]

/-- A test that holds exactly of the numbers below `k` finds `k` of them. -/
theorem length_takeWhile_range {p : Nat → Bool} {n k : Nat} (hk : k ≤ n) (h : ∀ i < n, p i = true ↔ i < k) :
    ((List.range n).takeWhile p).length = k := by
  obtain ⟨j, rfl⟩ := Nat.exists_eq_add_of_le hk
  have hbelow : ∀ i ∈ List.range k, p i = true := fun i hi =>
    (h i (Nat.lt_of_lt_of_le (List.mem_range.mp hi) hk)).mpr (List.mem_range.mp hi)
  rw [List.range_add, List.takeWhile_append_of_pos hbelow, List.length_append, List.length_range]
  cases j with
  | zero => rfl
  | succ j =>
    have hstop : p k = false := Bool.eq_false_iff.mpr (mt (h k (by omega)).mp (Nat.lt_irrefl k))
    simp [List.range_succ_eq_map, hstop]

namespace Date

/-- The number of a day in its year. -/
def dayOfYear (d : Date) : Nat := daysBeforeMonth d.year d.month + d.day

theorem dayNumber_eq (d : Date) : d.dayNumber = daysBeforeYear d.year + d.dayOfYear := Nat.add_assoc _ _ _

theorem dayOfYear_bounds (d : Date) : 1 ≤ d.dayOfYear ∧ d.dayOfYear ≤ yearLength d.year := by
  obtain ⟨-, ⟨hm, hm'⟩, hd, hd'⟩ := isDay_iff.mp d.valid
  have hmonths := monotone_daysBeforeMonth d.year (Nat.succ_le_succ hm')
  rw [daysBeforeMonth_succ d.year hm, daysBeforeMonth_thirteen] at hmonths
  unfold dayOfYear
  omega

/-- The numbers of the days of a year follow those of the year before. -/
theorem dayNumber_bounds (d : Date) :
    daysBeforeYear d.year < d.dayNumber ∧ d.dayNumber ≤ daysBeforeYear (d.year + 1) := by
  have hy := (isDay_iff.mp d.valid).1.1
  have hbounds := d.dayOfYear_bounds
  rw [daysBeforeYear_succ hy, dayNumber_eq]
  omega

theorem year_eq_iff (d : Date) {y : Nat} (hy : 1 ≤ y) :
    d.year = y ↔ daysBeforeYear y < d.dayNumber ∧ d.dayNumber ≤ daysBeforeYear (y + 1) := by
  constructor
  · rintro rfl
    exact d.dayNumber_bounds
  · rintro ⟨hafter, hbefore⟩
    have hd := d.dayNumber_bounds
    rw [← yearOfDayNumber_eq hy hafter hbefore]
    exact (yearOfDayNumber_eq (isDay_iff.mp d.valid).1.1 hd.1 hd.2).symm

theorem ofDayNumber?_dayNumber (d : Date) : ofDayNumber? d.dayNumber = some d := by
  obtain ⟨⟨hy, -⟩, ⟨hm, hm'⟩, hd, hd'⟩ := isDay_iff.mp d.valid
  have hyear : yearOfDayNumber d.dayNumber = d.year :=
    yearOfDayNumber_eq hy d.dayNumber_bounds.1 d.dayNumber_bounds.2
  have hrest : d.dayNumber - daysBeforeYear d.year = d.dayOfYear := by
    rw [dayNumber_eq, Nat.add_sub_cancel_left]
  -- A month has begun before the day, if it is not behind the month of the day.
  have hbegun (i : Nat) : daysBeforeMonth d.year (i + 1) < d.dayOfYear ↔ i < d.month := by
    have hmonths := monotone_daysBeforeMonth d.year
    have hnext := daysBeforeMonth_succ d.year hm
    unfold dayOfYear
    constructor
    · intro h
      by_contra hi
      have := hmonths (show d.month + 1 ≤ i + 1 by omega)
      omega
    · intro hi
      have := hmonths (show i + 1 ≤ d.month from hi)
      omega
  have hmonth : ((List.range 12).takeWhile fun i => daysBeforeMonth d.year (i + 1) < d.dayOfYear).length =
      d.month :=
    length_takeWhile_range hm' fun i _ => decide_eq_true_iff.trans (hbegun i)
  have hday : d.dayOfYear - daysBeforeMonth d.year d.month = d.day := Nat.add_sub_cancel_left _ _
  unfold ofDayNumber?
  simp only [hyear, hrest, hmonth, hday]
  exact dif_pos d.valid

theorem make?_eq_some_iff {y m n : Nat} {d : Date} :
    make? y m n = some d ↔ d.year = y ∧ d.month = m ∧ d.day = n := by
  unfold make?
  constructor
  · intro h
    split at h
    · obtain rfl := Option.some.inj h
      exact ⟨rfl, rfl, rfl⟩
    · cases h
  · rintro ⟨rfl, rfl, rfl⟩
    exact dif_pos d.valid

theorem ofDayNumber?_eq_some_iff {n : Nat} {d : Date} : ofDayNumber? n = some d ↔ d.dayNumber = n := by
  constructor
  · intro h
    obtain ⟨hy, hm, hd⟩ := make?_eq_some_iff.mp h
    have hday := (isDay_iff.mp d.valid).2.2.1
    rw [← hm, ← hy] at hd
    unfold dayNumber
    omega
  · rintro rfl
    exact d.ofDayNumber?_dayNumber

/-! ## One day after the other -/

/-- The number of 9999-12-31. -/
def lastDayNumber : Nat := 3652059

theorem dayNumber_le (d : Date) : d.dayNumber ≤ lastDayNumber :=
  d.dayNumber_bounds.2.trans (monotone_daysBeforeYear (Nat.succ_le_succ (isDay_iff.mp d.valid).1.2))

theorem dayNumber_pos (d : Date) : 1 ≤ d.dayNumber := Nat.one_le_of_lt d.dayNumber_bounds.1

/-- The day after a day is in the same month, or the first of the next month, or New Year's Day. -/
theorem exists_next {d : Date} (h : d.dayNumber < lastDayNumber) : ∃ e : Date, e.dayNumber = d.dayNumber + 1 := by
  obtain ⟨⟨hy, hy'⟩, ⟨hm, hm'⟩, hd, hd'⟩ := isDay_iff.mp d.valid
  have hmonth := daysBeforeMonth_succ d.year hm
  by_cases hinside : d.day < monthLength d.year d.month
  · exact ⟨⟨d.year, d.month, d.day + 1, isDay_iff.mpr ⟨⟨hy, hy'⟩, ⟨hm, hm'⟩, by omega, hinside⟩⟩, rfl⟩
  · by_cases hyear : d.month < 12
    · refine ⟨⟨d.year, d.month + 1, 1, isDay_iff.mpr ⟨⟨hy, hy'⟩, by omega, le_rfl, (monthLength_bounds _ _).1⟩⟩, ?_⟩
      simp only [dayNumber, hmonth]
      omega
    · have hend : d.dayNumber = daysBeforeYear (d.year + 1) := by
        have htwelve : d.month = 12 := by omega
        rw [htwelve, daysBeforeMonth_thirteen, ← htwelve] at hmonth
        rw [daysBeforeYear_succ hy, hmonth, dayNumber]
        omega
      have hbefore : d.year < 9999 := by
        by_contra hlast
        have : d.year = 9999 := by omega
        rw [hend, this] at h
        exact absurd h (by decide)
      refine ⟨⟨d.year + 1, 1, 1, isDay_iff.mpr ⟨by omega, by omega, le_rfl, (monthLength_bounds _ _).1⟩⟩, ?_⟩
      rw [hend]
      rfl

theorem exists_dayNumber {n : Nat} (h : 1 ≤ n) (hle : n ≤ lastDayNumber) : ∃ d : Date, d.dayNumber = n := by
  induction n, h using Nat.le_induction with
  | base => exact ⟨⟨1, 1, 1, rfl⟩, rfl⟩
  | succ n hn ih =>
    obtain ⟨d, rfl⟩ := ih (Nat.le_of_succ_le hle)
    exact exists_next hle

/-! ## Weeks -/

/-- The weekday, Monday being 1 and Sunday 7; 0001-01-01 is a Monday. -/
def weekday (d : Date) : Nat := (d.dayNumber - 1) % 7 + 1

/-- The day is such a weekday, in the week with such a number of such a year: the week is that of a Thursday in
this year, and the number counts the Thursdays of the year. -/
structure InWeek (d : Date) (y w k : Nat) : Prop where
  weekday_eq : d.weekday = k
  thursday : ∃ t : Date, t.dayNumber + k = d.dayNumber + 4 ∧ t.year = y ∧ (t.dayOfYear - 1) / 7 + 1 = w

/-- Each day has a week date. -/
theorem exists_inWeek (d : Date) : ∃ y w k, d.InWeek y w k := by
  have hpos := d.dayNumber_pos
  have hle := d.dayNumber_le
  -- The calendar begins with a Monday and ends with a Friday, so that each week has a Thursday.
  obtain ⟨t, ht⟩ := exists_dayNumber (n := d.dayNumber + 4 - d.weekday) (by unfold weekday; omega)
    (by unfold weekday lastDayNumber at *; omega)
  refine ⟨t.year, _, d.weekday, rfl, t, ?_, rfl, rfl⟩
  rw [ht]
  unfold weekday
  omega

/-- Week 1 begins on a Monday, and its Thursday is one of the first seven days of the year. -/
theorem firstMonday_bounds {y : Nat} (hy : 1 ≤ y) :
    (firstMonday y - 1) % 7 = 0 ∧ 1 ≤ firstMonday y ∧ daysBeforeYear y < firstMonday y + 3 ∧
      firstMonday y + 3 ≤ daysBeforeYear y + 7 := by
  unfold firstMonday weekdayOf
  rcases daysBeforeYear_cases hy with rfl | hfirst
  · decide
  · dsimp only
    split <;> omega

/-- The weeks of a year are those whose Thursdays it holds. -/
theorem le_weeksOf_iff {y w : Nat} (hy : 1 ≤ y) (hw : 1 ≤ w) :
    w ≤ weeksOf y ↔ firstMonday y + (w - 1) * 7 + 3 ≤ daysBeforeYear (y + 1) := by
  have hfirst := daysBeforeYear_cases hy
  rw [daysBeforeYear_succ hy]
  unfold weeksOf firstMonday weekdayOf yearLength
  generalize daysBeforeYear y = before at *
  cases isLeapYear y <;> simp only [Bool.false_eq_true, and_false, and_true, if_true, if_false, or_false] <;>
    split <;> split <;> omega

theorem ofWeek?_eq_some_iff {y w k : Nat} {d : Date} : ofWeek? y w k = some d ↔ d.InWeek y w k := by
  unfold ofWeek?
  constructor
  · intro h
    split at h
    · rename_i hrange
      obtain ⟨hy, hw, hweeks, hk, hk'⟩ := hrange
      have hmonday := firstMonday_bounds hy
      have hthursday := (le_weeksOf_iff hy hw).mp hweeks
      have hnumber := ofDayNumber?_eq_some_iff.mp h
      have hle := d.dayNumber_le
      have hday : d.weekday = k := by
        unfold weekday
        omega
      obtain ⟨t, ht⟩ := exists_dayNumber (n := firstMonday y + (w - 1) * 7 + 3) (by omega)
        (by unfold lastDayNumber at *; omega)
      have hyear : t.year = y := (t.year_eq_iff hy).mpr (by omega)
      refine ⟨hday, t, by omega, hyear, ?_⟩
      have := t.dayNumber_eq
      rw [hyear] at this
      omega
    · cases h
  · rintro ⟨rfl, t, ht, rfl, rfl⟩
    have hy := (isDay_iff.mp t.valid).1.1
    have hmonday := firstMonday_bounds hy
    have hbounds := t.dayNumber_bounds
    have hnumber := t.dayNumber_eq
    have hpos := t.dayOfYear_bounds.1
    have hmod : (t.dayNumber - 1) % 7 = 3 := by
      have := d.dayNumber_pos
      unfold weekday at ht
      omega
    have hweek : firstMonday t.year + ((t.dayOfYear - 1) / 7 + 1 - 1) * 7 + 3 = t.dayNumber := by omega
    rw [if_pos]
    · rw [ofDayNumber?_eq_some_iff]
      unfold weekday at *
      omega
    · have hlast := (le_weeksOf_iff hy (w := (t.dayOfYear - 1) / 7 + 1) (by omega)).mpr (by omega)
      unfold weekday
      omega

end Date

end SqlAst
