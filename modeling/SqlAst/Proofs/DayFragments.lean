import SqlAst.Proofs.Refusals
import SqlAst.Proofs.SpelledDays

/-!
# Days in fragments

A call that writes a day takes a day, a day with a time, or a text. However the day is given, it is written with
four digits of the year and two of the month and the day; a text in the form of a day that there is not is refused.

* `Datum.ForDay.dayOf_eq`, `dayOf_impossible`: what counts as the day of an argument.
* `Fragment.Agreement`, `Fragment.days_agree`: the calls that write days.
-/
namespace SqlAst

open Iso (Digits DayText Numbers Spells Impossible)

/-- The data that stand for a day. -/
inductive Datum.ForDay : Datum → Date → Prop where
  | date (d : Date) : ForDay (.date d) d
  | dateTime (t : DateTime) : ForDay (.dateTime t) t.date
  | text {s : String} {d : Date} (h : Spells s.toList d) : ForDay (.text s) d

/-! ## Written days -/

theorem length_natText {width n : Nat} (hwidth : 0 < width) (h : n < 10 ^ width) :
    (Text.natText width n).length = width := by
  have hle : (Nat.toDigits 10 n).length ≤ width := (Nat.length_toDigits_le_iff (by decide) hwidth).mpr h
  rw [Text.natText, Text.zeroPadded, List.length_append, List.length_replicate]
  omega

theorem digits_natText {width n : Nat} (hwidth : 0 < width) (h : n < 10 ^ width) :
    Digits width n (Text.natText width n) where
  length_eq := length_natText hwidth h
  isDigit _ hc := Layout.isDigit_of_mem_natText hc
  value := Json.ofDigitChars_natText width n

namespace Date

/-- The numbers of a day have as many digits as they are given room for. -/
theorem digits (d : Date) : Digits 4 d.year (Text.natText 4 d.year) ∧
    Digits 2 d.month (Text.natText 2 d.month) ∧ Digits 2 d.day (Text.natText 2 d.day) := by
  obtain ⟨hy, hm, hd⟩ := isDay_iff.mp d.valid
  have hlong := (monthLength_bounds d.year d.month).2
  refine ⟨digits_natText (by decide) ?_, digits_natText (by decide) ?_, digits_natText (by decide) ?_⟩ <;> omega

theorem dayText_chars (d : Date) : DayText d.chars (.calendar d.year d.month d.day) := by
  obtain ⟨hy, hm, hd⟩ := d.digits
  have hchars : d.chars = Text.natText 4 d.year ++ '-' :: (Text.natText 2 d.month ++ '-' :: Text.natText 2 d.day) := by
    simp [chars]
  rw [hchars]
  exact .extended hy hm hd

theorem forDay_text (d : Date) : Datum.ForDay (.text d.text) d := by
  refine .text ?_
  rw [text, String.toList_ofList]
  exact .alone d.dayText_chars ⟨rfl, rfl, rfl⟩

/-- A day has a week date, and its numbers can be written. -/
theorem exists_weekText (d : Date) : ∃ cs y w k, DayText cs (.week y w k) ∧ d.InWeek y w k := by
  obtain ⟨y, w, k, hweek⟩ := d.exists_inWeek
  have hread := ofWeek?_eq_some_iff.mpr hweek
  obtain ⟨rfl, t, ht, rfl, rfl⟩ := hweek
  have hy := (isDay_iff.mp t.valid).1.2
  have hdays := t.dayOfYear_bounds.2
  have hyear : yearLength t.year ≤ 366 := by
    unfold yearLength
    split <;> decide
  refine ⟨_, _, _, _, .week (digits_natText (by decide) ?_) (digits_natText (by decide) ?_)
    (digits_natText (by decide) ?_), rfl, t, ht, rfl, rfl⟩
  · omega
  · omega
  · unfold weekday
    omega

end Date

/-! ## The day of an argument -/

open Interface (Fragments.dayOf Fragments.day Fragments.sumBetween)

theorem Datum.ForDay.dayOf_eq {v : Datum} {d : Date} (h : v.ForDay d) : Fragments.dayOf v = .ok d := by
  cases h with
  | date d => rfl
  | dateTime t => rfl
  | @text s d h =>
    obtain ⟨t, ht, rfl⟩ := h.exists_dateTime?
    simp only [Fragments.dayOf, Datum.asText?, Option.bind_some, ht]

theorem dayOf_impossible {s : String} (h : Impossible s.toList) :
    Fragments.dayOf (.text s) = .error (.fault (.notADay (.text s))) := by
  simp only [Fragments.dayOf, Datum.asText?, Option.bind_some, h.dateTime?_eq_none]

/-! ## Calls -/

section

variable {v w : Datum} {d e : Date} {failure : Failure} (s : Session)

theorem outcome_day (h : Fragments.dayOf v = .ok d) :
    (Fragments.day.call [v] []).outcome s = .ok (.text ("'" ++ d.text ++ "'")) := by
  show (do Interface.Fragments.giving (Fragment.day (← Action.ofOutcome (Fragments.dayOf v)))).outcome s = _
  rw [h]
  rfl

theorem outcome_day_error (h : Fragments.dayOf v = .error failure) :
    (Fragments.day.call [v] []).outcome s = .error failure :=
  Action.outcome_bind_error ((Action.outcome_ofOutcome _ s).trans h)

variable (dateColumn valueColumn : Datum)

/-- Either bound is written between apostrophes. -/
theorem sumBetween_eq (dateColumn valueColumn : String) (d e : Date) :
    Fragment.sumBetween dateColumn valueColumn d e =
      "SUM(IF(" ++ dateColumn ++ " BETWEEN '" ++ d.text ++ "' AND '" ++ e.text ++ "'," ++ valueColumn ++ ",0))" := by
  have hbetween : " BETWEEN '" = " BETWEEN " ++ "'" := rfl
  have hand : "' AND '" = "'" ++ (" AND " ++ "'") := rfl
  have hcomma : "'," = "'" ++ "," := rfl
  show "SUM(IF(" ++ dateColumn ++ " BETWEEN " ++ ("'" ++ d.text ++ "'") ++ " AND " ++ ("'" ++ e.text ++ "'") ++
    "," ++ valueColumn ++ ",0))" = _
  simp only [hbetween, hand, hcomma, String.append_assoc]

theorem outcome_sumBetween (hv : Fragments.dayOf v = .ok d) (hw : Fragments.dayOf w = .ok e) :
    (Fragments.sumBetween.call [dateColumn, valueColumn, v, w] []).outcome s =
      .ok (.text ("SUM(IF(" ++ dateColumn.phrase ++ " BETWEEN '" ++ d.text ++ "' AND '" ++ e.text ++ "'," ++
        valueColumn.phrase ++ ",0))")) := by
  rw [← sumBetween_eq]
  show (do
    let first ← Action.ofOutcome (Fragments.dayOf v)
    let last ← Action.ofOutcome (Fragments.dayOf w)
    Interface.Fragments.giving
      (Fragment.sumBetween dateColumn.phrase valueColumn.phrase first last)).outcome s = _
  rw [hv, hw]
  rfl

theorem outcome_sumBetween_first (hv : Fragments.dayOf v = .error failure) :
    (Fragments.sumBetween.call [dateColumn, valueColumn, v, w] []).outcome s = .error failure :=
  Action.outcome_bind_error ((Action.outcome_ofOutcome _ s).trans hv)

theorem outcome_sumBetween_last (hv : Fragments.dayOf v = .ok d) (hw : Fragments.dayOf w = .error failure) :
    (Fragments.sumBetween.call [dateColumn, valueColumn, v, w] []).outcome s = .error failure := by
  let written (first : Date) : Action Datum := do
    let last ← Action.ofOutcome (Fragments.dayOf w)
    Interface.Fragments.giving (Fragment.sumBetween dateColumn.phrase valueColumn.phrase first last)
  show (Action.ofOutcome (Fragments.dayOf v) >>= written).outcome s = _
  rw [hv]
  show (written d).outcome s = _
  exact Action.outcome_bind_error ((Action.outcome_ofOutcome _ s).trans hw)

end

/-! ## Days agree -/

namespace Fragment

/-- What it means that all spellings of a day agree. -/
structure Agreement : Prop where
  /-- The text of a day has ten characters: its numbers with zeros in front and dashes between. -/
  written : ∀ d : Date, d.text.length = 10 ∧ ∃ ys ms ns, Digits 4 d.year ys ∧ Digits 2 d.month ms ∧
    Digits 2 d.day ns ∧ d.text.toList = ys ++ '-' :: (ms ++ '-' :: ns)
  /-- Each day can be spelled by its numbers, with dashes and without, and as a week date. -/
  spelled : ∀ d : Date, (∃ ys ms ns, DayText (ys ++ '-' :: (ms ++ '-' :: ns)) (.calendar d.year d.month d.day) ∧
    DayText (ys ++ (ms ++ ns)) (.calendar d.year d.month d.day)) ∧
      ∃ cs y w k, DayText cs (.week y w k) ∧ d.InWeek y w k
  /-- A day is written between apostrophes, however it is given. -/
  day_ok : ∀ (s : Session) {v : Datum} {d : Date}, v.ForDay d →
    (Fragments.day.call [v] []).outcome s = .ok (.text ("'" ++ d.text ++ "'"))
  /-- What is written stands for the same day again. -/
  day_again : ∀ (s : Session) (d : Date),
    (Fragments.day.call [.text d.text] []).outcome s = .ok (.text ("'" ++ d.text ++ "'"))
  /-- The bounds of a sum are written the same. -/
  sum_ok : ∀ (s : Session) (dateColumn valueColumn : Datum) {v w : Datum} {d e : Date}, v.ForDay d → w.ForDay e →
    (Fragments.sumBetween.call [dateColumn, valueColumn, v, w] []).outcome s =
      .ok (.text ("SUM(IF(" ++ dateColumn.phrase ++ " BETWEEN '" ++ d.text ++ "' AND '" ++ e.text ++ "'," ++
        valueColumn.phrase ++ ",0))"))
  /-- The form of a day with numbers that name none is refused. -/
  day_refused : ∀ (s : Session) {text : String}, Impossible text.toList →
    ∃ f, (Fragments.day.call [.text text] []).outcome s = .error (.fault f) ∧ f.code = .validation
  /-- It is refused as either bound of a sum. -/
  sum_refused : ∀ (s : Session) (dateColumn valueColumn : Datum) {text : String}, Impossible text.toList →
    ∃ f, f.code = .validation ∧
      (∀ w, (Fragments.sumBetween.call [dateColumn, valueColumn, .text text, w] []).outcome s =
        .error (.fault f)) ∧
      ∀ v d, v.ForDay d → (Fragments.sumBetween.call [dateColumn, valueColumn, v, .text text] []).outcome s =
        .error (.fault f)

/-- All spellings of a day agree. -/
theorem days_agree : Agreement where
  written d := by
    obtain ⟨hy, hm, hd⟩ := d.digits
    have hchars : d.text.toList =
        Text.natText 4 d.year ++ '-' :: (Text.natText 2 d.month ++ '-' :: Text.natText 2 d.day) := by
      simp [Date.text, Date.chars]
    refine ⟨?_, _, _, _, hy, hm, hd, hchars⟩
    rw [← String.length_toList, hchars]
    simp [hy.length_eq, hm.length_eq, hd.length_eq]
  spelled d := by
    obtain ⟨hy, hm, hd⟩ := d.digits
    exact ⟨⟨_, _, _, .extended hy hm hd, .basic hy hm hd⟩, d.exists_weekText⟩
  day_ok s _ _ h := outcome_day s h.dayOf_eq
  day_again s d := outcome_day s d.forDay_text.dayOf_eq
  sum_ok s _ _ _ _ _ _ hv hw := outcome_sumBetween s _ _ hv.dayOf_eq hw.dayOf_eq
  day_refused s _ h := ⟨_, outcome_day_error s (dayOf_impossible h), rfl⟩
  sum_refused s _ _ _ h := ⟨_, rfl, fun _ => outcome_sumBetween_first s _ _ (dayOf_impossible h),
    fun _ _ hv => outcome_sumBetween_last s _ _ hv.dayOf_eq (dayOf_impossible h)⟩

/-- New Year's Day of 2021 is in the last week of the year before, with a time of day behind it. -/
theorem spells_newYear : Spells "2020-W53-5T23:59:59,9-0530".toList ⟨2021, 1, 1, rfl⟩ := by
  have h2020 : Digits 4 2020 ['2', '0', '2', '0'] := ⟨rfl, List.all_eq_true.mp rfl, rfl⟩
  have h53 : Digits 2 53 ['5', '3'] := ⟨rfl, List.all_eq_true.mp rfl, rfl⟩
  have h5 : Digits 1 5 ['5'] := ⟨rfl, List.all_eq_true.mp rfl, rfl⟩
  have hday : Date.InWeek ⟨2021, 1, 1, rfl⟩ 2020 53 5 := ⟨rfl, ⟨2020, 12, 31, rfl⟩, rfl, rfl, rfl⟩
  have h23 : Digits 2 23 ['2', '3'] := ⟨rfl, List.all_eq_true.mp rfl, rfl⟩
  have h59 : Digits 2 59 ['5', '9'] := ⟨rfl, List.all_eq_true.mp rfl, rfl⟩
  have h05 : Digits 2 5 ['0', '5'] := ⟨rfl, List.all_eq_true.mp rfl, rfl⟩
  have h30 : Digits 2 30 ['3', '0'] := ⟨rfl, List.all_eq_true.mp rfl, rfl⟩
  have hfraction : Iso.FractionText [',', '9'] := .some (.inr rfl) (List.cons_ne_nil _ _) (List.all_eq_true.mp rfl)
  have hclock : Iso.ClockText true "23:59:59,9".toList [23, 59, 59] := .next h23 (.next h59 (.last h59 hfraction))
  have hdistance : Iso.ClockText false "0530".toList [5, 30] := .next h05 (.last h30 .none)
  have hzone : Iso.ZoneText "-0530".toList := .distance (.inr rfl) hdistance ⟨by decide, by decide⟩
  exact .timed (.week h2020 h53 h5) hday (.mk hclock ⟨by decide, by decide, by decide⟩ hzone)

/-- The year 2021 has no week 53. -/
theorem impossible_week : Impossible "2021-W53-5T23:59:59,9-0530".toList := by
  have h2021 : Digits 4 2021 ['2', '0', '2', '1'] := ⟨rfl, List.all_eq_true.mp rfl, rfl⟩
  have h53 : Digits 2 53 ['5', '3'] := ⟨rfl, List.all_eq_true.mp rfl, rfl⟩
  have h5 : Digits 1 5 ['5'] := ⟨rfl, List.all_eq_true.mp rfl, rfl⟩
  refine .timed (.week h2021 h53 h5) (fun d hday => ?_) "23:59:59,9-0530".toList
  have hread := Date.ofWeek?_eq_some_iff.mpr hday
  rw [show Date.ofWeek? 2021 53 5 = none from rfl] at hread
  cases hread

theorem days_agree_newYear :
    (Fragments.day.call [.text "2020-W53-5T23:59:59,9-0530"] []).outcome {} = .ok (.text "'2021-01-01'") ∧
      ∃ f, (Fragments.day.call [.text "2021-W53-5T23:59:59,9-0530"] []).outcome {} = .error (.fault f) ∧
        f.code = .validation :=
  ⟨days_agree.day_ok {} (.text spells_newYear), days_agree.day_refused {} impossible_week⟩

end Fragment

end SqlAst
