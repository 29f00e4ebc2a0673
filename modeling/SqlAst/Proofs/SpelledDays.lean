import Mathlib.Data.List.TakeWhile
import SqlAst.Interface.Fragments
import SqlAst.Proofs.DayNumbers
import SqlAst.Proofs.Numerals

/-!
# Spelled days

A day is spelled by the numbers of its year, month and day, or by its week date, and a time of day with its
distance from UTC may follow. The grammar here says what is a spelling; the reader gives the day that is spelled,
and nothing if there is no such day.

* `Iso.day?_eq_some_iff`: the reader of days finds the day with the spelled numbers.
* `Iso.TimeText.exists_time?`: every time of day is read, and leaves the day as it is.
* `Iso.Spells.exists_dateTime?`, `Iso.Impossible.dateTime?_eq_none`: the two together.
-/
namespace SqlAst.Iso

/-! ## Days -/

/-- So many digits with a value. -/
structure Digits (n v : Nat) (ds : List Char) : Prop where
  length_eq : ds.length = n
  isDigit : ∀ c ∈ ds, c.isDigit = true
  value : Nat.ofDigitChars 10 ds 0 = v

/-- The numbers that a day is spelled by. -/
inductive Numbers where
  | calendar (year month day : Nat)
  | week (year week weekday : Nat)

/-- The numbers are those of the day. -/
def Numbers.Name : Numbers → Date → Prop
  | .calendar y m n, d => d.year = y ∧ d.month = m ∧ d.day = n
  | .week y w k, d => d.InWeek y w k

/-- The forms in which numbers are set out, whether they name a day or not. -/
inductive DayText : List Char → Numbers → Prop where
  | extended {y m n : Nat} {ys ms ns : List Char} (hy : Digits 4 y ys) (hm : Digits 2 m ms) (hn : Digits 2 n ns) :
    DayText (ys ++ '-' :: (ms ++ '-' :: ns)) (.calendar y m n)
  | basic {y m n : Nat} {ys ms ns : List Char} (hy : Digits 4 y ys) (hm : Digits 2 m ms) (hn : Digits 2 n ns) :
    DayText (ys ++ (ms ++ ns)) (.calendar y m n)
  | week {y w k : Nat} {ys ws ks : List Char} (hy : Digits 4 y ys) (hw : Digits 2 w ws) (hk : Digits 1 k ks) :
    DayText (ys ++ '-' :: 'W' :: (ws ++ '-' :: ks)) (.week y w k)

/-! ## Times -/

/-- A fraction of a second, if there is one. -/
inductive FractionText : List Char → Prop where
  | none : FractionText []
  | some {mark : Char} {ds : List Char} (hmark : mark = '.' ∨ mark = ',') (hne : ds ≠ [])
    (hd : ∀ c ∈ ds, c.isDigit = true) : FractionText (mark :: ds)

/-- Groups of two digits, with colons between them or without, and a fraction. -/
inductive ClockText (colons : Bool) : List Char → List Nat → Prop where
  | last {v : Nat} {ds fraction : List Char} (hv : Digits 2 v ds) (hfraction : FractionText fraction) :
    ClockText colons (ds ++ fraction) [v]
  | next {v : Nat} {vs : List Nat} {ds rest : List Char} (hv : Digits 2 v ds) (hrest : ClockText colons rest vs) :
    ClockText colons (ds ++ ((if colons then [':'] else []) ++ rest)) (v :: vs)

/-- An hour, with a minute and a second or without. -/
def InDay : List Nat → Prop
  | [h] => h < 24
  | [h, m] => h < 24 ∧ m < 60
  | [h, m, s] => h < 24 ∧ m < 60 ∧ s < 60
  | _ => False

/-- A distance from UTC, if there is one. -/
inductive ZoneText : List Char → Prop where
  | none : ZoneText []
  | utc : ZoneText ['Z']
  | distance {sign : Char} {colons : Bool} {cs : List Char} {vs : List Nat} (hsign : sign = '+' ∨ sign = '-')
    (hclock : ClockText colons cs vs) (hv : InDay vs) : ZoneText (sign :: cs)

/-- The time of a day. -/
inductive TimeText : List Char → Prop where
  | mk {colons : Bool} {cs zone : List Char} {vs : List Nat} (hclock : ClockText colons cs vs) (hv : InDay vs)
    (hzone : ZoneText zone) : TimeText (cs ++ zone)

/-- A day, alone or with a time behind a `T`. -/
inductive Spells : List Char → Date → Prop where
  | alone {cs : List Char} {ns : Numbers} {d : Date} (hday : DayText cs ns) (hname : ns.Name d) : Spells cs d
  | timed {cs time : List Char} {ns : Numbers} {d : Date} (hday : DayText cs ns) (hname : ns.Name d)
    (htime : TimeText time) : Spells (cs ++ 'T' :: time) d

/-- The form of a day with numbers that name no day, alone or with anything behind a `T`. -/
inductive Impossible : List Char → Prop where
  | alone {cs : List Char} {ns : Numbers} (hday : DayText cs ns) (hname : ∀ d, ¬ ns.Name d) : Impossible cs
  | timed {cs : List Char} {ns : Numbers} (hday : DayText cs ns) (hname : ∀ d, ¬ ns.Name d) (rest : List Char) :
    Impossible (cs ++ 'T' :: rest)

/-! ## Reading digits -/

namespace Digits

variable {n v : Nat} {ds : List Char}

theorem digits?_append (h : Digits n v ds) (rest : List Char) : digits? n (ds ++ rest) = some (v, rest) := by
  have hall : ds.all Text.isDecimalDigit = true :=
    List.all_eq_true.mpr fun c hc => Json.isDecimalDigit_of_isDigit (h.isDigit c hc)
  simp only [digits?, List.take_left' h.length_eq, List.drop_left' h.length_eq, h.length_eq, hall, h.value, and_self,
    if_true]

theorem ne_of_mem (h : Digits n v ds) {c d : Char} (hc : c ∈ ds) (hd : d.isDigit = false) : c ≠ d :=
  Whole.ne_of_isDigit (h.isDigit c hc) hd

theorem one (h : Digits 1 v ds) : ∃ a, ds = [a] := List.length_eq_one_iff.mp h.length_eq

theorem two (h : Digits 2 v ds) : ∃ a b, ds = [a, b] := List.length_eq_two.mp h.length_eq

theorem four (h : Digits 4 v ds) : ∃ a b c d, ds = [a, b, c, d] := by
  obtain ⟨a, b, c, r, rfl⟩ : ∃ a b c r, ds = a :: b :: c :: r := by
    match ds, h.length_eq with
    | a :: b :: c :: r, _ => exact ⟨a, b, c, r, rfl⟩
  obtain ⟨d, rfl⟩ := List.length_eq_one_iff.mp (show r.length = 1 by have := h.length_eq; simpa using this)
  exact ⟨a, b, c, d, rfl⟩

end Digits

/-! ## Reading days -/

variable {cs : List Char} {ns : Numbers} {d : Date}

theorem day?_eq_some_iff (h : DayText cs ns) : day? cs = some d ↔ ns.Name d := by
  cases h with
  | @extended y m n ys ms ns hy hm hn =>
    have hread := hy.digits?_append ('-' :: (ms ++ '-' :: ns))
    have hmonth := hm.digits?_append ('-' :: ns)
    have hday := hn.digits?_append []
    obtain ⟨a, b, rfl⟩ := hm.two
    have ha : a ≠ 'W' := hm.ne_of_mem List.mem_cons_self rfl
    simp only [List.cons_append, List.nil_append, List.append_nil] at hread hmonth hday ⊢
    simp only [day?, hread, Option.bind_eq_bind, Option.bind_some, List.head?_cons, if_true, List.drop_succ_cons,
      List.drop_zero]
    split
    · rename_i heq
      exact absurd (List.cons.inj heq).1 ha
    · simp only [hmonth, hday, char?, Option.bind_some, if_true, List.isEmpty_nil]
      exact Date.make?_eq_some_iff
  | @basic y m n ys ms ns hy hm hn =>
    have hread := hy.digits?_append (ms ++ ns)
    have hmonth := hm.digits?_append ns
    have hday := hn.digits?_append []
    obtain ⟨a, b, rfl⟩ := hm.two
    have ha : a ≠ 'W' := hm.ne_of_mem List.mem_cons_self rfl
    have hdash : ¬ some a = some '-' := fun h => hm.ne_of_mem List.mem_cons_self rfl (Option.some.inj h)
    simp only [List.cons_append, List.nil_append, List.append_nil] at hread hmonth hday ⊢
    simp only [day?, hread, Option.bind_eq_bind, Option.bind_some, List.head?_cons, hdash, if_false]
    split
    · rename_i heq
      exact absurd (List.cons.inj heq).1 ha
    · simp only [hmonth, hday, Option.bind_some, if_true, List.isEmpty_nil]
      exact Date.make?_eq_some_iff
  | @week y w k ys ws ks hy hw hk =>
    have hread := hy.digits?_append ('-' :: 'W' :: (ws ++ '-' :: ks))
    have hweek := hw.digits?_append ('-' :: ks)
    have hday := hk.digits?_append []
    rw [List.append_nil] at hday
    simp only [day?, hread, Option.bind_eq_bind, Option.bind_some, List.head?_cons, if_true, List.drop_succ_cons,
      List.drop_zero, hweek, char?, hday, List.isEmpty_nil]
    exact Date.ofWeek?_eq_some_iff

/-- The length of a day can be told from the day and from what stands behind it, if that is no digit. -/
theorem dayLength_append (h : DayText cs ns) {tail : List Char} (ht : tail = [] ∨ tail.head? = some 'T') :
    dayLength (cs ++ tail) = cs.length := by
  cases h with
  | extended hy hm hn =>
    obtain ⟨a, b, c, d, rfl⟩ := hy.four
    obtain ⟨e, f, rfl⟩ := hm.two
    obtain ⟨g, h, rfl⟩ := hn.two
    have he : e ≠ 'W' := hm.ne_of_mem List.mem_cons_self rfl
    simp [dayLength, he]
  | basic hy hm hn =>
    obtain ⟨a, b, c, d, rfl⟩ := hy.four
    obtain ⟨e, f, rfl⟩ := hm.two
    obtain ⟨g, h, rfl⟩ := hn.two
    have he : e ≠ 'W' := hm.ne_of_mem List.mem_cons_self rfl
    have hdash : e ≠ '-' := hm.ne_of_mem List.mem_cons_self rfl
    simp [dayLength, he, hdash]
  | week hy hw hk =>
    obtain ⟨a, b, c, d, rfl⟩ := hy.four
    obtain ⟨e, f, rfl⟩ := hw.two
    obtain ⟨g, rfl⟩ := hk.one
    rcases ht with rfl | ht
    · simp [dayLength]
    · obtain ⟨r, rfl⟩ := List.head?_eq_some_iff.mp ht
      simp [dayLength, Text.isDecimalDigit]

/-! ## Reading times -/

/-- What a reading of a clock gives. -/
structure Clock.Shows (c : Clock) (vs : List Nat) (stop : Char) : Prop where
  groups_eq : c.groups = vs
  microsecond_lt : c.microsecond < 1000000
  leftover_eq : c.leftover = (stop != '\x00')

theorem exists_fraction? (stop : Char) {ds : List Char} (hd : ∀ c ∈ ds, c.isDigit = true) :
    ∃ c, fraction? stop ds = some c ∧ c.Shows [] stop := by
  have hfew : ∀ c ∈ ds.take 6, c.isDigit = true := fun c hc => hd c (List.mem_of_mem_take hc)
  have hlength : (ds.take 6).length = min ds.length 6 := by rw [List.length_take, Nat.min_comm]
  have hread := Digits.digits?_append ⟨hlength, hfew, rfl⟩ (ds.drop 6)
  have hrest : (ds.drop 6).dropWhile Text.isDecimalDigit = [] :=
    List.dropWhile_eq_nil_iff.mpr fun c hc => Json.isDecimalDigit_of_isDigit (hd c (List.mem_of_mem_drop hc))
  have hvalue := Json.ofDigitChars_lt hfew
  rw [List.take_append_drop] at hread
  refine ⟨_, by rw [fraction?, hread]; rfl, rfl, ?_, by simp only [hrest, List.headD_nil]⟩
  calc Nat.ofDigitChars 10 (ds.take 6) 0 * 10 ^ (6 - min ds.length 6)
      < 10 ^ min ds.length 6 * 10 ^ (6 - min ds.length 6) :=
        Nat.mul_lt_mul_of_pos_right (hlength ▸ hvalue) (Nat.pow_pos (by decide))
    _ = 1000000 := by rw [← Nat.pow_add, Nat.add_sub_cancel' (Nat.min_le_right _ _)]

/-- A clock begins with two digits. -/
theorem ClockText.exists_cons {colons : Bool} {vs : List Nat} (h : ClockText colons cs vs) :
    ∃ a b r, cs = a :: b :: r ∧ a.isDigit = true := by
  cases h with
  | last hv _ =>
    obtain ⟨a, b, rfl⟩ := hv.two
    exact ⟨a, b, _, rfl, hv.isDigit a List.mem_cons_self⟩
  | next hv _ =>
    obtain ⟨a, b, rfl⟩ := hv.two
    exact ⟨a, b, _, rfl, hv.isDigit a List.mem_cons_self⟩

/-- A clock is read group by group; whether colons stand between these is known from the first on. -/
theorem ClockText.exists_clock? {colons : Bool} {vs : List Nat} (h : ClockText colons cs vs) (stop : Char) {n : Nat}
    (hn : vs.length ≤ n) {known : Option Bool} (hknown : known = none ∨ known = some colons) :
    ∃ c, clock? stop n known cs = some c ∧ c.Shows vs stop := by
  induction h generalizing n known with
  | @last v ds fraction hv hfraction =>
    obtain ⟨n, rfl⟩ : ∃ m, n = m + 1 := Nat.exists_eq_succ_of_ne_zero (Nat.ne_of_gt hn)
    have hread := hv.digits?_append fraction
    cases hfraction with
    | none => exact ⟨⟨[v], 0, stop != '\x00'⟩, by rw [clock?, hread]; rfl, rfl, Nat.succ_pos _, rfl⟩
    | @some mark ds hmark hne hd =>
      obtain ⟨c, hc, hshows⟩ := exists_fraction? stop hd
      obtain ⟨a, r, rfl⟩ := List.exists_cons_of_ne_nil hne
      have hcolon : ¬ mark = ':' := by rcases hmark with rfl | rfl <;> decide
      refine ⟨{ c with groups := v :: c.groups }, ?_, by rw [hshows.groups_eq], hshows.microsecond_lt,
        hshows.leftover_eq⟩
      simp [clock?, hread, hcolon, hmark, hc]
  | @next v vs ds rest hv hrest ih =>
    obtain ⟨n, rfl⟩ : ∃ m, n = m + 1 := Nat.exists_eq_succ_of_ne_zero (Nat.ne_of_gt (Nat.zero_lt_of_lt hn))
    have hsettled : some colons = none ∨ some colons = some colons := .inr rfl
    obtain ⟨c, hc, hshows⟩ := ih (Nat.le_of_succ_le_succ hn) hsettled
    refine ⟨{ c with groups := v :: c.groups }, ?_, by rw [hshows.groups_eq], hshows.microsecond_lt,
      hshows.leftover_eq⟩
    obtain ⟨a, b, r, rfl, ha⟩ := hrest.exists_cons
    cases colons with
    | true =>
      have hread := hv.digits?_append (':' :: a :: b :: r)
      have hseparated : known.getD true = true := by rcases hknown with rfl | rfl <;> rfl
      simp [clock?, hread, hseparated, hc]
    | false =>
      have hread := hv.digits?_append (a :: b :: r)
      have hcolon : ¬ a = ':' := Whole.ne_of_isDigit ha rfl
      have hpoint : ¬ (a = '.' ∨ a = ',') := by
        rintro (rfl | rfl) <;> cases ha
      have hseparated : known.getD false = false := by rcases hknown with rfl | rfl <;> rfl
      simp [clock?, hread, hcolon, hpoint, hseparated, hc]

/-- The characters of a clock. -/
theorem ClockText.mem {colons : Bool} {vs : List Nat} (h : ClockText colons cs vs) :
    ∀ c ∈ cs, c.isDigit = true ∨ c = ':' ∨ c = '.' ∨ c = ',' := by
  induction h with
  | @last v ds fraction hv hfraction =>
    intro c hc
    rcases List.mem_append.mp hc with hc | hc
    · exact .inl (hv.isDigit c hc)
    · cases hfraction with
      | none => cases hc
      | some hmark hne hd =>
        rcases List.mem_cons.mp hc with rfl | hc
        · exact .inr (.inr hmark)
        · exact .inl (hd c hc)
  | @next v vs ds rest hv hrest ih =>
    intro c hc
    rcases List.mem_append.mp hc with hc | hc
    · exact .inl (hv.isDigit c hc)
    · rcases List.mem_append.mp hc with hc | hc
      · split at hc
        · exact .inr (.inl (List.mem_singleton.mp hc))
        · cases hc
      · exact ih c hc

theorem InDay.length_le {vs : List Nat} (h : InDay vs) : vs.length ≤ 3 := by
  match vs, h with
  | [_], _ | [_, _], _ | [_, _, _], _ => simp

/-- The hour, the minute and the second. -/
theorem InDay.bounds {vs : List Nat} (h : InDay vs) :
    vs.headD 0 < 24 ∧ (vs[1]?).getD 0 < 60 ∧ (vs[2]?).getD 0 < 60 := by
  match vs, h with
  | [_], h => exact ⟨h, Nat.succ_pos _, Nat.succ_pos _⟩
  | [_, _], h => exact ⟨h.1, h.2, Nat.succ_pos _⟩
  | [_, _, _], h => exact h

/-- A distance from UTC of less than a day is read. -/
theorem exists_offset? (negative : Bool) {c : Clock} {vs : List Nat} {stop : Char} (hc : c.Shows vs stop)
    (hv : InDay vs) : ∃ offset, offset? negative c = some offset := by
  have hbounds := hv.bounds
  have hmicro := hc.microsecond_lt
  unfold offset?
  rw [hc.groups_eq]
  dsimp only
  rw [if_pos]
  · exact ⟨_, rfl⟩
  · split <;> omega

theorem ZoneText.exists_zone? {zone : List Char} (h : ZoneText zone) (hne : zone ≠ []) :
    ∃ offset, zone? zone = some offset := by
  cases h with
  | none => exact absurd rfl hne
  | utc => exact ⟨0, rfl⟩
  | @distance sign colons cs vs hsign hclock hv =>
    obtain ⟨c, hc, hshows⟩ := hclock.exists_clock? '\x00' hv.length_le (.inl rfl)
    obtain ⟨offset, hoffset⟩ := exists_offset? (sign = '-') hshows hv
    have hleft : c.leftover = false := hshows.leftover_eq
    refine ⟨offset, ?_⟩
    rcases hsign with rfl | rfl <;> simpa [zone?, hc, hleft] using hoffset

/-- A distance from UTC begins with its sign. -/
theorem ZoneText.head {zone : List Char} (h : ZoneText zone) :
    ∀ c ∈ zone.head?, c = '+' ∨ c = '-' ∨ c = 'Z' := by
  cases h with
  | none => simp
  | utc => simp
  | distance hsign => simpa using hsign.imp_right .inl

/-- The clock ends where the sign is. -/
theorem ClockText.span_zone {colons : Bool} {vs : List Nat} (hclock : ClockText colons cs vs) {zone : List Char}
    (hzone : ZoneText zone) :
    (cs ++ zone).takeWhile (fun c => !(c = '+' || c = '-' || c = 'Z')) = cs ∧
      (cs ++ zone).dropWhile (fun c => !(c = '+' || c = '-' || c = 'Z')) = zone := by
  have hcs : ∀ c ∈ cs, (!(c = '+' || c = '-' || c = 'Z')) = true := by
    intro c hc
    have hne {d : Char} (hd : d = '+' ∨ d = '-' ∨ d = 'Z') : c ≠ d := by
      rcases hclock.mem c hc with hdigit | rfl | rfl | rfl
      · exact Whole.ne_of_isDigit hdigit (by rcases hd with rfl | rfl | rfl <;> rfl)
      all_goals rcases hd with rfl | rfl | rfl <;> decide
    simp [hne]
  rw [List.takeWhile_append_of_pos hcs, List.dropWhile_append_of_pos hcs]
  cases zone with
  | nil => exact ⟨List.append_nil cs, rfl⟩
  | cons c r =>
    have hc : (!(c = '+' || c = '-' || c = 'Z')) = false := by
      rcases hzone.head c rfl with rfl | rfl | rfl <;> rfl
    exact ⟨by rw [List.takeWhile_cons_of_neg (by simp [hc]), List.append_nil],
      List.dropWhile_cons_of_neg (by simp [hc])⟩

/-- A time of day is read, whatever the day is. -/
theorem TimeText.exists_time? {time : List Char} (h : TimeText time) (day : Date) :
    ∃ t, time? day time = some t ∧ t.date = day := by
  obtain @⟨colons, cs, zone, vs, hclock, hv, hzone⟩ := h
  obtain ⟨hfront, hback⟩ := hclock.span_zone hzone
  obtain ⟨c, hc, hshows⟩ := hclock.exists_clock? (zone.headD '\x00') hv.length_le (.inl rfl)
  have hbounds := hv.bounds
  rw [← hshows.groups_eq] at hbounds
  simp only [time?, hfront, hback, hc, Option.bind_eq_bind, Option.bind_some, if_pos hbounds]
  cases hempty : zone with
  | nil =>
    have hleft : c.leftover = false := by
      rw [hshows.leftover_eq, hempty]
      rfl
    rw [hleft]
    exact ⟨_, rfl, rfl⟩
  | cons sign r =>
    obtain ⟨offset, hoffset⟩ := hzone.exists_zone? (hempty ▸ List.cons_ne_nil sign r)
    rw [← hempty, hoffset, hempty]
    exact ⟨_, rfl, rfl⟩

/-! ## Reading days with times -/

theorem dateTime?_eq (s : String) :
    dateTime? s = if s.toList.length < 7 then none else
      (day? (s.toList.take (dayLength s.toList))).bind fun day =>
        let rest := s.toList.drop (dayLength s.toList)
        if rest.isEmpty then some ⟨day, 0, 0, 0, 0, none⟩ else time? day (Text.behindPoint rest) := rfl

/-- The day is read on its own, and the time behind it. -/
theorem dateTime?_append (h : DayText cs ns) (tail : List Char) (ht : tail = [] ∨ tail.head? = some 'T') :
    dateTime? (String.ofList (cs ++ tail)) = (day? cs).bind fun day =>
      match tail with
      | [] => some ⟨day, 0, 0, 0, 0, none⟩
      | _ :: r => time? day r := by
  have hlong : ¬ (cs ++ tail).length < 7 := by
    cases h with
    | extended hy hm hn => simp [hy.length_eq, hm.length_eq, hn.length_eq]; omega
    | basic hy hm hn => simp [hy.length_eq, hm.length_eq, hn.length_eq]; omega
    | week hy hw hk => simp [hy.length_eq, hw.length_eq, hk.length_eq]; omega
  rw [dateTime?_eq, String.toList_ofList, if_neg hlong, dayLength_append h ht, List.take_left, List.drop_left]
  cases tail with
  | nil => rfl
  | cons t r =>
    obtain rfl : t = 'T' := by simpa using ht
    simp only [List.isEmpty_cons, Bool.false_eq_true, if_false, Text.behindPoint_cons (by decide : 'T' ≠ Text.halfMark)]

/-- What is spelled is read as the day that is spelled. -/
theorem Spells.exists_dateTime? {s : String} (h : Spells s.toList d) : ∃ t, dateTime? s = some t ∧ t.date = d := by
  generalize hcs : s.toList = cs at h
  obtain rfl : s = String.ofList cs := by rw [← hcs, String.ofList_toList]
  cases h with
  | alone hday hname =>
    have hread := dateTime?_append hday [] (.inl rfl)
    rw [List.append_nil, (day?_eq_some_iff hday).mpr hname] at hread
    exact ⟨_, hread, rfl⟩
  | @timed cs time ns d hday hname htime =>
    have hread := dateTime?_append hday ('T' :: time) (.inr rfl)
    rw [(day?_eq_some_iff hday).mpr hname] at hread
    obtain ⟨t, ht, hdate⟩ := htime.exists_time? d
    exact ⟨t, hread.trans ht, hdate⟩

theorem Impossible.dateTime?_eq_none {s : String} (h : Impossible s.toList) : dateTime? s = none := by
  generalize hcs : s.toList = cs at h
  obtain rfl : s = String.ofList cs := by rw [← hcs, String.ofList_toList]
  have hunread {cs : List Char} {ns : Numbers} (hday : DayText cs ns) (hname : ∀ d, ¬ ns.Name d) : day? cs = none :=
    Option.eq_none_iff_forall_ne_some.mpr fun d hd => hname d ((day?_eq_some_iff hday).mp hd)
  cases h with
  | alone hday hname =>
    have hread := dateTime?_append hday [] (.inl rfl)
    rwa [List.append_nil, hunread hday hname] at hread
  | timed hday hname rest =>
    have hread := dateTime?_append hday ('T' :: rest) (.inr rfl)
    rwa [hunread hday hname] at hread

end SqlAst.Iso
