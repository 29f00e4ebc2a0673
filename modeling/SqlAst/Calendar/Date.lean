import SqlAst.Text.Basic

/-!
# Days

Days of the Gregorian calendar from 0001-01-01 to 9999-12-31, their numbering, their weekdays and their
ISO week dates. `Date.ofDayNumber?` finds the day of a number by an estimate of its year.
-/
namespace SqlAst

/-- A year with a 29th of February. -/
def isLeapYear (y : Nat) : Bool := y % 4 == 0 && (y % 100 != 0 || y % 400 == 0)

/-- The number of days of a month. -/
def monthLength (y m : Nat) : Nat :=
  if m = 2 then (if isLeapYear y then 29 else 28)
  else if m = 4 ∨ m = 6 ∨ m = 9 ∨ m = 11 then 30 else 31

/-- Whether the numbers name a day of the years 1 to 9999. -/
def isDay (y m d : Nat) : Bool :=
  1 ≤ y && y ≤ 9999 && 1 ≤ m && m ≤ 12 && 1 ≤ d && d ≤ monthLength y m

/-- A day. -/
structure Date where
  year : Nat
  month : Nat
  day : Nat
  valid : isDay year month day = true
  deriving DecidableEq

/-- The number of days before a year. -/
def daysBeforeYear (y : Nat) : Nat := (y - 1) * 365 + (y - 1) / 4 - (y - 1) / 100 + (y - 1) / 400

/-- The number of days of a year before one of its months. -/
def daysBeforeMonth (y m : Nat) : Nat :=
  (List.range (m - 1)).foldl (fun days i => days + monthLength y (i + 1)) 0

/-- The year that a day number falls in. -/
def yearOfDayNumber (n : Nat) : Nat :=
  let y := (n - 1) * 400 / 146097 + 1
  if n ≤ daysBeforeYear y then y - 1 else if daysBeforeYear (y + 1) < n then y + 1 else y

namespace Date

/-- The day with the given numbers, if there is one. -/
def make? (y m d : Nat) : Option Date :=
  if h : isDay y m d = true then some ⟨y, m, d, h⟩ else none

/-- The number of a day, 0001-01-01 being the first. -/
def dayNumber (d : Date) : Nat := daysBeforeYear d.year + daysBeforeMonth d.year d.month + d.day

/-- The day with a number. -/
def ofDayNumber? (n : Nat) : Option Date :=
  let y := yearOfDayNumber n
  let rest := n - daysBeforeYear y
  let m := ((List.range 12).takeWhile fun i => daysBeforeMonth y (i + 1) < rest).length
  make? y m (rest - daysBeforeMonth y m)

/-- The weekday of a day number, Monday being 0. -/
def weekdayOf (n : Nat) : Nat := (n + 6) % 7

/-- The day number of the Monday that begins week 1 of a year: the week with its first Thursday. -/
def firstMonday (y : Nat) : Nat :=
  let first := daysBeforeYear y + 1
  let w := weekdayOf first
  if 3 < w then first + 7 - w else first - w

/-- The number of ISO weeks of a year: 53 if it starts on a Thursday, or is a leap year that starts on
a Wednesday. -/
def weeksOf (y : Nat) : Nat :=
  let w := weekdayOf (daysBeforeYear y + 1)
  if w = 3 ∨ (w = 2 ∧ isLeapYear y) then 53 else 52

/-- The day of an ISO week date; weekdays are numbered from Monday, 1, to Sunday, 7. -/
def ofWeek? (y week weekday : Nat) : Option Date :=
  if 1 ≤ y ∧ 1 ≤ week ∧ week ≤ weeksOf y ∧ 1 ≤ weekday ∧ weekday ≤ 7 then
    ofDayNumber? (firstMonday y + (week - 1) * 7 + (weekday - 1))
  else none

/-- `YYYY-MM-DD`. -/
def chars (d : Date) : List Char :=
  Text.natText 4 d.year ++ '-' :: Text.natText 2 d.month ++ '-' :: Text.natText 2 d.day

/-- `YYYY-MM-DD`. -/
def text (d : Date) : String := String.ofList d.chars

end Date

/-- A day with a time, and the distance of its clock from UTC in microseconds if that is known. -/
structure DateTime where
  date : Date
  hour : Nat
  minute : Nat
  second : Nat
  microsecond : Nat
  offset : Option Int
  deriving DecidableEq

namespace DateTime

/-- A fraction of a second, written only if there is one. -/
def fractionText (microsecond : Nat) : List Char :=
  if microsecond = 0 then [] else '.' :: Text.natText 6 microsecond

/-- A distance from UTC, `+HH:MM` with seconds if there are any. -/
def offsetText (offset : Int) : List Char :=
  let total := offset.natAbs
  let seconds := total / 1000000
  (if offset < 0 then '-' else '+') :: Text.natText 2 (seconds / 3600) ++
    ':' :: Text.natText 2 (seconds / 60 % 60) ++
    (if seconds % 60 = 0 ∧ total % 1000000 = 0 then []
     else ':' :: Text.natText 2 (seconds % 60) ++ fractionText (total % 1000000))

/-- The ISO form with `separator` between day and time. -/
def isoText (separator : Char) (t : DateTime) : String :=
  String.ofList <| t.date.chars ++ separator :: Text.natText 2 t.hour ++ ':' :: Text.natText 2 t.minute ++
    ':' :: Text.natText 2 t.second ++ fractionText t.microsecond ++
    (t.offset.map offsetText).getD []

end DateTime

end SqlAst
