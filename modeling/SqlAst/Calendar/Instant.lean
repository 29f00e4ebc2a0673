import SqlAst.Calendar.Date
import SqlAst.Number.Binary64

/-!
# Instants

A number of seconds since 1970 as a time of UTC, to the nearest microsecond. The fraction of a second is
scaled as a double before it is rounded, a half to the even neighbour.
-/
namespace SqlAst.DateTime

/-- The day number of 1970-01-01. -/
def epochDay : Int := 719163

/-- The time so many microseconds after 1970 in UTC, if it is in the calendar. -/
def ofMicroseconds? (total : Int) : Option DateTime := do
  let seconds := total.fdiv 1000000
  let day := epochDay + seconds.fdiv 86400
  let second := (seconds.fmod 86400).toNat
  if day < 1 then none
  else
    let date ← Date.ofDayNumber? day.toNat
    pure ⟨date, second / 3600, second / 60 % 60, second % 60, (total.fmod 1000000).toNat, some 0⟩

/-- The nearest whole number of millionths of a fraction below one. -/
def millionths (num den : Nat) : Nat :=
  if num = 0 then 0
  else
    let (n, d) := (Binary64.ofMagnitude false (Binary64.magnitudeBits (num * 1000000) den)).quotient
    Binary64.roundQuotient n d

/-- The time so many seconds after 1970. -/
def ofSeconds? (d : Binary64) : Option DateTime :=
  if d.isFinite then
    let (num, den) := d.quotient
    let magnitude : Int := (num / den * 1000000 + millionths (num % den) den : Nat)
    ofMicroseconds? (if d.isNegative then -magnitude else magnitude)
  else none

end SqlAst.DateTime
