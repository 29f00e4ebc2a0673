import SqlAst.Number.Shortest
import SqlAst.Text.Basic

/-!
# Doubles to a number of digits

The magnitude of a finite double rounded to a number of places behind the point, or to a number of
significant digits, by its exact value; a half goes to the even digit.
-/
namespace SqlAst.Binary64

/-- Digits before and behind a point, which an empty fraction has only if it is kept. -/
def pointed (keepPoint : Bool) (whole fraction : List Char) : List Char :=
  if fraction = [] ∧ !keepPoint then whole else whole ++ '.' :: fraction

/-- So many places behind the point. -/
def fixedText (places : Nat) (keepPoint : Bool) (d : Binary64) : List Char :=
  let (num, den) := d.quotient
  let digits := Text.natText (places + 1) (roundQuotient (num * Nat.pow 10 places) den)
  pointed keepPoint (digits.take (digits.length - places)) (digits.drop (digits.length - places))

/-- So many significant digits, and the power of ten of the first of them. -/
def significantDigits (count : Nat) (d : Binary64) : List Char × Int :=
  let (num, den) := d.quotient
  if num = 0 then (List.replicate count '0', 0)
  else
    let power := floorLog10 num den
    let shift : Int := count - 1 - power
    let n := roundQuotient (num * Nat.pow 10 shift.toNat) (den * Nat.pow 10 (-shift).toNat)
    if n = Nat.pow 10 count then (Text.natText count (Nat.pow 10 (count - 1)), power + 1)
    else (Text.natText count n, power)

/-- A power of ten behind an `e`, with a sign and two digits at least. -/
def exponentText (power : Int) : List Char :=
  'e' :: (if power < 0 then '-' else '+') :: Text.natText 2 power.natAbs

/-- One digit, so many places behind the point, and an exponent. -/
def scientificText (places : Nat) (keepPoint : Bool) (d : Binary64) : List Char :=
  let (digits, power) := d.significantDigits (places + 1)
  pointed keepPoint (digits.take 1) (digits.drop 1) ++ exponentText power

/-- So many significant digits, with an exponent for numbers that are small or have more digits. Zeros
at the end are left out unless the point is kept. -/
def generalText (count : Nat) (keepPoint : Bool) (d : Binary64) : List Char :=
  let count := max count 1
  let (digits, power) := d.significantDigits count
  let kept (fraction : List Char) : List Char :=
    if keepPoint then fraction else (fraction.reverse.dropWhile (· = '0')).reverse
  if power < -4 ∨ count ≤ power then
    pointed keepPoint (digits.take 1) (kept (digits.drop 1)) ++ exponentText power
  else if power < 0 then
    pointed keepPoint ['0'] (kept (List.replicate (-power - 1).toNat '0' ++ digits))
  else pointed keepPoint (digits.take (power.toNat + 1)) (kept (digits.drop (power.toNat + 1)))

end SqlAst.Binary64
