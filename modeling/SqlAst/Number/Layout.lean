import SqlAst.Text.Basic
import SqlAst.Number.Shortest

/-!
# Layouts of decimal numbers

How the digits of a double are set out: plainly with a point, or with one digit before the point and a
power of ten behind an `e`. A `Layout` holds the decisions; there are two, one for statements and
messages and one for JSON text.
-/
namespace SqlAst

/-- The decisions on setting out a number. -/
structure Layout where
  /-- Smaller powers of ten are written with an exponent. -/
  leastPlain : Int
  /-- Powers of ten from here on are written with an exponent. -/
  endPlain : Int
  /-- An exponent has at least so many digits. -/
  exponentDigits : Nat

namespace Layout

/-- Statements and messages: `0.0001`, `1e-05`, `1e+16`. -/
def statement : Layout := ⟨-4, 16, 2⟩

/-- JSON text: `0.00001`, `1e-6`, `1e+16`. -/
def json : Layout := ⟨-5, 16, 1⟩

/-- Digits without the zeros at their end. -/
def significantDigits (n : Nat) : List Char :=
  ((Nat.toDigits 10 n).reverse.dropWhile (· = '0')).reverse

/-- Sets out a positive number whose digits begin at the power of ten `power`. -/
def arrange (l : Layout) (digits : List Char) (power : Int) : List Char :=
  if l.leastPlain ≤ power ∧ power < l.endPlain then
    if power < 0 then '0' :: '.' :: List.replicate (-power - 1).toNat '0' ++ digits
    else
      let whole := power.toNat + 1
      digits.take whole ++ List.replicate (whole - digits.length) '0' ++ '.' ::
        (if digits.length ≤ whole then ['0'] else digits.drop whole)
  else
    let tail := if digits.length ≤ 1 then [] else '.' :: digits.drop 1
    digits.take 1 ++ tail ++ 'e' :: (if power < 0 then '-' else '+') ::
      Text.natText l.exponentDigits power.natAbs

/-- The magnitude of a finite double. -/
def magnitudeText (l : Layout) (d : Binary64) : List Char :=
  if d.isNonzero then
    let s := d.shortest
    let all := Nat.toDigits 10 s.digits
    l.arrange (significantDigits s.digits) (s.exponent + all.length - 1)
  else ['0', '.', '0']

/-- A finite double. -/
def finiteText (l : Layout) (d : Binary64) : List Char :=
  if d.isNegative then '-' :: l.magnitudeText d else l.magnitudeText d

end Layout

/-- A double in statements and messages. -/
def Binary64.text (d : Binary64) : String :=
  if d.isFinite then String.ofList (Layout.statement.finiteText d)
  else if d.isNaN then "nan"
  else if d.isNegative then "-inf" else "inf"

end SqlAst
