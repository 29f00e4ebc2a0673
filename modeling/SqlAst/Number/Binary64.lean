/-!
# Double-precision numbers

A double is its 64 bits. Its magnitude is `significand * 2 ^ scale`, read off the bits in exact
arithmetic, and `nearest` gives the double that a decimal number rounds to (ties to the even
significand), so that reading, printing and comparing doubles need no machine arithmetic.

Powers are written with `Nat.pow`, since `^` is elaborated to another instance once Mathlib is imported.
-/
namespace SqlAst

/-- A double by its bits. -/
structure Binary64 where
  bits : UInt64
  deriving DecidableEq, Inhabited

namespace Binary64

/-- The sign bit. -/
def isNegative (d : Binary64) : Bool := Nat.pow 2 63 ≤ d.bits.toNat

/-- The eleven exponent bits. -/
def exponentField (d : Binary64) : Nat := d.bits.toNat / Nat.pow 2 52 % Nat.pow 2 11

/-- The fifty-two fraction bits. -/
def fraction (d : Binary64) : Nat := d.bits.toNat % Nat.pow 2 52

/-- Neither an infinity nor a NaN. -/
def isFinite (d : Binary64) : Bool := d.exponentField != 2047

/-- Not a number. -/
def isNaN (d : Binary64) : Bool := d.exponentField == 2047 && d.fraction != 0

/-- The integer part of the magnitude, before scaling. -/
def significand (d : Binary64) : Nat :=
  if d.exponentField = 0 then d.fraction else Nat.pow 2 52 + d.fraction

/-- The power of two that scales the significand. -/
def scale (d : Binary64) : Int := (max d.exponentField 1 : Nat) - 1075

/-- The magnitude as a quotient of natural numbers. -/
def quotient (d : Binary64) : Nat × Nat :=
  (d.significand * Nat.pow 2 d.scale.toNat, Nat.pow 2 (-d.scale).toNat)

/-- The value as a quotient of an integer and a natural number. -/
def signedQuotient (d : Binary64) : Int × Nat :=
  let (num, den) := d.quotient
  (if d.isNegative then -(num : Int) else num, den)

/-- The double with a sign and the bits of a magnitude. -/
def ofMagnitude (negative : Bool) (magnitude : Nat) : Binary64 :=
  ⟨UInt64.ofNat (magnitude + if negative then Nat.pow 2 63 else 0)⟩

/-- The bits of an infinite magnitude. -/
def infiniteMagnitude : Nat := 2047 * Nat.pow 2 52

def infinity (negative : Bool) : Binary64 := ofMagnitude negative infiniteMagnitude

def nan : Binary64 := ofMagnitude false (infiniteMagnitude + Nat.pow 2 51)

def zero (negative : Bool) : Binary64 := ofMagnitude negative 0

/-- A quotient rounded to the nearest integer, a half to the even one. -/
def roundQuotient (num den : Nat) : Nat :=
  let q := num / den
  let r := num % den
  if 2 * r < den ∨ (2 * r = den ∧ q % 2 = 0) then q else q + 1

/-- The exponent of the largest power of two that a positive quotient reaches. -/
def floorLog2 (num den : Nat) : Int :=
  let e : Int := (num.log2 : Int) - den.log2
  if den * Nat.pow 2 e.toNat ≤ num * Nat.pow 2 (-e).toNat then e else e - 1

/-- The magnitude bits nearest to a positive quotient. -/
def magnitudeBits (num den : Nat) : Nat :=
  let q := max (floorLog2 num den - 52) (-1074)
  let m := roundQuotient (num * Nat.pow 2 (-q).toNat) (den * Nat.pow 2 q.toNat)
  min ((q + 1074).toNat * Nat.pow 2 52 + m) infiniteMagnitude

/-- The double nearest to `digits * 10 ^ exponent`, with a sign. Magnitudes far outside the range of
doubles are recognised by their number of digits. -/
def nearest (negative : Bool) (digits : Nat) (exponent : Int) : Binary64 :=
  let reach : Int := (Nat.toDigits 10 digits).length + exponent
  if digits = 0 ∨ reach < -330 then zero negative
  else if 310 < reach then infinity negative
  else
    ofMagnitude negative
      (magnitudeBits (digits * Nat.pow 10 exponent.toNat) (Nat.pow 10 (-exponent).toNat))

/-- The integer that a double is, if it is one. -/
def toInt? (d : Binary64) : Option Int :=
  let (num, den) := d.signedQuotient
  if d.isFinite ∧ num % den = 0 then some (num / den) else none

/-- The integer that is left of a finite double without its fraction. -/
def truncated? (d : Binary64) : Option Int :=
  let (num, den) := d.signedQuotient
  if d.isFinite then some (num.tdiv den) else none

/-- Numerical equality of two doubles: both zeros are equal, a NaN equals nothing. -/
def sameValue (a b : Binary64) : Bool :=
  !a.isNaN && (a == b || (a.bits.toNat % Nat.pow 2 63 == 0 && b.bits.toNat % Nat.pow 2 63 == 0))

/-- The bits of the magnitude with the sign: doubles that are numbers are in the order of these. -/
def orderKey (d : Binary64) : Int :=
  let magnitude : Int := (d.bits.toNat % Nat.pow 2 63 : Nat)
  if d.isNegative then -magnitude else magnitude

/-- Whether one double is less than another; a NaN is neither less nor greater. -/
def less (a b : Binary64) : Bool := !a.isNaN && !b.isNaN && decide (a.orderKey < b.orderKey)

/-- Different from both zeros. -/
def isNonzero (d : Binary64) : Bool := d.bits.toNat % Nat.pow 2 63 != 0

end Binary64

/-- A finite double: the kind that a statement may hold. -/
abbrev FiniteBinary64 := { d : Binary64 // d.isFinite = true }

end SqlAst
