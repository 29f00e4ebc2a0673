import SqlAst.Number.Binary64

/-!
# The fewest digits that read back

`shortest d` is the decimal number with the fewest digits whose nearest double is `d`; of two with as
few digits it is the one nearer to `d`, and in a tie the one with the even last digit. It is found by
trying the two neighbours of `d` on the decimal grids with one, two, … seventeen digits, and the
candidate is accepted only when `Binary64.nearest` gives `d` back.
-/
namespace SqlAst.Binary64

/-- A decimal number `digits * 10 ^ exponent`. -/
structure Decimal where
  digits : Nat
  exponent : Int
  deriving DecidableEq

/-- Whether `10 ^ e ≤ num / den`. -/
def reachesPower (num den : Nat) (e : Int) : Bool :=
  den * Nat.pow 10 e.toNat ≤ num * Nat.pow 10 (-e).toNat

/-- The exponent of the largest power of ten that a positive quotient reaches, from an estimate that is
off by one at most. -/
def floorLog10 (num den : Nat) : Int :=
  let e := floorLog2 num den * 30103 / 100000
  if !reachesPower num den e then e - 1 else if reachesPower num den (e + 1) then e + 1 else e

/-- The candidate with `n` digits, if one reads back: the neighbour below, above, or the nearer. -/
def candidate? (d : Binary64) (n : Nat) : Option Decimal :=
  let (num, den) := d.quotient
  let x := floorLog10 num den - (n - 1 : Nat)
  let top := num * Nat.pow 10 (-x).toNat
  let unit := den * Nat.pow 10 x.toNat
  let below : Decimal := ⟨top / unit, x⟩
  let above : Decimal := ⟨top / unit + 1, x⟩
  let reads (c : Decimal) : Bool := nearest d.isNegative c.digits c.exponent == d
  match reads below, reads above with
  | true, true => some (if roundQuotient top unit = top / unit then below else above)
  | true, false => some below
  | false, true => some above
  | false, false => none

/-- The exact value of a double in decimal. -/
def exact (d : Binary64) : Decimal :=
  if 0 ≤ d.scale then ⟨d.significand * Nat.pow 2 d.scale.toNat, 0⟩
  else ⟨d.significand * Nat.pow 5 (-d.scale).toNat, d.scale⟩

/-- The decimal number with the fewest digits that reads back as a nonzero finite double. -/
def shortest (d : Binary64) : Decimal :=
  ((List.range 17).findSome? fun n => d.candidate? (n + 1)).getD d.exact

end SqlAst.Binary64
