import SqlAst.Json.Basic

/-!
# Equality of JSON values by what they denote

Numbers are compared by value across their kinds, with `true` as 1 and `false` as 0; the order of an
object's entries does not matter.
-/
namespace SqlAst

/-- A number of one of three kinds. -/
inductive Numeral where
  | exact (value : Int)
  | double (value : Binary64)

namespace Numeral

/-- Equality of numbers. -/
def same : Numeral → Numeral → Bool
  | .exact i, .exact j => i = j
  | .exact i, .double d => d.toInt? = some i
  | .double d, .exact i => d.toInt? = some i
  | .double a, .double b => a.sameValue b

def ofBool (b : Bool) : Numeral := .exact (if b then 1 else 0)

end Numeral

namespace Json

/-- The number that a value is. -/
def numeral? : Json → Option Numeral
  | .bool b => some (.ofBool b)
  | .int i => some (.exact i)
  | .float d => some (.double d)
  | _ => none

mutual

/-- Equality by denotation. -/
def same : Json → Json → Bool
  | .null, .null => true
  | .text s, .text t => s = t
  | .list xs, .list ys => sameItems xs ys
  | .object xs, .object ys => xs.length = ys.length && sameEntries xs ys
  | a, b =>
    match a.numeral?, b.numeral? with
    | some m, some n => m.same n
    | _, _ => false

def sameItems : List Json → List Json → Bool
  | [], [] => true
  | x :: xs, y :: ys => same x y && sameItems xs ys
  | _, _ => false

/-- Whether each of some entries has a counterpart. -/
def sameEntries : List (String × Json) → List (String × Json) → Bool
  | [], _ => true
  | (k, x) :: rest, ys =>
    (match ys.lookup k with
      | some y => same x y
      | none => false) && sameEntries rest ys

end

end Json

end SqlAst
