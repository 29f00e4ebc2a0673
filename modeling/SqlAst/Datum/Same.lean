import SqlAst.Datum.Basic
import SqlAst.Json.Same
import SqlAst.Statement.Stored

/-!
# Equality of data

Data are equal if they denote the same: numbers across their kinds, texts and members of vocabularies,
lists item by item, dictionaries regardless of order. Objects of the library are equal if their types and
stored forms are.
-/
namespace SqlAst

namespace DateTime

/-- Microseconds since the first midnight of the calendar. -/
def clock (t : DateTime) : Int :=
  ((((t.date.dayNumber * 24 + t.hour) * 60 + t.minute) * 60 + t.second) * 1000000 + t.microsecond : Nat)

/-- Two times with known offsets are equal as instants, two without as readings of a clock. -/
def same (a b : DateTime) : Bool :=
  match a.offset, b.offset with
  | some x, some y => a.clock - x = b.clock - y
  | none, none => a.clock = b.clock
  | _, _ => false

end DateTime

namespace Datum

/-- The stored form of an object of the library. -/
def stored? : Datum → Option Json
  | .node n => some n.toJson
  | .field f => some f.toJson
  | .order o => some o.toJson
  | .part u => some u.toJson
  | _ => none

def numeral? : Datum → Option Numeral
  | .bool b => some (.ofBool b)
  | .int i => some (.exact i)
  | .float d => some (.double d)
  | _ => none

/-- Equality of data that hold no others. -/
def sameLeaf (a b : Datum) : Bool :=
  match a, b with
  | .null, .null => true
  | .date a, .date b => a = b
  | .dateTime a, .dateTime b => a.same b
  | .flavor a, .flavor b => a = b
  | .settings a, .settings b => a = b
  | a, b =>
    match a.asText?, b.asText?, a.numeral?, b.numeral?, a.stored?, b.stored? with
    | some s, some t, _, _, _, _ => s = t
    | _, _, some m, some n, _, _ => m.same n
    | _, _, _, _, some x, some y => a.typeName = b.typeName && x.same y
    | _, _, _, _, _, _ => false

mutual

/-- Equality by denotation. -/
def same : Datum → Datum → Bool
  | .list xs, .list ys => sameItems xs ys
  | .tuple xs, .tuple ys => sameItems xs ys
  | .dict xs, .dict ys => xs.length = ys.length && sameEntries xs ys
  | a, b => sameLeaf a b

def sameItems : List Datum → List Datum → Bool
  | [], [] => true
  | x :: xs, y :: ys => same x y && sameItems xs ys
  | _, _ => false

def sameEntries : List (Datum × Datum) → List (Datum × Datum) → Bool
  | [], _ => true
  | (k, v) :: rest, ys => hasEntry k v ys && sameEntries rest ys

/-- Whether some entry has a key and a value equal to the given ones. -/
def hasEntry (key value : Datum) : List (Datum × Datum) → Bool
  | [] => false
  | (k, v) :: rest => (same key k && same value v) || hasEntry key value rest

end

instance : BEq Datum := ⟨same⟩

mutual

/-- Whether a datum may be a key: it holds nothing that can change. -/
def isKey : Datum → Bool
  | .list _ | .dict _ | .settings _ => false
  | .tuple items => allKeys items
  | .node (.update _) => false
  | .node (.insert i) => i.rows.isEmpty
  | _ => true

def allKeys : List Datum → Bool
  | [] => true
  | d :: rest => isKey d && allKeys rest

end

end Datum

end SqlAst
