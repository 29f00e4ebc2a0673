import SqlAst.Datum.Same

/-!
# Order of data

Texts are ordered by code points, numbers by value, days and times by date, lists and tuples by the first
items that differ. Data of other kinds, or of two kinds, have no order. `sorted?` puts data in order.
-/
namespace SqlAst

/-- Whether one number is less than another, by their exact values. -/
def Numeral.less : Numeral → Numeral → Bool
  | .exact i, .exact j => i < j
  | .double a, .double b => a.less b
  | .exact i, .double d =>
    if d.isFinite then decide (i * d.signedQuotient.2 < d.signedQuotient.1)
    else !d.isNaN && !d.isNegative
  | .double d, .exact i =>
    if d.isFinite then decide (d.signedQuotient.1 < i * d.signedQuotient.2)
    else !d.isNaN && d.isNegative

namespace Datum

/-- Whether one datum comes before another, for data that hold no others. -/
def leafPrecedes? (a b : Datum) : Option Bool :=
  match a, b with
  | .date a, .date b => some (decide (a.dayNumber < b.dayNumber))
  | .dateTime a, .dateTime b =>
    match a.offset, b.offset with
    | some x, some y => some (decide (a.clock - x < b.clock - y))
    | none, none => some (decide (a.clock < b.clock))
    | _, _ => none
  | a, b =>
    match a.asText?, b.asText?, a.numeral?, b.numeral? with
    | some s, some t, _, _ => some (Text.precedes s t)
    | _, _, some m, some n => some (m.less n)
    | _, _, _, _ => none

mutual

/-- Whether one datum comes before another, if the two have an order. -/
def precedes? : Datum → Datum → Option Bool
  | .list xs, .list ys => itemsPrecede? xs ys
  | .tuple xs, .tuple ys => itemsPrecede? xs ys
  | a, b => leafPrecedes? a b

def itemsPrecede? : List Datum → List Datum → Option Bool
  | [], ys => some (!ys.isEmpty)
  | _ :: _, [] => some false
  | x :: xs, y :: ys => if same x y then itemsPrecede? xs ys else precedes? x y

end

/-- Puts a datum behind those that it does not come before. -/
def insert? (d : Datum) : List Datum → Option (List Datum)
  | [] => some [d]
  | e :: rest => do if ← precedes? d e then some (d :: e :: rest) else (insert? d rest).map (e :: ·)

/-- Data in order, equal ones as they were, if they have an order. -/
def sorted? (items : List Datum) : Option (List Datum) := items.foldlM (fun done d => insert? d done) []

end Datum

end SqlAst
