import SqlAst.Datum.Same
import SqlAst.Datum.Display
import SqlAst.Log.Template
import SqlAst.Number.Places

/-!
# Messages with arguments

How an argument is written in a slot of a template, and how all slots of a template are filled. A slot
that no argument fits leaves no message; so does an argument that no slot takes, but for a collection. An
integer of too many digits fits no slot in which it would stand in decimal.
-/
namespace SqlAst.Log

/-! ## Shapes -/

/-- What a slot asks for, with its width and its precision known. -/
structure Shape where
  left : Bool
  plus : Bool
  space : Bool
  /-- Marks the base of a whole number, and keeps the point and the zeros of any other. -/
  alternate : Bool
  zeros : Bool
  width : Nat
  precision : Option Nat

/-- A written argument: its sign and the mark of its base, and its body. -/
structure Written where
  front : List Char := []
  body : List Char
  /-- Zeros may stand between the two. -/
  numeric : Bool := false

namespace Shape

/-- Pads to the width, on the left but for the flag. -/
def padded (f : Shape) (w : Written) : List Char :=
  let missing := f.width - (w.front.length + (Text.points w.body).length)
  if f.left then w.front ++ w.body ++ List.replicate missing ' '
  else if f.zeros && w.numeric then w.front ++ List.replicate missing '0' ++ w.body
  else List.replicate missing ' ' ++ w.front ++ w.body

/-- The sign of a number. -/
def sign (f : Shape) (negative : Bool) : List Char :=
  if negative then ['-'] else if f.plus then ['+'] else if f.space then [' '] else []

/-- A text, cut to the precision. -/
def text (f : Shape) (s : String) : Written where
  body := match f.precision with
    | none => s.toList
    | some n => Text.hold ((Text.points s.toList).take n)

/-- A whole number in a base, with as many digits as the precision asks for. -/
def whole (f : Shape) (base : Nat) (mark : List Char) (n : Int) : Written :=
  { front := f.sign (decide (n < 0)) ++ if f.alternate then mark else []
    body := Text.zeroPadded (f.precision.getD 0) (Nat.toDigits base n.natAbs)
    numeric := true }

/-- A double: `e` with an exponent, `f` with places, `g` with significant digits, six unless told. -/
def double (f : Shape) (conversion : Char) (d : Binary64) : Written :=
  let count := f.precision.getD 6
  let body :=
    if d.isNaN then "nan".toList
    else if !d.isFinite then "inf".toList
    else if conversion = 'e' then d.scientificText count f.alternate
    else if conversion = 'f' then d.fixedText count f.alternate
    else d.generalText count f.alternate
  { front := f.sign (d.isNegative && !d.isNaN), body, numeric := true }

end Shape

/-- With capital letters. -/
def Written.capital (w : Written) : Written :=
  { w with front := w.front.map Char.toUpper, body := w.body.map Char.toUpper }

/-! ## Arguments -/

namespace Argument

/-- The integer that an argument is. -/
def integer? : Datum → Option Int
  | .int n => some n
  | .bool b => some b.toInt
  | _ => none

/-- The integer that is left of a number without its fraction. -/
def truncated? : Datum → Option Int
  | .float d => d.truncated?
  | d => integer? d

/-- The double nearest to a number, unless the number is out of reach. -/
def double? : Datum → Option Binary64
  | .float d => some d
  | d =>
    match (integer? d).map fun n => Binary64.nearest (decide (n < 0)) n.natAbs 0 with
    | some d => if d.isFinite then some d else none
    | none => none

/-- The point that an argument is or whose number it is. -/
def point? (d : Datum) : Option Text.Point :=
  match integer? d, d.asText?.map fun s => Text.points s.toList with
  | some n, _ =>
    if h : 0 ≤ n ∧ n.toNat.isValidChar then some (.char (Char.ofNatAux n.toNat h.2))
    else if h : Text.isHalfCode n.toNat = true then some (.half n.toNat h)
    else none
  | none, some [p] => some p
  | none, _ => none

/-- A text with escapes for the characters that are not ASCII. -/
def escaped (s : String) : String :=
  String.ofList ((Text.points s.toList).flatMap fun p =>
    if p.code < 0x80 then p.held else Text.Quoted.numbered p)

/-- An argument written in a shape by a conversion, if there is such a conversion of it. -/
def written? (f : Shape) (conversion : Char) (d : Datum) : Option Written :=
  match conversion with
  | 's' => if d.isWritable then some (f.text d.phrase) else none
  | 'r' => if d.isWritable then some (f.text d.display) else none
  | 'a' => if d.isWritable then some (f.text (escaped d.display)) else none
  | 'c' => (point? d).map fun p => { body := p.held }
  | 'd' | 'i' | 'u' => ((truncated? d).filter Text.isWritable).map (f.whole 10 [])
  | 'o' => (integer? d).map (f.whole 8 ['0', 'o'])
  | 'x' => (integer? d).map (f.whole 16 ['0', 'x'])
  | 'X' => (integer? d).map fun n => (f.whole 16 ['0', 'x'] n).capital
  | 'e' | 'f' | 'g' => (double? d).map (f.double conversion)
  | 'E' | 'F' | 'G' => (double? d).map fun x => (f.double conversion.toLower x).capital
  | _ => none

end Argument

/-! ## Filling the slots -/

/-- The greatest width or precision. -/
def measureLimit : Nat := Nat.pow 2 31 - 1

/-- The arguments that are left to take. -/
inductive Supply where
  | several (left : List Datum)
  | one (d : Datum)
  | spent

namespace Supply

/-- Takes an argument. -/
def next? : Supply → Option (Datum × Supply)
  | .several (d :: rest) => some (d, .several rest)
  | .one d => some (d, .spent)
  | .several [] | .spent => none

def isSpent : Supply → Bool
  | .several left => left.isEmpty
  | .one _ => false
  | .spent => true

/-- What there is to take at first: the items of a tuple, or else the one argument. -/
def ofArguments : Datum → Supply
  | .tuple items => .several items
  | d => .one d

/-- The value of a measure, which may be an argument. -/
def measured? (supply : Supply) (measure : Option Measure) : Option (Option Int × Supply) := do
  match measure with
  | none => some (none, supply)
  | some (.number n) => if n ≤ measureLimit then some (some n, supply) else none
  | some .argument =>
    let (d, supply) ← supply.next?
    let n ← Argument.integer? d
    if n.natAbs ≤ measureLimit then some (some n, supply) else none

end Supply

/-- The value that the arguments have under a key. -/
def valueUnder? (key : String) : Datum → Option Datum
  | .dict entries => Datum.valueAt? key entries
  | _ => none

/-- Whether arguments may be left over: those that could be looked up. -/
def mayRemain : Datum → Bool
  | .dict _ | .list _ => true
  | _ => false

/-- Fills one slot; a key makes what is found under it the only argument. -/
def Slot.fill? (arguments : Datum) (slot : Slot) (supply : Supply) : Option (List Char × Supply) := do
  let supply ← match slot.key with
    | none => some supply
    | some key => (valueUnder? key arguments).map .one
  let (width, supply) ← supply.measured? slot.width
  let (precision, supply) ← supply.measured? slot.precision
  let (d, supply) ← supply.next?
  let shape : Shape :=
    { left := slot.flags.contains '-' || (width.getD 0) < 0
      plus := slot.flags.contains '+'
      space := slot.flags.contains ' '
      alternate := slot.flags.contains '#'
      zeros := slot.flags.contains '0'
      width := (width.getD 0).natAbs
      precision := precision.map Int.toNat }
  let written ← Argument.written? shape slot.conversion d
  pure (shape.padded written, supply)

/-- Fills the slots from first to last. -/
def filled? (arguments : Datum) : List Piece → Supply → Option (List Char)
  | [], supply => if supply.isSpent ∨ mayRemain arguments then some [] else none
  | .char c :: rest, supply => (filled? arguments rest supply).map (c :: ·)
  | .slot slot :: rest, supply => do
    let (text, supply) ← slot.fill? arguments supply
    pure (text ++ (← filled? arguments rest supply))

/-- A template filled with arguments: those of a tuple, or a single one. -/
def message? (template : String) (arguments : Datum) : Option String := do
  let pieces ← Template.pieces? template.toList
  pure (String.ofList (← filled? arguments pieces (.ofArguments arguments)))

end SqlAst.Log
