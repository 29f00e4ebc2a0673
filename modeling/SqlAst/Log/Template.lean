import SqlAst.Text.Basic

/-!
# Message templates

A message may hold slots for its arguments: a percent sign, then perhaps a key in round brackets, flags, a
width and a precision, then the letter of a conversion. `Template.pieces?` cuts a template into
characters and slots; a percent sign written twice is a character.
-/
namespace SqlAst.Log

/-- A width or a precision. -/
inductive Measure where
  | number (n : Nat)
  /-- It is an argument of its own. -/
  | argument

structure Slot where
  /-- The argument is looked up by this key. -/
  key : Option String
  flags : List Char
  width : Option Measure
  precision : Option Measure
  conversion : Char

inductive Piece where
  | char (c : Char)
  | slot (s : Slot)

namespace Template

/-- Reads up to the bracket that closes: the text before it and what follows. `depth` counts the brackets
opened inside. -/
def closed? : Nat → List Char → Option (List Char × List Char)
  | _, [] => none
  | 0, ')' :: r => some ([], r)
  | depth + 1, ')' :: r => (closed? depth r).map fun x => (')' :: x.1, x.2)
  | depth, c :: r => (closed? (if c = '(' then depth + 1 else depth) r).map fun x => (c :: x.1, x.2)

/-- Reads a key, if there is one; it has to be closed. -/
def key? : List Char → Option (Option String × List Char)
  | '(' :: r => (closed? 0 r).map fun x => (some (String.ofList x.1), x.2)
  | cs => some (none, cs)

def isFlag (c : Char) : Bool := c = '-' || c = '+' || c = ' ' || c = '#' || c = '0'

/-- Reads a width, if there is one. -/
def measure (cs : List Char) : Option Measure × List Char :=
  match cs with
  | '*' :: r => (some .argument, r)
  | cs =>
    let digits := cs.takeWhile Text.isDecimalDigit
    (if digits = [] then none else some (.number (Nat.ofDigitChars 10 digits 0)), cs.drop digits.length)

/-- Reads a precision, if there is one; without a number it is zero. -/
def precision (cs : List Char) : Option Measure × List Char :=
  match cs with
  | '.' :: r => (some ((measure r).1.getD (.number 0)), (measure r).2)
  | cs => (none, cs)

/-- What follows a letter that tells the size of a number; it has no meaning. -/
def skipSize : List Char → List Char
  | c :: r => if c = 'h' ∨ c = 'l' ∨ c = 'L' then r else c :: r
  | [] => []

/-- Reads a slot from behind its percent sign: the slot and its length. -/
def slot? (cs : List Char) : Option (Slot × Nat) := do
  let (key, afterKey) ← key? cs
  let flags := afterKey.takeWhile isFlag
  let (width, afterWidth) := measure (afterKey.drop flags.length)
  let (precision, afterPrecision) := precision afterWidth
  match skipSize afterPrecision with
  | conversion :: rest => some (⟨key, flags, width, precision, conversion⟩, cs.length - rest.length)
  | [] => none

/-- The pieces of a template. -/
def pieces? (cs : List Char) : Option (List Piece) :=
  match cs with
  | [] => some []
  | '%' :: '%' :: r => (pieces? r).map (.char '%' :: ·)
  | '%' :: r => do
    let (slot, length) ← slot? r
    pure (.slot slot :: (← pieces? (r.drop length)))
  | c :: r => (pieces? r).map (.char c :: ·)
  termination_by cs.length
  decreasing_by all_goals (simp only [List.length_cons, List.length_drop]; omega)

end Template

end SqlAst.Log
