import SqlAst.Json.Basic
import SqlAst.Number.Layout
import SqlAst.Text.Half

/-!
# Writing JSON

A `Style` says how a value is set out. `compact` is the form of stored statements: no blanks, and
characters beyond ASCII as they are. `spaced` is the form of log lines: a blank behind commas and colons,
and all but printable ASCII escaped.
-/
namespace SqlAst.Json

/-- The decisions on setting out a value. -/
structure Style where
  itemMark : String
  entryMark : String
  layout : Layout
  /-- Only printable ASCII is written raw. -/
  plain : Bool

def compact : Style := ⟨",", ":", .json, false⟩

def spaced : Style := ⟨", ", ": ", .statement, true⟩

/-- `\uXXXX`. -/
def unitEscape (unit : Nat) : List Char := '\\' :: 'u' :: Text.hexText 4 unit

/-- A point by number, beyond the basic plane as a pair of surrogates. -/
def numberedEscape (p : Text.Point) : List Char :=
  let n := p.code
  if n < 0x10000 then unitEscape n
  else unitEscape (0xd800 + (n - 0x10000) / 0x400) ++ unitEscape (0xdc00 + (n - 0x10000) % 0x400)

/-- The letter or mark that stands for a character behind a backslash. -/
def shortEscape? (c : Char) : Option Char :=
  if c = '"' ∨ c = '\\' then some c
  else if c = '\n' then some 'n'
  else if c = '\r' then some 'r'
  else if c = '\t' then some 't'
  else if c.toNat = 8 then some 'b'
  else if c.toNat = 12 then some 'f'
  else none

/-- One character inside quotation marks. -/
def escaped (c : Char) : List Char :=
  match shortEscape? c with
  | some letter => ['\\', letter]
  | none => if c.toNat < 0x20 then numberedEscape (.char c) else [c]

/-- One point inside quotation marks, where only printable ASCII is written raw. -/
def escapedPoint : Text.Point → List Char
  | .char c =>
    match shortEscape? c with
    | some letter => ['\\', letter]
    | none => if 0x20 ≤ c.toNat ∧ c.toNat < 0x7f then [c] else numberedEscape (.char c)
  | p => numberedEscape p

/-- A text between quotation marks. -/
def quoted (plain : Bool) (s : String) : List Char :=
  let inside := if plain then (Text.points s.toList).flatMap escapedPoint else s.toList.flatMap escaped
  '"' :: inside ++ ['"']

/-- A double; the words for infinities and NaN go beyond JSON. -/
def floatChars (l : Layout) (d : Binary64) : List Char :=
  if d.isFinite then l.finiteText d
  else if d.isNaN then "NaN".toList
  else if d.isNegative then "-Infinity".toList else "Infinity".toList

mutual

/-- The text of a value. -/
def chars (s : Style) : Json → List Char
  | .null => "null".toList
  | .bool true => "true".toList
  | .bool false => "false".toList
  | .int i => Text.intText i
  | .float d => floatChars s.layout d
  | .text t => quoted s.plain t
  | .list items => '[' :: s.itemMark.toList.intercalate (itemTexts s items) ++ [']']
  | .object entries => '\x7b' :: s.itemMark.toList.intercalate (entryTexts s entries) ++ ['\x7d']

def itemTexts (s : Style) : List Json → List (List Char)
  | [] => []
  | j :: rest => chars s j :: itemTexts s rest

def entryTexts (s : Style) : List (String × Json) → List (List Char)
  | [] => []
  | (k, j) :: rest => (quoted s.plain k ++ s.entryMark.toList ++ chars s j) :: entryTexts s rest

end

/-- The text of a value. -/
def write (s : Style) (j : Json) : String := String.ofList (chars s j)

end SqlAst.Json
