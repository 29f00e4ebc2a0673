import SqlAst.Text.Half
import SqlAst.Text.Printable

/-!
# Quoted display of text

Text as it is shown inside messages: between single quotes, or between double quotes where it holds a
single quote and no double one, with backslash escapes for what does not print.
-/
namespace SqlAst.Text.Quoted

/-- The mark around a display. -/
def mark (cs : List Char) : Char :=
  if cs.contains '\'' && !cs.contains '"' then '"' else '\''

/-- A point by its number, in the shortest of the three hexadecimal forms. -/
def numbered (p : Point) : List Char :=
  let n := p.code
  if n < 0x100 then '\\' :: 'x' :: hexText 2 n
  else if n < 0x10000 then '\\' :: 'u' :: hexText 4 n
  else '\\' :: 'U' :: hexText 8 n

/-- One point inside a display with the given mark. -/
def escaped (m : Char) : Point → List Char
  | .char c =>
    if c = m ∨ c = '\\' then ['\\', c]
    else if c = '\n' then ['\\', 'n']
    else if c = '\r' then ['\\', 'r']
    else if c = '\t' then ['\\', 't']
    else if isPrintable c then [c]
    else numbered (.char c)
  | p => numbered p

/-- The display of a text. -/
def display (s : String) : String :=
  let m := mark s.toList
  String.ofList (m :: (points s.toList).flatMap (escaped m) ++ [m])

end SqlAst.Text.Quoted
