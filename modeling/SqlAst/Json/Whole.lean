import SqlAst.Json.Basic
import SqlAst.Text.Half

/-!
# JSON values without halves of surrogate pairs

What is stored as text has to be made of characters. A value with half of a pair in one of its texts has no
such text; in the names of entries a half is replaced.
-/
namespace SqlAst.Json

mutual

/-- Whether the texts in a value, names apart, consist of characters only. -/
def isWhole : Json → Bool
  | .text s => Text.isWhole s
  | .list items => wholeItems items
  | .object entries => wholeValues entries
  | _ => true

def wholeItems : List Json → Bool
  | [] => true
  | j :: rest => isWhole j && wholeItems rest

def wholeValues : List (String × Json) → Bool
  | [] => true
  | (_, j) :: rest => isWhole j && wholeValues rest

end

mutual

/-- A value with replacements for the halves in names. -/
def withWholeNames : Json → Json
  | .list items => .list (withWholeNamesItems items)
  | .object entries => .object (withWholeNamesEntries entries)
  | j => j

def withWholeNamesItems : List Json → List Json
  | [] => []
  | j :: rest => withWholeNames j :: withWholeNamesItems rest

def withWholeNamesEntries : List (String × Json) → List (String × Json)
  | [] => []
  | (k, j) :: rest => (Text.replaced k, withWholeNames j) :: withWholeNamesEntries rest

end

end SqlAst.Json
