import SqlAst.Number.Layout
import SqlAst.Scalar
import SqlAst.Text.Half

/-!
# Flavors

A flavor is a dialect's spelling of names and literals. A name is written part by part between quotation
marks, which are doubled inside; `*` stays bare, and what looks like an expression is written as it is.
-/
namespace SqlAst

/-- A dialect. The two that are registered from the start are `mysql`, which is `MySQLFlavor`, and `timestream`,
which is `AWSTimestreamFlavor`. -/
structure Flavor where
  /-- The name of the flavor's type, for display. -/
  typeName : String
  /-- The name it is registered under. -/
  name : String
  /-- The mark around names. -/
  quote : String
  /-- A backslash inside a text literal is doubled. -/
  doublesBackslash : Bool
  trueWord : String
  falseWord : String
  /-- Tells flavors apart that were made apart. -/
  serial : Nat := 0
  deriving DecidableEq

namespace Flavor

def mysql : Flavor := ⟨"MySQLFlavor", "mysql", "\x60", true, "TRUE", "FALSE", 0⟩

def timestream : Flavor := ⟨"AWSTimestreamFlavor", "aws_timestream", "\"", false, "true", "false", 0⟩

/-- A flavor with standard literals. -/
def custom (name quote : String) (serial : Nat) : Flavor :=
  ⟨"CustomFlavor", name, quote, false, "TRUE", "FALSE", serial⟩

/-- The display of a flavor as a value. -/
def display (f : Flavor) : String := f.typeName ++ "()"

/-! ## Names -/

/-- Whether a text is written as it is: it holds a parenthesis, starts with an apostrophe, or already
stands between quotation marks, the two of which are not one and the same: `is_expression`. -/
def isExpression (f : Flavor) (name : String) : Bool :=
  let cs := name.toList
  let q := f.quote.toList
  cs.any (fun c => c = '(' || c = ')') || cs.head? = some '\'' ||
    (2 ≤ (Text.points cs).length && q.isPrefixOf cs && q.isSuffixOf cs)

/-- One part of a name between quotation marks: `quote_identifier`. -/
def quotePart (f : Flavor) (part : List Char) : List Char :=
  f.quote.toList ++ Text.doubled f.quote.toList part ++ f.quote.toList

/-- A part of a dotted name. -/
def escapePart (f : Flavor) (part : List Char) : List Char :=
  if part = ['*'] then part else f.quotePart part

/-- A name of a column, table or alias as it is written: `escape_column` and `escape_table`, which are
`_escape_dotted` in every flavor. -/
def escapeName (f : Flavor) (name : String) : String :=
  if name = "*" ∨ f.isExpression name then name
  else String.ofList (['.'].intercalate ((Text.splitOn '.' name.toList).map f.escapePart))

/-! ## Literals -/

/-- A text literal, `quote_string`: apostrophes are doubled, and backslashes if the flavor says so. -/
def quoteText (f : Flavor) (s : String) : String :=
  let cs := s.toList
  let cs := if f.doublesBackslash then Text.doubled ['\\'] cs else cs
  String.ofList ('\'' :: Text.doubled ['\''] cs ++ ['\''])

/-- The word for a truth value: `format_bool`. -/
def boolWord (f : Flavor) (b : Bool) : String := if b then f.trueWord else f.falseWord

/-- A literal value as it is written: the text that `escape_value` gives of a value that is checked. An integer
is written only if it is short enough, which is for the callers to see to: `Text.isWritable`. -/
def literal (f : Flavor) : Scalar → String
  | .null => "NULL"
  | .bool b => f.boolWord b
  | .int i => String.ofList (Text.intText i)
  | .float d => d.1.text
  | .text s => f.quoteText s

/-- Literals with commas between them: `format_value_list` of values that are checked. -/
def literals (f : Flavor) (values : List Scalar) : String := ", ".intercalate (values.map f.literal)

end Flavor

end SqlAst
