import SqlAst.Check.Node
import SqlAst.Json.Reader
import SqlAst.Statement.Tables

/-!
# Faults

A `Fault` says why a call of the library failed, by cause; its code, message and details are read off it.
A `Failure` is whatever ends a call: a fault, a bare report of issues, a call that makes no sense for its
arguments, or an error that was made before.
-/
namespace SqlAst

/-- The issues of a rejected value. -/
structure Report where
  /-- The name of the type that was expected. -/
  title : String
  issues : List Issue

/-- `2 validation errors for Table`. -/
def Report.summary (r : Report) : String :=
  String.ofList (Nat.toDigits 10 r.issues.length) ++
    (if r.issues.length = 1 then " validation error for " else " validation errors for ") ++ r.title

/-- A call that makes no sense for its arguments. -/
inductive Misuse where
  | wrongType
  | wrongValue
  | noAttribute
  /-- The operating system refuses it. -/
  | system
  /-- A node with a text that cannot be stored. -/
  | unwritable
  deriving DecidableEq

/-- The name of the type of error that a misuse is. -/
def Misuse.typeName : Misuse → String
  | .wrongType => "TypeError"
  | .wrongValue => "ValueError"
  | .noAttribute => "AttributeError"
  | .system => "OSError"
  | .unwritable => "PydanticSerializationError"

inductive Fault where
  | config (report : Report)
  | flavorNotFound (name : Datum) (available : List String)
  | notAFlavor (typeName : String)
  | nonFiniteLiteral (value : Binary64)
  | unsupportedLiteral (value : Datum)
  | notADay (value : Datum)
  /-- The arguments are rejected. -/
  | invalid (report : Report)
  | refused (refusal : Refusal)
  /-- A tag that stands for no type, with the report that showed it, if there is one. -/
  | unknownTag (tag : Datum) (report : Option Report)
  /-- A payload that is rejected; `text` is what it was read from, if it was. -/
  | rejectedPayload (report : Report) (text : Datum)
  | malformedJson (reason : Json.Reason) (place : Json.Place) (text : String)
  | notJsonText (typeName : String)
  | notObject (typeName : String)

/-- The kind of error behind a fault. -/
inductive Cause where
  | issues (report : Report)
  | json
  | misuse (kind : Misuse)

def Cause.typeName : Cause → String
  | .issues _ => "ValidationError"
  | .json => "JSONDecodeError"
  | .misuse kind => kind.typeName

namespace Fault

def code : Fault → FaultCode
  | .config _ => .config
  | .flavorNotFound _ _ => .flavorNotFound
  | .notAFlavor _ | .nonFiniteLiteral _ | .unsupportedLiteral _ | .notADay _ | .invalid _ => .validation
  | .refused (.noTable _) => .noTable
  | .refused _ => .validation
  | .unknownTag _ _ => .unknownType
  | .rejectedPayload _ _ | .malformedJson _ _ _ | .notJsonText _ | .notObject _ => .parse

def cause? : Fault → Option Cause
  | .config report | .invalid report | .rejectedPayload report _ => some (.issues report)
  | .unknownTag _ report => report.map .issues
  | .notADay value => some (.misuse (if value.asText?.isSome then .wrongValue else .wrongType))
  | .malformedJson _ _ _ => some .json
  | .notJsonText _ | .notObject _ => some (.misuse .wrongType)
  | .flavorNotFound _ _ | .notAFlavor _ | .nonFiniteLiteral _ | .unsupportedLiteral _ | .refused _ =>
    none

/-- The message, with a report of issues spelled as given. -/
def message (spell : Report → String) : Fault → String
  | .config report => "Invalid sqltree configuration: " ++ spell report
  | .flavorNotFound name _ => "Flavor '" ++ name.phrase ++ "' is not registered"
  | .notAFlavor typeName => "Cannot register " ++ typeName ++ " as a flavor"
  | .nonFiniteLiteral _ => "Non-finite float literals have no SQL spelling"
  | .unsupportedLiteral value => "Unsupported literal of type " ++ value.typeName
  | .notADay value => "Cannot interpret " ++ value.display ++ " as a date"
  | .invalid report => "Invalid " ++ report.title ++ ": " ++ spell report
  | .refused (.noTable _) => "No table defined"
  | .refused (.nothingToSet table) => "Update of '" ++ table ++ "' has no values to set"
  | .refused (.nothingToInsert table) =>
    "Insert into '" ++ table ++ "' requires values or a source query"
  | .unknownTag tag _ => "Unknown node type: " ++ tag.display
  | .rejectedPayload report _ => "Error parsing query: " ++ spell report
  | .malformedJson reason place _ => "Error parsing query: " ++ reason.text ++ ": " ++ place.text
  | .notJsonText typeName =>
    "Error parsing query: the JSON object must be str, bytes or bytearray, not " ++ typeName
  | .notObject typeName => "Error parsing query: expected a JSON object, got " ++ typeName

/-- How much of a text is quoted in details. -/
def excerptLength : Nat := 500

/-- The beginning of a text. -/
def excerpt (s : String) : String :=
  let points := Text.points s.toList
  if excerptLength < points.length then String.ofList (Text.hold (points.take excerptLength)) ++ "..." else s

/-- Whether what was to be read can be quoted in details: a text of any length, or a collection that is
short enough to be quoted as it is. -/
def isQuotable : Datum → Bool
  | .null | .text _ | .member _ => true
  | .list items | .tuple items => decide (items.length ≤ excerptLength)
  | .dict entries => decide (entries.length ≤ excerptLength)
  | _ => false

/-- The details of a text that could not be read; none if there is no text. -/
def textDetails : Datum → List (String × Datum)
  | .null => []
  | .text s => [("text", .text (excerpt s))]
  | d => [("text", d)]

def fieldDetails (field : String) (value : Datum) : List (String × Datum) :=
  ("field", .text field) :: (match value with | .null => [] | v => [("value", .text v.phrase)])

def details : Fault → List (String × Datum)
  | .config _ | .invalid _ | .notJsonText _ | .notObject _ => []
  | .flavorNotFound name available =>
    [("flavor", name), ("available", .list (available.map .text))]
  | .notAFlavor _ => fieldDetails "flavor" .null
  | .nonFiniteLiteral value => fieldDetails "value" (.float value)
  | .unsupportedLiteral value => fieldDetails "value" value
  | .notADay value => fieldDetails "date" value
  | .refused (.noTable typeName) => [("node", .text typeName)]
  | .refused _ => fieldDetails "values" .null
  | .unknownTag tag _ => [("type", .text tag.phrase)]
  | .rejectedPayload _ text => textDetails text
  | .malformedJson _ _ text => textDetails (.text text)

end Fault

inductive Failure where
  | fault (fault : Fault)
  | rejected (report : Report)
  | misuse (kind : Misuse)
  /-- An error that was given as a value. -/
  | given (error : Datum)

/-- The name of the type of error that a failure is. -/
def Failure.typeName : Failure → String
  | .fault _ => "SQLTreeError"
  | .rejected _ => "ValidationError"
  | .misuse kind => kind.typeName
  | .given error => error.typeName

/-- What a call gives. -/
abbrev Outcome (α : Type) := Except Failure α

namespace Outcome

def misuse {α : Type} (kind : Misuse) : Outcome α := .error (.misuse kind)

def ofRefusable {α : Type} (r : Except Refusal α) : Outcome α :=
  r.mapError fun refusal => .fault (.refused refusal)

end Outcome

/-- A rejected value is a fault of the arguments. -/
def Checked.orInvalid {α : Type} (title : String) : Checked α → Outcome α
  | .ok a => .ok a
  | .bad issues => .error (.fault (.invalid ⟨title, issues⟩))

theorem Checked.orInvalid_eq_ok_iff {α : Type} {c : Checked α} {title : String} {a : α} :
    c.orInvalid title = .ok a ↔ c = .ok a := by
  cases c <;> simp [orInvalid]

end SqlAst
