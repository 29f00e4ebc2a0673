import SqlAst.Calendar.Date
import SqlAst.Fault.Code
import SqlAst.Flavor
import SqlAst.Json.Basic
import SqlAst.Settings
import SqlAst.Statement.Node

/-!
# Data

What calls take and give: loosely typed values, among them those of JSON, days, members of the
vocabularies, and the library's own objects.
-/
namespace SqlAst

/-- A member of one of the vocabularies. It counts as the text that it stands for. -/
inductive Member where
  | join (kind : JoinKind)
  | union (kind : UnionKind)
  | direction (direction : Direction)
  | node (kind : NodeKind)
  deriving DecidableEq

namespace Member

def vocabulary : Member → String
  | .join _ => "JoinType"
  | .union _ => "UnionType"
  | .direction _ => "OrderDirection"
  | .node _ => "NodeType"

def name : Member → String
  | .join k => k.word
  | .union k => k.memberName
  | .direction d => d.word
  | .node k => k.memberName

/-- The text that a member stands for. -/
def value : Member → String
  | .join k => k.word
  | .union k => k.word
  | .direction d => d.word
  | .node k => k.tag

/-- The members of all vocabularies, each vocabulary in its order. -/
def all : List Member :=
  JoinKind.all.map .join ++ UnionKind.every.map .union ++ Direction.all.map .direction ++
    NodeKind.all.map .node

def find? (vocabulary name : String) : Option Member :=
  all.find? fun m => m.vocabulary = vocabulary ∧ m.name = name

end Member

inductive Datum where
  | null
  | bool (value : Bool)
  | int (value : Int)
  | float (value : Binary64)
  | text (value : String)
  | list (items : List Datum)
  | tuple (items : List Datum)
  | dict (entries : List (Datum × Datum))
  | date (value : Date)
  | dateTime (value : DateTime)
  | member (value : Member)
  | node (value : Node)
  | field (value : SelectField)
  | order (value : OrderSpec)
  | part (value : UnionPart)
  | flavor (value : Flavor)
  | settings (value : Settings)
  /-- An error of no code, by the name of its type. -/
  | exception (typeName : String) (argument : Datum)
  /-- An error with a code; `cause` is null if there is none. -/
  | error (code : FaultCode) (message details cause : Datum)
  deriving Inhabited

namespace Datum

/-- The text of a text or of a member of a vocabulary. -/
def asText? : Datum → Option String
  | .text s => some s
  | .member m => some m.value
  | _ => none

/-- The name of a datum's type. -/
def typeName : Datum → String
  | .null => "NoneType"
  | .bool _ => "bool"
  | .int _ => "int"
  | .float _ => "float"
  | .text _ => "str"
  | .list _ => "list"
  | .tuple _ => "tuple"
  | .dict _ => "dict"
  | .date _ => "date"
  | .dateTime _ => "datetime"
  | .member m => m.vocabulary
  | .node n => n.typeName
  | .field _ => "SelectField"
  | .order _ => "OrderSpec"
  | .part _ => "UnionPart"
  | .flavor f => f.typeName
  | .settings _ => "SQLTreeSettings"
  | .exception name _ => name
  | .error _ _ _ _ => "SQLTreeError"

/-- Whether a datum counts as true: neither null, nor zero, nor empty. -/
def isTrue : Datum → Bool
  | .null => false
  | .bool b => b
  | .int i => i ≠ 0
  | .float d => d.isNonzero
  | .text s => s ≠ ""
  | .list items => !items.isEmpty
  | .tuple items => !items.isEmpty
  | .dict entries => !entries.isEmpty
  | _ => true

def ofScalar : Scalar → Datum
  | .null => .null
  | .bool b => .bool b
  | .int i => .int i
  | .float d => .float d.1
  | .text s => .text s

def ofOption (value : Option Datum) : Datum := value.getD .null

/-- A dictionary from names. -/
def record (entries : List (String × Datum)) : Datum := .dict (entries.map fun e => (.text e.1, e.2))

/-- What an error with a code says of itself, as a dictionary. -/
def errorRecord? : Datum → Option Datum
  | .error code message details cause =>
    some (record [("type", .text (typeName (.error code message details cause))), ("message", message),
      ("error_code", .text code.value), ("error_name", .text code.name), ("details", details)])
  | _ => none

mutual

/-- The datum that a JSON value is. -/
def ofJson : Json → Datum
  | .null => .null
  | .bool b => .bool b
  | .int i => .int i
  | .float d => .float d
  | .text s => .text s
  | .list items => .list (ofJsonItems items)
  | .object entries => .dict (ofJsonEntries entries)

def ofJsonItems : List Json → List Datum
  | [] => []
  | j :: rest => ofJson j :: ofJsonItems rest

def ofJsonEntries : List (String × Json) → List (Datum × Datum)
  | [] => []
  | (k, j) :: rest => (.text k, ofJson j) :: ofJsonEntries rest

end

/-- The entries of a dictionary that stand under texts. -/
def textEntries (entries : List (Datum × Datum)) : List (String × Datum) :=
  entries.filterMap fun e => e.1.asText?.map fun key => (key, e.2)

/-- The last value that a dictionary has for a text. -/
def valueAt? (name : String) : List (Datum × Datum) → Option Datum
  | [] => none
  | (k, v) :: rest => (valueAt? name rest).or (if k.asText? = some name then some v else none)

theorem sizeOf_entry {name : String} {entries : List (Datum × Datum)} {d : Datum}
    (h : valueAt? name entries = some d) : sizeOf d < sizeOf entries := by
  induction entries with
  | nil => simp [valueAt?] at h
  | cons e rest ih =>
    obtain ⟨k, v⟩ := e
    simp only [valueAt?, Option.or_eq_some_iff] at h
    rcases h with h | ⟨-, h⟩
    · have := ih h
      simp only [List.cons.sizeOf_spec, Prod.mk.sizeOf_spec]
      omega
    · split at h
      · obtain rfl : v = d := by simpa using h
        simp only [List.cons.sizeOf_spec, Prod.mk.sizeOf_spec]
        omega
      · simp at h

end Datum

end SqlAst
