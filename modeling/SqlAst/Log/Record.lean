import SqlAst.Calendar.Instant
import SqlAst.Datum.Display
import SqlAst.Entries
import SqlAst.Json.Writer
import SqlAst.Log.Message

/-!
# Log records

A record is a list of named attributes: the standard ones, and others that a caller or a context adds.
Its line is a JSON object with all but the standard attributes, followed by time, level, logger and
message, which win over attributes of the same names. `Record.message?` is `getMessage`, and
`Record.line?` is what `CustomJsonFormatter.format` gives; where either raises, there is none.
-/
namespace SqlAst.Log

/-- The names of standard attributes, which a line does not repeat. -/
def standardNames : List String :=
  ["name", "msg", "args", "levelname", "levelno", "pathname", "filename", "module", "exc_info",
    "exc_text", "stack_info", "lineno", "funcName", "created", "msecs", "relativeCreated", "thread",
    "threadName", "processName", "process", "asctime", "message"]

structure Record where
  attributes : List (String × Datum)
  distinct : (Entries.keys attributes).Nodup

namespace Record

def get (r : Record) (name : String) : Datum := .ofOption (r.attributes.lookup name)

def set (r : Record) (name : String) (value : Datum) : Record :=
  ⟨Entries.put name value r.attributes, Entries.nodup_put r.distinct⟩

def setAll (r : Record) (entries : List (String × Datum)) : Record :=
  ⟨Entries.merge r.attributes entries, Entries.nodup_merge r.distinct⟩

/-- A record with these attributes and no others. -/
def ofEntries (entries : List (String × Datum)) : Record :=
  ⟨Entries.unique entries, Entries.nodup_merge List.nodup_nil⟩

/-- Whether there is an attribute of a name. -/
def has (r : Record) (name : String) : Bool := (r.attributes.lookup name).isSome

end Record

/-- The name of a level. -/
def levelName (level : Int) : String :=
  if level = 50 then "CRITICAL" else if level = 40 then "ERROR" else if level = 30 then "WARNING"
  else if level = 20 then "INFO" else if level = 10 then "DEBUG" else if level = 0 then "NOTSET"
  else "Level " ++ String.ofList (Text.intText level)

/-- The arguments of a message; a dictionary that is the only one and not empty counts for itself. -/
def argumentsOf : List Datum → Datum
  | [.dict (e :: rest)] => .dict (e :: rest)
  | args => .tuple args

/-- What a record keeps of an error: its type, the error itself, and the place where it came up, which is
left out. -/
def errorInfo (typeName : String) (error : Datum) : Datum := .tuple [.text typeName, error, .null]

/-- What a record keeps if it is to tell of the error in hand and there is none. -/
def noErrorInfo : Datum := .tuple [.null, .null, .null]

/-- A record with standard attributes only. `error` is null if there is none. -/
def Record.make (logger : String) (level : Int) (message : Datum) (args : List Datum) (created : Datum)
    (error : Datum) : Record :=
  ⟨[("name", .text logger), ("msg", message), ("args", argumentsOf args),
    ("levelname", .text (levelName level)), ("levelno", .int level), ("exc_info", error),
    ("created", created)], by simp [Entries.keys]⟩

namespace Record

/-! ## The message -/

/-- The message with its arguments, if they fit. Arguments that count as false are none. An attribute
called `getMessage` stands in the way of the method, and cannot be called. -/
def message? (r : Record) : Option String :=
  let template := r.get "msg"
  let arguments := r.get "args"
  if r.has "getMessage" ∨ !template.isWritable then none
  else if arguments.isTrue then Log.message? template.phrase arguments
  else some template.phrase

/-! ## The line -/

/-- The attributes that a line is made from; without one of them there is no line. -/
def neededNames : List String := ["created", "levelname", "name", "msg", "args", "exc_info"]

/-- The time of a record. -/
def time? (r : Record) : Option DateTime :=
  match r.get "created" with
  | .float d => DateTime.ofSeconds? d
  | .int n => DateTime.ofMicroseconds? (n * 1000000)
  | .bool b => DateTime.ofMicroseconds? (b.toInt * 1000000)
  | _ => none

/-- A key of a dictionary as a name in JSON. -/
def keyText? : Datum → Option String
  | .text s => some s
  | .member m => some m.value
  | .null => some "null"
  | .bool b => some (if b then "true" else "false")
  | .int i => if Text.isWritable i then some (String.ofList (Text.intText i)) else none
  | .float d => some (String.ofList (Json.floatChars .statement d))
  | _ => none

mutual

/-- The JSON value of an attribute; what has none is written as text. -/
def jsonOf : Datum → Json
  | .null => .null
  | .bool b => .bool b
  | .int i => .int i
  | .float d => .float d
  | .text s => .text s
  | .list items | .tuple items => .list (jsonItems items)
  | .dict entries => .object (jsonEntries entries)
  | .member m => .text m.value
  | d => .text d.phrase

def jsonItems : List Datum → List Json
  | [] => []
  | d :: rest => jsonOf d :: jsonItems rest

def jsonEntries : List (Datum × Datum) → List (String × Json)
  | [] => []
  | (k, d) :: rest => ((keyText? k).getD "", jsonOf d) :: jsonEntries rest

end

mutual

/-- Whether the JSON value of an attribute can be written: its integers are short enough, and the keys of
its dictionaries are names in JSON. -/
def hasJson : Datum → Bool
  | .int i => Text.isWritable i
  | .list items | .tuple items => haveJson items
  | .dict entries => entriesHaveJson entries
  | d => d.isWritable

def haveJson : List Datum → Bool
  | [] => true
  | d :: rest => hasJson d && haveJson rest

def entriesHaveJson : List (Datum × Datum) → Bool
  | [] => true
  | (k, d) :: rest => (keyText? k).isSome && hasJson d && entriesHaveJson rest

end

/-- The ids of a span in hexadecimal, if both are valid: positive and of no more digits than they are
written with. -/
def spanEntries (span : Nat × Nat) : List (String × Json) :=
  if 0 < span.1 ∧ span.1 < Nat.pow 16 32 ∧ 0 < span.2 ∧ span.2 < Nat.pow 16 16 then
    [("trace_id", .text (String.ofList (Text.hexText 32 span.1))),
      ("span_id", .text (String.ofList (Text.hexText 16 span.2)))]
  else []

/-- The attributes that a line repeats. -/
def extras (r : Record) : List (String × Json) :=
  (r.attributes.filter fun a => a.1 ∉ standardNames).map fun a => (a.1, jsonOf a.2)

/-- Whether there is all that a line needs, and all that it shows can be written. -/
def isComplete (r : Record) : Bool :=
  neededNames.all r.has && hasJson (r.get "levelname") && hasJson (r.get "name") &&
    r.attributes.all fun a => a.1 ∈ standardNames || hasJson a.2

section

/- How the error that a record is about is set out, with its trace. -/
variable (format : Datum → Option String)

/-- The entry for the error that a record is about, if it is about one. -/
def errorEntries? (r : Record) : Option (List (String × Json)) :=
  let error := r.get "exc_info"
  if error.isTrue then (format error).map fun text => [("exception", .text text)] else some []

/-- The entries that a line generates, inside a span with the given ids. -/
def generated? (r : Record) (span : Nat × Nat) : Option (List (String × Json)) := do
  let time ← r.time?
  let message ← r.message?
  let errorEntries ← r.errorEntries? format
  pure ([("timestamp", .text (time.isoText 'T')), ("level", jsonOf (r.get "levelname")),
    ("logger", jsonOf (r.get "name")), ("message", .text message)] ++ spanEntries span ++ errorEntries)

/-- The entries of a record's line. -/
def entries? (r : Record) (span : Nat × Nat) : Option (List (String × Json)) :=
  if r.isComplete then (r.generated? format span).map (Entries.merge r.extras) else none

/-- The line of a record. -/
def line? (r : Record) (span : Nat × Nat) : Option String :=
  (r.entries? format span).map fun es => (Json.object es).write Json.spaced

end

end Record

end SqlAst.Log
