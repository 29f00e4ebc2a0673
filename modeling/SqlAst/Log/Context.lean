import SqlAst.Fault.Basic
import SqlAst.Log.Record

/-!
# Context of log records

What is added to every record: the static context, then the ids of request and user, then the name and
version of the library. Later attributes win. `Context.filter` is `ContextFilter.filter`, and
`setStatic`, `setRequest` and `clearRequest` are `set_logging_context`, `set_request_context` and
`clear_request_context`.
-/
namespace SqlAst.Log

/-! ## Setting attributes -/

namespace Record

/-- Why a record does not take an attribute, if it does not. Its type cannot be changed, its weak
references cannot be written, and its attributes as a whole can be replaced by a dictionary only. -/
def refusal? (name : String) (value : Datum) : Option Misuse :=
  if name = "__class__" then some .wrongType
  else if name = "__weakref__" then some .noAttribute
  else if name = "__dict__" then
    match value with
    | .dict _ => none
    | _ => some .wrongType
  else none

/-- A record with an attribute that it takes. The dictionary of attributes replaces them all. -/
def assigned (r : Record) (name : String) (value : Datum) : Record :=
  if name = "__dict__" then
    match value with
    | .dict entries => .ofEntries (Datum.textEntries entries)
    | _ => r
  else r.set name value

/-- Sets an attribute. -/
def assign (r : Record) (entry : String × Datum) : Outcome Record :=
  match refusal? entry.1 entry.2 with
  | some kind => Outcome.misuse kind
  | none => .ok (r.assigned entry.1 entry.2)

end Record

/-! ## Contexts -/

structure Context where
  /-- The static context: environment and further entries, in order. -/
  fixed : List (String × Datum) := []
  requestId : Datum := .null
  userId : Datum := .null

namespace Context

/-- The static context that an environment and further entries make. -/
def entriesOf (environment : Datum) (extra : List (String × Datum)) : List (String × Datum) :=
  let own := match environment with
    | .null => []
    | e => [("environment", e)]
  Entries.merge own extra

/-- Replaces the static context. Null for both arguments clears it. -/
def setStatic (c : Context) (environment : Datum) (extra : List (String × Datum)) : Context :=
  { c with fixed := entriesOf environment extra }

/-- Sets the ids that are not null. -/
def setRequest (c : Context) (requestId userId : Datum) : Context :=
  let chosen (new old : Datum) : Datum := match new with
    | .null => old
    | d => d
  { c with requestId := chosen requestId c.requestId, userId := chosen userId c.userId }

def clearRequest (c : Context) : Context := { c with requestId := .null, userId := .null }

/-- The entries that a record gets. -/
def stamp (c : Context) : List (String × Datum) :=
  c.fixed ++ [("request_id", c.requestId), ("user_id", c.userId), ("sdk_name", .text "sqltree"),
    ("sdk_version", .text "0.1.0")]

/-- A record with the entries of the context, for contexts whose entries records take. -/
def applyTo (c : Context) (r : Record) : Record := c.stamp.foldl (fun r e => r.assigned e.1 e.2) r

/-- The filter: whether a record passes, and the record that goes on. An entry that the record does not
take ends it. -/
def filter (c : Context) (r : Record) : Outcome (Bool × Record) := do
  let r ← c.stamp.foldlM Record.assign r
  pure (true, r)

end Context

/-- Further entries that all records take. -/
abbrev Extra : Type := { extra : List (String × Datum) // ∀ e ∈ extra, Record.refusal? e.1 e.2 = none }

/-- No further entries. -/
def Extra.nothing : Extra := ⟨[], List.forall_mem_nil _⟩

/-- A context whose static entries all records take, so that the filter lets them pass. With any other one it
fails for every record, and so would each call that logs one. -/
structure SafeContext extends Context where
  safe : ∀ e ∈ fixed, Record.refusal? e.1 e.2 = none

namespace SafeContext

/-- The context before anything is set. -/
def empty : SafeContext := { safe := List.forall_mem_nil _ }

theorem safe_entriesOf (environment : Datum) (extra : Extra) :
    ∀ e ∈ Context.entriesOf environment extra, Record.refusal? e.1 e.2 = none := by
  intro e he
  rcases Entries.mem_merge he with he | he
  · cases environment with
    | null => cases he
    | _ =>
      obtain rfl := List.mem_singleton.mp he
      rfl
  · exact extra.2 e he

def setStatic (c : SafeContext) (environment : Datum) (extra : Extra) : SafeContext :=
  { c.toContext.setStatic environment extra with safe := safe_entriesOf environment extra }

def setRequest (c : SafeContext) (requestId userId : Datum) : SafeContext :=
  { c.toContext.setRequest requestId userId with safe := c.safe }

end SafeContext

end SqlAst.Log
