import SqlAst.Build.Basic
import SqlAst.Log.Context

/-!
# Sessions

The state that calls share: environment, settings, registered flavors, logging, and the spans of traced
calls. An `Action` is a call that may use and change it; what an action changed before it failed stays.
Its context of records is one that all records take: from any other one, each record that is logged would
end the call with the error of `Log.Context.filter`.
-/
namespace SqlAst

/-- A traced call. -/
structure Span where
  name : String
  tracer : String
  kind : String
  attributes : List (String × Datum)
  /-- What the call ended with, if not with a result. -/
  failure : Option Failure := none

/-- The status that a span ends with. -/
def Span.status (s : Span) : String := if s.failure.isSome then "ERROR" else "UNSET"

structure Session where
  environment : List (String × String) := []
  /-- The text of the file of environment variables. -/
  envFile : Option String := none
  /-- The settings in force, once they are loaded. -/
  settings : Option Settings := none
  registry : List (Datum × Flavor) :=
    [(.text Flavor.mysql.name, .mysql), (.text Flavor.timestream.name, .timestream)]
  /-- How many flavors were made. -/
  made : Nat := 0
  /-- The least level that is logged, once logging is set up. -/
  threshold : Option Int := none
  context : Log.SafeContext := .empty
  /-- The records that were logged, oldest first. -/
  records : List Log.Record := []
  /-- The spans that were opened, oldest first. -/
  spans : List Span := []

abbrev Action := ExceptT Failure (StateM Session)

namespace Session

/-- The least level that is logged before logging is set up. -/
def defaultThreshold : Int := 30

/-- Logs a record of a level that is logged. It goes through the filter once logging is set up. -/
def log (s : Session) (logger : String) (level : Int) (message : Datum)
    (extra : List (String × Datum)) (error : Datum) : Session :=
  if level < s.threshold.getD defaultThreshold then s
  else
    let record := (Log.Record.make logger level message [] (.int 0) error).setAll extra
    { s with records := s.records ++ [if s.threshold.isSome then s.context.applyTo record else record] }

/-- Logs that an error with a code came up. -/
def logError (s : Session) (code : FaultCode) (message details error : Datum) : Session :=
  s.log "sqltree.common.exceptions" 10 message
    [("error_code", .text code.value), ("details", details)] error

end Session

namespace Action

variable {α : Type}

def log (logger : String) (level : Int) (message : String) : Action Unit :=
  modify fun s => s.log logger level (.text message) [] .null

/-- What a record keeps of the error behind a fault. -/
def errorOf (c : Option Cause) : Datum :=
  match c with
  | some c => Log.errorInfo c.typeName (.exception c.typeName (.text ""))
  | none => .null

/-- Ends a call; a fault is logged. -/
def fail (f : Failure) : Action α := do
  if let .fault fault := f then
    modify fun s => s.logError fault.code (.text (fault.message Report.summary))
      (.record fault.details) (errorOf fault.cause?)
  throw f

/-- Ends with what a computation ends with. -/
def ofOutcome (o : Outcome α) : Action α :=
  match o with
  | .ok a => pure a
  | .error f => fail f

def misuse (kind : Misuse) : Action α := fail (.misuse kind)

/-- Logs that the attributes of a span could not be found. -/
def logGetterFailure (reason : String) : Action Unit :=
  log "sqltree.utils.decorators" 30 ("trace attribute getter failed: " ++ reason)

/-- Runs a call inside a span, which keeps its failure. -/
def traced (name tracer kind : String) (attributes : Action (List (String × Datum)))
    (call : Action α) : Action α := do
  let place := (← get).spans.length
  modify fun s => { s with spans := s.spans ++ [⟨name, tracer, kind, [], none⟩] }
  let found ← attributes
  modify fun s => { s with spans := s.spans.modify place fun span => { span with attributes := found } }
  tryCatch call fun failure => do
    modify fun s =>
      { s with spans := s.spans.modify place fun span => { span with failure := some failure } }
    throw failure

end Action

end SqlAst
