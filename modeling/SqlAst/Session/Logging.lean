import SqlAst.Session.Settings

/-!
# Logging of a session
-/
namespace SqlAst

namespace Log

/-- The levels by name. -/
def levels : List (String × Int) :=
  [("CRITICAL", 50), ("FATAL", 50), ("ERROR", 40), ("WARN", 30), ("WARNING", 30), ("INFO", 20),
    ("DEBUG", 10), ("NOTSET", 0)]

/-- The least level that is logged where none is set. -/
def unsetLevel : Int := 30

/-- The level of a name in any case. -/
def level? (name : String) : Option Int :=
  (levels.lookup (String.ofList (name.toList.map Text.upperLatin))).map fun n =>
    if n = 0 then unsetLevel else n

end Log

namespace Action

/-- Replaces the static context of records: `set_logging_context`. -/
def setLoggingContext (environment : Datum) (extra : Log.Extra) : Action Unit :=
  modify fun s => { s with context := s.context.setStatic environment extra }

/-- Sets the ids of request and user that records get, as far as they are given: `set_request_context`. -/
def setRequestContext (requestId userId : Datum) : Action Unit :=
  modify fun s => { s with context := s.context.setRequest requestId userId }

/-- Sets up logging from a level on, by default that of the settings: `setup_logging`. Records get the
environment of the settings. -/
def setupLogging (level : Datum) : Action Unit := do
  let settings ← getSettings
  let level := match level with
    | .null => Datum.text settings.logLevel
    | d => d
  setLoggingContext (.text settings.appEnv) .nothing
  match level.asText? with
  | none => misuse .noAttribute
  | some name =>
    match Log.level? name with
    | some n => modify fun s => { s with threshold := some n }
    | none => misuse .wrongValue

end Action

end SqlAst
