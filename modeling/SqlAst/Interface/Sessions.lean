import SqlAst.Interface.Signature
import SqlAst.Session.Logging
import SqlAst.Session.Nodes

/-!
# Calls about the session
-/
namespace SqlAst.Interface.Sessions

open Operation

def deserialize : Operation :=
  of1 (needed "text") fun text => do pure (.node (← Action.deserialize text))

/-- Reads as `deserialize` does; a call whose arguments do not match leaves a span as well. -/
def tracedDeserialize : Operation :=
  { deserialize with refuse := fun _ _ => Action.tracedReading (Action.misuse .wrongType) }

def getFlavor : Operation :=
  of1 (optional "flavor") fun flavor => do pure (.flavor (← Action.getFlavor flavor))

def registerFlavor : Operation :=
  of2 (needed "name") (needed "flavor") fun name flavor => do
    Action.registerFlavor name flavor
    pure .null

def flavorNames : Operation := of0 do pure (.list ((← Action.flavorNames).map .text))

def getSettings : Operation := of0 do pure (.settings (← Action.getSettings))

def reloadSettings : Operation := of0 do pure (.settings (← Action.reloadSettings))

/-- Gives a variable of the environment a value. A name has at least one character and no equals sign, and
neither a name nor a value has a null character. -/
def setVariable : Operation :=
  of2 (needed "k") (needed "v") fun name value =>
    match name.asText?, value.asText? with
    | some n, some v =>
      if n.contains '\x00' ∨ v.contains '\x00' ∨ n.contains '=' then Action.misuse .wrongValue
      else if n = "" then Action.misuse .system
      else do
        modify fun s => { s with environment := Entries.put n v s.environment }
        pure .null
    | _, _ => Action.misuse .wrongType

def unsetVariable : Operation :=
  of1 (needed "k") fun name =>
    match name.asText? with
    | some n => do
      modify fun s => { s with environment := s.environment.filter (·.1 ≠ n) }
      pure .null
    | none => Action.misuse .wrongType

/-- Replaces the file of environment variables. -/
def writeEnvFile : Operation :=
  of1 (needed "text") fun text =>
    match text.asText? with
    | some s => do
      modify fun session => { session with envFile := some s }
      pure .null
    | none => Action.misuse .wrongType

def setupLogging : Operation :=
  of1 (optional "level") fun level => do
    Action.setupLogging level
    pure .null

end SqlAst.Interface.Sessions
