import SqlAst.Session.Basic
import SqlAst.Session.EnvFile

/-!
# Settings of a session

Each setting comes from the environment, or else from the file, or else has its default; the case of
names does not matter. Settings are loaded when they are first needed and stay in force until they are
loaded again; a load that fails changes nothing.
-/
namespace SqlAst

namespace Settings

/-- The name of the type in reports. -/
def title : String := "SQLTreeSettings"

def lower (s : String) : String := String.ofList (s.toList.map Char.toLower)

/-- The text that a variable has in bindings whose names are in any case. -/
def lookup (bindings : EnvFile.Bindings) (field : String) : Option String :=
  (Entries.last? ("sqltree_" ++ field) (bindings.map fun b => (lower b.1, b.2))).join

/-- A text under a rule of its own, placed at its field. -/
def ruled (field : String) (accepted : Option String) (message : String) : Checked String :=
  match accepted with
  | some s => .ok s
  | none => (Checked.fail (.rule message)).under (.key field)

/-- The settings that texts make, with defaults for those that are not given. -/
def check (given : String → Option String) : Checked Settings :=
  let text (field default : String) : String := (given field).getD default
  let level := text "log_level" "INFO"
  let label := text "subquery_alias" "t"
  (fun level label =>
      ⟨text "app_env" "dev", level, text "default_flavor" "mysql", label⟩)
    <$> ruled "log_level" (logLevel? level) ("Invalid log level '" ++ level ++ "'")
    <*> ruled "subquery_alias" (if isPlainAlias label then some label else none)
      ("Invalid subquery alias '" ++ label ++
        "'. Aliases must be alphanumeric with optional underscores and not start with a digit.")

end Settings

namespace Session

/-- The text of a setting: the environment's, or else the file's. -/
def given (s : Session) (field : String) : Option String :=
  let environment := s.environment.map fun e => (e.1, some e.2)
  let file := (s.envFile.map EnvFile.bindings).getD []
  (Settings.lookup environment field).or (Settings.lookup (EnvFile.resolved s.environment file) field)

end Session

namespace Action

/-- Loads the settings anew: `reload_settings`. -/
def reloadSettings : Action Settings := do
  match Settings.check (← get).given with
  | .ok settings =>
    modify fun s => { s with settings := some settings }
    pure settings
  | .bad issues => fail (.fault (.config ⟨Settings.title, issues⟩))

/-- The settings in force, loaded if they were not: `get_settings`. -/
def getSettings : Action Settings := do
  match (← get).settings with
  | some settings => pure settings
  | none => reloadSettings

end Action

end SqlAst
