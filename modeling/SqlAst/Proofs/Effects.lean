import SqlAst.Proofs.Refusals
import SqlAst.Session.Tracing

/-!
# Effects of calls

`Action.effect` is what a call gives in a session together with the session that it leaves. There is a law
for each primitive of calls. What is logged and which spans are open never decides what a call of the
library gives, so `Session.core` leaves both out.

* `Action.effect_fail`: a call that fails leaves nothing behind but a record at most.
* `Action.effect_traced`: a span around a call lets the call pass once the attributes are found.
* `Action.effect_getSettings`, `Action.effect_reloadSettings`: the settings in force, or those that the
  sources make at this moment.
-/
namespace SqlAst

namespace Session

variable (s : Session)

/-- A session without its log and its spans. -/
def core : Session := { s with records := [], spans := [] }

/-- A session with one more span, which has neither attributes nor an end yet. -/
def opened (name tracer kind : String) : Session :=
  { s with spans := s.spans ++ [⟨name, tracer, kind, [], none⟩] }

/-- A session with a change to the span at a place. -/
def noted (place : Nat) (change : Span → Span) : Session :=
  { s with spans := s.spans.modify place change }

/-- A session after a failure: a fault is logged, any other failure is not. -/
def failed (e : Failure) : Session :=
  match e with
  | .fault fault => s.logError fault.code (.text (fault.message Report.summary)) (.record fault.details)
      (Action.errorOf fault.cause?)
  | _ => s

/-- The session differs from another by one more record at most. -/
def LogsTo (s s' : Session) : Prop :=
  ∃ more : List Log.Record, more.length ≤ 1 ∧ s' = { s with records := s.records ++ more }

variable {s} in
theorem LogsTo.core {s' : Session} (h : s.LogsTo s') : s'.core = s.core := by
  obtain ⟨more, -, rfl⟩ := h
  rfl

theorem LogsTo.refl : s.LogsTo s := ⟨[], Nat.zero_le _, by rw [List.append_nil]⟩

/-- A record of a level that is not logged changes nothing. -/
theorem log_unheard {level : Int} (h : level < s.threshold.getD defaultThreshold) (logger : String)
    (message : Datum) (extra : List (String × Datum)) (error : Datum) :
    s.log logger level message extra error = s := if_pos h

/-- A record of a level that is logged comes last, stamped if logging is set up. -/
theorem log_heard {level : Int} (h : s.threshold.getD defaultThreshold ≤ level) (logger : String)
    (message : Datum) (extra : List (String × Datum)) (error : Datum) :
    s.log logger level message extra error =
      let record := (Log.Record.make logger level message [] (.int 0) error).setAll extra
      { s with records := s.records ++ [if s.threshold.isSome then s.context.applyTo record else record] } :=
  if_neg (Int.not_lt.mpr h)

theorem logsTo_log (logger : String) (level : Int) (message : Datum) (extra : List (String × Datum))
    (error : Datum) : s.LogsTo (s.log logger level message extra error) := by
  rcases Int.lt_or_le level (s.threshold.getD defaultThreshold) with h | h
  · rw [s.log_unheard h]
    exact .refl s
  · rw [s.log_heard h]
    exact ⟨[_], Nat.le_refl _, rfl⟩

theorem logsTo_failed (e : Failure) : s.LogsTo (s.failed e) := by
  cases e with
  | fault fault => exact s.logsTo_log _ _ _ _ _
  | _ => exact .refl s

variable {s} {s' : Session}

theorem settings_of_core (h : s.core = s'.core) : s.settings = s'.settings :=
  show s.core.settings = s'.core.settings by rw [h]

theorem registry_of_core (h : s.core = s'.core) : s.registry = s'.registry :=
  show s.core.registry = s'.core.registry by rw [h]

end Session

namespace Action

variable {α β : Type}

/-- What a call gives in a session, and the session that it leaves. -/
def effect (a : Action α) (s : Session) : Outcome α × Session := a.run.run s

/-! ## Primitives -/

theorem outcome_eq (a : Action α) (s : Session) : a.outcome s = (a.effect s).1 := rfl

theorem effect_pure (x : α) (s : Session) : (pure x : Action α).effect s = (.ok x, s) := rfl

theorem effect_bind_ok {a : Action α} {g : α → Action β} {s s' : Session} {x : α}
    (h : a.effect s = (.ok x, s')) : (a >>= g).effect s = (g x).effect s' := by
  rw [effect] at h
  simp only [effect, ExceptT.run_bind, StateT.run_bind, h]
  rfl

theorem effect_bind_error {a : Action α} {g : α → Action β} {s s' : Session} {e : Failure}
    (h : a.effect s = (.error e, s')) : (a >>= g).effect s = (.error e, s') := by
  rw [effect] at h
  simp only [effect, ExceptT.run_bind, StateT.run_bind, h]
  rfl

theorem effect_get_bind (g : Session → Action α) (s : Session) :
    (get >>= g).effect s = (g s).effect s := rfl

theorem effect_modify_bind (step : Session → Session) (g : PUnit → Action α) (s : Session) :
    (modify step >>= g).effect s = (g ⟨⟩).effect (step s) := rfl

theorem effect_tryCatch (a : Action α) (handler : Failure → Action α) (s : Session) :
    (tryCatch a handler).effect s =
      match a.effect s with
      | (.ok x, s') => (.ok x, s')
      | (.error e, s') => (handler e).effect s' := by
  rcases hrun : a.run.run s with ⟨o, s'⟩
  rw [ExceptT.run] at hrun
  simp only [effect, tryCatch, tryCatchThe, MonadExceptOf.tryCatch, ExceptT.tryCatch, ExceptT.run,
    ExceptT.mk, StateT.run_bind, hrun]
  cases o <;> rfl

theorem effect_discard {a : Action α} {s s' : Session} {o : Outcome α}
    (h : a.effect s = (o, s')) : (discard a : Action Unit).effect s = (o.map fun _ => (), s') := by
  cases o with
  | ok x => exact effect_bind_ok (g := fun _ => pure ()) h
  | error e => exact effect_bind_error (g := fun _ => pure ()) h

/-! ## Logging and failing -/

theorem effect_fail (e : Failure) (s : Session) : (fail e : Action α).effect s = (.error e, s.failed e) := by
  cases e with
  | fault fault => rfl
  | _ => rfl

/-- A computation changes nothing; if it fails with a fault, that is logged. -/
theorem effect_ofOutcome (o : Outcome α) (s : Session) :
    ∃ s', s.LogsTo s' ∧ (ofOutcome o).effect s = (o, s') := by
  cases o with
  | ok x => exact ⟨s, .refl s, rfl⟩
  | error e => exact ⟨_, s.logsTo_failed e, effect_fail e s⟩

/-! ## Spans -/

section

variable (name tracer kind : String) {attributes : Action (List (String × Datum))} {s s₁ : Session}

/-- Once the attributes are found, the traced call is made, a single time; its failure is noted at its span
and goes on. -/
theorem effect_traced {found : List (String × Datum)}
    (h : attributes.effect (s.opened name tracer kind) = (.ok found, s₁)) (call : Action α) :
    (traced name tracer kind attributes call).effect s =
      match call.effect (s₁.noted s.spans.length fun span => { span with attributes := found }) with
      | (.ok x, s₂) => (.ok x, s₂)
      | (.error e, s₂) =>
        (.error e, s₂.noted s.spans.length fun span => { span with failure := some e }) := by
  rw [Session.opened] at h
  rw [traced, effect_get_bind, effect_modify_bind, effect_bind_ok h, effect_modify_bind, effect_tryCatch]
  rfl

/-- Without attributes the call is not made. -/
theorem effect_traced_error {e : Failure}
    (h : attributes.effect (s.opened name tracer kind) = (.error e, s₁)) (call : Action α) :
    (traced name tracer kind attributes call).effect s = (.error e, s₁) := by
  rw [Session.opened] at h
  rw [traced, effect_get_bind, effect_modify_bind, effect_bind_error h]

end

/-! ## Settings -/

/-- Settings are loaded as a whole, or else a fault changes nothing. -/
theorem effect_reloadSettings (s : Session) :
    reloadSettings.effect s =
      match Settings.check s.given with
      | .ok c => (.ok c, { s with settings := some c })
      | .bad issues =>
        (.error (.fault (.config ⟨Settings.title, issues⟩)),
          s.failed (.fault (.config ⟨Settings.title, issues⟩))) := by
  rw [reloadSettings, effect_get_bind]
  cases Settings.check s.given with
  | ok c => rfl
  | bad issues => exact effect_fail _ s

theorem effect_getSettings {s : Session} {c : Settings} (h : s.settings = some c) :
    getSettings.effect s = (.ok c, s) := by
  rw [getSettings, effect_get_bind, h]
  exact effect_pure c s

theorem effect_getSettings_unloaded {s : Session} (h : s.settings = none) :
    getSettings.effect s = reloadSettings.effect s := by
  rw [getSettings, effect_get_bind, h]

/-! ## Flavors -/

/-- What looking up a name in the registry of a session gives. -/
def found (s : Session) (name : Datum) : Outcome Flavor :=
  if name.isKey then
    match s.flavorNamed? name with
    | some f => .ok f
    | none =>
      match sortedNames? s.registeredNames with
      | some names => .error (.fault (.flavorNotFound name names))
      | none => .error (.misuse .wrongType)
  else .error (.misuse .wrongType)

/-- What a flavor in any form stands for while settings are in force: itself, or the one that is registered
under a name, by default that of the settings. -/
def resolved (s : Session) (c : Settings) : Datum → Outcome Flavor
  | .flavor f => .ok f
  | .null => found s (.text c.defaultFlavor)
  | d => found s d

/-- Asking for a flavor changes nothing; a name that is not registered is logged. Settings need to be in
force only where none is given. -/
theorem effect_getFlavor {s : Session} {c : Settings} {d : Datum} (h : d = .null → s.settings = some c) :
    ∃ s', s.LogsTo s' ∧ (getFlavor d).effect s = (resolved s c d, s') := by
  unfold getFlavor
  split
  · exact ⟨s, .refl s, rfl⟩
  · rename_i hflavor
    extract_lets find
    have hfind (name : Datum) : ∃ s', s.LogsTo s' ∧ (find name).effect s = (found s name, s') := by
      simp only [find, found]
      split
      · rw [effect_get_bind]
        cases s.flavorNamed? name with
        | some f => exact ⟨s, .refl s, rfl⟩
        | none =>
          dsimp only
          rw [effect_get_bind]
          cases sortedNames? s.registeredNames with
          | some names =>
            let missing : Failure := .fault (.flavorNotFound name names)
            exact ⟨_, s.logsTo_failed missing, effect_fail missing s⟩
          | none => exact ⟨s, .refl s, rfl⟩
      · exact ⟨s, .refl s, rfl⟩
    split
    · rw [effect_bind_ok (effect_getSettings (h rfl)), pure_bind]
      exact hfind _
    · rename_i hnull
      have hresolved : resolved s c d = found s d := by
        unfold resolved
        split
        · exact (hflavor _ rfl).elim
        · exact (hnull rfl).elim
        · rfl
      rw [hresolved]
      exact hfind d

end Action

end SqlAst
