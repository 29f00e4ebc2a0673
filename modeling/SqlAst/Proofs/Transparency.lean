import SqlAst.Proofs.Effects

/-!
# Decorated functions

A decoration is to leave alone what a function does. Its getter may fail, and may find nothing; one thing
it must not do is to give a result that counts as true and is no dictionary, since this ends the call before
the function is reached.

* `Decoration.effect_collect`: the attributes that are found, for every getter that does no harm.
* `Decoration.wrap_transparent`: a decorated function is the function, called once inside the span, exactly
  if the getter does no harm.
-/
namespace SqlAst

/-! ## Getters -/

namespace Getter

/-- The result of the getter counts as true but is no dictionary. -/
def Obstructs : Getter → Prop
  | .giving result => result.isTrue = true ∧ ∀ entries, result ≠ .dict entries
  | _ => False

/-- The attributes that the getter adds. -/
def entries : Getter → List (String × Datum)
  | .giving (.dict es) => Datum.textEntries es
  | _ => []

/-- A session after the getter was asked: a failure is logged. -/
def heard (g : Getter) (s : Session) : Session :=
  match g with
  | .failing message =>
    s.log "sqltree.utils.decorators" 30 (.text ("trace attribute getter failed: " ++ message)) [] .null
  | _ => s

theorem logsTo_heard (g : Getter) (s : Session) : s.LogsTo (g.heard s) := by
  cases g with
  | failing message => exact s.logsTo_log _ _ _ _ _
  | _ => exact .refl s

end Getter

namespace Decoration

variable {δ α : Type}

/-! ## Attributes -/

/-- The attributes of a call: the fixed ones, overlaid by those that the getter adds. -/
def found (d : Decoration) : List (String × Datum) :=
  Entries.merge (present d.attributes) (present d.getter.entries)

theorem effect_collect {d : Decoration} (h : ¬ d.getter.Obstructs) (s : Session) :
    d.collect.effect s = (.ok d.found, d.getter.heard s) := by
  obtain ⟨moduleName, qualifiedName, spanName, kind, attributes, getter⟩ := d
  cases getter with
  | absent => rfl
  | failing message => rfl
  | giving result =>
    simp only [collect, pure_bind]
    cases htrue : result.isTrue with
    | true =>
      cases result with
      | dict es => rfl
      | _ => exact absurd ⟨htrue, by simp⟩ h
    | false =>
      -- A dictionary that counts as false is empty, so that it adds nothing either.
      cases result with
      | dict es =>
        cases es with
        | nil => rfl
        | cons e rest => cases htrue
      | _ => rfl

theorem effect_collect_obstructed {d : Decoration} (h : d.getter.Obstructs) (s : Session) :
    d.collect.effect s = (.error (.misuse .noAttribute), s) := by
  obtain ⟨moduleName, qualifiedName, spanName, kind, attributes, getter⟩ := d
  cases getter with
  | absent => exact h.elim
  | failing message => exact h.elim
  | giving result =>
    obtain ⟨htrue, hdict⟩ := h
    simp only [collect, pure_bind, htrue]
    cases result with
    | dict es => exact absurd rfl (hdict es)
    | _ => rfl

/-! ## Calls -/

/-- The session in which a decorated function is called: its span is open, with the attributes, and a
failure of the getter is logged. -/
def entered (d : Decoration) (s : Session) : Session :=
  { d.getter.heard s with spans := s.spans ++ [⟨d.label, d.moduleName, d.kind, d.found, none⟩] }

/-- The end of a call whose span is at a place: a failure is noted there and goes on. -/
def concluded (place : Nat) : Outcome α × Session → Outcome α × Session
  | (.ok x, s) => (.ok x, s)
  | (.error e, s) => (.error e, s.noted place fun span => { span with failure := some e })

theorem concluded_fst (place : Nat) (r : Outcome α × Session) : (concluded place r).1 = r.1 := by
  obtain ⟨_ | _, s⟩ := r <;> rfl

theorem heard_opened (g : Getter) (s : Session) (name tracer kind : String) :
    g.heard (s.opened name tracer kind) =
      { g.heard s with spans := s.spans ++ [⟨name, tracer, kind, [], none⟩] } := by
  cases g with
  | failing message =>
    rcases Int.lt_or_le 30 (s.threshold.getD Session.defaultThreshold) with h | h
    · rw [Getter.heard, Getter.heard, s.log_unheard h, (s.opened name tracer kind).log_unheard h]
      rfl
    · rw [Getter.heard, Getter.heard, s.log_heard h, (s.opened name tracer kind).log_heard h]
      rfl
  | _ => rfl

theorem effect_run {d : Decoration} (h : ¬ d.getter.Obstructs) (call : Action α) (s : Session) :
    (d.run call).effect s = concluded s.spans.length (call.effect (d.entered s)) := by
  have hcollect := effect_collect h (s.opened d.label d.moduleName d.kind)
  have hentered : (d.getter.heard (s.opened d.label d.moduleName d.kind)).noted s.spans.length
      (fun span => { span with attributes := d.found }) = d.entered s := by
    rw [heard_opened]
    simp [Session.noted, entered, List.modify_eq_take_drop]
  rw [run, Action.effect_traced _ _ _ hcollect, hentered]
  rfl

theorem effect_run_obstructed {d : Decoration} (h : d.getter.Obstructs) (call : Action α) (s : Session) :
    (d.run call).effect s =
      (.error (.misuse .noAttribute), s.opened d.label d.moduleName d.kind) :=
  Action.effect_traced_error _ _ _ (effect_collect_obstructed h _) call

/-- A decorated function, whatever it is. If the getter does no harm, a call of it is one call of the
function with the same arguments: it ends as that one does, and the two leave the same session but for the
failure noted at the span; the session in which the function is called is the given one, with the span and
at most one more record. If the getter does harm, the call fails without the function. -/
theorem wrap_transparent (d : Decoration) (getter : δ → Getter) (args : δ) (s : Session) :
    let own : Decoration := { d with getter := getter args }
    (¬ (getter args).Obstructs →
      ∃ more, more.length ≤ 1 ∧
        let inside : Session :=
          { s with
            spans := s.spans ++ [⟨d.label, d.moduleName, d.kind, own.found, none⟩]
            records := s.records ++ more }
        ∀ (α : Type) (f : δ → Action α),
          (d.wrap getter f args).outcome s = (f args).outcome inside ∧
            (d.wrap getter f args).effect s = concluded s.spans.length ((f args).effect inside)) ∧
    ((getter args).Obstructs →
      ∀ (α : Type) (f : δ → Action α), (d.wrap getter f args).effect s =
        (.error (.misuse .noAttribute), s.opened d.label d.moduleName d.kind)) := by
  intro own
  refine ⟨fun h => ?_, fun h α f => effect_run_obstructed (d := own) h (f args) s⟩
  obtain ⟨more, hmore, hheard⟩ := (getter args).logsTo_heard s
  refine ⟨more, hmore, ?_⟩
  intro inside α f
  have hinside : own.entered s = inside := by
    rw [entered, hheard]
    rfl
  have hrun := effect_run (d := own) h (f args) s
  rw [hinside] at hrun
  refine ⟨?_, hrun⟩
  rw [Action.outcome_eq, Action.outcome_eq]
  exact (congrArg Prod.fst hrun).trans (concluded_fst _ _)

/-- A function that gives a number is passed over if its getter gives one too, and is called if its getter
fails. -/
theorem wrap_constant :
    let d : Decoration := { moduleName := "m", qualifiedName := "f" }
    let f (_ : Unit) : Action Nat := pure 1
    (d.wrap (fun _ => .giving (.int 5)) f ()).outcome {} = .error (.misuse .noAttribute) ∧
      (d.wrap (fun _ => .failing "no attributes") f ()).outcome {} = .ok 1 := by
  intro d f
  constructor
  · have hgetter : (Getter.giving (.int 5)).Obstructs := ⟨rfl, by simp⟩
    have hcall := (wrap_transparent d (fun _ : Unit => .giving (.int 5)) () {}).2 hgetter Nat f
    exact congrArg Prod.fst hcall
  · obtain ⟨_, -, hcall⟩ :=
      (wrap_transparent d (fun _ : Unit => .failing "no attributes") () {}).1 not_false
    exact (hcall Nat f).1

end Decoration

end SqlAst
