import SqlAst.Proofs.Assignments
import SqlAst.Proofs.Transparency
import SqlAst.Session.Nodes

/-!
# Spans of decorated calls

A decorated call opens one span of its own, which tells what was called, with which attributes, and how it
ended; the spans of the decorated calls made inside follow it. `Action.Opens` says which spans a call opens:
those of the traced calls that are made in the course of it, in the order in which these start.

* `Action.Opens.spans_eq`: the spans that a call opens are added behind those that are there.
* `Action.Traceable.exists_opens`: a call that opens spans by traced calls only opens some list of spans.
* `Decoration.wrap_opens`: the span of a decorated call, and those inside.
* `Action.toSql_eq_run`, `Action.deserialize_eq_run`: writing and reading nodes are decorated calls.
-/
namespace SqlAst

/-- What a call failed with. -/
def Outcome.failure? {α : Type} : Outcome α → Option Failure
  | .ok _ => none
  | .error e => some e

namespace Action

/-! ## Calls that open no spans -/

/-- A call leaves the spans as they are. -/
def Quiet {α : Type} (a : Action α) : Prop := ∀ s, (a.effect s).2.spans = s.spans

section

variable {α β : Type}

theorem spans_of_logsTo {s s' : Session} (h : s.LogsTo s') : s'.spans = s.spans := by
  obtain ⟨more, -, rfl⟩ := h
  rfl

theorem quiet_pure (x : α) : Quiet (pure x) := fun _ => rfl

theorem quiet_get : Quiet get := fun _ => rfl

theorem quiet_modify {step : Session → Session} (h : ∀ s, (step s).spans = s.spans) :
    Quiet (modify step : Action PUnit) := h

theorem quiet_bind {a : Action α} {g : α → Action β} (ha : Quiet a) (hg : ∀ x, Quiet (g x)) :
    Quiet (a >>= g) := by
  intro s
  have hspans := ha s
  rcases heffect : a.effect s with ⟨_ | x, s'⟩
  · rw [heffect] at hspans
    rw [effect_bind_error heffect]
    exact hspans
  · rw [heffect] at hspans
    rw [effect_bind_ok heffect, hg x s']
    exact hspans

theorem quiet_log (logger : String) (level : Int) (message : String) : Quiet (log logger level message) :=
  fun s => spans_of_logsTo (s.logsTo_log _ _ _ _ _)

theorem quiet_fail (e : Failure) : Quiet (fail e : Action α) := fun s => by
  rw [effect_fail]
  exact spans_of_logsTo (s.logsTo_failed e)

theorem quiet_ofOutcome (o : Outcome α) : Quiet (ofOutcome o) := fun s => by
  obtain ⟨s', hlogs, heffect⟩ := effect_ofOutcome o s
  rw [heffect]
  exact spans_of_logsTo hlogs

theorem quiet_reloadSettings : Quiet reloadSettings := by
  refine quiet_bind quiet_get fun s => ?_
  split
  · exact quiet_bind (quiet_modify fun _ => rfl) fun _ => quiet_pure _
  · exact quiet_fail _

theorem quiet_getSettings : Quiet getSettings := by
  refine quiet_bind quiet_get fun s => ?_
  split
  · exact quiet_pure _
  · exact quiet_reloadSettings

theorem quiet_getFlavor (flavor : Datum) : Quiet (getFlavor flavor) := by
  unfold getFlavor
  split
  · exact quiet_pure _
  · extract_lets find
    have hfind (name : Datum) : Quiet (find name) := by
      simp only [find]
      split
      · refine quiet_bind quiet_get fun s => ?_
        split
        · exact quiet_pure _
        · refine quiet_bind quiet_get fun s => ?_
          split
          · exact quiet_bind (quiet_pure _) fun _ => quiet_fail _
          · exact quiet_bind (quiet_fail _) fun _ => quiet_fail _
      · exact quiet_fail _
    split
    · exact quiet_bind quiet_getSettings fun c => quiet_bind (quiet_pure _) hfind
    · exact quiet_bind (quiet_pure _) hfind

theorem quiet_discard {a : Action α} (h : Quiet a) : Quiet (discard a) := fun s => by
  have hspans := h s
  rcases heffect : a.effect s with ⟨o, s'⟩
  rw [heffect] at hspans
  rw [effect_discard heffect]
  exact hspans

theorem quiet_renderWith (f : Flavor) (n : Node) : Quiet (renderWith f n) := by
  refine quiet_bind (quiet_discard (quiet_ofOutcome _)) fun _ => ?_
  split
  · exact quiet_bind (quiet_ofOutcome _) fun _ => quiet_bind quiet_getSettings fun _ =>
      quiet_bind (quiet_pure _) fun _ => quiet_ofOutcome _
  · exact quiet_bind (quiet_ofOutcome _) fun _ => quiet_bind (quiet_pure _) fun _ => quiet_ofOutcome _

end

/-! ## Spans that calls open -/

/-- The spans that a call opens in a session, in the order in which they start: for a traced call its own
one, with the attributes that were found and with the failure of the call, and then those that the call
opens. -/
inductive Opens : {α : Type} → Action α → Session → List Span → Prop where
  | quiet {α : Type} {a : Action α} {s : Session} (h : (a.effect s).2.spans = s.spans) : Opens a s []
  | bindOk {α β : Type} {a : Action α} {g : α → Action β} {s s' : Session} {x : α} {opened more : List Span}
      (hfirst : Opens a s opened) (heffect : a.effect s = (.ok x, s')) (hnext : Opens (g x) s' more) :
      Opens (a >>= g) s (opened ++ more)
  | bindError {α β : Type} {a : Action α} {g : α → Action β} {s s' : Session} {e : Failure}
      {opened : List Span} (hfirst : Opens a s opened) (heffect : a.effect s = (.error e, s')) :
      Opens (a >>= g) s opened
  | catchOk {α : Type} {a : Action α} {handler : Failure → Action α} {s s' : Session} {x : α}
      {opened : List Span} (hfirst : Opens a s opened) (heffect : a.effect s = (.ok x, s')) :
      Opens (tryCatch a handler) s opened
  | catchError {α : Type} {a : Action α} {handler : Failure → Action α} {s s' : Session} {e : Failure}
      {opened more : List Span} (hfirst : Opens a s opened) (heffect : a.effect s = (.error e, s'))
      (hnext : Opens (handler e) s' more) : Opens (tryCatch a handler) s (opened ++ more)
  | traced {α : Type} {name tracer kind : String} {attributes : Action (List (String × Datum))}
      {call : Action α} {s s' : Session} {found : List (String × Datum)} {inside : List Span}
      (hfound : attributes.effect (s.opened name tracer kind) = (.ok found, s'))
      (hquiet : s'.spans = (s.opened name tracer kind).spans)
      (hcall : Opens call (s'.noted s.spans.length fun span => { span with attributes := found }) inside) :
      Opens (traced name tracer kind attributes call) s
        (⟨name, tracer, kind, found,
          (call.outcome (s'.noted s.spans.length fun span => { span with attributes := found })).failure?⟩ ::
          inside)

/-- A call opens spans by traced calls only, whose attributes are found. -/
inductive Traceable : {α : Type} → Action α → Prop where
  | quiet {α : Type} {a : Action α} (h : Quiet a) : Traceable a
  | bind {α β : Type} {a : Action α} {g : α → Action β} (hfirst : Traceable a)
      (hnext : ∀ x, Traceable (g x)) : Traceable (a >>= g)
  | tryCatch {α : Type} {a : Action α} {handler : Failure → Action α} (hfirst : Traceable a)
      (hnext : ∀ e, Traceable (handler e)) : Traceable (tryCatch a handler)
  | traced {α : Type} {name tracer kind : String} {attributes : Action (List (String × Datum))}
      {call : Action α}
      (hfound : ∀ s, ∃ found s', attributes.effect s = (.ok found, s') ∧ s'.spans = s.spans)
      (hcall : Traceable call) : Traceable (traced name tracer kind attributes call)

theorem Traceable.exists_opens {α : Type} {a : Action α} (h : a.Traceable) (s : Session) :
    ∃ opened, a.Opens s opened := by
  induction h generalizing s with
  | quiet h => exact ⟨[], .quiet (h s)⟩
  | bind _ _ ihFirst ihNext =>
    rename_i a g _ _
    obtain ⟨opened, hopened⟩ := ihFirst s
    rcases heffect : a.effect s with ⟨e | x, s'⟩
    · exact ⟨opened, .bindError hopened heffect⟩
    · obtain ⟨more, hmore⟩ := ihNext x s'
      exact ⟨opened ++ more, .bindOk hopened heffect hmore⟩
  | tryCatch _ _ ihFirst ihNext =>
    rename_i a handler _ _
    obtain ⟨opened, hopened⟩ := ihFirst s
    rcases heffect : a.effect s with ⟨e | x, s'⟩
    · obtain ⟨more, hmore⟩ := ihNext e s'
      exact ⟨opened ++ more, .catchError hopened heffect hmore⟩
    · exact ⟨opened, .catchOk hopened heffect⟩
  | traced hfound _ ihCall =>
    rename_i name tracer kind attributes call _
    obtain ⟨found, s', heffect, hquiet⟩ := hfound (s.opened name tracer kind)
    obtain ⟨inside, hinside⟩ := ihCall (s'.noted s.spans.length fun span => { span with attributes := found })
    exact ⟨_, .traced heffect hquiet hinside⟩

theorem modify_length_append {α : Type} (before after : List α) (x : α) (change : α → α) :
    (before ++ x :: after).modify before.length change = before ++ change x :: after := by
  simp [List.modify_eq_take_drop]

/-- The end of a call whose span is open: the span keeps the failure, and the others stay as they are. -/
theorem spans_concluded {α : Type} {r : Outcome α × Session} {before inside : List Span} {own : Span}
    (h : r.2.spans = before ++ own :: inside) (hown : own.failure = none) :
    (Decoration.concluded before.length r).2.spans =
      before ++ { own with failure := r.1.failure? } :: inside := by
  obtain ⟨e | x, s⟩ := r
  · have hspans : s.spans = before ++ own :: inside := h
    simp only [Decoration.concluded, Session.noted, hspans, modify_length_append]
    rfl
  · obtain ⟨name, tracer, kind, attributes, failure⟩ := own
    obtain rfl : failure = none := hown
    exact h

theorem records_concluded {α : Type} (place : Nat) (r : Outcome α × Session) :
    (Decoration.concluded place r).2.records = r.2.records := by
  obtain ⟨_ | _, s⟩ := r <;> rfl

/-- The spans that a call opens come behind those that are there, which stay as they are. -/
theorem Opens.spans_eq {α : Type} {a : Action α} {s : Session} {opened : List Span} (h : a.Opens s opened) :
    (a.effect s).2.spans = s.spans ++ opened := by
  induction h with
  | quiet h => rw [h, List.append_nil]
  | bindOk _ heffect _ ihFirst ihNext =>
    rw [heffect] at ihFirst
    rw [effect_bind_ok heffect, ihNext, ihFirst, List.append_assoc]
  | bindError _ heffect ihFirst =>
    rw [heffect] at ihFirst
    rw [effect_bind_error heffect, ihFirst]
  | catchOk _ heffect ihFirst =>
    rw [heffect] at ihFirst
    rw [effect_tryCatch, heffect]
    exact ihFirst
  | catchError _ heffect _ ihFirst ihNext =>
    rw [heffect] at ihFirst
    rw [effect_tryCatch, heffect]
    exact ihNext.trans (by rw [ihFirst, List.append_assoc])
  | @traced α name tracer kind attributes call s s' found inside hfound hquiet _ ihCall =>
    have hconcluded : (Action.traced name tracer kind attributes call).effect s =
        Decoration.concluded s.spans.length
          (call.effect (s'.noted s.spans.length fun span => { span with attributes := found })) := by
      rw [effect_traced name tracer kind hfound]
      rfl
    have hentered : (s'.noted s.spans.length fun span => { span with attributes := found }).spans =
        s.spans ++ [⟨name, tracer, kind, found, none⟩] := by
      rw [Session.noted, hquiet]
      exact modify_length_append s.spans [] _ _
    rw [hentered, List.append_assoc] at ihCall
    rw [hconcluded, spans_concluded ihCall rfl]
    rfl

end Action

/-! ## Getters -/

namespace Getter

/-- What a getter contributes: nothing if it is absent, fails or gives what counts as false, or else the
entries of the dictionary that it gives. -/
inductive Finds : Getter → List (String × Datum) → Prop where
  | absent : Finds .absent []
  | failing (message : String) : Finds (.failing message) []
  | falsy {result : Datum} (h : result.isTrue = false) : Finds (.giving result) []
  | entries (es : List (Datum × Datum)) : Finds (.giving (.dict es)) (Datum.textEntries es)

/-- The warning about a getter that fails. -/
def warning (message : String) : Log.Record :=
  .make "sqltree.utils.decorators" 30 (.text ("trace attribute getter failed: " ++ message)) [] (.int 0) .null

/-- The records that asking a getter leaves in a session: exactly one warning if it fails, unless logging is set
up for errors only. Before logging is set up the warning is logged as it is, and from then on with what the
context stamps. -/
structure Warns (g : Getter) (s : Session) (warnings : List Log.Record) : Prop where
  succeeded : (∀ message, g ≠ .failing message) → warnings = []
  unset : ∀ message, g = .failing message → s.threshold = none → warnings = [warning message]
  heard : ∀ message least, g = .failing message → s.threshold = some least → least ≤ 30 →
    warnings = [s.context.applyTo (warning message)]
  unheard : ∀ least, s.threshold = some least → 30 < least → warnings = []

theorem Finds.not_obstructs {g : Getter} {es : List (String × Datum)} (h : g.Finds es) : ¬ g.Obstructs := by
  cases h with
  | absent => exact id
  | failing message => exact id
  | falsy h =>
    rintro ⟨htrue, -⟩
    rw [h] at htrue
    cases htrue
  | entries => exact fun h => h.2 _ rfl

theorem Finds.entries_eq {g : Getter} {es : List (String × Datum)} (h : g.Finds es) : g.entries = es := by
  cases h with
  | absent => rfl
  | failing message => rfl
  | @falsy result h =>
    cases result with
    | dict es =>
      cases es with
      | nil => rfl
      | cons e rest => cases h
    | _ => rfl
  | entries => rfl

theorem exists_warns (g : Getter) (s : Session) :
    ∃ warnings, g.Warns s warnings ∧ g.heard s = { s with records := s.records ++ warnings } := by
  have hquiet (h : ∀ message, g ≠ .failing message) (hheard : g.heard s = s) :
      ∃ warnings, g.Warns s warnings ∧ g.heard s = { s with records := s.records ++ warnings } :=
    ⟨[], ⟨fun _ => rfl, fun _ hfailing => (h _ hfailing).elim, fun _ _ hfailing => (h _ hfailing).elim,
      fun _ _ _ => rfl⟩, by rw [hheard, List.append_nil]⟩
  cases g with
  | absent => exact hquiet nofun rfl
  | giving result => exact hquiet nofun rfl
  | failing message =>
    let logged := if s.threshold.isSome then s.context.applyTo (warning message) else warning message
    rcases Int.lt_or_le 30 (s.threshold.getD Session.defaultThreshold) with hlevel | hlevel
    · refine ⟨[], ⟨fun _ => rfl, fun _ _ hnone => ?_, fun _ least _ hleast hle => ?_, fun _ _ _ => rfl⟩, ?_⟩
      · rw [hnone] at hlevel
        exact absurd hlevel (by decide)
      · rw [hleast] at hlevel
        exact absurd hle (Int.not_le.mpr hlevel)
      · rw [heard, s.log_unheard hlevel, List.append_nil]
    · refine ⟨[logged], ⟨fun h => (h message rfl).elim, fun _ hfailing hnone => ?_,
        fun _ least hfailing hleast _ => ?_, fun least hleast hlt => ?_⟩, s.log_heard hlevel _ _ _ _⟩
      · cases hfailing
        simp [logged, hnone]
      · cases hfailing
        simp [logged, hleast]
      · rw [hleast] at hlevel
        exact absurd hlevel (Int.not_le.mpr hlt)

end Getter

/-! ## The span of a decorated call -/

namespace Decoration

variable {δ α : Type}

/-- A span tells of a call what the decoration and the getter say, and how the call ended. -/
structure Describes (d : Decoration) (dynamic : List (String × Datum)) (outcome : Outcome α) (own : Span) :
    Prop where
  name : own.name = if d.spanName = "" then d.moduleName ++ "." ++ d.qualifiedName else d.spanName
  tracer : own.tracer = d.moduleName
  kind : own.kind = d.kind
  /-- No name has two attributes. -/
  distinct : (Entries.keys own.attributes).Nodup
  /-- The attributes are those that the getter found, and the fixed ones that it found nothing for; a null
  counts as nothing. -/
  attributes : ∀ key v, (key, v) ∈ own.attributes ↔ v ≠ .null ∧
    ((key, v) ∈ dynamic ∨ (key, v) ∈ d.attributes ∧ ∀ w, (key, w) ∈ dynamic → w = .null)
  failure : ∀ e, own.failure = some e ↔ outcome = .error e
  error : own.status = "ERROR" ↔ ∃ e, outcome = .error e
  unset : own.status = "UNSET" ↔ ∃ x, outcome = .ok x

theorem mem_present {es : List (String × Datum)} {key : String} {v : Datum} :
    (key, v) ∈ present es ↔ (key, v) ∈ es ∧ v ≠ .null := by
  rw [present, List.mem_filter]
  cases v <;> simp

theorem nodup_present {es : List (String × Datum)} (h : (Entries.keys es).Nodup) :
    (Entries.keys (present es)).Nodup := h.sublist (List.filter_sublist.map _)

theorem mem_found_iff {d : Decoration} (hstatic : (Entries.keys d.attributes).Nodup)
    (hdynamic : (Entries.keys d.getter.entries).Nodup) (key : String) (v : Datum) :
    (key, v) ∈ d.found ↔ v ≠ .null ∧ ((key, v) ∈ d.getter.entries ∨
      (key, v) ∈ d.attributes ∧ ∀ w, (key, w) ∈ d.getter.entries → w = .null) := by
  have hfixed := nodup_present hstatic
  rw [found, Entries.mem_iff_last? (Entries.nodup_merge hfixed), Entries.last?_merge hfixed,
    Option.or_eq_some_iff, Entries.last?_eq_none_iff, ← Entries.mem_iff_last? (nodup_present hdynamic),
    ← Entries.mem_iff_last? hfixed, mem_present, mem_present]
  have hnothing : (∀ e ∈ present d.getter.entries, e.1 ≠ key) ↔
      ∀ w, (key, w) ∈ d.getter.entries → w = .null := by
    constructor
    · intro h w hw
      by_contra hnull
      exact h (key, w) (mem_present.mpr ⟨hw, hnull⟩) rfl
    · rintro h ⟨_, w⟩ hw rfl
      exact (mem_present.mp hw).2 (h w (mem_present.mp hw).1)
  rw [hnothing]
  tauto

theorem describes_found {d : Decoration} {g : Getter} {dynamic : List (String × Datum)}
    (hstatic : (Entries.keys d.attributes).Nodup) (hgetter : g.Finds dynamic)
    (hdynamic : (Entries.keys dynamic).Nodup) (outcome : Outcome α) :
    d.Describes dynamic outcome
      ⟨d.label, d.moduleName, d.kind, found { d with getter := g }, outcome.failure?⟩ where
  name := rfl
  tracer := rfl
  kind := rfl
  distinct := Entries.nodup_merge (nodup_present hstatic)
  attributes := by
    rw [← hgetter.entries_eq] at hdynamic ⊢
    exact mem_found_iff (d := { d with getter := g }) hstatic hdynamic
  failure e := by cases outcome <;> simp [Outcome.failure?]
  error := by cases outcome <;> simp [Outcome.failure?, Span.status]
  unset := by cases outcome <;> simp [Outcome.failure?, Span.status]

/-- Decorated calls may be made inside others. -/
theorem traceable_run {d : Decoration} (h : ¬ d.getter.Obstructs) {call : Action α} (hcall : call.Traceable) :
    (d.run call).Traceable :=
  .traced (fun s => ⟨d.found, d.getter.heard s, effect_collect h s,
    Action.spans_of_logsTo (d.getter.logsTo_heard s)⟩) hcall

/-- A call of a decorated function, with whatever fixed attributes and with a getter that fails, finds
nothing or gives a dictionary. The call opens one span of its own and, behind it, the spans of the traced
calls that the function makes; its own span tells what was called, with which attributes and how it ended.
The function is called with the span open. A getter that fails leaves one warning, unless logging is set up for
errors only; any other leaves none. -/
theorem wrap_opens (d : Decoration) (getter : δ → Getter) (f : δ → Action α) (args : δ) (s : Session)
    {dynamic : List (String × Datum)} (hstatic : (Entries.keys d.attributes).Nodup)
    (hgetter : (getter args).Finds dynamic) (hdynamic : (Entries.keys dynamic).Nodup)
    (hf : (f args).Traceable) :
    ∃ own inside warnings,
      let entered : Session :=
        { s with spans := s.spans ++ [{ own with failure := none }], records := s.records ++ warnings }
      let called := (f args).effect entered
      let result := (d.wrap getter f args).effect s
      result.1 = called.1 ∧ result.2.records = called.2.records ∧
        result.2.spans = s.spans ++ own :: inside ∧ (f args).Opens entered inside ∧
        d.Describes dynamic called.1 own ∧ (getter args).Warns s warnings := by
  let own : Decoration := { d with getter := getter args }
  obtain ⟨warnings, hwarns, hheard⟩ := (getter args).exists_warns s
  let called := (f args).effect (own.entered s)
  have hentered : own.entered s =
      { s with
        spans := s.spans ++ [⟨d.label, d.moduleName, d.kind, own.found, none⟩]
        records := s.records ++ warnings } := by
    rw [Decoration.entered, hheard]
    rfl
  obtain ⟨inside, hinside⟩ := hf.exists_opens (own.entered s)
  have hspans : called.2.spans =
      s.spans ++ ⟨d.label, d.moduleName, d.kind, own.found, none⟩ :: inside := by
    rw [hinside.spans_eq, hentered, List.append_assoc]
    rfl
  have hresult : (d.wrap getter f args).effect s = concluded s.spans.length called :=
    effect_run hgetter.not_obstructs (f args) s
  refine ⟨⟨d.label, d.moduleName, d.kind, own.found, called.1.failure?⟩, inside, warnings, ?_⟩
  intro entered reached result
  have hreached : reached = called := congrArg (f args).effect hentered.symm
  have hopens : (f args).Opens entered inside := by
    rw [hentered] at hinside
    exact hinside
  rw [hreached]
  refine ⟨?_, ?_, ?_, hopens, describes_found hstatic hgetter hdynamic _, hwarns⟩
  · exact (congrArg Prod.fst hresult).trans (concluded_fst _ _)
  · exact (congrArg (·.2.records) hresult).trans (Action.records_concluded _ _)
  · exact (congrArg (·.2.spans) hresult).trans (Action.spans_concluded hspans rfl)

/-- A fixed attribute survives a null of the getter and gives way to a value; the span of a call inside comes
next. -/
theorem wrap_opens_nested :
    let inner : Decoration := { moduleName := "app", qualifiedName := "load" }
    let outer : Decoration :=
      { moduleName := "app", qualifiedName := "report", attributes := [("rows", .int 1), ("page", .int 2)] }
    let getter (_ : Unit) : Getter := .giving (.record [("rows", .null), ("page", .int 3)])
    let f (_ : Unit) : Action Unit := do
      inner.run (pure ())
      Action.misuse .wrongValue
    ∃ own inside, ((outer.wrap getter f ()).effect {}).2.spans = own :: inside ∧ own.name = "app.report" ∧
      ("rows", .int 1) ∈ own.attributes ∧ ("page", .int 3) ∈ own.attributes ∧ own.status = "ERROR" ∧
      inside.map Span.name = ["app.load"] := by
  intro inner outer getter f
  have hf : (f ()).Traceable :=
    .bind (traceable_run id (.quiet (Action.quiet_pure ()))) fun _ => .quiet (Action.quiet_fail _)
  obtain ⟨own, inside, warnings, -, -, hspans, -, htells, -⟩ := wrap_opens outer getter f () {}
    (by decide) (.entries [(.text "rows", .null), (.text "page", .int 3)]) (by decide) hf
  refine ⟨own, inside, hspans, htells.name, ?_, ?_, htells.error.mpr ⟨_, rfl⟩, ?_⟩
  · exact (htells.attributes _ _).mpr
      ⟨by simp, .inr ⟨by simp [outer], by simp [Datum.textEntries, Datum.asText?]⟩⟩
  · exact (htells.attributes _ _).mpr ⟨by simp, .inl (by simp [Datum.textEntries, Datum.asText?])⟩
  · have hnames := congrArg (List.map Span.name) hspans
    exact (List.cons.inj hnames).2.symm

end Decoration

/-! ## The library's own decorated calls -/

namespace Action

theorem toSql_eq_run (n : Node) (flavor : Datum) :
    toSql n flavor =
      Decoration.run
        { moduleName := "sqltree.nodes.base", qualifiedName := "SQLNode.to_sql", spanName := "sqltree.to_sql"
          getter := .giving (.record [("sqltree.node", .text n.typeName)]) }
        (do renderWith (← getFlavor flavor) n) := rfl

theorem deserialize_eq_run (text : Datum) :
    deserialize text =
      Decoration.run
        { moduleName := "sqltree.nodes.builder", qualifiedName := "NodeBuilder.deserialize"
          spanName := "sqltree.deserialize" }
        (do
          let n ← ofOutcome (Decode.ofTaggedText text)
          log "sqltree.nodes.builder" 10 ("Deserialized " ++ n.typeName ++ " node")
          pure n) := rfl

theorem traceable_toSql (n : Node) (flavor : Datum) : (toSql n flavor).Traceable := by
  rw [toSql_eq_run]
  exact Decoration.traceable_run (Getter.Finds.entries _).not_obstructs
    (.quiet (quiet_bind (quiet_getFlavor flavor) fun f => quiet_renderWith f n))

theorem traceable_deserialize (text : Datum) : (deserialize text).Traceable := by
  rw [deserialize_eq_run]
  exact Decoration.traceable_run id
    (.quiet (quiet_bind (quiet_ofOutcome _) fun _ => quiet_bind (quiet_log _ _ _) fun _ => quiet_pure _))

end Action

end SqlAst
