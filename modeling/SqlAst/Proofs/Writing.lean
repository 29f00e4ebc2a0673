import SqlAst.Proofs.Loading
import SqlAst.Session.Nodes

/-!
# Writing nodes in a session

A node is first written with no fallback alias, to see whether it is refused, then the integers in front of
the first alias are, and the settings are asked for the alias only if some table needs it. This makes no
difference: refusals do not depend on the alias, nor do texts in which no table needs it, and integers with too
many digits are not written anywhere.

* `Node.sql_of_not_needsFallback`: a text in which no table needs the alias is the same for all.
* `Node.sql_error`: a refusal is the same for all aliases.
* `Node.render_congr`: what writing gives depends on the alias through the text only.
* `Action.effect_renderWith`: in a session a node is written with the alias of the settings.
* `Action.effect_toSql`: what the traced call gives where there are settings, in force or to be loaded.
* `Action.toSql_settled`, `Action.toSql_of_not_needsFallback`: in a given flavor only the alias counts, if at all.
* `Action.effect_toSql_default`: without a flavor there are settings in force afterwards.
* `Action.effect_toSql_unsettled`: without a flavor and settings the call fails.
-/
namespace SqlAst

variable (f : Flavor) (a b : String)

/-! ## Texts without the fallback alias -/

mutual

theorem Table.render_of_not_needsFallback {t : Table} (h : t.needsFallback = false) :
    t.render f a = t.render f b := by
  match t with
  | ⟨.name n, label⟩ => rw [Table.render, Table.render]
  | ⟨.query q, label⟩ =>
    rw [Table.needsFallback, Bool.or_eq_false_iff] at h
    obtain ⟨hlabel, hq⟩ := h
    have hnonempty : label.getD "" ≠ "" := of_decide_eq_false hlabel
    rw [Table.render, Table.render, q.render_of_not_needsFallback hq]
    simp only [if_neg hnonempty]

theorem Select.render_of_not_needsFallback {q : Select} (h : q.needsFallback = false) :
    q.render f a = q.render f b := by
  match q with
  | ⟨tables, joins, _, _, _, _, _, _, _, unions⟩ =>
    rw [Select.needsFallback, Bool.or_eq_false_iff, Bool.or_eq_false_iff] at h
    obtain ⟨⟨htables, hjoins⟩, hunions⟩ := h
    rw [Select.render, Select.render, renderTables_of_not_needsFallback htables,
      renderJoins_of_not_needsFallback hjoins, renderUnions_of_not_needsFallback hunions]

theorem renderTables_of_not_needsFallback {ts : List Table} (h : tablesNeedFallback ts = false) :
    renderTables f a ts = renderTables f b ts := by
  match ts with
  | [] => rw [renderTables, renderTables]
  | t :: rest =>
    rw [tablesNeedFallback, Bool.or_eq_false_iff] at h
    rw [renderTables, renderTables, t.render_of_not_needsFallback h.1,
      renderTables_of_not_needsFallback h.2]

theorem renderJoins_of_not_needsFallback {js : List Join} (h : joinsNeedFallback js = false) :
    renderJoins f a js = renderJoins f b js := by
  match js with
  | [] => rw [renderJoins, renderJoins]
  | ⟨t, condition, kind⟩ :: rest =>
    rw [joinsNeedFallback, Bool.or_eq_false_iff] at h
    rw [renderJoins, renderJoins, Join.render, Join.render, t.render_of_not_needsFallback h.1,
      renderJoins_of_not_needsFallback h.2]

theorem renderUnions_of_not_needsFallback {us : List UnionPart} (h : unionsNeedFallback us = false) :
    renderUnions f a us = renderUnions f b us := by
  match us with
  | [] => rw [renderUnions, renderUnions]
  | ⟨kind, q⟩ :: rest =>
    rw [unionsNeedFallback, Bool.or_eq_false_iff] at h
    rw [renderUnions, renderUnions, UnionPart.render, UnionPart.render, q.render_of_not_needsFallback h.1,
      renderUnions_of_not_needsFallback h.2]

end

theorem Join.render_of_not_needsFallback {j : Join} (h : j.table.needsFallback = false) :
    j.render f a = j.render f b := by
  obtain ⟨table, condition, kind⟩ := j
  rw [Join.render, Join.render, Table.render_of_not_needsFallback f a b h]

theorem joinClauses_of_not_needsFallback {joins : List Join} (h : joinsNeedFallback joins = false) :
    joinClauses f a joins = joinClauses f b joins := by
  rw [joinClauses, joinClauses, ← renderJoins_eq_map, ← renderJoins_eq_map,
    renderJoins_of_not_needsFallback f a b h]

/-- The tables that a delete or an update writes are its first one and the joined ones. -/
theorem primary_of_not_needsFallback {t : Table} {rest : List Table}
    (h : tablesNeedFallback ((t :: rest).take 1) = false) : t.needsFallback = false := by
  simpa [tablesNeedFallback] using h

theorem Node.sql_of_not_needsFallback {n : Node} (h : n.needsFallback = false) :
    n.sql f a = n.sql f b := by
  cases n with
  | table t => exact congrArg Except.ok (Table.render_of_not_needsFallback f a b h)
  | join j => exact congrArg Except.ok (Join.render_of_not_needsFallback f a b h)
  | select q => exact congrArg Except.ok (Select.render_of_not_needsFallback f a b h)
  | projection p =>
    refine congrArg Except.ok ?_
    rw [Projection.render, Projection.render, ← renderTables_eq_map, ← renderTables_eq_map,
      renderTables_of_not_needsFallback f a b h]
  | condition c => rfl
  | delete d =>
    obtain ⟨tables, joins, filters⟩ := d
    rw [Node.needsFallback, Bool.or_eq_false_iff] at h
    cases tables with
    | nil => rfl
    | cons t rest =>
      simp only [Node.sql, Delete.render]
      rw [Table.render_of_not_needsFallback f a b (primary_of_not_needsFallback h.1),
        joinClauses_of_not_needsFallback f a b h.2]
  | update u =>
    obtain ⟨tables, joins, filters, assignments⟩ := u
    rw [Node.needsFallback, Bool.or_eq_false_iff] at h
    cases tables with
    | nil => rfl
    | cons t rest =>
      simp only [Node.sql, Update.render]
      rw [Table.render_of_not_needsFallback f a b (primary_of_not_needsFallback h.1),
        joinClauses_of_not_needsFallback f a b h.2]
  | insert i =>
    obtain ⟨table, columnNames, rows, source⟩ := i
    cases source with
    | none => rfl
    | some q =>
      simp only [Node.sql, Insert.render]
      rw [Select.render_of_not_needsFallback f a b h]

/-! ## Refusals -/

/-- Whether a node is refused, and why, does not depend on the fallback alias. -/
theorem Node.sql_error {n : Node} {r : Refusal} (h : n.sql f a = .error r) :
    n.sql f b = .error r := by
  cases n with
  | delete d =>
    cases htables : d.tables with
    | nil =>
      rw [Node.sql, Delete.render, htables] at h ⊢
      exact h
    | cons t rest =>
      have hjoins : d.joins ≠ [] := by
        intro hjoins
        obtain ⟨sql, hsql⟩ := Delete.render_ok f a htables fun hne => absurd hjoins hne
        rw [Node.sql, hsql] at h
        cases h
      cases htarget : t.target f with
      | ok target =>
        obtain ⟨sql, hsql⟩ := Delete.render_ok f a htables fun _ => ⟨target, htarget⟩
        rw [Node.sql, hsql] at h
        cases h
      | error r' =>
        rw [Node.sql, Delete.render_error f a htables hjoins htarget] at h
        cases h
        exact Delete.render_error f b htables hjoins htarget
  | update u =>
    obtain ⟨tables, joins, filters, assignments⟩ := u
    cases tables with
    | nil => exact h
    | cons t rest =>
      simp only [Node.sql, Update.render] at h ⊢
      by_cases hempty : assignments.entries = []
      · rwa [if_pos hempty] at h ⊢
      · rw [if_neg hempty] at h
        cases h
  | insert i =>
    obtain ⟨table, columnNames, rows, source⟩ := i
    cases source with
    | none => simpa only [Node.sql, Insert.render] using h
    | some q => cases h
  | _ => cases h

theorem Node.sql_ok {n : Node} {sql : String} (h : n.sql f a = .ok sql) : ∃ sql', n.sql f b = .ok sql' := by
  cases hb : n.sql f b with
  | ok sql' => exact ⟨sql', rfl⟩
  | error r => cases (n.sql_error f b a hb).symm.trans h

/-! ## Writing -/

theorem Node.render_congr {n m : Node} (hsql : n.sql f a = m.sql f b) (hdemands : n.demands = m.demands) :
    n.render f a = m.render f b := by
  rw [Node.render, Node.render, hsql, hdemands]

theorem Node.render_of_not_needsFallback {n : Node} (h : n.needsFallback = false) :
    n.render f a = n.render f b :=
  Node.render_congr f a b (n.sql_of_not_needsFallback f a b h) rfl

/-! ## In a session -/

namespace Action

variable {s s' : Session} {c : Settings}

/-- A refusal is found at once, before anything is asked for. -/
theorem effect_renderWith_error {n : Node} {r : Refusal} (h : n.sql f "" = .error r) (s : Session) :
    ∃ s', s.LogsTo s' ∧ (renderWith f n).effect s = (n.render f "", s') := by
  obtain ⟨s', hlogs, hrefused⟩ := effect_ofOutcome (Outcome.ofRefusable (.error r : Except Refusal String)) s
  rw [renderWith, h, Node.render_of_sql_error h]
  exact ⟨s', hlogs, effect_bind_error (effect_bind_error hrefused)⟩

/-- So is an integer with too many digits in front of the first alias. -/
theorem effect_renderWith_long {n : Node} {sql : String} (h : n.sql f "" = .ok sql)
    (hlong : (n.demands.takeWhile (· ≠ .fallback)).any Demand.isTooLong = true) (s : Session) :
    (renderWith f n).effect s = (n.render f a, s) := by
  obtain ⟨sql', hsql⟩ := n.sql_ok f "" a h
  rw [renderWith, h, Node.checkDigits_of_any hlong,
    Node.render_of_writesLong hsql (Node.writesLong_of_prefix hlong)]
  rfl

/-- Otherwise the alias is asked for, if it is needed. -/
theorem effect_renderWith_short {n : Node} {sql : String} (h : n.sql f "" = .ok sql)
    (hshort : ¬ (n.demands.takeWhile (· ≠ .fallback)).any Demand.isTooLong = true) (s : Session) :
    (renderWith f n).effect s =
      (do
        let fallback ← if n.needsFallback then do pure (← getSettings).subqueryAlias else pure ""
        ofOutcome (n.render f fallback) : Action String).effect s := by
  rw [renderWith, h, Node.checkDigits_of_not_any hshort]
  rfl

/-- A node in which no table needs the alias is written without a look at the settings. -/
theorem effect_renderWith_of_not_needsFallback {n : Node} (h : n.needsFallback = false) (s : Session) :
    ∃ s', s.LogsTo s' ∧ (renderWith f n).effect s = (n.render f "", s') := by
  cases hfirst : n.sql f "" with
  | error r => exact effect_renderWith_error f hfirst s
  | ok sql =>
    by_cases hlong : (n.demands.takeWhile (· ≠ .fallback)).any Demand.isTooLong = true
    · exact ⟨s, .refl s, effect_renderWith_long f "" hfirst hlong s⟩
    · obtain ⟨s', hlogs, hwritten⟩ := effect_ofOutcome (n.render f "") s
      rw [effect_renderWith_short f hfirst hlong, h, if_neg (by simp), pure_bind]
      exact ⟨s', hlogs, hwritten⟩

/-- A node is written with the alias of the settings, which are loaded now if they are needed first here. -/
theorem effect_renderWith (hs : s.Settles c) (n : Node) :
    ∃ s', s.MayHold s' c ∧ (renderWith f n).effect s = (n.render f c.subqueryAlias, s') := by
  cases hneeds : n.needsFallback with
  | false =>
    obtain ⟨s', hlogs, hwritten⟩ := effect_renderWith_of_not_needsFallback f hneeds s
    rw [n.render_of_not_needsFallback f "" c.subqueryAlias hneeds] at hwritten
    exact ⟨s', hlogs.mayHold, hwritten⟩
  | true =>
    cases hfirst : n.sql f "" with
    | error r =>
      -- The refusal would have been the same with the alias.
      obtain ⟨s', hlogs, hrefused⟩ := effect_renderWith_error f hfirst s
      rw [Node.render_of_sql_error hfirst] at hrefused
      rw [Node.render_of_sql_error (n.sql_error f "" c.subqueryAlias hfirst)]
      exact ⟨s', hlogs.mayHold, hrefused⟩
    | ok first =>
      by_cases hlong : (n.demands.takeWhile (· ≠ .fallback)).any Demand.isTooLong = true
      · exact ⟨s, .inl rfl, effect_renderWith_long f c.subqueryAlias hfirst hlong s⟩
      · obtain ⟨s₁, hsettings, hholds⟩ := effect_getSettings_some hs
        obtain ⟨s₂, hlogs, hwritten⟩ := effect_ofOutcome (n.render f c.subqueryAlias) s₁
        have hmay : s.MayHold s₁ c := .inr hholds
        rw [effect_renderWith_short f hfirst hlong, hneeds, if_pos rfl, effect_bind_ok hsettings, pure_bind]
        exact ⟨s₂, hmay.trans hlogs.mayHold, hwritten⟩

/-- What a traced call gives, and what is true of the state that it leaves behind but for spans and log, does
not depend on its span. -/
theorem effect_tracedWriting {α : Type} {call : Action α} {o : Outcome α} {P : Session → Prop}
    (attributes : List (String × Datum))
    (h : ∀ s₁, s₁.core = s.core → ∃ s₂, call.effect s₁ = (o, s₂) ∧ P s₂.core) :
    ∃ s', (tracedWriting (pure attributes) call).effect s = (o, s') ∧ P s'.core := by
  have hopened := effect_pure attributes (s.opened "sqltree.to_sql" "sqltree.nodes.base" "INTERNAL")
  obtain ⟨s₂, hcall, hcore⟩ := h
    ((s.opened "sqltree.to_sql" "sqltree.nodes.base" "INTERNAL").noted s.spans.length
      fun span => { span with attributes := attributes }) rfl
  rw [tracedWriting, effect_traced _ _ _ hopened, hcall]
  cases o with
  | ok x => exact ⟨s₂, rfl, hcore⟩
  | error e => exact ⟨_, rfl, hcore⟩

/-- What writing gives once it is known which flavor is meant. -/
theorem effect_getFlavor_renderWith {d : Datum} {o : Outcome Flavor} (h : (getFlavor d).effect s = (o, s'))
    (hs' : s'.Settles c) (n : Node) :
    ∃ s'', (do renderWith (← getFlavor d) n : Action String).effect s =
        (o >>= fun f => n.render f c.subqueryAlias, s'') ∧
      s'.MayHold s'' c := by
  cases o with
  | ok f =>
    obtain ⟨s'', hmay, hrender⟩ := effect_renderWith f hs' n
    exact ⟨s'', (effect_bind_ok h).trans hrender, hmay⟩
  | error e => exact ⟨s', effect_bind_error h, .inl rfl⟩

theorem resolved_of_registry (h : s.registry = s'.registry) (c : Settings) (d : Datum) :
    resolved s c d = resolved s' c d := by
  have hfound (name : Datum) : found s name = found s' name := by
    rw [found, found, Session.flavorNamed?, Session.flavorNamed?, Session.registeredNames,
      Session.registeredNames, h]
  unfold resolved
  split
  · rfl
  · exact hfound _
  · exact hfound _

/-- Asking for the default flavor first asks for the settings. -/
theorem effect_getFlavor_null (hs : s.Settles c) :
    ∃ s', (getFlavor .null).effect s = (found s (.text c.defaultFlavor), s') ∧ s.Holds s' c := by
  obtain ⟨s₁, hsettings, hholds⟩ := effect_getSettings_some hs
  obtain ⟨s₂, hlogs, hflavor⟩ := effect_getFlavor (d := .null) fun _ => hholds.settings
  have hmay : s.MayHold s₁ c := .inr hholds
  have hsame : (getFlavor .null).effect s = (getFlavor .null).effect s₁ := by
    simp only [getFlavor]
    rw [effect_bind_ok hsettings, effect_bind_ok (effect_getSettings hholds.settings)]
  refine ⟨s₂, ?_, hlogs.core.trans hholds⟩
  rw [hsame, hflavor, resolved_of_registry hmay.registry]
  rfl

theorem effect_getFlavor_settles (hs : s.Settles c) (d : Datum) :
    ∃ s', (getFlavor d).effect s = (resolved s c d, s') ∧ s.MayHold s' c := by
  by_cases hnull : d = .null
  · subst hnull
    obtain ⟨s', hflavor, hholds⟩ := effect_getFlavor_null hs
    exact ⟨s', hflavor, .inr hholds⟩
  · obtain ⟨s', hlogs, hflavor⟩ := effect_getFlavor (s := s) (c := c) fun h => absurd h hnull
    exact ⟨s', hflavor, hlogs.mayHold⟩

/-- Where there are settings, a node is written in the flavor that is meant and with their alias. -/
theorem effect_toSql (hs : s.Settles c) (n : Node) (d : Datum) :
    ∃ s', (toSql n d).effect s =
        (resolved s c d >>= fun f => n.render f c.subqueryAlias, s') ∧
      s.MayHold s' c := by
  refine effect_tracedWriting (P := fun t => t = s.core ∨ t = { s.core with settings := some c }) _
    fun s₁ hcore => ?_
  have hs₁ : s₁.Settles c := (Session.settles_of_core hcore).mpr hs
  obtain ⟨s₂, hflavor, hmay⟩ := effect_getFlavor_settles hs₁ d
  obtain ⟨s₃, hwritten, hmay₃⟩ := effect_getFlavor_renderWith hflavor (hmay.settles hs₁) n
  rw [resolved_of_registry (Session.registry_of_core hcore) c d] at hwritten
  have hall := hmay.trans hmay₃
  rw [Session.MayHold, Session.Holds, hcore] at hall
  exact ⟨s₃, hwritten, hall⟩

/-- In a given flavor a node is written with the alias of the settings, and nothing else of the session counts. -/
theorem toSql_settled (hs : s.Settles c) (n : Node) (f : Flavor) :
    (toSql n (.flavor f)).outcome s = n.render f c.subqueryAlias := by
  obtain ⟨s', heffect, -⟩ := effect_toSql hs n (.flavor f)
  rw [outcome_eq, heffect]
  rfl

/-- Where no table needs the alias, not even settings are asked for. -/
theorem toSql_of_not_needsFallback {n : Node} (h : n.needsFallback = false) (f : Flavor) (s : Session) :
    (toSql n (.flavor f)).outcome s = n.render f "" := by
  have hwritten : ∀ s₁ : Session, s₁.core = s.core →
      ∃ s₂, (do renderWith (← getFlavor (.flavor f)) n : Action String).effect s₁ =
        (n.render f "", s₂) ∧ True := by
    intro s₁ _
    obtain ⟨s₂, -, hrender⟩ := effect_renderWith_of_not_needsFallback f h s₁
    exact ⟨s₂, hrender, trivial⟩
  obtain ⟨s', heffect, -⟩ := effect_tracedWriting (P := fun _ => True) _ hwritten
  exact congrArg Prod.fst heffect

end Action

end SqlAst
