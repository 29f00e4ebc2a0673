import SqlAst.Proofs.WrittenIntegers
import SqlAst.Session.Nodes

/-!
# Nodes that are not written

Writing a node in a flavor ends in its text, in a fault with one of two codes, or in a bare error for an integer
with too many digits. Only statements that change rows can be refused, each for reasons of its own:
`Node.Refused` lists them.

* `Table.name_cases`: the name of a table is missing exactly if its sources end in a statement without
  tables.
* `Node.sql_cases`: whether a node has a text, whatever the fallback alias.
* `Node.toSql_ends`: what the traced call ends in, in a session whose settings are loaded.
-/
namespace SqlAst

/-! ## Reasons -/

/-- The first tables inside a table, from statement to statement, end in a statement without tables. -/
inductive Table.Nameless : Table → Prop where
  | here {q : Select} {label : Option String} : q.tables = [] → Nameless ⟨.query q, label⟩
  | inside {q : Select} {t : Table} {rest : List Table} {label : Option String} :
    q.tables = t :: rest → Nameless t → Nameless ⟨.query q, label⟩

/-- A table without an alias of its own; an empty one counts as none. -/
def Table.IsBare (t : Table) : Prop := t.label.getD "" = ""

theorem Table.target_of_isBare (f : Flavor) {t : Table} (h : t.IsBare) :
    t.target f = t.name.map f.escapeName := by
  rw [Table.target]
  exact if_pos h

/-- The nodes that are refused, each with the code of the fault. -/
inductive Node.Refused : Node → FaultCode → Prop where
  | deleteWithoutTable {d : Delete} : d.tables = [] → Refused (.delete d) .noTable
  | deleteWithoutTarget {d : Delete} {t : Table} {rest : List Table} :
    d.tables = t :: rest → d.joins ≠ [] → t.IsBare → t.Nameless → Refused (.delete d) .noTable
  | updateWithoutTable {u : Update} : u.tables = [] → Refused (.update u) .noTable
  | updateOfNothing {u : Update} {t : Table} {rest : List Table} :
    u.tables = t :: rest → u.assignments.entries = [] → ¬ t.Nameless → Refused (.update u) .validation
  | updateOfNameless {u : Update} {t : Table} {rest : List Table} :
    u.tables = t :: rest → u.assignments.entries = [] → t.Nameless → Refused (.update u) .noTable
  | insertOfNothing {i : Insert} :
    i.source = none → i.rows = [] ∨ i.columns = [] → Refused (.insert i) .validation

/-! ## Names of tables -/

mutual

theorem Table.name_cases (t : Table) :
    ((∃ n, t.name = .ok n) ∧ ¬ t.Nameless) ∨ (∃ r, t.name = .error (.noTable r)) ∧ t.Nameless := by
  match t with
  | ⟨.name n, label⟩ =>
    refine .inl ⟨⟨n, by rw [Table.name]⟩, fun h => ?_⟩
    cases h
  | ⟨.query q, label⟩ =>
    rcases q.sourceName_cases with ⟨hname, hno⟩ | ⟨hname, hyes⟩
    · refine .inl ⟨by rwa [Table.name], fun h => hno ?_⟩
      cases h with
      | here he => exact .inl he
      | inside ht hinside => exact .inr ⟨_, _, ht, hinside⟩
    · refine .inr ⟨by rwa [Table.name], ?_⟩
      rcases hyes with he | ⟨t, rest, ht, hinside⟩
      · exact .here he
      · exact .inside ht hinside

theorem Select.sourceName_cases (q : Select) :
    ((∃ n, q.sourceName = .ok n) ∧
        ¬ (q.tables = [] ∨ ∃ t rest, q.tables = t :: rest ∧ t.Nameless)) ∨
      (∃ r, q.sourceName = .error (.noTable r)) ∧
        (q.tables = [] ∨ ∃ t rest, q.tables = t :: rest ∧ t.Nameless) := by
  match q with
  | ⟨[], _, _, _, _, _, _, _, _, _⟩ => exact .inr ⟨⟨_, by rw [Select.sourceName]⟩, .inl rfl⟩
  | ⟨t :: rest, _, _, _, _, _, _, _, _, _⟩ =>
    rcases t.name_cases with ⟨hname, hno⟩ | ⟨hname, hyes⟩
    · refine .inl ⟨by rwa [Select.sourceName], ?_⟩
      rintro (he | ⟨t', rest', ht, hyes⟩)
      · cases he
      · cases ht
        exact hno hyes
    · exact .inr ⟨by rwa [Select.sourceName], .inr ⟨t, rest, rfl, hyes⟩⟩

end

/-! ## What writing ends in -/

/-- An end that agrees with the reasons for refusing a node. -/
def Node.EndsIn (n : Node) (o : Except Refusal String) : Prop :=
  ((∃ sql, o = .ok sql) ∧ ∀ code, ¬ n.Refused code) ∨
    ∃ r, o = .error r ∧ ∀ code, n.Refused code ↔ (Fault.refused r).code = code

section

variable (f : Flavor) (fallback : String)

/-- A delete is written without joins, or with a target. -/
theorem Delete.render_ok {d : Delete} {t : Table} {rest : List Table} (ht : d.tables = t :: rest)
    (h : d.joins ≠ [] → ∃ target, t.target f = .ok target) : ∃ sql, d.render f fallback = .ok sql := by
  unfold Delete.render
  rw [ht]
  dsimp only
  by_cases hjoins : d.joins = []
  · rw [if_pos hjoins]
    exact ⟨_, rfl⟩
  · obtain ⟨target, htarget⟩ := h hjoins
    rw [if_neg hjoins, htarget]
    exact ⟨_, rfl⟩

/-- With joins, a delete without a target is refused for the same reason. -/
theorem Delete.render_error {d : Delete} {t : Table} {rest : List Table} {r : Refusal}
    (ht : d.tables = t :: rest) (hjoins : d.joins ≠ []) (htarget : t.target f = .error r) :
    d.render f fallback = .error r := by
  unfold Delete.render
  rw [ht]
  dsimp only
  rw [if_neg hjoins, htarget]
  rfl

/-- With nothing to set, an update is refused, by the name of its table if there is one. -/
theorem Update.render_empty {u : Update} {t : Table} {rest : List Table} (ht : u.tables = t :: rest)
    (hempty : u.assignments.entries = []) :
    u.render f fallback = t.name >>= fun n => .error (.nothingToSet n) := by
  unfold Update.render
  rw [ht]
  exact if_pos hempty

theorem Update.render_ok {u : Update} {t : Table} {rest : List Table} (ht : u.tables = t :: rest)
    (hempty : u.assignments.entries ≠ []) : ∃ sql, u.render f fallback = .ok sql := by
  unfold Update.render
  rw [ht]
  exact ⟨_, if_neg hempty⟩

theorem Delete.render_cases (d : Delete) : (Node.delete d).EndsIn (d.render f fallback) := by
  obtain ⟨tables, joins, filters⟩ := d
  cases tables with
  | nil =>
    refine .inr ⟨_, rfl, fun code => ⟨fun h => ?_, fun h => ?_⟩⟩
    · cases h with
      | deleteWithoutTable => rfl
      | deleteWithoutTarget ht => cases ht
    · cases h
      exact .deleteWithoutTable rfl
  | cons t rest =>
    by_cases hjoins : joins = []
    · refine .inl ⟨Delete.render_ok f fallback rfl fun h => absurd hjoins h, fun code h => ?_⟩
      cases h with
      | deleteWithoutTable ht => cases ht
      | deleteWithoutTarget ht hj => exact hj hjoins
    · by_cases hbare : t.IsBare
      · rcases t.name_cases with ⟨⟨name, hname⟩, hno⟩ | ⟨⟨r, hname⟩, hyes⟩
        · have htarget : t.target f = .ok (f.escapeName name) := by
            rw [Table.target_of_isBare f hbare, hname]
            rfl
          refine .inl ⟨Delete.render_ok f fallback rfl fun _ => ⟨_, htarget⟩, fun code h => ?_⟩
          cases h with
          | deleteWithoutTable ht => cases ht
          | deleteWithoutTarget ht _ _ hn =>
            cases ht
            exact hno hn
        · have htarget : t.target f = .error (.noTable r) := by
            rw [Table.target_of_isBare f hbare, hname]
            rfl
          refine .inr ⟨_, Delete.render_error f fallback rfl hjoins htarget, fun code => ⟨fun h => ?_,
            fun h => ?_⟩⟩
          · cases h <;> rfl
          · cases h
            exact .deleteWithoutTarget rfl hjoins hbare hyes
      · have htarget : t.target f = .ok (f.escapeName (t.label.getD "")) := if_neg hbare
        refine .inl ⟨Delete.render_ok f fallback rfl fun _ => ⟨_, htarget⟩, fun code h => ?_⟩
        cases h with
        | deleteWithoutTable ht => cases ht
        | deleteWithoutTarget ht _ hb =>
          cases ht
          exact hbare hb

theorem Update.render_cases (u : Update) : (Node.update u).EndsIn (u.render f fallback) := by
  obtain ⟨tables, joins, filters, assignments⟩ := u
  cases tables with
  | nil =>
    refine .inr ⟨_, rfl, fun code => ⟨fun h => ?_, fun h => ?_⟩⟩
    · cases h with
      | updateWithoutTable => rfl
      | updateOfNothing ht => cases ht
      | updateOfNameless ht => cases ht
    · cases h
      exact .updateWithoutTable rfl
  | cons t rest =>
    by_cases hempty : assignments.entries = []
    · have hrender := Update.render_empty (u := ⟨t :: rest, joins, filters, assignments⟩) f fallback rfl
        hempty
      rcases t.name_cases with ⟨⟨name, hname⟩, hno⟩ | ⟨⟨r, hname⟩, hyes⟩
      · rw [hname] at hrender
        refine .inr ⟨.nothingToSet name, hrender, fun code => ⟨fun h => ?_, fun h => ?_⟩⟩
        · cases h with
          | updateWithoutTable ht => cases ht
          | updateOfNothing => rfl
          | updateOfNameless ht _ hn =>
            cases ht
            exact absurd hn hno
        · cases h
          exact .updateOfNothing rfl hempty hno
      · rw [hname] at hrender
        refine .inr ⟨.noTable r, hrender, fun code => ⟨fun h => ?_, fun h => ?_⟩⟩
        · cases h with
          | updateWithoutTable => rfl
          | updateOfNothing ht _ hn =>
            cases ht
            exact absurd hyes hn
          | updateOfNameless => rfl
        · cases h
          exact .updateOfNameless rfl hempty hyes
    · refine .inl ⟨Update.render_ok f fallback rfl hempty, fun code h => ?_⟩
      cases h with
      | updateWithoutTable ht => cases ht
      | updateOfNothing _ he => exact hempty he
      | updateOfNameless _ he => exact hempty he

theorem Insert.render_cases (i : Insert) : (Node.insert i).EndsIn (i.render f fallback) := by
  obtain ⟨table, columnNames, rows, source⟩ := i
  cases source with
  | some q =>
    refine .inl ⟨⟨_, rfl⟩, fun code h => ?_⟩
    cases h with
    | insertOfNothing hs => cases hs
  | none =>
    by_cases hempty : rows = [] ∨ (Insert.mk table columnNames rows none).columns = []
    · refine .inr ⟨.nothingToInsert table, by simp only [Insert.render, if_pos hempty],
        fun code => ⟨fun h => ?_, fun h => ?_⟩⟩
      · cases h
        rfl
      · cases h
        exact .insertOfNothing rfl hempty
    · refine .inl ⟨⟨_, by simp only [Insert.render, if_neg hempty]; rfl⟩, fun code h => ?_⟩
      cases h with
      | insertOfNothing _ he => exact hempty he

/-- A node has a text, or is refused for the one reason there is. -/
theorem Node.sql_cases (n : Node) : n.EndsIn (n.sql f fallback) := by
  cases n with
  | delete d => exact d.render_cases f fallback
  | update u => exact u.render_cases f fallback
  | insert i => exact i.render_cases f fallback
  | _ => exact .inl ⟨⟨_, rfl⟩, fun _ h => by cases h⟩

/-- What a node ends in once its integers are written, too. -/
theorem Node.render_ends (n : Node) :
    let written := n.render f fallback
    ((∃ sql, written = .ok sql) ∨ (∃ r, written = .error (.fault (.refused r))) ∨
        written = .error (.misuse .wrongValue)) ∧
      (∀ code, n.Refused code ↔
        ∃ r, written = .error (.fault (.refused r)) ∧ (Fault.refused r).code = code) ∧
      (written = .error (.misuse .wrongValue) ↔ (∀ code, ¬ n.Refused code) ∧ n.WritesLong) := by
  intro written
  rcases n.sql_cases f fallback with ⟨⟨sql, hsql⟩, hnone⟩ | ⟨r, hsql, hcode⟩
  · by_cases hlong : n.WritesLong
    · have hend : written = .error (.misuse .wrongValue) := Node.render_of_writesLong hsql hlong
      rw [hend]
      exact ⟨.inr (.inr rfl), fun code => iff_of_false (hnone code) fun ⟨_, h, _⟩ => (nomatch h),
        iff_of_true rfl ⟨hnone, hlong⟩⟩
    · have hend : written = .ok sql := Node.render_eq_ok_iff.mpr ⟨hsql, hlong⟩
      rw [hend]
      exact ⟨.inl ⟨sql, rfl⟩, fun code => iff_of_false (hnone code) fun ⟨_, h, _⟩ => (nomatch h),
        iff_of_false nofun fun h => hlong h.2⟩
  · have hend : written = .error (.fault (.refused r)) := Node.render_of_sql_error hsql
    rw [hend]
    refine ⟨.inr (.inl ⟨r, rfl⟩), fun code => (hcode code).trans ⟨fun h => ⟨r, rfl, h⟩, ?_⟩,
      iff_of_false nofun fun h => h.1 _ ((hcode _).mpr rfl)⟩
    rintro ⟨r', hr', h⟩
    cases hr'
    exact h

end

/-- A value of a node is an integer with too many digits. -/
def Scalar.IsLong (v : Scalar) : Prop := ∃ i, v = .int i ∧ 10 ^ Text.digitLimit ≤ i.natAbs

/-! ## In a session -/

namespace Action

variable {α β : Type}

/-- What a call gives in a session. -/
def outcome (a : Action α) (s : Session) : Outcome α := (a.run.run s).1

theorem outcome_fail (e : Failure) (s : Session) : (fail e : Action α).outcome s = .error e := by
  cases e <;> rfl

@[simp]
theorem outcome_ofOutcome (o : Outcome α) (s : Session) : (ofOutcome o).outcome s = o := by
  cases o with
  | ok a => rfl
  | error e => exact outcome_fail e s

theorem outcome_get_bind (g : Session → Action α) (s : Session) :
    (get >>= g).outcome s = (g s).outcome s := rfl

theorem outcome_modify_bind (step : Session → Session) (g : PUnit → Action α) (s : Session) :
    (modify step >>= g).outcome s = (g ⟨⟩).outcome (step s) := rfl

theorem outcome_bind_error {a : Action α} {g : α → Action β} {s : Session} {e : Failure}
    (h : a.outcome s = .error e) : (a >>= g).outcome s = .error e := by
  rw [outcome] at h
  simp only [outcome, ExceptT.run_bind, StateT.run_bind]
  rcases hrun : a.run.run s with ⟨o, s'⟩
  rw [hrun] at h
  subst h
  rfl

theorem outcome_rethrow (a : Action α) (note : Failure → Session → Session) (s : Session) :
    (tryCatch a fun e => do modify (note e); throw e).outcome s = a.outcome s := by
  rcases hrun : a.run.run s with ⟨o, s'⟩
  rw [ExceptT.run] at hrun
  simp only [outcome, tryCatch, tryCatchThe, MonadExceptOf.tryCatch, ExceptT.tryCatch, ExceptT.run,
    ExceptT.mk, StateT.run_bind, hrun]
  cases o <;> rfl

/-- A span changes nothing about what a call gives, but that the call is made with the span open. -/
theorem traced_outcome (name tracer kind : String) (attributes : List (String × Datum))
    (call : Action α) (s : Session) :
    ∃ spans, (traced name tracer kind (pure attributes) call).outcome s =
      call.outcome { s with spans := spans } := by
  let opened := s.spans ++ [⟨name, tracer, kind, [], none⟩]
  refine ⟨opened.modify s.spans.length fun span => { span with attributes := attributes }, ?_⟩
  simp only [traced, outcome_get_bind, outcome_modify_bind, pure_bind]
  exact outcome_rethrow call _ _

theorem outcome_getSettings_bind {s : Session} {settings : Settings} (h : s.settings = some settings)
    (g : Settings → Action α) : (getSettings >>= g).outcome s = (g settings).outcome s := by
  rw [getSettings, bind_assoc, outcome_get_bind, h, pure_bind]

/-- Which flavor is meant depends on the settings and the registry only, and finding it changes nothing. -/
theorem outcome_getFlavor_bind {d : Datum} {f : Flavor} {s s' : Session} {settings : Settings}
    (hs : s.settings = some settings) (hsettings : s'.settings = s.settings)
    (hregistry : s'.registry = s.registry) (h : (getFlavor d).outcome s = .ok f)
    (g : Flavor → Action α) : (getFlavor d >>= g).outcome s' = (g f).outcome s' := by
  unfold getFlavor at h ⊢
  split at h
  · cases h
    rfl
  · extract_lets find at h
    have hfind (name : Datum) (h : (find name).outcome s = .ok f) :
        (find name >>= g).outcome s' = (g f).outcome s' := by
      have hnamed : s'.flavorNamed? name = s.flavorNamed? name := by
        rw [Session.flavorNamed?, hregistry, Session.flavorNamed?]
      simp only [find] at h ⊢
      split at h
      · rename_i hkey
        rw [outcome_get_bind] at h
        rw [if_pos hkey, bind_assoc, outcome_get_bind, hnamed]
        split at h
        · cases h
          rw [pure_bind]
        · rw [outcome_get_bind] at h
          split at h
          · rw [pure_bind, outcome_fail] at h
            cases h
          · rw [misuse, outcome_bind_error (outcome_fail (α := List String) _ s)] at h
            cases h
      · rw [misuse, outcome_fail] at h
        cases h
    split at h
    · rw [outcome_getSettings_bind hs, pure_bind] at h
      have hrun := hfind _ h
      simp only [bind_assoc, pure_bind]
      rw [outcome_getSettings_bind (hsettings.trans hs)]
      exact hrun
    · rw [pure_bind] at h
      exact hfind _ h

/-- Writing a node ends as `Node.render` does, for some fallback alias. -/
theorem renderWith_outcome (f : Flavor) (n : Node) {s : Session} {settings : Settings}
    (hs : s.settings = some settings) :
    ∃ fallback, (renderWith f n).outcome s = n.render f fallback := by
  rw [renderWith]
  cases hfirst : n.sql f "" with
  | error r =>
    refine ⟨"", ?_⟩
    rw [Node.render_of_sql_error hfirst]
    exact outcome_bind_error (outcome_bind_error (outcome_ofOutcome _ s))
  | ok first =>
    by_cases hlong : (n.demands.takeWhile (· ≠ .fallback)).any Demand.isTooLong = true
    · refine ⟨"", ?_⟩
      rw [Node.render_of_writesLong hfirst (Node.writesLong_of_prefix hlong), Node.checkDigits_of_any hlong]
      rfl
    · rw [Node.checkDigits_of_not_any hlong]
      cases n.needsFallback with
      | true =>
        refine ⟨settings.subqueryAlias, ?_⟩
        have hsettings := outcome_getSettings_bind hs fun settings =>
          ofOutcome (n.render f settings.subqueryAlias)
        exact hsettings.trans (outcome_ofOutcome _ s)
      | false => exact ⟨"", outcome_ofOutcome _ s⟩

/-- Values of nodes are literals of every flavor, but for integers with too many digits. -/
theorem literal_ofScalar (f : Flavor) (v : Scalar) :
    (¬ v.IsLong ∧ literal f (.ofScalar v) = .ok (f.literal v)) ∨
      v.IsLong ∧ literal f (.ofScalar v) = .error (.misuse .wrongValue) := by
  cases v with
  | float d => exact .inl ⟨fun ⟨i, h, _⟩ => (nomatch h), dif_pos d.2⟩
  | int i =>
    by_cases h : Text.isWritable i = true
    · refine .inl ⟨fun ⟨j, hj, hlong⟩ => ?_, if_pos h⟩
      cases hj
      exact absurd ((Text.isWritable_iff i).mp h) (Nat.not_lt.mpr hlong)
    · exact .inr ⟨⟨i, rfl, Nat.not_lt.mp (mt (Text.isWritable_iff i).mpr h)⟩, if_neg h⟩
  | _ => exact .inl ⟨fun ⟨i, h, _⟩ => (nomatch h), rfl⟩

end Action

/-- Writing a node in a flavor that is found, with the settings loaded, gives its text, is refused, or fails for
the value of an integer. It is refused with a code exactly if that is a reason for refusing the node, and fails
exactly if the node is not refused and an integer of its text has more than `Text.digitLimit` digits; so does
asking for a value of a node as a literal. -/
theorem Node.toSql_ends (n : Node) {flavor : Datum} {f : Flavor} {s : Session}
    (hs : s.settings.isSome) (hf : (Action.getFlavor flavor).outcome s = .ok f) :
    let written := (Action.toSql n flavor).outcome s
    ((∃ sql, written = .ok sql) ∨ (∃ r, written = .error (.fault (.refused r))) ∨
        written = .error (.misuse .wrongValue)) ∧
      (∀ code, n.Refused code ↔
        ∃ r, written = .error (.fault (.refused r)) ∧ (Fault.refused r).code = code) ∧
      (written = .error (.misuse .wrongValue) ↔ (∀ code, ¬ n.Refused code) ∧ n.WritesLong) ∧
      ∀ v : Scalar, (¬ v.IsLong ∧ Action.literal f (.ofScalar v) = .ok (f.literal v)) ∨
        v.IsLong ∧ Action.literal f (.ofScalar v) = .error (.misuse .wrongValue) := by
  obtain ⟨settings, hs⟩ := Option.isSome_iff_exists.mp hs
  obtain ⟨spans, htraced⟩ := Action.traced_outcome "sqltree.to_sql" "sqltree.nodes.base" "INTERNAL"
    [("sqltree.node", .text n.typeName)] (Action.getFlavor flavor >>= (Action.renderWith · n)) s
  have hsettings : ({ s with spans := spans } : Session).settings = s.settings := rfl
  have hwith : (Action.toSql n flavor).outcome s =
      (Action.renderWith f n).outcome { s with spans := spans } :=
    htraced.trans (Action.outcome_getFlavor_bind hs hsettings rfl hf _)
  obtain ⟨fallback, hrender⟩ := Action.renderWith_outcome f n (hsettings.trans hs)
  intro written
  have hwritten : written = n.render f fallback := hwith.trans hrender
  rw [← and_assoc, ← and_assoc]
  refine ⟨?_, Action.literal_ofScalar f⟩
  rw [and_assoc, hwritten]
  exact n.render_ends f fallback

/-- A delete from the result of a statement without tables, with a join. -/
def deleteFromNothing : Delete :=
  ⟨[⟨.query {}, none⟩], [⟨⟨.name "a", none⟩, none, .inner⟩], []⟩

/-- It is refused for want of a table, in a session with the default settings. -/
theorem deleteFromNothing_refused :
    let s : Session := { settings := some {} }
    ∃ r, (Action.toSql (.delete deleteFromNothing) (.flavor .mysql)).outcome s =
        .error (.fault (.refused r)) ∧
      (Fault.refused r).code = .noTable :=
  ((Node.toSql_ends (.delete deleteFromNothing) (f := .mysql) rfl rfl).2.1 .noTable).mp
    (.deleteWithoutTarget rfl (by decide) rfl (.here rfl))

end SqlAst
