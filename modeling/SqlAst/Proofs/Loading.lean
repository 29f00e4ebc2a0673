import SqlAst.Proofs.Effects

/-!
# Where settings come from

The sources of settings are the environment and the file of environment variables. `Sources.Gives` says
which text a setting has in them, and `Sources.Makes` which settings they make, without regard to how they
are searched.

* `Session.given_gives_iff`: the text of a setting is found by its rule.
* `Session.check_given_iff`: loading gives the settings that the sources make, and fails if they make none.
* `Action.effect_getSettings_some`, `Action.effect_getSettings_unsettled`: what a call that asks for settings
  gives, from any state.
-/
namespace SqlAst

/-! ## Sources -/

/-- What settings are loaded from. -/
structure Sources where
  environment : List (String × String)
  envFile : Option String

def Session.sources (s : Session) : Sources := ⟨s.environment, s.envFile⟩

namespace Sources

/-- The name is that of a setting, in any case. -/
def Names (field name : String) : Prop := Settings.lower name = "sqltree_" ++ field

/-- No name is that of the setting. -/
def Lacks {α : Type} (bindings : List (String × α)) (field : String) : Prop :=
  ∀ e ∈ bindings, ¬ Names field e.1

/-- The last binding of a name of the setting has the value. -/
def Binds {α : Type} (bindings : List (String × α)) (field : String) (value : α) : Prop :=
  ∃ before name after, bindings = before ++ (name, value) :: after ∧ Names field name ∧ Lacks after field

/-- The bindings of the file, with references replaced. -/
def inFile (src : Sources) : EnvFile.Bindings :=
  EnvFile.resolved src.environment ((src.envFile.map EnvFile.bindings).getD [])

/-- The text of a setting: the environment's, or else the file's, or else the default. In a file a name may
stand without a value, which then counts as not given. -/
inductive Gives (src : Sources) (field default : String) : String → Prop where
  | environment {text : String} : Binds src.environment field text → Gives src field default text
  | file {text : String} : Lacks src.environment field → Binds src.inFile field (some text) →
    Gives src field default text
  | default : Lacks src.environment field → (∀ text, ¬ Binds src.inFile field (some text)) →
    Gives src field default default

/-- The settings that the sources make. There are none if the log level is not known, or if the alias is not
plain. -/
structure Makes (src : Sources) (c : Settings) : Prop where
  appEnv : src.Gives "app_env" "dev" c.appEnv
  logLevel : ∃ text, src.Gives "log_level" "INFO" text ∧ Settings.logLevel? text = some c.logLevel
  defaultFlavor : src.Gives "default_flavor" "mysql" c.defaultFlavor
  subqueryAlias : src.Gives "subquery_alias" "t" c.subqueryAlias
  plain : Settings.isPlainAlias c.subqueryAlias = true

end Sources

/-! ## Looking up -/

section

open Sources

variable {α : Type} {bindings : List (String × α)} {field : String}

/-- The bindings with the keys by which they are searched. -/
theorem last?_lower_eq_none_iff :
    Entries.last? ("sqltree_" ++ field) (bindings.map fun b => (Settings.lower b.1, b.2)) = none ↔
      Lacks bindings field := by
  rw [Entries.last?_eq_none_iff, List.forall_mem_map]
  exact Iff.rfl

theorem last?_lower_eq_some_iff {value : α} :
    Entries.last? ("sqltree_" ++ field) (bindings.map fun b => (Settings.lower b.1, b.2)) = some value ↔
      Binds bindings field value := by
  rw [Entries.last?_eq_some_iff]
  constructor
  · rintro ⟨before, after, hsplit, hafter⟩
    obtain ⟨earlier, rest, rfl, -, hrest⟩ := List.map_eq_append_iff.mp hsplit
    obtain ⟨⟨name, found⟩, later, rfl, hbinding, rfl⟩ := List.map_eq_cons_iff.mp hrest
    obtain ⟨hname, rfl⟩ := Prod.mk.inj hbinding
    exact ⟨earlier, name, later, rfl, hname, fun e he => hafter _ (List.mem_map_of_mem he)⟩
  · rintro ⟨before, name, after, rfl, hname, hafter⟩
    let lowered (b : String × α) : String × α := (Settings.lower b.1, b.2)
    refine ⟨before.map lowered, after.map lowered, ?_, fun e he => ?_⟩
    · rw [List.map_append, List.map_cons, hname]
    · obtain ⟨b, hb, rfl⟩ := List.mem_map.mp he
      exact hafter b hb

theorem Sources.Binds.not_lacks {value : α} (h : Binds bindings field value) : ¬ Lacks bindings field := by
  obtain ⟨before, name, after, rfl, hname, -⟩ := h
  intro hlacks
  exact hlacks (name, value) (by simp) hname

theorem Settings.lookup_environment (environment : List (String × String)) (field : String) :
    Settings.lookup (environment.map fun e => (e.1, some e.2)) field =
      Entries.last? ("sqltree_" ++ field) (environment.map fun e => (Settings.lower e.1, e.2)) := by
  have hlast := Entries.last?_map some (environment.map fun e => (Settings.lower e.1, e.2))
    ("sqltree_" ++ field)
  rw [List.map_map] at hlast
  rw [Settings.lookup, List.map_map]
  refine (congrArg Option.join hlast).trans ?_
  cases Entries.last? ("sqltree_" ++ field) (environment.map fun e => (Settings.lower e.1, e.2)) <;> rfl

/-- The text of a setting, found or by default, is the one that the sources give. -/
theorem Session.given_gives_iff (s : Session) (field default text : String) :
    s.sources.Gives field default text ↔ (s.given field).getD default = text := by
  have hgiven : s.given field =
      (Entries.last? ("sqltree_" ++ field) (s.environment.map fun e => (Settings.lower e.1, e.2))).or
        (Entries.last? ("sqltree_" ++ field)
          (s.sources.inFile.map fun b => (Settings.lower b.1, b.2))).join := by
    rw [← Settings.lookup_environment]
    rfl
  rw [hgiven]
  cases henvironment : Entries.last? ("sqltree_" ++ field)
      (s.environment.map fun e => (Settings.lower e.1, e.2)) with
  | some value =>
    have hbinds := last?_lower_eq_some_iff.mp henvironment
    simp only [Option.some_or, Option.getD_some]
    constructor
    · rintro (h | ⟨hlacks, -⟩ | ⟨hlacks, -⟩)
      · exact Option.some.inj (henvironment.symm.trans (last?_lower_eq_some_iff.mpr h))
      · exact absurd hlacks hbinds.not_lacks
      · exact absurd hlacks hbinds.not_lacks
    · rintro rfl
      exact .environment hbinds
  | none =>
    have hlacks := last?_lower_eq_none_iff.mp henvironment
    have hfile (found : String) : Binds s.sources.inFile field (some found) ↔
        (Entries.last? ("sqltree_" ++ field)
          (s.sources.inFile.map fun b => (Settings.lower b.1, b.2))).join = some found := by
      rw [← last?_lower_eq_some_iff, Option.join_eq_some_iff]
    rw [Option.none_or]
    constructor
    · rintro (h | ⟨-, h⟩ | ⟨-, h⟩)
      · exact absurd hlacks h.not_lacks
      · rw [(hfile text).mp h, Option.getD_some]
      · rw [Option.eq_none_iff_forall_ne_some.mpr fun found hfound => h found ((hfile found).mpr hfound),
          Option.getD_none]
    · intro h
      cases hfound : (Entries.last? ("sqltree_" ++ field)
          (s.sources.inFile.map fun b => (Settings.lower b.1, b.2))).join with
      | some found =>
        rw [hfound, Option.getD_some] at h
        subst h
        exact .file hlacks ((hfile found).mpr hfound)
      | none =>
        rw [hfound, Option.getD_none] at h
        subst h
        exact .default hlacks fun text h => by
          rw [(hfile text).mp h] at hfound
          cases hfound

end

/-! ## Loading -/

theorem Settings.ruled_eq_ok_iff {field message text : String} {accepted : Option String} :
    ruled field accepted message = .ok text ↔ accepted = some text := by
  cases accepted with
  | none => simp [ruled, Checked.fail, Checked.under]
  | some s => simp [ruled]

/-- Settings are loaded exactly as the sources make them. -/
theorem Session.check_given_iff (s : Session) (c : Settings) :
    Settings.check s.given = .ok c ↔ s.sources.Makes c := by
  rw [Settings.check, Checked.both_eq_ok_iff]
  simp only [Settings.ruled_eq_ok_iff]
  constructor
  · rintro ⟨level, label, hlevel, hlabel, rfl⟩
    split at hlabel
    · rename_i hplain
      cases hlabel
      exact {
        appEnv := (s.given_gives_iff _ _ _).mpr rfl
        logLevel := ⟨_, (s.given_gives_iff _ _ _).mpr rfl, hlevel⟩
        defaultFlavor := (s.given_gives_iff _ _ _).mpr rfl
        subqueryAlias := (s.given_gives_iff _ _ _).mpr rfl
        plain := hplain }
    · cases hlabel
  · rintro ⟨happ, ⟨text, htext, hlevel⟩, hflavor, halias, hplain⟩
    rw [s.given_gives_iff] at happ htext hflavor halias
    refine ⟨c.logLevel, c.subqueryAlias, by rw [htext, hlevel], by rw [halias, if_pos hplain], ?_⟩
    rw [happ, hflavor]

/-! ## Asking for settings -/

namespace Session

variable {s s' : Session} {c : Settings}

/-- The settings that count when a call asks for them: those in force, or else those that the sources make. -/
def Settles (s : Session) (c : Settings) : Prop :=
  s.settings = some c ∨ s.settings = none ∧ s.sources.Makes c

/-- A session with settings in force; nothing else differs but the log. -/
def Holds (s s' : Session) (c : Settings) : Prop := s'.core = { s.core with settings := some c }

/-- A session in which at most settings have come into force. -/
def MayHold (s s' : Session) (c : Settings) : Prop := s'.core = s.core ∨ s.Holds s' c

theorem sources_of_core (h : s.core = s'.core) : s.sources = s'.sources :=
  show s.core.sources = s'.core.sources by rw [h]

theorem settles_of_core (h : s.core = s'.core) : s.Settles c ↔ s'.Settles c := by
  rw [Settles, Settles, settings_of_core h, sources_of_core h]

theorem LogsTo.mayHold (h : s.LogsTo s') : s.MayHold s' c := .inl h.core

theorem Holds.settings (h : s.Holds s' c) : s'.settings = some c := by
  rw [Holds] at h
  change s'.core.settings = some c
  rw [h]

theorem MayHold.settles (h : s.MayHold s' c) (hs : s.Settles c) : s'.Settles c := by
  rcases h with hcore | hholds
  · exact (settles_of_core hcore).mpr hs
  · exact .inl hholds.settings

theorem MayHold.trans {s'' : Session} (h : s.MayHold s' c) (h' : s'.MayHold s'' c) : s.MayHold s'' c := by
  rcases h' with hcore | hholds
  · rw [MayHold, Holds, hcore]
    exact h
  · rcases h with hcore | hfirst
    · rw [Holds, hcore] at hholds
      exact .inr hholds
    · rw [Holds, hfirst] at hholds
      exact .inr hholds

theorem MayHold.registry (h : s.MayHold s' c) : s'.registry = s.registry := by
  rcases h with hcore | hholds
  · exact registry_of_core hcore
  · rw [Holds] at hholds
    change s'.core.registry = s.core.registry
    rw [hholds]

end Session

namespace Action

variable {s s' : Session} {c : Settings}

theorem effect_reloadSettings_some (h : s.sources.Makes c) :
    reloadSettings.effect s = (.ok c, { s with settings := some c }) := by
  have hreload := effect_reloadSettings s
  rw [(s.check_given_iff c).mpr h] at hreload
  exact hreload

theorem effect_getSettings_some (h : s.Settles c) : ∃ s', getSettings.effect s = (.ok c, s') ∧ s.Holds s' c := by
  rcases h with hsettings | ⟨hnone, hmakes⟩
  · refine ⟨s, effect_getSettings hsettings, ?_⟩
    rw [Session.Holds, ← hsettings]
    rfl
  · exact ⟨_, (effect_getSettings_unloaded hnone).trans (effect_reloadSettings_some hmakes), rfl⟩

end Action

end SqlAst
