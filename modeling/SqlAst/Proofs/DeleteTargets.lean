import SqlAst.Proofs.Scopes

/-!
# Targets of deletes

A delete with joins says which of its sources it takes rows from, by the alias of its first table or else by
the name at the end of that table's sources. The table itself is visible by its own name, and the result of a
statement that has none by the fallback alias. So the two agree for every table with a name of its own, and for
others only if the name at the end is the fallback.

* `Table.target_eq_exposed_iff`: when the target is the name that the table exposes.
* `Delete.render_joined`: the text of a delete with joins.
* `Delete.readTargets`: what is read of it.
* `Delete.toSql_target`: the same of the traced call.
-/
namespace SqlAst

open Sql

/-! ## Reading targets -/

namespace Sql

def isWord (w : String) : Tree → Bool
  | .leaf (.word letters) => letters = w.toList
  | _ => false

/-- What stands between DELETE and the FROM that follows it. -/
def deleteTarget? : List Tree → Option (List Tree)
  | [] => none
  | t :: rest => if isWord "DELETE" t then some (rest.takeWhile fun u => !isWord "FROM" u) else none

/-- The target of a delete, if the parentheses in its text balance. -/
def Dialect.deleteTarget? (d : Dialect) (sql : String) : Option (List Tree) :=
  (nest (d.tokens sql)).bind Sql.deleteTarget?

/-- The name that the first source in a text exposes. -/
def Dialect.firstExposed? (d : Dialect) (sql : String) : Option (List Tree) :=
  (d.scopes sql).bind fun scopes => scopes.flatten.head?

/-- There are no words in a name. -/
theorem isWord_of_mem_nameTrees (w n : String) : ∀ t ∈ nameTrees n, isWord w t = false :=
  of_mem_nameTrees (P := fun t => isWord w t = false) rfl rfl (fun _ => rfl) n

theorem deleteTarget?_name (n : String) (rest : List Tree) :
    deleteTarget? (words ["DELETE"] ++ nameTrees n ++ words ["FROM"] ++ rest) = some (nameTrees n) := by
  have hname : ∀ t ∈ nameTrees n, (!isWord "FROM" t) = true := by
    simpa using isWord_of_mem_nameTrees "FROM" n
  have hfrom : (words ["FROM"] ++ rest).takeWhile (fun u => !isWord "FROM" u) = [] :=
    List.takeWhile_cons_of_neg (by simp [isWord])
  rw [List.append_assoc, List.append_assoc, words, List.map_cons, List.map_nil, List.singleton_append, deleteTarget?,
    if_pos (by simp [isWord]), List.takeWhile_append_of_pos hname, hfrom, List.append_nil]

end Sql

/-! ## Targets and names -/

section

variable (f : Flavor) (fallback : String)

theorem Table.target_of_ownName? {t : Table} {own : String} (h : t.ownName? = some own) :
    t.target f = .ok (f.escapeName own) := by
  obtain ⟨source, label⟩ := t
  cases source with
  | name name =>
    rw [Table.ownName?, Option.some.injEq] at h
    rw [Table.target, ← h]
    split
    · rw [Table.name]
      rfl
    · rfl
  | query q =>
    rw [Table.ownName?] at h
    split at h
    · cases h
    · rename_i hlabel
      subst h
      exact if_neg hlabel

/-- The result of a statement without an alias is a target by the name at the end of its sources. -/
theorem Table.target_of_unnamed {t : Table} (h : t.ownName? = none) : t.target f = t.name.map f.escapeName := by
  obtain ⟨source, label⟩ := t
  cases source with
  | name name => cases h
  | query q =>
    refine Table.target_of_isBare f ?_
    rw [Table.ownName?] at h
    split at h
    · rename_i hlabel
      exact hlabel
    · rename_i hlabel
      subst h
      exact absurd rfl hlabel

/-- The target is what the table is visible as if the table has a name of its own, and else only if the name at
the end of its sources is written like the fallback. -/
theorem Table.target_eq_exposed_iff {t : Table} {target : String} (h : t.target f = .ok target) :
    target = f.escapeName (t.exposed fallback) ↔
      t.ownName?.isSome ∨ ∃ name, t.name = .ok name ∧ f.escapeName name = f.escapeName fallback := by
  cases hown : t.ownName? with
  | some own =>
    rw [Table.target_of_ownName? f hown] at h
    cases h
    simp [Table.exposed, hown]
  | none =>
    rw [Table.target_of_unnamed f hown] at h
    cases hname : t.name with
    | error r =>
      rw [hname] at h
      cases h
    | ok name =>
      rw [hname] at h
      cases h
      simp [Table.exposed, hown]

theorem Table.title_eq_exposed_iff {t : Table} {target : String} (h : t.target f = .ok target) :
    t.title = t.exposed fallback ↔ t.ownName?.isSome ∨ t.name = .ok fallback := by
  obtain ⟨source, label⟩ := t
  rw [Table.title, Table.exposed]
  by_cases hlabel : label.getD "" = ""
  · rw [Table.target, if_pos hlabel] at h
    cases source with
    | name name => simp [Table.ownName?, hlabel, Table.name, Except.toOption]
    | query q =>
      cases hname : (Table.mk (.query q) label).name with
      | error r =>
        rw [hname] at h
        cases h
      | ok name => simp [Table.ownName?, hlabel, Except.toOption]
  · cases label with
    | none => exact absurd rfl hlabel
    | some label => cases source <;> simp_all [Table.ownName?]

/-- A delete with joins names its target, its table and its joins, in this order. -/
theorem Delete.render_joined {m : Delete} {sql : String} (hjoins : m.joins ≠ [])
    (h : m.render f fallback = .ok sql) :
    ∃ t rest target, m.tables = t :: rest ∧ t.target f = .ok target ∧
      sql = "DELETE " ++ target ++ " FROM " ++ t.render f fallback ++ joinClauses f fallback m.joins ++
        whereClause f m.filters := by
  unfold Delete.render at h
  split at h
  · cases h
  · rename_i t rest htables
    dsimp only at h
    rw [if_neg hjoins] at h
    cases htarget : t.target f with
    | error r =>
      rw [htarget] at h
      cases h
    | ok target =>
      rw [htarget] at h
      cases h
      have hlead : "DELETE" ++ (" " ++ target) = "DELETE " ++ target := by
        rw [← String.append_assoc]
        rfl
      refine ⟨t, rest, target, htables, htarget, ?_⟩
      rw [← hlead]

end

/-! ## What is read -/

variable {d : Dialect} {fallback : String}

/-- In the text of a delete with joins its target is read, and the name that its first table exposes. -/
theorem Delete.readTargets {m : Delete} {t : Table} {rest : List Table} {sql : String}
    (hfallback : Settings.isPlainAlias fallback = true) (hnames : ∀ name ∈ (Node.delete m).names, d.IsPlain name)
    (htables : m.tables = t :: rest) (hjoins : m.joins ≠ []) (h : m.render d.flavor fallback = .ok sql) :
    d.deleteTarget? sql = some (nameTrees t.title) ∧ d.firstExposed? sql = some (nameTrees (t.exposed fallback)) := by
  obtain ⟨tables, joins, filters⟩ := m
  cases htables
  have hsql : (Node.delete ⟨t :: rest, joins, filters⟩).sql d.flavor fallback = .ok sql := h
  have htrees := Node.nest_of_sql _ hnames hfallback hsql
  have hscopes := Node.scopes_of_sql hfallback hnames hsql
  constructor
  · rw [Dialect.deleteTarget?, htrees, Option.bind_some, Node.trees, Delete.trees, if_neg hjoins]
    have htarget := deleteTarget?_name t.title
      (t.trees d fallback ++ clauseTrees [] [] (joins.map (Join.trees d fallback)) ++ whereTrees d filters)
    simp only [List.append_assoc] at htarget ⊢
    exact htarget
  · rw [Dialect.firstExposed?, hscopes, Option.bind_some, Node.scopes, scopesOfSources]
    rfl

/-! ## In a session -/

/-- Where there are settings, the text of a delete with joins has its target between DELETE and FROM and then its
first table, which exposes its own name or else the alias of the settings. The two are the same if the table has
a name of its own, and else only if the name at the end of its sources is written like that alias. In a dialect
whose rules of reading are known, and with no expressions for names, this is what is read from the text. -/
theorem Delete.toSql_target {s : Session} {c : Settings} {m : Delete} {flavor : Datum} {sql : String}
    (hs : s.Settles c) (hplain : Settings.isPlainAlias c.subqueryAlias = true) (hjoins : m.joins ≠ [])
    (h : (Action.toSql (.delete m) flavor).outcome s = .ok sql) :
    ∃ f t rest target, Action.resolved s c flavor = .ok f ∧ m.tables = t :: rest ∧
      sql = "DELETE " ++ target ++ " FROM " ++ t.render f c.subqueryAlias ++
        joinClauses f c.subqueryAlias m.joins ++ whereClause f m.filters ∧
      Exposes (f.escapeName (t.exposed c.subqueryAlias)) (t.render f c.subqueryAlias) ∧
      (target = f.escapeName (t.exposed c.subqueryAlias) ↔
        t.ownName?.isSome ∨ ∃ name, t.name = .ok name ∧ f.escapeName name = f.escapeName c.subqueryAlias) ∧
      ∀ d : Dialect, f = d.flavor → (∀ name ∈ (Node.delete m).names, d.IsPlain name) →
        d.deleteTarget? sql = some (nameTrees t.title) ∧
          d.firstExposed? sql = some (nameTrees (t.exposed c.subqueryAlias)) ∧
          (d.deleteTarget? sql = d.firstExposed? sql ↔ t.ownName?.isSome ∨ t.name = .ok c.subqueryAlias) := by
  obtain ⟨s', heffect, -⟩ := Action.effect_toSql hs (.delete m) flavor
  have hwritten : (Action.resolved s c flavor >>= fun f =>
      (Node.delete m).render f c.subqueryAlias) = .ok sql :=
    (congrArg Prod.fst heffect).symm.trans h
  obtain ⟨f, hf, hrender⟩ := except_bind_ok hwritten
  replace hrender : m.render f c.subqueryAlias = .ok sql := Node.sql_of_render hrender
  obtain ⟨t, rest, target, htables, htarget, hsql⟩ := Delete.render_joined f c.subqueryAlias hjoins hrender
  refine ⟨f, t, rest, target, hf, htables, hsql, t.exposes f (ne_empty_of_isPlainAlias hplain),
    Table.target_eq_exposed_iff f c.subqueryAlias htarget, ?_⟩
  rintro d rfl hnames
  obtain ⟨hread, hfirst⟩ := Delete.readTargets hplain hnames htables hjoins hrender
  refine ⟨hread, hfirst, ?_⟩
  rw [hread, hfirst, Option.some.injEq, nameTrees_injective.eq_iff]
  exact Table.title_eq_exposed_iff d.flavor c.subqueryAlias htarget

/-- A delete from the result of a statement without an alias. -/
def deleteFromUnnamed : Delete :=
  ⟨[⟨.query { tables := [⟨.name "a", none⟩] }, none⟩], [⟨⟨.name "b", none⟩, none, .inner⟩], []⟩

/-- Its target is the table inside the statement, which is not visible outside. -/
theorem deleteFromUnnamed_misses :
    let sql := "DELETE \x60a\x60 FROM (SELECT * FROM \x60a\x60) AS \x60t\x60 INNER JOIN \x60b\x60"
    deleteFromUnnamed.joins ≠ [] ∧
      (Action.toSql (.delete deleteFromUnnamed) (.flavor .mysql)).outcome { settings := some {} } = .ok sql ∧
      Dialect.mysql.deleteTarget? sql = some (nameTrees "a") ∧
      Dialect.mysql.firstExposed? sql = some (nameTrees "t") ∧ nameTrees "a" ≠ nameTrees "t" := by
  intro sql
  have hjoins : deleteFromUnnamed.joins ≠ [] := List.cons_ne_nil _ _
  have hsql : (Action.toSql (.delete deleteFromUnnamed) (.flavor .mysql)).outcome { settings := some {} } =
      .ok sql := rfl
  obtain ⟨f, t, rest, target, hf, htables, -, -, -, hread⟩ :=
    Delete.toSql_target (c := {}) (.inl rfl) (by decide) hjoins hsql
  cases hf
  cases htables
  obtain ⟨htarget, hfirst, -⟩ := hread .mysql rfl (by decide)
  exact ⟨hjoins, hsql, htarget, hfirst, nameTrees_injective.ne (by decide)⟩

end SqlAst
