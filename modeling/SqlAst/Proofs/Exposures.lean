import Mathlib.Data.List.Nodup
import SqlAst.Proofs.TableReferences

/-!
# Names that tables expose

In the scope of a statement a table is known by its alias, or else by its name; a nested statement without
an alias gets the fallback. Each table is written on its own, so that all such nested statements of a scope
get the same one.

* `nodup_exposedNames_iff`: when the names in a scope are distinct.
* `Node.exposes`: the tables of a node's scope stand in its text, each with the name that it exposes, whatever
  the flavor.
-/
namespace SqlAst

/-! ## Names -/

/-- The name that a table has of its own: the alias, or else the name that it is made from. -/
def Table.ownName? : Table → Option String
  | ⟨.name name, label⟩ => some (if label.getD "" = "" then name else label.getD "")
  | ⟨.query _, label⟩ => if label.getD "" = "" then none else label

/-- The name that a table is known by in its scope. -/
def Table.exposed (fallback : String) (t : Table) : String := t.ownName?.getD fallback

def ownNames (tables : List Table) : List String := tables.filterMap Table.ownName?

/-- How many nested statements have no alias. -/
def unnamed (tables : List Table) : Nat := tables.countP fun t => t.ownName?.isNone

def exposedNames (fallback : String) (tables : List Table) : List String :=
  tables.map (Table.exposed fallback)

/-- Every nested statement without an alias exposes the fallback. -/
theorem exposedNames_perm (fallback : String) (tables : List Table) :
    (exposedNames fallback tables).Perm
      (ownNames tables ++ List.replicate (unnamed tables) fallback) := by
  induction tables with
  | nil => exact .refl _
  | cons t rest ih =>
    cases hname : t.ownName? with
    | some name =>
      simpa [exposedNames, ownNames, unnamed, Table.exposed, hname] using ih.cons name
    | none =>
      have hlast : (fallback :: (ownNames rest ++ List.replicate (unnamed rest) fallback)).Perm
          (ownNames rest ++ List.replicate (unnamed rest + 1) fallback) := by
        rw [List.replicate_succ]
        exact List.perm_middle.symm
      simpa [exposedNames, ownNames, unnamed, Table.exposed, hname] using (ih.cons fallback).trans hlast

/-- The names in a scope are distinct, in any way of writing them, exactly if those that tables have of their
own are, and there is at most one nested statement without an alias, whose name is not taken. -/
theorem nodup_exposedNames_iff {α : Type} (write : String → α) (fallback : String) (tables : List Table) :
    ((exposedNames fallback tables).map write).Nodup ↔
      ((ownNames tables).map write).Nodup ∧ unnamed tables ≤ 1 ∧
        (unnamed tables = 1 → write fallback ∉ (ownNames tables).map write) := by
  have hperm := (exposedNames_perm fallback tables).map write
  rw [List.map_append, List.map_replicate] at hperm
  rw [hperm.nodup_iff, List.nodup_append, List.nodup_replicate]
  refine and_congr_right fun _ => and_congr_right fun hone => ?_
  constructor
  · intro hapart hunnamed htaken
    exact hapart _ htaken _ (by simp [hunnamed]) rfl
  · rintro hfree name hname other hother rfl
    obtain ⟨hsome, rfl⟩ := List.mem_replicate.mp hother
    exact hfree (by omega) hname

/-! ## Scopes -/

/-- The tables that rows are taken from where a node is written. A delete or an update writes its first table
and the joined ones. -/
def Node.scope : Node → List Table
  | .select q => q.sources
  | .delete d => d.tables.take 1 ++ d.joins.map Join.table
  | .update u => u.tables.take 1 ++ u.joins.map Join.table
  | _ => []

/-- The text of a table that is known as `ref`: nothing else, or with `ref` as its alias. -/
inductive Exposes (ref : String) : String → Prop where
  | bare : Exposes ref ref
  | label (body : String) : Exposes ref (body ++ " AS " ++ ref)

/-- The text of joins of the items. -/
inductive JoinsOf : List String → String → Prop where
  | nil : JoinsOf [] ""
  | cons {items : List String} {item tail joins : String} (kind : JoinKind) : Closing tail →
    JoinsOf items joins →
    JoinsOf (item :: items) (" " ++ (kind.word ++ " JOIN " ++ item ++ tail) ++ joins)

/-- The text of a statement that takes rows from the items, listed or joined, in this order. -/
inductive TakesFrom : List String → String → Prop where
  | select {joined : List String} {joins rest : String} (fields : String) (listed : List String) :
    JoinsOf joined joins → Closing rest →
    TakesFrom (listed ++ joined) ("SELECT " ++ fields ++ clause " FROM " ", " listed ++ joins ++ rest)
  | united {items : List String} {sql : String} (kind : UnionKind) (other : String) : TakesFrom items sql →
    TakesFrom items (parenthesised sql ++ " " ++ kind.word ++ " " ++ parenthesised other)
  | delete {joined : List String} {joins rest : String} (target item : String) : JoinsOf joined joins →
    Closing rest → TakesFrom (item :: joined) ("DELETE" ++ target ++ " FROM " ++ item ++ joins ++ rest)
  | update {joined : List String} {joins rest : String} (item : String) : JoinsOf joined joins →
    Closing rest → TakesFrom (item :: joined) ("UPDATE " ++ item ++ joins ++ rest)

section

variable (f : Flavor) {fallback : String}

theorem Flavor.exposes_labelled (sql : String) {label : String} (h : label ≠ "") :
    Exposes (f.escapeName label) (f.labelled sql label) := by
  rw [labelled, if_neg h]
  exact .label sql

theorem Table.exposes (hfallback : fallback ≠ "") (t : Table) :
    Exposes (f.escapeName (t.exposed fallback)) (t.render f fallback) := by
  obtain ⟨source, label⟩ := t
  cases source with
  | name name =>
    rw [Table.render, Table.exposed, Table.ownName?, Option.getD_some]
    by_cases hlabel : label.getD "" = ""
    · rw [Flavor.labelled, if_pos hlabel, if_pos hlabel]
      exact .bare
    · rw [if_neg hlabel]
      exact f.exposes_labelled _ hlabel
  | query q =>
    rw [Table.render, Table.exposed, Table.ownName?]
    by_cases hlabel : label.getD "" = ""
    · simp only [if_pos hlabel, Option.getD_none]
      exact f.exposes_labelled _ hfallback
    · obtain ⟨label, rfl⟩ : ∃ name, label = some name := by
        cases label with
        | none => exact absurd rfl hlabel
        | some name => exact ⟨name, rfl⟩
      rw [Option.getD_some] at hlabel
      simp only [if_neg hlabel, Option.getD_some]
      exact f.exposes_labelled _ hlabel

theorem forall₂_exposes (hfallback : fallback ≠ "") (tables : List Table) :
    List.Forall₂ Exposes ((exposedNames fallback tables).map f.escapeName)
      (tables.map (Table.render f fallback)) := by
  rw [exposedNames, List.map_map, List.forall₂_map_left_iff, List.forall₂_map_right_iff, List.forall₂_same]
  exact fun t _ => t.exposes f hfallback

variable (fallback)

/-- The text of a node's joins. -/
theorem joinsOf_render (joins : List Join) :
    JoinsOf ((joins.map Join.table).map (Table.render f fallback))
      (clause " " " " (joins.map (Join.render f fallback))) := by
  induction joins with
  | nil => exact .nil
  | cons j rest ih =>
    obtain ⟨tail, htail, hrender⟩ := j.render_eq f fallback
    rw [List.map_cons, List.map_cons, List.map_cons, clause_blank_cons, hrender]
    exact .cons j.kind htail ih

theorem TakesFrom.wrapUnions {items : List String} {sql : String} (h : TakesFrom items sql)
    (unions : List UnionPart) :
    TakesFrom items (wrapUnions sql (unions.map (UnionPart.render f fallback))) := by
  induction unions generalizing sql with
  | nil => exact h
  | cons u rest ih =>
    rw [List.map_cons, u.render_eq]
    exact ih (.united u.kind (u.query.render f fallback) h)

theorem Select.takesFrom (q : Select) :
    TakesFrom (q.sources.map (Table.render f fallback)) (q.render f fallback) := by
  obtain ⟨rest, hrest, hrender⟩ := q.render_eq f fallback
  rw [hrender, Select.sources, List.map_append]
  exact (TakesFrom.select _ _ (joinsOf_render f fallback q.joins) hrest).wrapUnions f fallback q.unions

/-- The tables of a node's scope stand in its text. -/
theorem Node.takesFrom {n : Node} {sql : String} (hscope : n.scope ≠ []) (h : n.render f fallback = .ok sql) :
    TakesFrom (n.scope.map (Table.render f fallback)) sql := by
  replace h := Node.sql_of_render h
  cases n with
  | select q =>
    cases h
    exact q.takesFrom f fallback
  | delete d =>
    obtain ⟨t, rest, target, htables, rfl⟩ := Delete.render_eq f fallback h
    have hjoins := joinsOf_render f fallback d.joins
    rw [Node.scope, htables]
    exact .delete target _ hjoins (closing_whereClause f d.filters)
  | update u =>
    obtain ⟨t, rest, more, htables, hmore, rfl⟩ := Update.render_eq f fallback h
    have hjoins := joinsOf_render f fallback u.joins
    rw [Node.scope, htables]
    exact .update _ hjoins hmore
  | _ => exact absurd rfl hscope

/-- The tables of a node's scope stand in its text, each with the name that it exposes. -/
theorem Node.exposes {n : Node} {sql : String} (hfallback : fallback ≠ "") (hscope : n.scope ≠ [])
    (h : n.render f fallback = .ok sql) :
    ∃ items, TakesFrom items sql ∧
      List.Forall₂ Exposes ((exposedNames fallback n.scope).map f.escapeName) items :=
  ⟨_, n.takesFrom f fallback hscope h, forall₂_exposes f hfallback n.scope⟩

end

end SqlAst
