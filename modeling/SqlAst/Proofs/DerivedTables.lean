import SqlAst.Proofs.TableReferences
import SqlAst.Proofs.Writing

/-!
# Derived tables

A derived table is the result of a statement in the place of a table. `Node.derived` lists those of a node,
with those inside them, and keeps the alias that each was given. The alias of the settings stands in for one
that was not given, and it is all that a text takes from the session.

* `Node.needsFallback_eq_false_iff`: the alias of the settings matters to a node exactly if a derived table
  that it writes has none of its own.
* `Node.toSql_same`: two sessions with the same alias, or any two if all derived tables have their own, give
  the same text or the same failure.
-/
namespace SqlAst

/-- The result of a statement in the place of a table. -/
structure DerivedTable where
  query : Select
  label : Option String

namespace DerivedTable

def table (t : DerivedTable) : Table := ⟨.query t.query, t.label⟩

/-- It has an alias of its own; an empty one counts as none. -/
def IsLabelled (t : DerivedTable) : Prop := t.label.getD "" ≠ ""

instance (t : DerivedTable) : Decidable t.IsLabelled := inferInstanceAs (Decidable (_ ≠ ""))

end DerivedTable

/-! ## Derived tables at any depth -/

mutual

def Table.derived : Table → List DerivedTable
  | ⟨.name _, _⟩ => []
  | ⟨.query q, label⟩ => ⟨q, label⟩ :: q.derived

def Select.derived : Select → List DerivedTable
  | ⟨tables, joins, _, _, _, _, _, _, _, unions⟩ =>
    derivedOfTables tables ++ derivedOfJoins joins ++ derivedOfUnions unions

def derivedOfTables : List Table → List DerivedTable
  | [] => []
  | t :: rest => t.derived ++ derivedOfTables rest

def derivedOfJoins : List Join → List DerivedTable
  | [] => []
  | ⟨t, _, _⟩ :: rest => t.derived ++ derivedOfJoins rest

def derivedOfUnions : List UnionPart → List DerivedTable
  | [] => []
  | ⟨_, q⟩ :: rest => q.derived ++ derivedOfUnions rest

end

/-- The derived tables of a node, written or not. -/
def Node.derived : Node → List DerivedTable
  | .table t => t.derived
  | .join j => j.table.derived
  | .select q => q.derived
  | .projection p => derivedOfTables p.tables ++ derivedOfJoins p.joins
  | .condition _ => []
  | .delete d => derivedOfTables d.tables ++ derivedOfJoins d.joins
  | .update u => derivedOfTables u.tables ++ derivedOfJoins u.joins
  | .insert i => (i.source.map Select.derived).getD []

theorem derivedOfTables_take_subset (tables : List Table) (n : Nat) :
    derivedOfTables (tables.take n) ⊆ derivedOfTables tables := by
  induction tables generalizing n with
  | nil => simp
  | cons t rest ih =>
    cases n with
    | zero => simp [derivedOfTables]
    | succ n =>
      rw [List.take_succ_cons, derivedOfTables, derivedOfTables]
      exact List.append_subset.mpr
        ⟨List.subset_append_left _ _, List.subset_append_of_subset_right _ (ih n)⟩

theorem Node.derived_withoutSpare_subset (n : Node) : n.withoutSpare.derived ⊆ n.derived := by
  have hfirst (tables : List Table) (joins : List Join) :
      derivedOfTables (tables.take 1) ++ derivedOfJoins joins ⊆
        derivedOfTables tables ++ derivedOfJoins joins :=
    List.append_subset.mpr ⟨List.subset_append_of_subset_left _ (derivedOfTables_take_subset tables 1),
      List.subset_append_right _ _⟩
  cases n with
  | delete d => exact hfirst d.tables d.joins
  | update u => exact hfirst u.tables u.joins
  | projection p =>
    simp only [Node.withoutSpare, Node.derived, derivedOfJoins, List.append_nil]
    exact List.subset_append_left _ _
  | _ => exact List.Subset.refl _

/-! ## Where the alias of the settings is needed -/

mutual

theorem Table.needsFallback_eq_false_iff (t : Table) :
    t.needsFallback = false ↔ ∀ u ∈ t.derived, u.IsLabelled := by
  match t with
  | ⟨.name name, label⟩ => simp [Table.needsFallback, Table.derived]
  | ⟨.query q, label⟩ =>
    rw [Table.needsFallback, Table.derived, Bool.or_eq_false_iff, List.forall_mem_cons,
      q.needsFallback_eq_false_iff]
    exact and_congr_left' decide_eq_false_iff_not

theorem Select.needsFallback_eq_false_iff (q : Select) :
    q.needsFallback = false ↔ ∀ u ∈ q.derived, u.IsLabelled := by
  match q with
  | ⟨tables, joins, _, _, _, _, _, _, _, unions⟩ =>
    rw [Select.needsFallback, Select.derived, Bool.or_eq_false_iff, Bool.or_eq_false_iff,
      List.forall_mem_append, List.forall_mem_append, tablesNeedFallback_eq_false_iff,
      joinsNeedFallback_eq_false_iff, unionsNeedFallback_eq_false_iff]

theorem tablesNeedFallback_eq_false_iff (tables : List Table) :
    tablesNeedFallback tables = false ↔ ∀ u ∈ derivedOfTables tables, u.IsLabelled := by
  match tables with
  | [] => simp [tablesNeedFallback, derivedOfTables]
  | t :: rest =>
    rw [tablesNeedFallback, derivedOfTables, Bool.or_eq_false_iff, List.forall_mem_append,
      t.needsFallback_eq_false_iff, tablesNeedFallback_eq_false_iff]

theorem joinsNeedFallback_eq_false_iff (joins : List Join) :
    joinsNeedFallback joins = false ↔ ∀ u ∈ derivedOfJoins joins, u.IsLabelled := by
  match joins with
  | [] => simp [joinsNeedFallback, derivedOfJoins]
  | ⟨t, condition, kind⟩ :: rest =>
    rw [joinsNeedFallback, derivedOfJoins, Bool.or_eq_false_iff, List.forall_mem_append,
      t.needsFallback_eq_false_iff, joinsNeedFallback_eq_false_iff]

theorem unionsNeedFallback_eq_false_iff (unions : List UnionPart) :
    unionsNeedFallback unions = false ↔ ∀ u ∈ derivedOfUnions unions, u.IsLabelled := by
  match unions with
  | [] => simp [unionsNeedFallback, derivedOfUnions]
  | ⟨kind, q⟩ :: rest =>
    rw [unionsNeedFallback, derivedOfUnions, Bool.or_eq_false_iff, List.forall_mem_append,
      q.needsFallback_eq_false_iff, unionsNeedFallback_eq_false_iff]

end

/-- The alias of the settings matters exactly if a derived table that is written has none of its own. -/
theorem Node.needsFallback_eq_false_iff (n : Node) :
    n.needsFallback = false ↔ ∀ t ∈ n.withoutSpare.derived, t.IsLabelled := by
  cases n with
  | table t => exact t.needsFallback_eq_false_iff
  | join j => exact j.table.needsFallback_eq_false_iff
  | select q => exact q.needsFallback_eq_false_iff
  | projection p =>
    simp only [Node.needsFallback, Node.withoutSpare, Node.derived, derivedOfJoins, List.append_nil]
    exact tablesNeedFallback_eq_false_iff p.tables
  | condition c => simp [Node.needsFallback, Node.withoutSpare, Node.derived]
  | delete d =>
    rw [Node.needsFallback, Node.withoutSpare, Node.derived, Bool.or_eq_false_iff, List.forall_mem_append,
      tablesNeedFallback_eq_false_iff, joinsNeedFallback_eq_false_iff]
  | update u =>
    rw [Node.needsFallback, Node.withoutSpare, Node.derived, Bool.or_eq_false_iff, List.forall_mem_append,
      tablesNeedFallback_eq_false_iff, joinsNeedFallback_eq_false_iff]
  | insert i =>
    obtain ⟨table, columnNames, rows, source⟩ := i
    cases source with
    | none => simp [Node.needsFallback, Node.withoutSpare, Node.derived]
    | some q => exact q.needsFallback_eq_false_iff

/-! ## Two sessions -/

/-- Two sessions have settings for a call that asks for them, and these give the same alias. -/
def Session.SharesAlias (s s' : Session) : Prop :=
  ∃ c c', s.Settles c ∧ s'.Settles c' ∧ c.subqueryAlias = c'.subqueryAlias

/-- Of all that differs between two sessions, settings, environment, registered flavors and logging, whose context
is one that records take, only the alias for derived tables can make a difference to what a node is written as
in a given flavor, or to why it is refused; and not even this if all derived tables have an alias of their own,
in which case there need not be settings at all. -/
theorem Node.toSql_same (n : Node) (f : Flavor) {s s' : Session}
    (h : s.SharesAlias s' ∨ ∀ t ∈ n.derived, t.IsLabelled) :
    (Action.toSql n (.flavor f)).outcome s = (Action.toSql n (.flavor f)).outcome s' := by
  rcases h with ⟨c, c', hs, hs', hsame⟩ | hlabelled
  · rw [Action.toSql_settled hs, Action.toSql_settled hs', hsame]
  · have hneeds : n.needsFallback = false :=
      n.needsFallback_eq_false_iff.mpr fun t ht => hlabelled t (n.derived_withoutSpare_subset ht)
    rw [Action.toSql_of_not_needsFallback hneeds, Action.toSql_of_not_needsFallback hneeds]

/-- A statement with a derived table in a join, which holds another, and one in a member of its union. -/
def nestedThrice (label : Option String) : Select where
  tables := [⟨.name "a", none⟩]
  joins := [⟨⟨.query { tables := [⟨.query { tables := [⟨.name "b", none⟩] }, label⟩] }, label⟩, none, .left⟩]
  unions := [⟨.all, { tables := [⟨.query { tables := [⟨.name "c", none⟩] }, label⟩] }⟩]

/-- A session that differs from a new one in all that is set up. -/
def Session.busy (settings : Option Settings) : Session where
  environment := [("SQLTREE_SUBQUERY_ALIAS", "1")]
  settings := settings
  registry := []
  threshold := some 0
  context := Log.SafeContext.empty.setRequest (.text "r") .null

/-- Without aliases of its own it is written the same in two sessions that share theirs, and with aliases even
where the environment gives none that is valid. -/
theorem nestedThrice_same :
    let s : Session := { settings := some {} }
    let s' := Session.busy (some { logLevel := "DEBUG", defaultFlavor := "ansi" })
    let sql (label : Option String) := Action.toSql (.select (nestedThrice label)) (.flavor .mysql)
    (s.SharesAlias s' ∧ (sql none).outcome s = (sql none).outcome s') ∧
      (∀ t ∈ (nestedThrice (some "u")).derived, t.IsLabelled) ∧
      (sql (some "u")).outcome s = (sql (some "u")).outcome (.busy none) := by
  intro s s' sql
  have hshares : s.SharesAlias s' := ⟨_, _, .inl rfl, .inl rfl, rfl⟩
  have hlabelled : ∀ t ∈ (nestedThrice (some "u")).derived, t.IsLabelled := by
    simp [nestedThrice, Select.derived, derivedOfTables, derivedOfJoins, derivedOfUnions, Table.derived,
      DerivedTable.IsLabelled]
  exact ⟨⟨hshares, Node.toSql_same _ _ (.inl hshares)⟩, hlabelled, Node.toSql_same _ _ (.inr hlabelled)⟩

end SqlAst
