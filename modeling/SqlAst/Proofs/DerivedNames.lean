import SqlAst.Proofs.Aliases
import SqlAst.Proofs.DerivedTables
import SqlAst.Proofs.Exposures

/-!
# Names of derived tables

A derived table is written as its statement in parentheses with AS and an alias. The alias is the one that it
was given, or else that of the settings. The settings accept only an alias that no rule for names takes apart,
so that the latter is always one quoted identifier.

* `Settings.isPlainAlias_of_check`: what the settings accept as the alias.
* `quotesWhole_of_isPlainAlias`: such an alias is written between quotation marks, as it is.
* `Node.standsIn_of_derived`: every derived table that is not a spare one stands in the text of a node.
* `Node.derived_named`: the three together, for settings, session and node of any kind.
-/
namespace SqlAst

open Sql

/-! ## The alias of the settings -/

theorem Settings.isPlainAlias_of_check {given : String → Option String} {c : Settings}
    (h : Settings.check given = .ok c) : Settings.isPlainAlias c.subqueryAlias = true := by
  rw [Settings.check, Checked.both_eq_ok_iff] at h
  obtain ⟨level, label, -, hlabel, rfl⟩ := h
  rw [Settings.ruled_eq_ok_iff] at hlabel
  split at hlabel
  · rename_i hplain
    cases hlabel
    exact hplain
  · cases hlabel

/-- A name is written as one quoted identifier: it is not written as it is, has no parts, is not the star, and
needs no mark doubled. -/
structure Sql.Dialect.QuotesWhole (d : Dialect) (s : String) : Prop where
  plain : d.IsPlain s
  whole : '.' ∉ s.toList
  notStar : s ≠ "*"
  text : d.flavor.escapeName s = String.ofList (d.mark :: s.toList ++ [d.mark])
  tokens : d.tokens (d.flavor.escapeName s) = [.atom (.name s.toList)]

theorem doubled_of_notMem {m : Char} {cs : List Char} (h : m ∉ cs) : Text.doubled [m] cs = cs := by
  rw [Text.doubled_singleton]
  induction cs with
  | nil => rfl
  | cons c rest ih =>
    rw [List.mem_cons, not_or] at h
    rw [List.flatMap_cons, if_neg (Ne.symm h.1), ih h.2, List.singleton_append]

theorem quotesWhole_of_isPlainAlias (d : Dialect) {s : String} (h : Settings.isPlainAlias s = true) :
    d.QuotesWhole s := by
  have hplain : d.IsPlain s := isPlain_of_isPlainAlias h
  have hpoint : '.' ∉ s.toList := notMem_of_isPlainAlias h (by decide) (by decide)
  have hstar : s ≠ "*" := by
    rintro rfl
    cases h
  have hchars : s.toList ≠ ['*'] := fun h => hstar (String.toList_inj.mp h)
  have hquoted : ¬ (s = "*" ∨ d.flavor.isExpression s = true) :=
    not_or.mpr ⟨hstar, Bool.eq_false_iff.mp hplain⟩
  exact {
    plain := hplain
    whole := hpoint
    notStar := hstar
    text := by
      rw [Flavor.escapeName, if_neg hquoted, splitOn_of_notMem hpoint, List.map_singleton,
        List.intercalate_singleton, Flavor.escapePart, if_neg hchars, Flavor.quotePart, quote_toList,
        doubled_of_notMem (mark_notMem_of_isPlainAlias h)]
      rfl
    tokens := by
      have hspells := spells_name hplain
      rw [(nameTrees_eq_single_iff s).mpr ⟨hpoint, hstar⟩] at hspells
      exact hspells.tokens_eq }

/-! ## The text of a derived table -/

namespace DerivedTable

variable {fallback : String} {t : DerivedTable}

/-- The name that a derived table exposes is the alias that it is written with. -/
theorem exposed_eq (fallback : String) (t : DerivedTable) :
    t.table.exposed fallback = if t.label.getD "" = "" then fallback else t.label.getD "" := by
  rw [table, Table.exposed, Table.ownName?]
  cases t.label with
  | none => simp
  | some label => by_cases h : label = "" <;> simp [h]

theorem label_of_isLabelled (h : t.IsLabelled) (fallback : String) : t.label = some (t.table.exposed fallback) := by
  rw [exposed_eq, if_neg h]
  unfold IsLabelled at h
  cases hlabel : t.label with
  | none => simp [hlabel] at h
  | some label => rfl

theorem exposed_of_not_isLabelled (h : ¬ t.IsLabelled) : t.table.exposed fallback = fallback := by
  rw [exposed_eq, if_pos (not_not.mp h)]

theorem exposed_ne_empty (h : fallback ≠ "") (t : DerivedTable) : t.table.exposed fallback ≠ "" := by
  rw [exposed_eq]
  split
  · exact h
  · assumption

theorem render_eq (f : Flavor) (h : fallback ≠ "") (t : DerivedTable) :
    t.table.render f fallback =
      parenthesised (t.query.render f fallback) ++ " AS " ++ f.escapeName (t.table.exposed fallback) := by
  have hne := t.exposed_ne_empty h
  rw [exposed_eq] at hne ⊢
  rw [table, Table.render]
  exact if_neg hne

/-- The text of a derived table is read as a group, which holds what its statement is read as, then AS and the
alias, wherever it stands. -/
theorem spells {d : Dialect} (h : fallback ≠ "") {ts : List Tree}
    (hquery : Spells d (t.query.render d.flavor fallback).toList ts)
    (hlabel : d.IsPlain (t.table.exposed fallback)) :
    Spells d (t.table.render d.flavor fallback).toList
      (.group ts :: words ["AS"] ++ nameTrees (t.table.exposed fallback)) := by
  have hlabelled := spells_labelled (spells_parenthesised hquery) hlabel
  rw [labelTrees, if_neg (t.exposed_ne_empty h)] at hlabelled
  rw [exposed_eq] at hlabelled ⊢
  rw [table, Table.render]
  exact hlabelled

end DerivedTable

/-! ## Where derived tables stand -/

/-- A text stands in that of a node in a place for a table: as the table, as a joined one, or as one of a
statement; in each case possibly inside another table. -/
inductive StandsIn (item : String) : String → Prop where
  | table {sql : String} : Refers item .table sql → StandsIn item sql
  | joined {sql tail : String} (kind : JoinKind) : Refers item .table sql → Closing tail →
    StandsIn item (kind.word ++ " JOIN " ++ sql ++ tail)
  | statement {sql : String} : Refers item .statement sql → StandsIn item sql

section

variable (f : Flavor) (fallback : String)

theorem refers_self (item : String) : Refers item .table item := by
  have h : Refers item .table (item ++ "") := .named .nothing
  rwa [String.append_empty] at h

mutual

theorem Table.refers_derived (t : Table) {u : DerivedTable} (h : u ∈ t.derived) :
    Refers (u.table.render f fallback) .table (t.render f fallback) := by
  match t with
  | ⟨.name name, label⟩ =>
    rw [Table.derived] at h
    cases h
  | ⟨.query q, label⟩ =>
    rw [Table.derived] at h
    rcases List.mem_cons.mp h with rfl | h
    · exact refers_self _
    · obtain ⟨tail, htail, hlabelled⟩ := f.labelled_eq (parenthesised (q.render f fallback))
        (if label.getD "" = "" then fallback else label.getD "")
      rw [Table.render, hlabelled]
      exact .nested (q.refers_derived h) htail

theorem Select.refers_derived (q : Select) {u : DerivedTable} (h : u ∈ q.derived) :
    Refers (u.table.render f fallback) .statement (q.render f fallback) := by
  match q with
  | ⟨tables, joins, _, _, _, _, _, _, _, unions⟩ =>
    rw [Select.derived] at h
    rcases List.mem_append.mp h with h | h
    · rcases List.mem_append.mp h with h | h
      · obtain ⟨t, ht, hrefers⟩ := refers_derivedOfTables tables h
        exact Select.refers_of_mem f fallback (List.mem_append_left _ ht) hrefers
      · obtain ⟨j, hj, hrefers⟩ := refers_derivedOfJoins joins h
        exact Select.refers_of_mem f fallback (List.mem_append_right _ (List.mem_map_of_mem hj)) hrefers
    · obtain ⟨part, hpart, hrefers⟩ := refers_derivedOfUnions unions h
      exact Select.refers_of_union f fallback hpart hrefers

theorem refers_derivedOfTables (tables : List Table) {u : DerivedTable} (h : u ∈ derivedOfTables tables) :
    ∃ t ∈ tables, Refers (u.table.render f fallback) .table (t.render f fallback) := by
  match tables with
  | [] =>
    rw [derivedOfTables] at h
    cases h
  | t :: rest =>
    rw [derivedOfTables] at h
    rcases List.mem_append.mp h with h | h
    · exact ⟨t, List.mem_cons_self, t.refers_derived h⟩
    · obtain ⟨t', ht', hrefers⟩ := refers_derivedOfTables rest h
      exact ⟨t', List.mem_cons_of_mem _ ht', hrefers⟩

theorem refers_derivedOfJoins (joins : List Join) {u : DerivedTable} (h : u ∈ derivedOfJoins joins) :
    ∃ j ∈ joins, Refers (u.table.render f fallback) .table (j.table.render f fallback) := by
  match joins with
  | [] =>
    rw [derivedOfJoins] at h
    cases h
  | ⟨t, condition, kind⟩ :: rest =>
    rw [derivedOfJoins] at h
    rcases List.mem_append.mp h with h | h
    · exact ⟨⟨t, condition, kind⟩, List.mem_cons_self, t.refers_derived h⟩
    · obtain ⟨j, hj, hrefers⟩ := refers_derivedOfJoins rest h
      exact ⟨j, List.mem_cons_of_mem _ hj, hrefers⟩

theorem refers_derivedOfUnions (unions : List UnionPart) {u : DerivedTable} (h : u ∈ derivedOfUnions unions) :
    ∃ part ∈ unions, Refers (u.table.render f fallback) .statement (part.query.render f fallback) := by
  match unions with
  | [] =>
    rw [derivedOfUnions] at h
    cases h
  | ⟨kind, q⟩ :: rest =>
    rw [derivedOfUnions] at h
    rcases List.mem_append.mp h with h | h
    · exact ⟨⟨kind, q⟩, List.mem_cons_self, q.refers_derived h⟩
    · obtain ⟨part, hpart, hrefers⟩ := refers_derivedOfUnions rest h
      exact ⟨part, List.mem_cons_of_mem _ hpart, hrefers⟩

end

/-- A derived table of some tables and joins is in one of them. -/
theorem refers_derived_of_sources {tables : List Table} {joins : List Join} {u : DerivedTable}
    (h : u ∈ derivedOfTables tables ++ derivedOfJoins joins) :
    ∃ t ∈ tables ++ joins.map Join.table, Refers (u.table.render f fallback) .table (t.render f fallback) := by
  rcases List.mem_append.mp h with h | h
  · obtain ⟨t, ht, hrefers⟩ := refers_derivedOfTables f fallback tables h
    exact ⟨t, List.mem_append_left _ ht, hrefers⟩
  · obtain ⟨j, hj, hrefers⟩ := refers_derivedOfJoins f fallback joins h
    exact ⟨j.table, List.mem_append_right _ (List.mem_map_of_mem hj), hrefers⟩

/-- Wherever a node is written, so are its derived tables, but for spare ones. -/
theorem Node.standsIn_of_derived {n : Node} {u : DerivedTable} {sql : String}
    (hu : u ∈ n.withoutSpare.derived) (hsql : n.sql f fallback = .ok sql) :
    StandsIn (u.table.render f fallback) sql := by
  cases n with
  | table t =>
    cases hsql
    exact .table (t.refers_derived f fallback hu)
  | join j =>
    cases hsql
    obtain ⟨tail, htail, hrender⟩ := j.render_eq f fallback
    rw [hrender]
    exact .joined j.kind (j.table.refers_derived f fallback hu) htail
  | select q =>
    cases hsql
    exact .statement (q.refers_derived f fallback hu)
  | projection p =>
    cases hsql
    obtain ⟨t, ht, hrefers⟩ := refers_derived_of_sources f fallback hu
    rw [List.map_nil, List.append_nil] at ht
    have hlisted := refers_of_listed f fallback (.select (renderFields f p.fields)) ht hrefers .nothing
    rw [String.append_empty] at hlisted
    exact .statement hlisted
  | condition c => cases hu
  | delete d =>
    obtain ⟨t, ht, hrefers⟩ := refers_derived_of_sources f fallback hu
    exact .statement (Delete.refers_of_mem f fallback hsql ht hrefers)
  | update m =>
    obtain ⟨t, ht, hrefers⟩ := refers_derived_of_sources f fallback hu
    exact .statement (Update.refers_of_mem f fallback hsql ht hrefers)
  | insert i =>
    obtain ⟨table, columnNames, rows, source⟩ := i
    cases source with
    | none => cases hu
    | some q =>
      have hsource : (Insert.mk table columnNames rows (some q)).source = some q := rfl
      obtain ⟨columns, -, rfl⟩ := Insert.render_source f fallback hsource hsql
      exact .statement (.provided _ (q.refers_derived f fallback hu))

end

/-! ## The name of every derived table -/

/-- What a derived table is written as in a dialect, and what this is read as. -/
structure DerivedTable.IsNamed (t : DerivedTable) (d : Dialect) (fallback : String) : Prop where
  text : t.table.render d.flavor fallback =
    parenthesised (t.query.render d.flavor fallback) ++ " AS " ++ d.flavor.escapeName (t.table.exposed fallback)
  own : t.IsLabelled → t.label = some (t.table.exposed fallback)
  synthesized : ¬ t.IsLabelled → t.table.exposed fallback = fallback
  /-- What the statement is read as, if no name in it is written as it is. -/
  inside : (∀ name ∈ t.query.names, d.IsPlain name) →
    Spells d (t.query.render d.flavor fallback).toList (t.query.trees d fallback)
  /-- Whatever the statement is read as makes one group. -/
  reads : ∀ ts, Spells d (t.query.render d.flavor fallback).toList ts → d.IsPlain (t.table.exposed fallback) →
    Spells d (t.table.render d.flavor fallback).toList
      (.group ts :: words ["AS"] ++ nameTrees (t.table.exposed fallback))
  readsSynthesized : ¬ t.IsLabelled → ∀ ts, Spells d (t.query.render d.flavor fallback).toList ts →
    Spells d (t.table.render d.flavor fallback).toList
      (.group ts :: words ["AS"] ++ [.leaf (.name fallback.toList)])

theorem DerivedTable.isNamed {d : Dialect} {fallback : String} (h : Settings.isPlainAlias fallback = true)
    (t : DerivedTable) : t.IsNamed d fallback := by
  have hne : fallback ≠ "" := ne_empty_of_isPlainAlias h
  have hwhole := quotesWhole_of_isPlainAlias d h
  exact {
    text := t.render_eq d.flavor hne
    own := fun hlabelled => label_of_isLabelled hlabelled fallback
    synthesized := exposed_of_not_isLabelled
    inside := t.query.spells hwhole.plain
    reads := fun ts hquery hlabel => spells hne hquery hlabel
    readsSynthesized := fun hlabelled ts hquery => by
      rw [← (nameTrees_eq_single_iff fallback).mpr ⟨hwhole.whole, hwhole.notStar⟩]
      have hlabel : t.table.exposed fallback = fallback := exposed_of_not_isLabelled hlabelled
      have hspells := spells hne hquery (hlabel.symm ▸ hwhole.plain)
      rwa [hlabel] at hspells }

/-- With settings that are accepted, in both dialects:

* their alias is one quoted identifier wherever it is written;
* every derived table of a node, at any depth, is written in parentheses with AS and its own alias, or else
  that of the settings;
* and unless it is spare, it stands in what the node is written as, in a place for a table. -/
theorem Node.derived_named {given : String → Option String} {c : Settings} (hc : Settings.check given = .ok c)
    (d : Dialect) (n : Node) :
    d.QuotesWhole c.subqueryAlias ∧
      (∀ t ∈ n.derived, t.IsNamed d c.subqueryAlias) ∧
      ∀ s sql, s.Settles c → (Action.toSql n (.flavor d.flavor)).outcome s = .ok sql →
        ∀ t ∈ n.withoutSpare.derived, StandsIn (t.table.render d.flavor c.subqueryAlias) sql := by
  have hplain := Settings.isPlainAlias_of_check hc
  refine ⟨quotesWhole_of_isPlainAlias d hplain, fun t _ => t.isNamed hplain, ?_⟩
  intro s sql hs hsql t ht
  rw [Action.toSql_settled hs] at hsql
  exact n.standsIn_of_derived d.flavor c.subqueryAlias ht (Node.sql_of_render hsql)

/-- Only an alias is given. -/
def onlyAlias (field : String) : Option String := if field = "subquery_alias" then some "x_1" else none

/-- A derived table without an alias of its own. -/
def innermost : DerivedTable := ⟨{ tables := [⟨.name "b", none⟩] }, none⟩

/-- A statement that holds it inside another, which has an alias. -/
def doublyNested : Node := .select { tables := [⟨.query { tables := [innermost.table] }, some "u"⟩] }

def doublyNestedSql : String := "SELECT * FROM (SELECT * FROM (SELECT * FROM \"b\") AS \"x_1\") AS \"u\""

/-- Each is written with its name. -/
theorem doublyNested_named :
    Settings.check onlyAlias = .ok { subqueryAlias := "x_1" } ∧
      (Action.toSql doublyNested (.flavor .timestream)).outcome { settings := some { subqueryAlias := "x_1" } } =
        .ok doublyNestedSql ∧
      innermost.table.render .timestream "x_1" = "(SELECT * FROM \"b\") AS \"x_1\"" ∧
      StandsIn "(SELECT * FROM \"b\") AS \"x_1\"" doublyNestedSql ∧ Dialect.timestream.QuotesWhole "x_1" := by
  have hc : Settings.check onlyAlias = .ok { subqueryAlias := "x_1" } := rfl
  have hrender : doublyNested.render Flavor.timestream "x_1" = .ok doublyNestedSql := rfl
  have htext : innermost.table.render .timestream "x_1" = "(SELECT * FROM \"b\") AS \"x_1\"" := rfl
  have hsettles : Session.Settles { settings := some { subqueryAlias := "x_1" } } { subqueryAlias := "x_1" } := .inl rfl
  have hsql := Action.toSql_settled hsettles doublyNested .timestream
  rw [hrender] at hsql
  have hmem : innermost ∈ doublyNested.withoutSpare.derived := by
    simp [doublyNested, innermost, DerivedTable.table, Node.withoutSpare, Node.derived, Select.derived,
      derivedOfTables, derivedOfJoins, derivedOfUnions, Table.derived]
  obtain ⟨hwhole, -, hstands⟩ := Node.derived_named hc .timestream doublyNested
  have hplaced := hstands _ doublyNestedSql hsettles hsql innermost hmem
  rw [← htext]
  exact ⟨hc, hsql, rfl, hplaced, hwhole⟩

end SqlAst
