import SqlAst.Proofs.Exposures
import SqlAst.Proofs.ScopeReader
import SqlAst.Proofs.TokenStream
import SqlAst.Proofs.Writing

/-!
# Scopes of rendered SQL

In the text of a node the reader of scopes finds those of the node, at every depth. The names in a scope are
distinct exactly if those that tables have of their own are, there is at most one nested statement without an
alias, and the name that this gets is not taken.

* `Node.scopesOf_trees`: the reader finds the scopes of a node in its phrase.
* `Node.scopes_of_sql`: it finds them in the text of the node.
* `Node.toSql_scopes`: the same of the traced call, and when the names are distinct.
-/
namespace SqlAst

open Sql

variable {d : Dialect} {fallback : String}

/-! ## Phrases without sources -/

theorem silent_labelTrees (label : String) : Silent (labelTrees label) := by
  unfold labelTrees
  split
  · exact silent_nil
  · exact (silent_words (by decide)).append (silent_nameTrees label)

theorem silent_literalTree (v : Scalar) : Silent [literalTree d v] := by
  refine silent_leaf fun word h => ?_
  cases v with
  | null =>
    cases h
    decide
  | bool b =>
    cases h
    cases d <;> cases b <;> decide
  | _ => cases h

theorem silent_literalTrees (values : List Scalar) : Silent (literalTrees d values) := by
  refine silent_intercalate silent_comma fun ts hts => ?_
  obtain ⟨v, -, rfl⟩ := List.mem_map.mp hts
  exact silent_literalTree v

theorem silent_unitTrees (connective : Connective) : Silent connective.unitTrees := by
  have hnumber (digits : List Char) : Silent [.leaf (.number digits)] := silent_leaf (by simp)
  cases connective with
  | conj => exact (hnumber ['1']).append ((silent_sign ['=']).append (hnumber ['1']))
  | disj => exact (hnumber ['1']).append ((silent_sign ['=']).append (hnumber ['0']))

mutual

theorem Condition.silent (c : Condition) : Silent (c.trees d) := by
  match c with
  | .compare op column value =>
    rw [Condition.trees]
    exact (silent_nameTrees column).append ((silent_sign _).append (silent_literalTree value))
  | .between column low high =>
    rw [Condition.trees]
    exact ((((silent_nameTrees column).append (silent_words (by decide))).append
      (silent_literalTree low)).append (silent_words (by decide))).append (silent_literalTree high)
  | .among column values =>
    rw [Condition.trees]
    refine ((silent_nameTrees column).append (silent_words (by decide))).append (Silent.group ?_)
    split
    · exact silent_words (by decide)
    · exact silent_literalTrees values
  | .like negated column pattern =>
    rw [Condition.trees]
    refine ((silent_nameTrees column).append (silent_words ?_)).append (silent_leaf (by simp))
    cases negated <;> decide
  | .isNull negated column =>
    rw [Condition.trees]
    refine (silent_nameTrees column).append (silent_words ?_)
    cases negated <;> decide
  | .columnEqual left right =>
    rw [Condition.trees]
    exact ((silent_nameTrees left).append (silent_sign _)).append (silent_nameTrees right)
  | .combine connective [] =>
    rw [Condition.trees]
    exact (silent_unitTrees connective).group
  | .combine connective (c :: rest) =>
    have hword : Silent (words [connective.word]) := silent_words (by cases connective <;> decide)
    rw [Condition.trees]
    refine silent_intercalate hword fun ts hts => ?_
    rcases List.mem_cons.mp hts with rfl | hts
    · exact c.silent.group
    · obtain ⟨inner, hinner, rfl⟩ := List.mem_map.mp hts
      exact (Condition.silentEach rest inner hinner).group

theorem Condition.silentEach (cs : List Condition) : ∀ ts ∈ Condition.treesEach d cs, Silent ts := by
  match cs with
  | [] => exact fun _ h => nomatch h
  | c :: rest =>
    intro ts hts
    rw [Condition.treesEach] at hts
    rcases List.mem_cons.mp hts with rfl | hts
    · exact c.silent
    · exact Condition.silentEach rest ts hts

end

theorem silent_conditions {word : String} (hword : opensSource word.toList = false) (cs : List Condition) :
    Silent (clauseTrees (words [word]) (words ["AND"]) (cs.map (Condition.trees d))) := by
  refine silent_clauseTrees (silent_words (by simpa using hword)) (silent_words (by decide)) fun ts hts => ?_
  obtain ⟨c, -, rfl⟩ := List.mem_map.mp hts
  exact c.silent

theorem silent_whereTrees (filters : List Condition) : Silent (whereTrees d filters) :=
  silent_conditions (by decide) filters

theorem silent_fieldTrees (fields : List SelectField) : Silent (fieldTrees fields) := by
  unfold fieldTrees
  split
  · exact silent_leaf (by simp)
  · refine silent_intercalate silent_comma fun ts hts => ?_
    obtain ⟨field, -, rfl⟩ := List.mem_map.mp hts
    exact (silent_nameTrees field.name).append (silent_labelTrees _)

theorem silent_countTrees {word : String} (hword : opensSource word.toList = false) (n : Option Nat) :
    Silent (countTrees word n) := by
  cases n with
  | none => exact silent_nil
  | some n => exact (silent_words (by simpa using hword)).append (silent_leaf (by simp))

/-- The clauses of a statement behind its joins. -/
def Select.closingTrees (d : Dialect) (q : Select) : List Tree :=
  whereTrees d q.filters ++ clauseTrees (words ["GROUP", "BY"]) comma (q.groupBy.map nameTrees) ++
    clauseTrees (words ["HAVING"]) (words ["AND"]) (q.groupFilters.map (Condition.trees d)) ++
    clauseTrees (words ["ORDER", "BY"]) comma (q.orderBy.map OrderSpec.trees) ++
    countTrees "LIMIT" q.limit ++ countTrees "OFFSET" q.offset

theorem Select.ownTrees_eq (tables joins : List (List Tree)) (q : Select) :
    q.ownTrees d tables joins =
      words ["SELECT"] ++ fieldTrees q.fields ++ clauseTrees (words ["FROM"]) comma tables ++
        clauseTrees [] [] joins ++ q.closingTrees d := by
  simp only [Select.ownTrees, Select.closingTrees, List.append_assoc]

theorem Select.silent_closingTrees (q : Select) : Silent (q.closingTrees d) := by
  have hgroupBy : Silent (clauseTrees (words ["GROUP", "BY"]) comma (q.groupBy.map nameTrees)) := by
    refine silent_clauseTrees (silent_words (by decide)) silent_comma fun ts hts => ?_
    obtain ⟨name, -, rfl⟩ := List.mem_map.mp hts
    exact silent_nameTrees name
  have horderBy : Silent (clauseTrees (words ["ORDER", "BY"]) comma (q.orderBy.map OrderSpec.trees)) := by
    refine silent_clauseTrees (silent_words (by decide)) silent_comma fun ts hts => ?_
    obtain ⟨o, -, rfl⟩ := List.mem_map.mp hts
    exact (silent_nameTrees o.field).append (silent_words (by cases o.direction <;> decide))
  have hfilters : Silent (whereTrees d q.filters) := silent_whereTrees q.filters
  have hgroupFilters : Silent
      (clauseTrees (words ["HAVING"]) (words ["AND"]) (q.groupFilters.map (Condition.trees d))) :=
    silent_conditions (by decide) q.groupFilters
  have hlimit : Silent (countTrees "LIMIT" q.limit) := silent_countTrees (by decide) q.limit
  have hoffset : Silent (countTrees "OFFSET" q.offset) := silent_countTrees (by decide) q.offset
  exact ((((hfilters.append hgroupBy).append hgroupFilters).append horderBy).append hlimit).append hoffset

theorem endsSource_whereTrees (filters : List Condition) : EndsSource (whereTrees d filters) :=
  endsSource_clauseTrees (by decide) [] _ _

theorem Select.endsSource_closingTrees (q : Select) : EndsSource (q.closingTrees d) := by
  have hgroupBy : EndsSource (clauseTrees (words ["GROUP", "BY"]) comma (q.groupBy.map nameTrees)) :=
    endsSource_clauseTrees (by decide) _ _ _
  have hgroupFilters : EndsSource
      (clauseTrees (words ["HAVING"]) (words ["AND"]) (q.groupFilters.map (Condition.trees d))) :=
    endsSource_clauseTrees (by decide) _ _ _
  have horderBy : EndsSource (clauseTrees (words ["ORDER", "BY"]) comma (q.orderBy.map OrderSpec.trees)) :=
    endsSource_clauseTrees (by decide) _ _ _
  have hlimit : EndsSource (countTrees "LIMIT" q.limit) := endsSource_countTrees (by decide) _
  have hoffset : EndsSource (countTrees "OFFSET" q.offset) := endsSource_countTrees (by decide) _
  exact (((((endsSource_whereTrees q.filters).append hgroupBy).append hgroupFilters).append horderBy).append
    hlimit).append hoffset

/-! ## Sources -/

/-- A source is read as the name that it exposes. -/
theorem Table.exposuresFrom_trees (hfallback : fallback ≠ "") (t : Table) (rest : List Tree) :
    exposuresFrom (some []) (t.trees d fallback ++ rest) =
      exposuresFrom (some (nameTrees (t.exposed fallback))) rest := by
  -- What stands in front of AS is forgotten, be it a name or a group.
  have hlabelled {label : String} (h : label ≠ "") {source : List Tree} (hsource : Collected source) :
      exposuresFrom (some []) (source ++ labelTrees label ++ rest) =
        exposuresFrom (some (nameTrees label)) rest := by
    rw [labelTrees, if_neg h, List.append_assoc, hsource, List.append_assoc, words, List.map_cons, List.map_nil,
      List.singleton_append, exposuresFrom_as, collected_nameTrees]
    rfl
  obtain ⟨source, label⟩ := t
  cases source with
  | name name =>
    rw [Table.trees, Table.exposed, Table.ownName?, Option.getD_some]
    by_cases hlabel : label.getD "" = ""
    · rw [hlabel, labelTrees, if_pos rfl, if_pos rfl, List.append_nil, collected_nameTrees]
      rfl
    · rw [hlabelled hlabel (collected_nameTrees name), if_neg hlabel]
  | query q =>
    rw [Table.trees, Table.exposed, Table.ownName?]
    cases label with
    | none => exact hlabelled hfallback (collected_group _)
    | some label =>
      by_cases hlabel : label = ""
      · simp only [Option.getD_some, if_pos hlabel, Option.getD_none]
        exact hlabelled hfallback (collected_group _)
      · simp only [Option.getD_some, if_neg hlabel]
        exact hlabelled hlabel (collected_group _)

variable (d fallback) in
/-- Behind the table of a join there may be a condition. -/
theorem Join.trees_eq (j : Join) :
    ∃ on : List Tree, Silent on ∧ EndsSource on ∧
      j.trees d fallback = words [j.kind.word, "JOIN"] ++ j.table.trees d fallback ++ on := by
  obtain ⟨table, condition, kind⟩ := j
  rw [Join.trees]
  cases condition with
  | none => exact ⟨[], silent_nil, endsSource_nil, rfl⟩
  | some c =>
    have hon : Silent (words ["ON"] ++ c.trees d) := (silent_words (by decide)).append c.silent
    exact ⟨_, hon, endsSource_words (by decide) [] _, rfl⟩

/-- The tokens of the names that tables expose. -/
def exposedTrees (fallback : String) (tables : List Table) : List (List Tree) :=
  (exposedNames fallback tables).map nameTrees

section

variable (hfallback : fallback ≠ "")

include hfallback

theorem exposuresFrom_listed (t : Table) (tables : List Table) {rest : List Tree} (hrest : EndsSource rest) :
    exposuresFrom (some []) (comma.intercalate ((t :: tables).map (Table.trees d fallback)) ++ rest) =
      exposedTrees fallback (t :: tables) ++ exposuresFrom none rest := by
  induction tables generalizing t with
  | nil =>
    rw [List.map_singleton, List.intercalate_singleton, t.exposuresFrom_trees hfallback,
      exposuresFrom_ends hrest]
    rfl
  | cons next more ih =>
    rw [List.map_cons, List.map_cons, List.intercalate_cons_cons, List.append_assoc, List.append_assoc,
      t.exposuresFrom_trees hfallback, exposuresFrom_comma, ← List.map_cons, ih next]
    rfl

theorem exposuresFrom_from (tables : List Table) {rest : List Tree} (hrest : EndsSource rest) :
    exposuresFrom none (clauseTrees (words ["FROM"]) comma (tables.map (Table.trees d fallback)) ++ rest) =
      exposedTrees fallback tables ++ exposuresFrom none rest := by
  cases tables with
  | nil => rfl
  | cons t tables =>
    rw [List.map_cons, clauseTrees, List.append_assoc, words, List.map_cons, List.map_nil, List.singleton_append,
      exposuresFrom_opens (by decide), ← List.map_cons, exposuresFrom_listed hfallback t tables hrest]
    rfl

theorem Join.exposuresFrom_trees (j : Join) {rest : List Tree} (hrest : EndsSource rest) :
    exposuresFrom none (j.trees d fallback ++ rest) =
      nameTrees (j.table.exposed fallback) :: exposuresFrom none rest := by
  obtain ⟨on, hsilent, hends, htrees⟩ := j.trees_eq d fallback
  have hkind : opensSource j.kind.word.toList = false ∧ j.kind.word.toList ≠ "AS".toList := by
    cases j.kind <;> decide
  rw [htrees, words, List.map_cons, List.map_cons, List.map_nil]
  simp only [List.append_assoc, List.cons_append, List.nil_append]
  rw [exposuresFrom_word hkind.1 hkind.2, exposuresFrom_opens (by decide),
    j.table.exposuresFrom_trees hfallback, exposuresFrom_ends (hends.append hrest), hsilent.outside]
  rfl

end

theorem clauseTrees_nil (phrases : List (List Tree)) : clauseTrees [] [] phrases = phrases.flatten := by
  induction phrases with
  | nil => rfl
  | cons ts rest ih =>
    cases rest with
    | nil => simp [clauseTrees]
    | cons us more =>
      rw [clauseTrees, List.nil_append] at ih ⊢
      rw [List.intercalate_cons_cons, ih, List.append_nil]
      rfl

theorem Join.endsSource_trees (j : Join) : EndsSource (j.trees d fallback) := by
  obtain ⟨on, -, -, htrees⟩ := j.trees_eq d fallback
  rw [htrees, List.append_assoc]
  exact endsSource_words (by cases j.kind <;> decide) _ _

variable (d fallback) in
theorem endsSource_joins (joins : List Join) :
    EndsSource (clauseTrees [] [] (joins.map (Join.trees d fallback))) := by
  rw [clauseTrees_nil]
  induction joins with
  | nil => exact endsSource_nil
  | cons j rest ih => exact j.endsSource_trees.append ih

theorem exposuresFrom_joins (hfallback : fallback ≠ "") (joins : List Join) {rest : List Tree}
    (hrest : EndsSource rest) :
    exposuresFrom none (clauseTrees [] [] (joins.map (Join.trees d fallback)) ++ rest) =
      exposedTrees fallback (joins.map Join.table) ++ exposuresFrom none rest := by
  induction joins with
  | nil => rfl
  | cons j more ih =>
    -- The next join begins with a word, which ends the source of this one.
    have hmore := (endsSource_joins d fallback more).append hrest
    rw [clauseTrees_nil] at ih hmore ⊢
    rw [List.map_cons, List.flatten_cons, List.append_assoc, j.exposuresFrom_trees hfallback hmore, ih]
    rfl

theorem exposedTrees_append (tables others : List Table) :
    exposedTrees fallback (tables ++ others) = exposedTrees fallback tables ++ exposedTrees fallback others := by
  simp only [exposedTrees, exposedNames, List.map_append]

theorem innerScopes_intercalate {sep : List Tree} (hsep : innerScopes sep = []) (phrases : List (List Tree)) :
    innerScopes (sep.intercalate phrases) = phrases.flatMap innerScopes := by
  induction phrases with
  | nil => rfl
  | cons ts rest ih =>
    cases rest with
    | nil => simp
    | cons us more =>
      rw [List.intercalate_cons_cons, innerScopes_append, innerScopes_append, hsep, ih, List.append_nil]
      rfl

theorem innerScopes_clauseTrees {lead sep : List Tree} (hlead : innerScopes lead = [])
    (hsep : innerScopes sep = []) (phrases : List (List Tree)) :
    innerScopes (clauseTrees lead sep phrases) = phrases.flatMap innerScopes := by
  cases phrases with
  | nil => rfl
  | cons ts rest =>
    rw [clauseTrees, innerScopes_append, hlead, innerScopes_intercalate hsep, List.nil_append]

/-! ### The sources of one statement -/

/-- The trees are the beginning of a statement up to its joins, with the tables in it. -/
structure Introduces (d : Dialect) (fallback : String) (ts : List Tree) (tables : List Table) : Prop where
  outside : ∀ rest, EndsSource rest →
    exposuresFrom none (ts ++ rest) = exposedTrees fallback tables ++ exposuresFrom none rest
  inside : innerScopes ts = (tables.map (Table.trees d fallback)).flatMap innerScopes

theorem Introduces.prepend {lead ts : List Tree} {tables : List Table} (h : Introduces d fallback ts tables)
    (hlead : Silent lead) : Introduces d fallback (lead ++ ts) tables where
  outside rest hrest := by rw [List.append_assoc, hlead.outside, h.outside rest hrest]
  inside := by rw [innerScopes_append, hlead.inside, h.inside, List.nil_append]

theorem introduces_from (hfallback : fallback ≠ "") (tables : List Table) :
    Introduces d fallback (clauseTrees (words ["FROM"]) comma (tables.map (Table.trees d fallback))) tables where
  outside _ hrest := exposuresFrom_from hfallback tables hrest
  inside := innerScopes_clauseTrees rfl rfl _

theorem introduces_update (hfallback : fallback ≠ "") (t : Table) :
    Introduces d fallback (words ["UPDATE"] ++ t.trees d fallback) [t] where
  outside rest hrest := by
    have hlisted := exposuresFrom_listed (d := d) hfallback t [] hrest
    rw [List.map_singleton, List.intercalate_singleton] at hlisted
    rw [List.append_assoc, words, List.map_cons, List.map_nil, List.singleton_append,
      exposuresFrom_opens (by decide), hlisted]
    rfl
  inside := by simp [innerScopes, Tree.innerScopes, words]

/-- The scopes of a statement without its union: that of its tables and joined ones, and those inside. -/
theorem Introduces.scopesOf_statement {opening closing : List Tree} {tables : List Table}
    (h : Introduces d fallback opening tables) (hfallback : fallback ≠ "") (joins : List Join)
    (hends : EndsSource closing) (hsilent : Silent closing) :
    scopesOf (opening ++ clauseTrees [] [] (joins.map (Join.trees d fallback)) ++ closing) =
      unlessEmpty (exposedTrees fallback (tables ++ joins.map Join.table)) ++
        (tables.map (Table.trees d fallback)).flatMap innerScopes ++
        (joins.map (Join.trees d fallback)).flatMap innerScopes := by
  have hjoins := (endsSource_joins d fallback joins).append hends
  have hclosing : exposuresFrom none closing = [] := hsilent.exposures
  have hexposures :
      exposures (opening ++ clauseTrees [] [] (joins.map (Join.trees d fallback)) ++ closing) =
        exposedTrees fallback (tables ++ joins.map Join.table) := by
    rw [exposures, List.append_assoc, h.outside _ hjoins, exposuresFrom_joins hfallback joins hends, hclosing,
      List.append_nil, exposedTrees_append]
  rw [scopesOf, hexposures, innerScopes_append, innerScopes_append, h.inside,
    innerScopes_clauseTrees rfl rfl, hsilent.inside, List.append_nil, List.append_assoc]

/-! ## Scopes of nodes -/

mutual

/-- The scopes inside a table. -/
def Table.scopes : Table → List (List Table)
  | ⟨.name _, _⟩ => []
  | ⟨.query q, _⟩ => q.scopes

/-- The scopes of a statement, of those inside its sources and of its union's members, if not empty. -/
def Select.scopes : Select → List (List Table)
  | ⟨tables, joins, _, _, _, _, _, _, _, unions⟩ =>
    unlessEmpty (tables ++ joins.map Join.table) ++ scopesOfTables tables ++ scopesOfJoins joins ++
      scopesOfUnions unions

def scopesOfTables : List Table → List (List Table)
  | [] => []
  | t :: rest => t.scopes ++ scopesOfTables rest

def scopesOfJoins : List Join → List (List Table)
  | [] => []
  | ⟨t, _, _⟩ :: rest => t.scopes ++ scopesOfJoins rest

def scopesOfUnions : List UnionPart → List (List Table)
  | [] => []
  | ⟨_, q⟩ :: rest => q.scopes ++ scopesOfUnions rest

end

/-- The scope of some tables and joined ones, if not empty, and those inside. -/
def scopesOfSources (tables : List Table) (joins : List Join) : List (List Table) :=
  unlessEmpty (tables ++ joins.map Join.table) ++ scopesOfTables tables ++ scopesOfJoins joins

/-- The scopes that are written in a node, at every depth. A delete or an update writes its first table and
the joined ones, a bare select list the listed ones. -/
def Node.scopes : Node → List (List Table)
  | .table t => t.scopes
  | .join j => scopesOfSources [] [j]
  | .select q => q.scopes
  | .projection p => scopesOfSources p.tables []
  | .condition _ => []
  | .delete m => scopesOfSources (m.tables.take 1) m.joins
  | .update m => scopesOfSources (m.tables.take 1) m.joins
  | .insert m => (m.source.map Select.scopes).getD []

theorem unlessEmpty_exposedTrees (tables : List Table) :
    unlessEmpty (exposedTrees fallback tables) = (unlessEmpty tables).map (exposedTrees fallback) := by
  rw [exposedTrees, exposedNames, List.map_map, unlessEmpty_map]
  refine congrArg (List.map · _) (funext fun tables => ?_)
  rw [exposedTrees, exposedNames, List.map_map]

/-- The members of a union are groups, and so is what they wrap. -/
theorem scopesOf_wrapTrees (phrase : List Tree) {members : List (List Tree × List Tree)}
    (h : ∀ m ∈ members, Silent m.1) :
    scopesOf (wrapTrees phrase members) = scopesOf phrase ++ members.flatMap fun m => scopesOf m.2 := by
  unfold wrapTrees
  induction members generalizing phrase with
  | nil => simp
  | cons m rest ih =>
    have hm := h m List.mem_cons_self
    -- Between the groups there are only the words of the union, so that the union itself has no sources.
    have houtside : exposures (.group phrase :: m.1 ++ [.group m.2]) = [] := by
      rw [exposures, List.cons_append, exposuresFrom, hm.outside]
      · rw [exposuresFrom]
        · rfl
        · simp
      · simp
    have hinside : innerScopes (.group phrase :: m.1 ++ [.group m.2]) = scopesOf phrase ++ scopesOf m.2 := by
      rw [← List.singleton_append, innerScopes_append, innerScopes_append, innerScopes_group, innerScopes_group,
        hm.inside, List.append_nil]
    rw [List.foldl_cons, ih _ fun x hx => h x (List.mem_cons_of_mem _ hx), List.flatMap_cons]
    rw [scopesOf, houtside, hinside, List.append_assoc, List.append_assoc]
    rfl

theorem UnionKind.silent (kind : UnionKind) : Silent kind.trees := by
  cases kind <;> exact silent_words (by decide)

variable (d fallback) in
theorem silent_unionTrees (unions : List UnionPart) : ∀ m ∈ unionTrees d fallback unions, Silent m.1 := by
  induction unions with
  | nil => exact fun _ h => nomatch h
  | cons u rest ih =>
    obtain ⟨kind, q⟩ := u
    rw [unionTrees, UnionPart.trees]
    exact List.forall_mem_cons.mpr ⟨kind.silent, ih⟩

mutual

theorem Table.innerScopes_trees (hfallback : fallback ≠ "") (t : Table) :
    innerScopes (t.trees d fallback) = t.scopes.map (exposedTrees fallback) := by
  match t with
  | ⟨.name name, label⟩ =>
    rw [Table.trees, Table.scopes]
    exact ((silent_nameTrees name).append (silent_labelTrees _)).inside
  | ⟨.query q, label⟩ =>
    rw [Table.trees, Table.scopes, ← List.singleton_append, innerScopes_append, innerScopes_group,
      (silent_labelTrees _).inside, List.append_nil]
    exact q.scopesOf_trees hfallback

theorem Select.scopesOf_trees (hfallback : fallback ≠ "") (q : Select) :
    scopesOf (q.trees d fallback) = q.scopes.map (exposedTrees fallback) := by
  match q with
  | ⟨tables, joins, fields, filters, groupFilters, limit, offset, orderBy, groupBy, unions⟩ =>
    have hselect : Silent (words ["SELECT"] ++ fieldTrees fields) :=
      (silent_words (by decide)).append (silent_fieldTrees fields)
    have hown := ((introduces_from (d := d) hfallback tables).prepend hselect).scopesOf_statement hfallback
      joins (Select.endsSource_closingTrees (d := d) _)
      (Select.silent_closingTrees
        ⟨tables, joins, fields, filters, groupFilters, limit, offset, orderBy, groupBy, unions⟩)
    have hunions := silent_unionTrees d fallback unions
    rw [Select.trees, scopesOf_wrapTrees _ hunions, Select.ownTrees_eq, tableTrees_eq_map, joinTrees_eq_map,
      hown, innerScopes_tables hfallback tables, innerScopes_joins hfallback joins,
      scopesOf_unions hfallback unions, unlessEmpty_exposedTrees, Select.scopes]
    simp only [List.map_append, List.append_assoc]

theorem innerScopes_tables (hfallback : fallback ≠ "") (tables : List Table) :
    (tables.map (Table.trees d fallback)).flatMap innerScopes =
      (scopesOfTables tables).map (exposedTrees fallback) := by
  match tables with
  | [] => rfl
  | t :: rest =>
    rw [List.map_cons, List.flatMap_cons, t.innerScopes_trees hfallback, innerScopes_tables hfallback rest,
      scopesOfTables, List.map_append]

theorem innerScopes_joins (hfallback : fallback ≠ "") (joins : List Join) :
    (joins.map (Join.trees d fallback)).flatMap innerScopes =
      (scopesOfJoins joins).map (exposedTrees fallback) := by
  match joins with
  | [] => rfl
  | ⟨t, condition, kind⟩ :: rest =>
    obtain ⟨on, hsilent, -, htrees⟩ := Join.trees_eq d fallback ⟨t, condition, kind⟩
    rw [List.map_cons, List.flatMap_cons, innerScopes_joins hfallback rest, scopesOfJoins, List.map_append,
      htrees, innerScopes_append, innerScopes_append, hsilent.inside, List.append_nil]
    exact congrArg (· ++ _) (t.innerScopes_trees hfallback)

theorem scopesOf_unions (hfallback : fallback ≠ "") (unions : List UnionPart) :
    (unionTrees d fallback unions).flatMap (fun m => scopesOf m.2) =
      (scopesOfUnions unions).map (exposedTrees fallback) := by
  match unions with
  | [] => rfl
  | ⟨kind, q⟩ :: rest =>
    rw [unionTrees, UnionPart.trees, List.flatMap_cons, scopesOf_unions hfallback rest,
      q.scopesOf_trees hfallback, scopesOfUnions, List.map_append]

end

/-- Outside of a statement a table exposes nothing. -/
theorem Table.exposures_trees (t : Table) : exposures (t.trees d fallback) = [] := by
  match t with
  | ⟨.name name, label⟩ =>
    rw [Table.trees]
    exact ((silent_nameTrees name).append (silent_labelTrees _)).exposures
  | ⟨.query q, label⟩ =>
    rw [Table.trees, exposures, exposuresFrom]
    · exact (silent_labelTrees _).exposures
    · simp

/-- The same in terms of the tables and joins alone. -/
theorem Introduces.scopesOf_sources {opening closing : List Tree} {tables : List Table}
    (h : Introduces d fallback opening tables) (hfallback : fallback ≠ "") (joins : List Join)
    (hends : EndsSource closing) (hsilent : Silent closing) :
    scopesOf (opening ++ clauseTrees [] [] (joins.map (Join.trees d fallback)) ++ closing) =
      (scopesOfSources tables joins).map (exposedTrees fallback) := by
  rw [h.scopesOf_statement hfallback joins hends hsilent, innerScopes_tables hfallback, innerScopes_joins hfallback,
    unlessEmpty_exposedTrees, scopesOfSources, List.map_append, List.map_append]

theorem Delete.scopesOf_trees (hfallback : fallback ≠ "") {m : Delete} {t : Table} {more : List Table}
    (htables : m.tables = t :: more) :
    scopesOf (m.trees d fallback) = (scopesOfSources (m.tables.take 1) m.joins).map (exposedTrees fallback) := by
  obtain ⟨tables, joins, filters⟩ := m
  cases htables
  have hlead : Silent (words ["DELETE"] ++ if joins = [] then [] else nameTrees t.title) := by
    refine (silent_words (by decide)).append ?_
    split
    · exact silent_nil
    · exact silent_nameTrees _
  have hopening := (introduces_from (d := d) hfallback [t]).prepend hlead
  have hscopes := hopening.scopesOf_sources hfallback joins
    (endsSource_whereTrees (d := d) filters) (silent_whereTrees filters)
  simpa [Delete.trees, clauseTrees] using hscopes

theorem silent_assignmentTrees (entry : String × Scalar) : Silent (assignmentTrees d entry) :=
  ((silent_nameTrees entry.1).append (silent_sign _)).append (silent_literalTree entry.2)

theorem Update.scopesOf_trees (hfallback : fallback ≠ "") {m : Update} {t : Table} {more : List Table}
    (htables : m.tables = t :: more) :
    scopesOf (m.trees d fallback) = (scopesOfSources (m.tables.take 1) m.joins).map (exposedTrees fallback) := by
  obtain ⟨tables, joins, filters, assignments⟩ := m
  cases htables
  have hset : Silent (words ["SET"] ++ listed (assignments.entries.map (assignmentTrees d))) := by
    refine (silent_words (by decide)).append (silent_intercalate silent_comma fun ts hts => ?_)
    obtain ⟨entry, -, rfl⟩ := List.mem_map.mp hts
    exact silent_assignmentTrees entry
  have hclosing := (endsSource_words (w := "SET") (by decide) []
    (listed (assignments.entries.map (assignmentTrees d)))).append (endsSource_whereTrees (d := d) filters)
  have hscopes := (introduces_update (d := d) hfallback t).scopesOf_sources hfallback joins hclosing
    (hset.append (silent_whereTrees filters))
  rw [Update.trees]
  simp only [List.append_assoc] at hscopes ⊢
  exact hscopes

theorem silent_columnTree (columns : List String) : Silent [columnTree columns] := by
  refine Silent.group (silent_intercalate silent_comma fun ts hts => ?_)
  obtain ⟨name, -, rfl⟩ := List.mem_map.mp hts
  exact silent_nameTrees name

theorem Insert.scopesOf_trees (hfallback : fallback ≠ "") (m : Insert) :
    scopesOf (m.trees d fallback) = (Node.insert m).scopes.map (exposedTrees fallback) := by
  have hlead : Silent (words ["INSERT", "INTO"] ++ nameTrees m.table) :=
    (silent_words (by decide)).append (silent_nameTrees m.table)
  rw [Insert.trees, hlead.scopesOf_append, Node.scopes]
  cases m.source with
  | some q =>
    have hcolumns : Silent
        (if m.columnNames.getD [] = [] then [] else [columnTree (m.columnNames.getD [])]) := by
      split
      · exact silent_nil
      · exact silent_columnTree _
    dsimp only
    rw [hcolumns.scopesOf_append, q.scopesOf_trees hfallback]
    rfl
  | none =>
    have hrows : Silent (listed (m.rows.map fun row => [.group (literalTrees d (m.columns.map row.value))])) := by
      refine silent_intercalate silent_comma fun ts hts => ?_
      obtain ⟨row, -, rfl⟩ := List.mem_map.mp hts
      exact (silent_literalTrees _).group
    have hvalues : Silent (words ["VALUES"]) := silent_words (by decide)
    exact ((silent_columnTree m.columns).append (hvalues.append hrows)).scopesOf_eq_nil

/-- The reader finds the scopes of a node in its phrase. -/
theorem Node.scopesOf_trees (hfallback : fallback ≠ "") {n : Node} {sql : String}
    (h : n.sql d.flavor fallback = .ok sql) :
    scopesOf (n.trees d fallback) = n.scopes.map (exposedTrees fallback) := by
  cases n with
  | table t =>
    rw [Node.trees, Node.scopes, scopesOf, t.exposures_trees, t.innerScopes_trees hfallback]
    rfl
  | join j =>
    have hopening : Introduces d fallback [] [] := ⟨fun _ _ => rfl, rfl⟩
    have hscopes := hopening.scopesOf_sources hfallback [j] endsSource_nil silent_nil
    simpa [Node.trees, Node.scopes, clauseTrees] using hscopes
  | select q => exact q.scopesOf_trees hfallback
  | projection p =>
    have hselect : Silent (words ["SELECT"] ++ fieldTrees p.fields) :=
      (silent_words (by decide)).append (silent_fieldTrees p.fields)
    have hopening := (introduces_from (d := d) hfallback p.tables).prepend hselect
    have hscopes := hopening.scopesOf_sources hfallback [] endsSource_nil silent_nil
    simpa [Node.trees, Node.scopes, Projection.trees, clauseTrees_nil] using hscopes
  | condition c => exact c.silent.scopesOf_eq_nil
  | delete m =>
    obtain ⟨t, rest, -, htables, -⟩ := Delete.render_eq d.flavor fallback h
    exact Delete.scopesOf_trees hfallback htables
  | update m =>
    obtain ⟨t, rest, -, htables, -⟩ := Update.render_eq d.flavor fallback h
    exact Update.scopesOf_trees hfallback htables
  | insert m => exact m.scopesOf_trees hfallback

/-- The reader finds the scopes of a node in its text. -/
theorem Node.scopes_of_sql (hfallback : Settings.isPlainAlias fallback = true) {n : Node}
    (hnames : ∀ name ∈ n.names, d.IsPlain name) {sql : String} (h : n.sql d.flavor fallback = .ok sql) :
    d.scopes sql = some (n.scopes.map (exposedTrees fallback)) := by
  rw [Dialect.scopes, n.nest_of_sql hnames hfallback h, Option.map_some,
    Node.scopesOf_trees (ne_empty_of_isPlainAlias hfallback) h]

theorem nodup_exposedTrees_iff (fallback : String) (tables : List Table) :
    (exposedTrees fallback tables).Nodup ↔
      (ownNames tables).Nodup ∧ unnamed tables ≤ 1 ∧ (unnamed tables = 1 → fallback ∉ ownNames tables) := by
  have hnames := nodup_exposedNames_iff id fallback tables
  rw [List.map_id, List.map_id] at hnames
  rw [exposedTrees, List.nodup_map_iff nameTrees_injective, hnames]
  rfl

/-- The scope of a node itself is one of them. -/
theorem Node.scope_mem_scopes {n : Node} (h : n.scope ≠ []) : n.scope ∈ n.scopes := by
  have hown {tables : List Table} (htables : tables ≠ []) : tables ∈ unlessEmpty tables := by
    cases tables with
    | nil => exact absurd rfl htables
    | cons t rest => exact List.mem_cons_self
  cases n with
  | select q =>
    obtain ⟨tables, joins, _, _, _, _, _, _, _, unions⟩ := q
    rw [Node.scopes, Select.scopes]
    exact List.mem_append_left _ (List.mem_append_left _ (List.mem_append_left _ (hown h)))
  | delete m => exact List.mem_append_left _ (List.mem_append_left _ (hown h))
  | update m => exact List.mem_append_left _ (List.mem_append_left _ (hown h))
  | _ => exact absurd rfl h

/-! ## In a session -/

/-- Where there are settings, what a node is written as takes rows from the tables of its scope, which expose
their own names or else the alias of the settings. In a dialect whose rules of reading are known, and with no
expressions for names, this is what is read from the text of each statement, at every depth. The names in a
scope are distinct exactly if those that the tables have of their own are, there is at most one nested
statement without an alias, and its name is not taken. -/
theorem Node.toSql_scopes {s : Session} {c : Settings} {n : Node} {flavor : Datum} {sql : String}
    (hs : s.Settles c) (hplain : Settings.isPlainAlias c.subqueryAlias = true)
    (h : (Action.toSql n flavor).outcome s = .ok sql) :
    ∃ f, Action.resolved s c flavor = .ok f ∧
      (n.scope ≠ [] →
        (∃ items, TakesFrom items sql ∧
          List.Forall₂ Exposes ((exposedNames c.subqueryAlias n.scope).map f.escapeName) items) ∧
        (((exposedNames c.subqueryAlias n.scope).map f.escapeName).Nodup ↔
          ((ownNames n.scope).map f.escapeName).Nodup ∧ unnamed n.scope ≤ 1 ∧
            (unnamed n.scope = 1 → f.escapeName c.subqueryAlias ∉ (ownNames n.scope).map f.escapeName))) ∧
      ∀ d : Dialect, f = d.flavor → (∀ name ∈ n.names, d.IsPlain name) →
        d.scopes sql = some (n.scopes.map (exposedTrees c.subqueryAlias)) ∧
          ∀ tables ∈ n.scopes, ((exposedTrees c.subqueryAlias tables).Nodup ↔
            (ownNames tables).Nodup ∧ unnamed tables ≤ 1 ∧
              (unnamed tables = 1 → c.subqueryAlias ∉ ownNames tables)) := by
  obtain ⟨s', heffect, -⟩ := Action.effect_toSql hs n flavor
  have hwritten : (Action.resolved s c flavor >>= fun f => n.render f c.subqueryAlias) = .ok sql :=
    (congrArg Prod.fst heffect).symm.trans h
  obtain ⟨f, hf, hrender⟩ := except_bind_ok hwritten
  have hnonempty := ne_empty_of_isPlainAlias hplain
  refine ⟨f, hf, fun hscope => ⟨n.exposes f _ hnonempty hscope hrender, nodup_exposedNames_iff _ _ _⟩, ?_⟩
  rintro d rfl hnames
  exact ⟨Node.scopes_of_sql hplain hnames (Node.sql_of_render hrender), fun tables _ => nodup_exposedTrees_iff _ tables⟩

/-- A statement with two nested ones that have no alias, and a named table between them. -/
def twoUnnamed : Node :=
  .select { tables := [⟨.query { tables := [⟨.name "a", none⟩] }, none⟩, ⟨.name "u", none⟩,
    ⟨.query { tables := [⟨.name "b", none⟩] }, none⟩] }

def twoUnnamedSql : String :=
  "SELECT * FROM (SELECT * FROM \x60a\x60) AS \x60t\x60, \x60u\x60, (SELECT * FROM \x60b\x60) AS \x60t\x60"

/-- Both get the same alias, although the name of the other table is not taken. -/
theorem twoUnnamed_clash :
    (Action.toSql twoUnnamed (.flavor .mysql)).outcome { settings := some {} } = .ok twoUnnamedSql ∧
      ownNames twoUnnamed.scope = ["u"] ∧
      Dialect.mysql.scopes twoUnnamedSql =
        some [["t", "u", "t"].map nameTrees, [nameTrees "a"], [nameTrees "b"]] ∧
      ¬ (["t", "u", "t"].map nameTrees).Nodup := by
  have hsql : (Action.toSql twoUnnamed (.flavor .mysql)).outcome { settings := some {} } =
      .ok twoUnnamedSql := rfl
  obtain ⟨f, hf, -, hread⟩ := Node.toSql_scopes (.inl rfl) (by decide) hsql
  cases hf
  obtain ⟨hscopes, hdistinct⟩ := hread .mysql rfl (by decide)
  have hscope : twoUnnamed.scope ≠ [] := List.cons_ne_nil _ _
  have hunnamed : unnamed twoUnnamed.scope = 2 := rfl
  refine ⟨hsql, rfl, hscopes, fun hnodup => ?_⟩
  have hone := ((hdistinct _ (Node.scope_mem_scopes hscope)).mp hnodup).2.1
  omega

end SqlAst
