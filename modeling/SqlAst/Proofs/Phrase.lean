import SqlAst.Proofs.Spelling
import SqlAst.Render.Node

/-!
# Phrases

What the SQL of a node says, token by token, by recursion on the node: `Node.trees`. Every nested
statement, every operand of a union and every part of a combination of predicates is a group of its own;
`Node.wrapped` lists these. `Node.names` lists the names that stand in a node.

* `Node.wrapped_subset`: what a node wraps is a group of its own in its phrase.
-/
namespace SqlAst

open Sql

namespace Sql

def words (ws : List String) : List Tree := ws.map fun w => .leaf (.word w.toList)

def comma : List Tree := [.leaf (.mark ',')]

/-- Phrases with commas between them. -/
def listed (phrases : List (List Tree)) : List Tree := comma.intercalate phrases

/-- A clause with its words in front, or nothing if there are no items. -/
def clauseTrees (lead separator : List Tree) : List (List Tree) → List Tree
  | [] => []
  | item :: rest => lead ++ separator.intercalate (item :: rest)

def labelTrees (label : String) : List Tree :=
  if label = "" then [] else words ["AS"] ++ nameTrees label

def literalTree (d : Dialect) (v : Scalar) : Tree := .leaf (literalAtom d v)

def literalTrees (d : Dialect) (values : List Scalar) : List Tree :=
  listed (values.map fun v => [literalTree d v])

def countTrees (word : String) : Option Nat → List Tree
  | none => []
  | some n => words [word] ++ [.leaf (.number (Nat.toDigits 10 n))]

/-- A phrase wrapped by the members of a union, each with its words in front. -/
def wrapTrees (phrase : List Tree) (members : List (List Tree × List Tree)) : List Tree :=
  members.foldl (fun phrase m => .group phrase :: m.1 ++ [.group m.2]) phrase

/-- The operands of the unions of a phrase with members. -/
def operands (phrase : List Tree) : List (List Tree × List Tree) → List (List Tree)
  | [] => []
  | m :: rest => phrase :: m.2 :: operands (.group phrase :: m.1 ++ [.group m.2]) rest

mutual

/-- What stands in the groups of a tree, at every depth. -/
def Tree.groups : Tree → List (List Tree)
  | .leaf _ => []
  | .group inner => inner :: groupsOf inner

def groupsOf : List Tree → List (List Tree)
  | [] => []
  | t :: rest => t.groups ++ groupsOf rest

end

end Sql

/-! ## Predicates -/

def Connective.unitTrees : Connective → List Tree
  | .conj => [.leaf (.number ['1']), .leaf (.sign ['=']), .leaf (.number ['1'])]
  | .disj => [.leaf (.number ['1']), .leaf (.sign ['=']), .leaf (.number ['0'])]

mutual

def Condition.trees (d : Dialect) : Condition → List Tree
  | .compare op column value => nameTrees column ++ [.leaf (.sign op.sign.toList), literalTree d value]
  | .between column low high =>
    nameTrees column ++ words ["BETWEEN"] ++ [literalTree d low] ++ words ["AND"] ++
      [literalTree d high]
  | .among column values =>
    nameTrees column ++ words ["IN"] ++
      [.group (if values = [] then words ["NULL"] else literalTrees d values)]
  | .like negated column pattern =>
    nameTrees column ++ words (if negated then ["NOT", "LIKE"] else ["LIKE"]) ++
      [.leaf (.text pattern.toList)]
  | .isNull negated column =>
    nameTrees column ++ words (if negated then ["IS", "NOT", "NULL"] else ["IS", "NULL"])
  | .columnEqual left right => nameTrees left ++ [.leaf (.sign ['='])] ++ nameTrees right
  | .combine connective [] => [.group connective.unitTrees]
  | .combine connective (c :: rest) =>
    (words [connective.word]).intercalate
    ([.group (c.trees d)] :: (treesEach d rest).map fun ts => [.group ts])

def Condition.treesEach (d : Dialect) : List Condition → List (List Tree)
  | [] => []
  | c :: rest => c.trees d :: treesEach d rest

end

mutual

/-- The parts of combinations, at every depth. -/
def Condition.wrapped (d : Dialect) : Condition → List (List Tree)
  | .combine _ parts => wrappedEach d parts
  | _ => []

def Condition.wrappedEach (d : Dialect) : List Condition → List (List Tree)
  | [] => []
  | c :: rest => (c.trees d :: c.wrapped d) ++ wrappedEach d rest

end

def Condition.wrappedIn (d : Dialect) (cs : List Condition) : List (List Tree) :=
  cs.flatMap (Condition.wrapped d)

mutual

def Condition.names : Condition → List String
  | .compare _ column _ | .between column _ _ | .among column _ | .like _ column _
  | .isNull _ column => [column]
  | .columnEqual left right => [left, right]
  | .combine _ parts => namesEach parts

def Condition.namesEach : List Condition → List String
  | [] => []
  | c :: rest => c.names ++ namesEach rest

end

/-! ## Statements -/

def SelectField.trees (field : SelectField) : List Tree :=
  nameTrees field.name ++ labelTrees (field.label.getD "")

def SelectField.names (field : SelectField) : List String := field.name :: field.label.toList

def OrderSpec.trees (o : OrderSpec) : List Tree := nameTrees o.field ++ words [o.direction.word]

def fieldTrees (fields : List SelectField) : List Tree :=
  if fields = [] then [.leaf (.mark '*')] else listed (fields.map SelectField.trees)

def UnionKind.trees : UnionKind → List Tree
  | .distinct => words ["UNION"]
  | .all => words ["UNION", "ALL"]

def whereTrees (d : Dialect) (filters : List Condition) : List Tree :=
  clauseTrees (words ["WHERE"]) (words ["AND"]) (filters.map (Condition.trees d))

/-- A select statement without its union, from the phrases of its tables and joins. -/
def Select.ownTrees (d : Dialect) (tables joins : List (List Tree)) (q : Select) : List Tree :=
  words ["SELECT"] ++ fieldTrees q.fields ++
    clauseTrees (words ["FROM"]) comma tables ++
    clauseTrees [] [] joins ++
    whereTrees d q.filters ++
    clauseTrees (words ["GROUP", "BY"]) comma (q.groupBy.map nameTrees) ++
    clauseTrees (words ["HAVING"]) (words ["AND"]) (q.groupFilters.map (Condition.trees d)) ++
    clauseTrees (words ["ORDER", "BY"]) comma (q.orderBy.map OrderSpec.trees) ++
    countTrees "LIMIT" q.limit ++ countTrees "OFFSET" q.offset

mutual

def Table.trees (d : Dialect) (fallback : String) : Table → List Tree
  | ⟨.name n, label⟩ => nameTrees n ++ labelTrees (label.getD "")
  | ⟨.query q, label⟩ =>
    .group (q.trees d fallback) :: labelTrees (if label.getD "" = "" then fallback else label.getD "")

def Join.trees (d : Dialect) (fallback : String) : Join → List Tree
  | ⟨table, condition, kind⟩ =>
    words [kind.word, "JOIN"] ++ table.trees d fallback ++
      (condition.map fun c => words ["ON"] ++ c.trees d).getD []

def UnionPart.trees (d : Dialect) (fallback : String) : UnionPart → List Tree × List Tree
  | ⟨kind, query⟩ => (kind.trees, query.trees d fallback)

def Select.trees (d : Dialect) (fallback : String) : Select → List Tree
  | ⟨tables, joins, fields, filters, groupFilters, limit, offset, orderBy, groupBy, unions⟩ =>
    wrapTrees
      (Select.ownTrees d (tableTrees d fallback tables) (joinTrees d fallback joins)
        ⟨tables, joins, fields, filters, groupFilters, limit, offset, orderBy, groupBy, unions⟩)
      (unionTrees d fallback unions)

def tableTrees (d : Dialect) (fallback : String) : List Table → List (List Tree)
  | [] => []
  | t :: rest => t.trees d fallback :: tableTrees d fallback rest

def joinTrees (d : Dialect) (fallback : String) : List Join → List (List Tree)
  | [] => []
  | j :: rest => j.trees d fallback :: joinTrees d fallback rest

def unionTrees (d : Dialect) (fallback : String) : List UnionPart → List (List Tree × List Tree)
  | [] => []
  | u :: rest => u.trees d fallback :: unionTrees d fallback rest

end

mutual

/-- The nested statements, operands of unions and parts of combinations in a table, at every depth. -/
def Table.wrapped (d : Dialect) (fallback : String) : Table → List (List Tree)
  | ⟨.name _, _⟩ => []
  | ⟨.query q, _⟩ => q.trees d fallback :: q.wrapped d fallback

def Join.wrapped (d : Dialect) (fallback : String) : Join → List (List Tree)
  | ⟨table, condition, _⟩ => table.wrapped d fallback ++ (condition.map (Condition.wrapped d)).getD []

def Select.wrapped (d : Dialect) (fallback : String) : Select → List (List Tree)
  | ⟨tables, joins, fields, filters, groupFilters, limit, offset, orderBy, groupBy, unions⟩ =>
    operands
        (Select.ownTrees d (tableTrees d fallback tables) (joinTrees d fallback joins)
          ⟨tables, joins, fields, filters, groupFilters, limit, offset, orderBy, groupBy, unions⟩)
        (unionTrees d fallback unions) ++
      tablesWrapped d fallback tables ++ joinsWrapped d fallback joins ++
      Condition.wrappedIn d filters ++ Condition.wrappedIn d groupFilters ++
        unionsWrapped d fallback unions

def tablesWrapped (d : Dialect) (fallback : String) : List Table → List (List Tree)
  | [] => []
  | t :: rest => t.wrapped d fallback ++ tablesWrapped d fallback rest

def joinsWrapped (d : Dialect) (fallback : String) : List Join → List (List Tree)
  | [] => []
  | j :: rest => j.wrapped d fallback ++ joinsWrapped d fallback rest

def unionsWrapped (d : Dialect) (fallback : String) : List UnionPart → List (List Tree)
  | [] => []
  | ⟨_, q⟩ :: rest => q.wrapped d fallback ++ unionsWrapped d fallback rest

end

mutual

def Table.names : Table → List String
  | ⟨.name n, label⟩ => n :: label.toList
  | ⟨.query q, label⟩ => q.names ++ label.toList

def Join.names : Join → List String
  | ⟨table, condition, _⟩ => table.names ++ (condition.map Condition.names).getD []

def Select.names : Select → List String
  | ⟨tables, joins, fields, filters, groupFilters, _, _, orderBy, groupBy, unions⟩ =>
    namesOfTables tables ++ namesOfJoins joins ++ fields.flatMap SelectField.names ++
      filters.flatMap Condition.names ++ groupFilters.flatMap Condition.names ++
      orderBy.map OrderSpec.field ++ groupBy ++ namesOfUnions unions

def namesOfTables : List Table → List String
  | [] => []
  | t :: rest => t.names ++ namesOfTables rest

def namesOfJoins : List Join → List String
  | [] => []
  | j :: rest => j.names ++ namesOfJoins rest

def namesOfUnions : List UnionPart → List String
  | [] => []
  | ⟨_, q⟩ :: rest => q.names ++ namesOfUnions rest

end

/-! ## Statements that change rows, and nodes -/

/-- What a delete with joins calls its table: the alias, or else the name at the end of its sources. -/
def Table.title (t : Table) : String :=
  if t.label.getD "" = "" then t.name.toOption.getD "" else t.label.getD ""

def Delete.trees (d : Dialect) (fallback : String) : Delete → List Tree
  | ⟨[], _, _⟩ => []
  | ⟨t :: _, joins, filters⟩ =>
    words ["DELETE"] ++ (if joins = [] then [] else nameTrees t.title) ++ words ["FROM"] ++
      t.trees d fallback ++ clauseTrees [] [] (joins.map (Join.trees d fallback)) ++
        whereTrees d filters

def assignmentTrees (d : Dialect) (entry : String × Scalar) : List Tree :=
  nameTrees entry.1 ++ [.leaf (.sign ['='])] ++ [literalTree d entry.2]

def Update.trees (d : Dialect) (fallback : String) : Update → List Tree
  | ⟨[], _, _, _⟩ => []
  | ⟨t :: _, joins, filters, assignments⟩ =>
    words ["UPDATE"] ++ t.trees d fallback ++ clauseTrees [] [] (joins.map (Join.trees d fallback)) ++
      words ["SET"] ++ listed (assignments.entries.map (assignmentTrees d)) ++ whereTrees d filters

def columnTree (columns : List String) : Tree := .group (listed (columns.map nameTrees))

/-- The statement that an insert takes its rows from is not nested: nothing follows it. -/
def Insert.trees (d : Dialect) (fallback : String) (i : Insert) : List Tree :=
  words ["INSERT", "INTO"] ++ nameTrees i.table ++
    match i.source with
    | some q =>
      (if i.columnNames.getD [] = [] then [] else [columnTree (i.columnNames.getD [])]) ++
        q.trees d fallback
    | none =>
      columnTree i.columns :: words ["VALUES"] ++
        listed (i.rows.map fun row => [.group (literalTrees d (i.columns.map row.value))])

def Projection.trees (d : Dialect) (fallback : String) (p : Projection) : List Tree :=
  words ["SELECT"] ++ fieldTrees p.fields ++
    clauseTrees (words ["FROM"]) comma (p.tables.map (Table.trees d fallback))

namespace Node

/-- What the SQL of a node says. -/
def trees (d : Dialect) (fallback : String) : Node → List Tree
  | .table t => t.trees d fallback
  | .join j => j.trees d fallback
  | .select q => q.trees d fallback
  | .projection p => p.trees d fallback
  | .condition c => c.trees d
  | .delete m => m.trees d fallback
  | .update m => m.trees d fallback
  | .insert m => m.trees d fallback

/-- The same for the sources and conditions of a statement that changes rows: of its tables only the first
is written. -/
def sourcesWrapped (d : Dialect) (fallback : String) (filters : List Condition) (joins : List Join) :
    List Table → List (List Tree)
  | [] => []
  | t :: _ => t.wrapped d fallback ++ joinsWrapped d fallback joins ++ Condition.wrappedIn d filters

/-- The nested statements, operands of unions and parts of combinations in the SQL of a node, at every
depth. -/
def wrapped (d : Dialect) (fallback : String) : Node → List (List Tree)
  | .table t => t.wrapped d fallback
  | .join j => j.wrapped d fallback
  | .select q => q.wrapped d fallback
  | .projection p => tablesWrapped d fallback p.tables
  | .condition c => c.wrapped d
  | .delete m => sourcesWrapped d fallback m.filters m.joins m.tables
  | .update m => sourcesWrapped d fallback m.filters m.joins m.tables
  | .insert m => (m.source.map (Select.wrapped d fallback)).getD []

/-- The names of tables and columns, and the aliases. -/
def names : Node → List String
  | .table t => t.names
  | .join j => j.names
  | .select q => q.names
  | .projection p => namesOfTables p.tables ++ namesOfJoins p.joins ++
    p.fields.flatMap SelectField.names
  | .condition c => c.names
  | .delete m => namesOfTables m.tables ++ namesOfJoins m.joins ++ m.filters.flatMap Condition.names
  | .update m =>
    namesOfTables m.tables ++ namesOfJoins m.joins ++ m.filters.flatMap Condition.names ++
      m.assignments.columns
  | .insert m =>
    m.table :: m.columnNames.getD [] ++ m.rows.flatMap Row.columns ++
      (m.source.map Select.names).getD []

end Node

/-! ## What is wrapped is a group -/

namespace Sql

@[simp] theorem groupsOf_append (ts us : List Tree) :
    groupsOf (ts ++ us) = groupsOf ts ++ groupsOf us := by
  induction ts with
  | nil => rfl
  | cons t rest ih => simp [groupsOf, ih]

theorem groupsOf_intercalate (sep : List Tree) {phrases : List (List Tree)} {ts : List Tree}
    (h : ts ∈ phrases) : groupsOf ts ⊆ groupsOf (sep.intercalate phrases) := by
  induction phrases with
  | nil => cases h
  | cons x rest ih =>
    cases rest with
    | nil =>
      rw [List.mem_singleton.1 h]
      simp
    | cons y more =>
      rw [List.intercalate_cons_cons, groupsOf_append, groupsOf_append]
      rcases List.mem_cons.1 h with rfl | h
      · exact fun g hg => List.mem_append_left _ (List.mem_append_left _ hg)
      · exact fun g hg => List.mem_append_right _ (ih h hg)

theorem groupsOf_clauseTrees (lead sep : List Tree) {phrases : List (List Tree)} {ts : List Tree}
    (h : ts ∈ phrases) : groupsOf ts ⊆ groupsOf (clauseTrees lead sep phrases) := by
  cases phrases with
  | nil => cases h
  | cons x rest =>
    rw [clauseTrees, groupsOf_append]
    exact fun g hg => List.mem_append_right _ (groupsOf_intercalate sep h hg)

/-- The operands of unions are groups, and so are the groups inside the first of them. -/
theorem groupsOf_wrapTrees (phrase : List Tree) (members : List (List Tree × List Tree)) :
    groupsOf phrase ⊆ groupsOf (wrapTrees phrase members) ∧
      operands phrase members ⊆ groupsOf (wrapTrees phrase members) ∧
      ∀ m ∈ members, groupsOf m.2 ⊆ groupsOf (wrapTrees phrase members) := by
  induction members generalizing phrase with
  | nil => exact ⟨fun g hg => hg, by simp [operands], by simp⟩
  | cons m rest ih =>
    obtain ⟨hbase, hoperands, hmembers⟩ := ih (.group phrase :: m.1 ++ [.group m.2])
    refine ⟨fun g hg => hbase ?_, fun g hg => ?_, fun x hx => ?_⟩
    · simp [groupsOf, Tree.groups, hg]
    · rcases List.mem_cons.1 hg with rfl | hg
      · exact hbase (by simp [groupsOf, Tree.groups])
      rcases List.mem_cons.1 hg with rfl | hg
      · exact hbase (by simp [groupsOf, Tree.groups])
      · exact hoperands hg
    · rcases List.mem_cons.1 hx with rfl | hx
      · exact fun g hg => hbase (by simp [groupsOf, Tree.groups, hg])
      · exact hmembers x hx

end Sql

variable {d : Dialect} {fallback : String}

mutual

theorem Condition.wrapped_subset (c : Condition) : c.wrapped d ⊆ groupsOf (c.trees d) := by
  match c with
  | .combine k [] => simp [Condition.wrapped, Condition.wrappedEach]
  | .combine k (c :: rest) =>
    intro g hg
    obtain ⟨ts, hts, hin⟩ := Condition.wrappedEach_mem (c :: rest) hg
    have hmem : [Tree.group ts] ∈ [.group (c.trees d)] :: (Condition.treesEach d rest).map
      fun ts => [.group ts] := by
      rw [Condition.treesEach] at hts
      rcases List.mem_cons.1 hts with rfl | hts
      · exact List.mem_cons_self
      · exact List.mem_cons_of_mem _ (List.mem_map_of_mem hts)
    rw [Condition.trees]
    exact groupsOf_intercalate _ hmem hin
  | .compare .. | .between .. | .among .. | .like .. | .isNull .. | .columnEqual .. =>
    simp [Condition.wrapped]

theorem Condition.wrappedEach_mem (cs : List Condition) {g : List Tree} (hg : g ∈ wrappedEach d cs) :
    ∃ ts ∈ treesEach d cs, g ∈ groupsOf [.group ts] := by
  match cs with
  | [] => cases hg
  | c :: rest =>
    rw [Condition.wrappedEach] at hg
    rw [Condition.treesEach]
    rcases List.mem_append.1 hg with hg | hg
    · refine ⟨c.trees d, List.mem_cons_self, ?_⟩
      rcases List.mem_cons.1 hg with rfl | hg
      · simp [groupsOf, Tree.groups]
      · simp [groupsOf, Tree.groups, Condition.wrapped_subset c hg]
    · obtain ⟨ts, hts, hin⟩ := Condition.wrappedEach_mem rest hg
      exact ⟨ts, List.mem_cons_of_mem _ hts, hin⟩

end

theorem Condition.wrappedIn_mem {cs : List Condition} {g : List Tree} (hg : g ∈ wrappedIn d cs) :
    ∃ ts ∈ cs.map (Condition.trees d), g ∈ groupsOf ts := by
  obtain ⟨c, hc, hin⟩ := List.mem_flatMap.1 hg
  exact ⟨c.trees d, List.mem_map_of_mem hc, c.wrapped_subset hin⟩

/-- What stands in the clauses of a statement is a group of the statement. -/
theorem Select.groups_ownTrees (tables joins : List (List Tree)) (q : Select) :
    (∀ ts ∈ tables, groupsOf ts ⊆ groupsOf (ownTrees d tables joins q)) ∧
      (∀ ts ∈ joins, groupsOf ts ⊆ groupsOf (ownTrees d tables joins q)) ∧
      Condition.wrappedIn d q.filters ⊆ groupsOf (ownTrees d tables joins q) ∧
      Condition.wrappedIn d q.groupFilters ⊆ groupsOf (ownTrees d tables joins q) := by
  simp only [ownTrees, whereTrees, groupsOf_append]
  refine ⟨fun ts hts g hg => ?_, fun ts hts g hg => ?_, fun g hg => ?_, fun g hg => ?_⟩
  · have := groupsOf_clauseTrees (words ["FROM"]) comma hts hg
    simp [this]
  · have := groupsOf_clauseTrees [] [] hts hg
    simp [this]
  · obtain ⟨ts, hts, hin⟩ := Condition.wrappedIn_mem hg
    have := groupsOf_clauseTrees (words ["WHERE"]) (words ["AND"]) hts hin
    simp [this]
  · obtain ⟨ts, hts, hin⟩ := Condition.wrappedIn_mem hg
    have := groupsOf_clauseTrees (words ["HAVING"]) (words ["AND"]) hts hin
    simp [this]

mutual

theorem Table.wrapped_subset (t : Table) : t.wrapped d fallback ⊆ groupsOf (t.trees d fallback) := by
  match t with
  | ⟨.name n, label⟩ => simp [Table.wrapped]
  | ⟨.query q, label⟩ =>
    rw [Table.wrapped, Table.trees]
    intro g hg
    rcases List.mem_cons.1 hg with rfl | hg
    · simp [groupsOf, Tree.groups]
    · simp [groupsOf, Tree.groups, q.wrapped_subset hg]

theorem Join.wrapped_subset (j : Join) : j.wrapped d fallback ⊆ groupsOf (j.trees d fallback) := by
  match j with
  | ⟨table, condition, kind⟩ =>
    rw [Join.wrapped, Join.trees, groupsOf_append, groupsOf_append]
    intro g hg
    rcases List.mem_append.1 hg with hg | hg
    · have := table.wrapped_subset hg
      simp [this]
    · cases condition with
      | none => cases hg
      | some c =>
        have := c.wrapped_subset hg
        simp [this]

theorem Select.wrapped_subset (q : Select) : q.wrapped d fallback ⊆ groupsOf (q.trees d fallback) := by
  match q with
  | ⟨tables, joins, fields, filters, groupFilters, limit, offset, orderBy, groupBy, unions⟩ =>
    rw [Select.wrapped, Select.trees]
    generalize hq :
      Select.mk tables joins fields filters groupFilters limit offset orderBy groupBy unions = q
    have hown :=
      Select.groups_ownTrees (d := d) (tableTrees d fallback tables) (joinTrees d fallback joins) q
    obtain ⟨hbase, hoperands, hmembers⟩ := groupsOf_wrapTrees
      (Select.ownTrees d (tableTrees d fallback tables) (joinTrees d fallback joins) q)
      (unionTrees d fallback unions)
    obtain ⟨htables, hjoins, hfilters, hgroup⟩ := hown
    subst hq
    intro g hg
    simp only [List.mem_append] at hg
    rcases hg with ((((hg | hg) | hg) | hg) | hg) | hg
    · exact hoperands hg
    · obtain ⟨ts, hts, hin⟩ := tablesWrapped_mem tables hg
      exact hbase (htables ts hts hin)
    · obtain ⟨ts, hts, hin⟩ := joinsWrapped_mem joins hg
      exact hbase (hjoins ts hts hin)
    · exact hbase (hfilters hg)
    · exact hbase (hgroup hg)
    · obtain ⟨m, hm, hin⟩ := unionsWrapped_mem unions hg
      exact hmembers m hm hin

theorem tablesWrapped_mem (ts : List Table) {g : List Tree} (hg : g ∈ tablesWrapped d fallback ts) :
    ∃ x ∈ tableTrees d fallback ts, g ∈ groupsOf x := by
  match ts with
  | [] => cases hg
  | t :: rest =>
    rw [tablesWrapped] at hg
    rw [tableTrees]
    rcases List.mem_append.1 hg with hg | hg
    · exact ⟨t.trees d fallback, List.mem_cons_self, t.wrapped_subset hg⟩
    · obtain ⟨x, hx, hin⟩ := tablesWrapped_mem rest hg
      exact ⟨x, List.mem_cons_of_mem _ hx, hin⟩

theorem joinsWrapped_mem (js : List Join) {g : List Tree} (hg : g ∈ joinsWrapped d fallback js) :
    ∃ x ∈ joinTrees d fallback js, g ∈ groupsOf x := by
  match js with
  | [] => cases hg
  | j :: rest =>
    rw [joinsWrapped] at hg
    rw [joinTrees]
    rcases List.mem_append.1 hg with hg | hg
    · exact ⟨j.trees d fallback, List.mem_cons_self, j.wrapped_subset hg⟩
    · obtain ⟨x, hx, hin⟩ := joinsWrapped_mem rest hg
      exact ⟨x, List.mem_cons_of_mem _ hx, hin⟩

theorem unionsWrapped_mem (us : List UnionPart) {g : List Tree} (hg : g ∈ unionsWrapped d fallback us) :
    ∃ m ∈ unionTrees d fallback us, g ∈ groupsOf m.2 := by
  match us with
  | [] => cases hg
  | ⟨kind, q⟩ :: rest =>
    rw [unionsWrapped] at hg
    rw [unionTrees]
    rcases List.mem_append.1 hg with hg | hg
    · exact ⟨(kind.trees, q.trees d fallback), by simp [UnionPart.trees], q.wrapped_subset hg⟩
    · obtain ⟨m, hm, hin⟩ := unionsWrapped_mem rest hg
      exact ⟨m, List.mem_cons_of_mem _ hm, hin⟩

end

theorem tableTrees_eq_map (ts : List Table) :
    tableTrees d fallback ts = ts.map (Table.trees d fallback) := by
  induction ts with
  | nil => simp [tableTrees]
  | cons t rest ih => simp [tableTrees, ih]

theorem joinTrees_eq_map (js : List Join) :
    joinTrees d fallback js = js.map (Join.trees d fallback) := by
  induction js with
  | nil => simp [joinTrees]
  | cons j rest ih => simp [joinTrees, ih]

/-- Every nested statement, operand of a union and part of a combination is a group. -/
theorem Node.wrapped_subset (n : Node) : n.wrapped d fallback ⊆ groupsOf (n.trees d fallback) := by
  -- The sources of a delete and those of an update stand in clauses of the same kind.
  have hsources {t : Table} {joins : List Join} {filters : List Condition} {g : List Tree}
      (hg : g ∈ t.wrapped d fallback ++ joinsWrapped d fallback joins ++
        Condition.wrappedIn d filters) :
      g ∈ groupsOf (t.trees d fallback) ∨
        g ∈ groupsOf (clauseTrees [] [] (joins.map (Join.trees d fallback))) ∨
        g ∈ groupsOf (whereTrees d filters) := by
    rcases List.mem_append.1 hg with hg | hg
    · rcases List.mem_append.1 hg with hg | hg
      · exact .inl (t.wrapped_subset hg)
      · obtain ⟨ts, hts, hin⟩ := joinsWrapped_mem joins hg
        rw [joinTrees_eq_map] at hts
        exact .inr (.inl (groupsOf_clauseTrees [] [] hts hin))
    · obtain ⟨ts, hts, hin⟩ := Condition.wrappedIn_mem hg
      exact .inr (.inr (groupsOf_clauseTrees (words ["WHERE"]) (words ["AND"]) hts hin))
  cases n with
  | table t => exact t.wrapped_subset
  | join j => exact j.wrapped_subset
  | select q => exact q.wrapped_subset
  | projection p =>
    intro g hg
    obtain ⟨ts, hts, hin⟩ := tablesWrapped_mem p.tables hg
    rw [tableTrees_eq_map] at hts
    have := groupsOf_clauseTrees (words ["FROM"]) comma hts hin
    simp [Node.trees, Projection.trees, this]
  | condition c => exact c.wrapped_subset
  | delete m =>
    obtain ⟨tables, joins, filters⟩ := m
    cases tables with
    | nil => simp [Node.wrapped, Node.sourcesWrapped]
    | cons t more =>
      intro g hg
      simp only [Node.trees, Delete.trees, groupsOf_append, List.mem_append]
      rcases hsources hg with h | h | h <;> simp [h]
  | update m =>
    obtain ⟨tables, joins, filters, assignments⟩ := m
    cases tables with
    | nil => simp [Node.wrapped, Node.sourcesWrapped]
    | cons t more =>
      intro g hg
      simp only [Node.trees, Update.trees, groupsOf_append, List.mem_append]
      rcases hsources hg with h | h | h <;> simp [h]
  | insert m =>
    obtain ⟨table, columns, rows, source⟩ := m
    cases source with
    | none => simp [Node.wrapped]
    | some q =>
      intro g hg
      have := q.wrapped_subset hg
      simp [Node.trees, Insert.trees, this]

end SqlAst
