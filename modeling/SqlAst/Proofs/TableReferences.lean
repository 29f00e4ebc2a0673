import SqlAst.Interface.Methods
import SqlAst.Proofs.Refusals
import SqlAst.Proofs.Sequences

/-!
# Tables in the text of a statement

The names of a statement's tables are found by one recursion over its sources, and its text is written by
another. `Refers` says of a text alone where it refers to tables, and the two recursions are compared with
it. They agree but for one thing: a delete or an update lists the names of all its tables and writes the
first one only.

* `Table.refers`, `Select.refers_of_mem`, `Select.refers_of_union`: what stands in the sources of a
  statement stands in its text.
* `Select.refers_names`: all names of a select statement are written, at any depth.
* `Node.refers_or_isSpare`: the same of a node, but for its spare tables.
* `Node.toSql_refers`: the same of the traced call, which is not even sensitive to the spare tables.
-/
namespace SqlAst

/-! ## References in a text -/

/-- What a text may stand for where tables are looked for. -/
inductive TextKind where
  | table
  | statement

/-- A text that begins as a statement with clauses does. -/
inductive Opening : String → Prop where
  | select (rest : String) : Opening ("SELECT " ++ rest)
  | delete (rest : String) : Opening ("DELETE" ++ rest)
  | update (rest : String) : Opening ("UPDATE " ++ rest)

/-- What may stand behind a table in a statement: nothing, or more words. -/
inductive Closing : String → Prop where
  | nothing : Closing ""
  | words (rest : String) : Closing (" " ++ rest)

/-- What may stand behind the source of a table: nothing, or an alias. -/
inductive Labelling : String → Prop where
  | nothing : Labelling ""
  | label (label : String) : Labelling (" AS " ++ label)

/-- The text `sql` of a table or a statement has `ref` as a reference to a table: in a FROM list, behind
JOIN, UPDATE or INSERT INTO, or in such a place of a statement inside. What stands in front is only asked to
begin as a statement does, since names that look like expressions are written as they are and may hold any
text. One predicate with an index stands for tables and statements, so that an induction on it runs through
both at once. -/
inductive Refers (ref : String) : TextKind → String → Prop where
  | named {label : String} : Labelling label → Refers ref .table (ref ++ label)
  | nested {sql label : String} : Refers ref .statement sql → Labelling label →
    Refers ref .table (parenthesised sql ++ label)
  | listed {lead item tail : String} (before after : List String) : Opening lead →
    Refers ref .table item → Closing tail →
    Refers ref .statement (lead ++ " FROM " ++ ", ".intercalate (before ++ item :: after) ++ tail)
  | joined {lead item tail : String} (kind : JoinKind) : Opening lead → Refers ref .table item →
    Closing tail → Refers ref .statement (lead ++ " " ++ kind.word ++ " JOIN " ++ item ++ tail)
  | updated {item tail : String} : Refers ref .table item → Closing tail →
    Refers ref .statement ("UPDATE " ++ item ++ tail)
  | filled {tail : String} : Closing tail → Refers ref .statement ("INSERT INTO " ++ ref ++ tail)
  | provided {sql : String} (lead : String) : Refers ref .statement sql →
    Refers ref .statement ("INSERT INTO " ++ lead ++ " " ++ sql)
  | united {sql : String} (kind : UnionKind) (other : String) : Refers ref .statement sql →
    Refers ref .statement (parenthesised sql ++ " " ++ kind.word ++ " " ++ parenthesised other)
  | uniting {sql : String} (kind : UnionKind) (other : String) : Refers ref .statement sql →
    Refers ref .statement (parenthesised other ++ " " ++ kind.word ++ " " ++ parenthesised sql)

theorem Opening.append {lead : String} (h : Opening lead) (more : String) : Opening (lead ++ more) := by
  cases h with
  | select rest =>
    rw [String.append_assoc]
    exact .select _
  | delete rest =>
    rw [String.append_assoc]
    exact .delete _
  | update rest =>
    rw [String.append_assoc]
    exact .update _

theorem Closing.append {first second : String} (hfirst : Closing first) (hsecond : Closing second) :
    Closing (first ++ second) := by
  cases hfirst with
  | nothing => rwa [String.empty_append]
  | words rest =>
    rw [String.append_assoc]
    exact .words _

/-! ### References are parts of the text -/

/-- A text is part of another. -/
def Occurs (part whole : String) : Prop := part.toList <:+: whole.toList

namespace Occurs

variable {part whole : String}

theorem refl (part : String) : Occurs part part := List.infix_refl _

theorem append_right (h : Occurs part whole) (after : String) : Occurs part (whole ++ after) := by
  rw [Occurs, String.toList_append]
  exact h.trans (List.prefix_append _ _).isInfix

theorem append_left (h : Occurs part whole) (lead : String) : Occurs part (lead ++ whole) := by
  rw [Occurs, String.toList_append]
  exact h.trans (List.suffix_append _ _).isInfix

theorem parenthesised (h : Occurs part whole) : Occurs part (parenthesised whole) :=
  (h.append_left "(").append_right ")"

theorem intercalate (h : Occurs part whole) (separator : String) (items others : List String) :
    Occurs part (separator.intercalate (items ++ whole :: others)) := by
  induction items with
  | nil =>
    cases others with
    | nil => rwa [List.nil_append, String.intercalate_singleton]
    | cons next rest =>
      rw [List.nil_append, String.intercalate_cons_cons]
      exact (h.append_right separator).append_right _
  | cons item rest ih =>
    have hrest : rest ++ whole :: others ≠ [] := List.append_ne_nil_of_right_ne_nil _ (List.cons_ne_nil _ _)
    rw [List.cons_append, String.intercalate_cons_of_ne_nil hrest]
    exact ih.append_left _

end Occurs

/-- A text that is not part of another is no reference in it. -/
theorem Refers.occurs {ref sql : String} {k : TextKind} (h : Refers ref k sql) : Occurs ref sql := by
  induction h with
  | named _ => exact (Occurs.refl ref).append_right _
  | nested _ _ ih => exact ih.parenthesised.append_right _
  | listed items others _ _ _ ih => exact ((ih.intercalate ", " items others).append_left _).append_right _
  | joined _ _ _ _ ih => exact (ih.append_left _).append_right _
  | updated _ _ ih => exact (ih.append_left _).append_right _
  | filled _ => exact ((Occurs.refl ref).append_left _).append_right _
  | provided _ _ ih => exact ih.append_left _
  | united _ _ _ ih =>
    exact (((ih.parenthesised.append_right _).append_right _).append_right _).append_right _
  | uniting _ _ _ ih => exact ih.parenthesised.append_left _

/-! ## Clauses -/

theorem closing_word (word rest : String) : Closing (" " ++ word ++ rest) := by
  rw [String.append_assoc]
  exact .words _

theorem closing_clause (word separator : String) (items : List String) :
    Closing (clause (" " ++ word) separator items) := by
  unfold clause
  split
  · exact .nothing
  · exact closing_word _ _

theorem closing_countClause (word : String) (n : Option Nat) : Closing (countClause (" " ++ word) n) := by
  cases n with
  | none => exact .nothing
  | some n => exact closing_word _ _

theorem clause_of_ne_nil {lead separator : String} {items : List String} (h : items ≠ []) :
    clause lead separator items = lead ++ separator.intercalate items := if_neg h

theorem clause_blank_cons (item : String) (items : List String) :
    clause " " " " (item :: items) = " " ++ item ++ clause " " " " items := by
  rw [clause_of_ne_nil (List.cons_ne_nil _ _)]
  cases items with
  | nil => rw [String.intercalate_singleton, clause, if_pos rfl, String.append_empty]
  | cons next rest =>
    rw [clause_of_ne_nil (List.cons_ne_nil _ _), String.intercalate_cons_cons]
    simp only [String.append_assoc]

section

variable (f : Flavor) (fallback : String)

theorem Flavor.labelled_eq (sql label : String) :
    ∃ tail, Labelling tail ∧ f.labelled sql label = sql ++ tail := by
  by_cases h : label = ""
  · exact ⟨"", .nothing, by rw [labelled, if_pos h, String.append_empty]⟩
  · exact ⟨" AS " ++ f.escapeName label, .label _, by rw [labelled, if_neg h, String.append_assoc]⟩

theorem Join.render_eq (j : Join) :
    ∃ tail, Closing tail ∧
      j.render f fallback = j.kind.word ++ " JOIN " ++ j.table.render f fallback ++ tail := by
  obtain ⟨table, condition, kind⟩ := j
  cases condition with
  | none => exact ⟨"", .nothing, by rw [Join.render]; rfl⟩
  | some c => exact ⟨" ON " ++ c.render f, closing_word "ON " _, by rw [Join.render]; rfl⟩

/-- A join stands between blanks in the clause of all joins. -/
theorem joins_split {joins : List Join} {j : Join} (hj : j ∈ joins) :
    ∃ lead tail, Closing tail ∧
      clause " " " " (joins.map (Join.render f fallback)) =
        lead ++ " " ++ j.kind.word ++ " JOIN " ++ j.table.render f fallback ++ tail := by
  induction joins with
  | nil => cases hj
  | cons first rest ih =>
    rw [List.map_cons, clause_blank_cons]
    cases hj with
    | head =>
      obtain ⟨tail, htail, hrender⟩ := j.render_eq f fallback
      refine ⟨"", tail ++ clause " " " " (rest.map (Join.render f fallback)),
        htail.append (closing_clause "" " " _), ?_⟩
      rw [hrender, String.empty_append]
      simp only [String.append_assoc]
    | tail _ hj =>
      obtain ⟨lead, tail, htail, hrest⟩ := ih hj
      refine ⟨" " ++ first.render f fallback ++ lead, tail, htail, ?_⟩
      rw [hrest]
      simp only [String.append_assoc]

/-! ## Sources of a statement -/

/-- The tables of a statement and of its joins. -/
def Select.sources (q : Select) : List Table := q.tables ++ q.joins.map Join.table

theorem UnionPart.render_eq (u : UnionPart) :
    u.render f fallback = (u.kind.word, u.query.render f fallback) := by
  obtain ⟨kind, query⟩ := u
  rw [UnionPart.render]

/-- A statement is written up to its joins, then come further clauses, and its union wraps it all. -/
theorem Select.render_eq (q : Select) :
    ∃ rest, Closing rest ∧
      q.render f fallback =
        wrapUnions
          ("SELECT " ++ renderFields f q.fields ++
            clause " FROM " ", " (q.tables.map (Table.render f fallback)) ++
            clause " " " " (q.joins.map (Join.render f fallback)) ++ rest)
          (q.unions.map (UnionPart.render f fallback)) := by
  obtain ⟨tables, joins, fields, filters, groupFilters, limit, offset, orderBy, groupBy, unions⟩ := q
  -- Of the clauses behind the joins it matters only that each is empty or starts with a blank.
  have hfilters : Closing (clause " WHERE " " AND " (filters.map (Condition.render f))) :=
    closing_clause "WHERE " _ _
  have hgroupBy : Closing (clause " GROUP BY " ", " (groupBy.map f.escapeName)) :=
    closing_clause "GROUP BY " _ _
  have hgroups : Closing (clause " HAVING " " AND " (groupFilters.map (Condition.render f))) :=
    closing_clause "HAVING " _ _
  have horder : Closing (clause " ORDER BY " ", " (orderBy.map (OrderSpec.render f))) :=
    closing_clause "ORDER BY " _ _
  have hlimit : Closing (countClause " LIMIT " limit) := closing_countClause "LIMIT " limit
  have hoffset : Closing (countClause " OFFSET " offset) := closing_countClause "OFFSET " offset
  have hclosing :=
    hfilters.append (hgroupBy.append (hgroups.append (horder.append (hlimit.append hoffset))))
  refine ⟨_, hclosing, ?_⟩
  rw [Select.render, renderTables_eq_map, renderJoins_eq_map, renderUnions_eq_map]
  simp only [String.append_assoc]

/-- What is in a statement stays in it when the members of a union wrap it. -/
theorem Refers.wrapUnions {ref sql : String} (h : Refers ref .statement sql) (unions : List UnionPart) :
    Refers ref .statement (wrapUnions sql (unions.map (UnionPart.render f fallback))) := by
  induction unions generalizing sql with
  | nil => exact h
  | cons u rest ih =>
    rw [List.map_cons, u.render_eq]
    exact ih (.united u.kind (u.query.render f fallback) h)

/-- What is in one of the members is in the whole. -/
theorem refers_wrapUnions {ref : String} {unions : List UnionPart} {u : UnionPart} (hu : u ∈ unions)
    (h : Refers ref .statement (u.query.render f fallback)) (sql : String) :
    Refers ref .statement (wrapUnions sql (unions.map (UnionPart.render f fallback))) := by
  induction unions generalizing sql with
  | nil => cases hu
  | cons first rest ih =>
    cases hu with
    | head =>
      have hwrapped := (Refers.uniting u.kind sql h).wrapUnions f fallback rest
      rw [List.map_cons, u.render_eq]
      exact hwrapped
    | tail _ hu => exact ih hu _

theorem Select.refers_of_union {q : Select} {u : UnionPart} {ref : String} (hu : u ∈ q.unions)
    (h : Refers ref .statement (u.query.render f fallback)) :
    Refers ref .statement (q.render f fallback) := by
  obtain ⟨rest, -, hrender⟩ := q.render_eq f fallback
  rw [hrender]
  exact refers_wrapUnions f fallback hu h _

/-- What is in a joined table is in a statement that writes its joins behind an opening. -/
theorem refers_of_join {ref lead rest : String} {joins : List Join} {j : Join} (hlead : Opening lead)
    (hj : j ∈ joins) (h : Refers ref .table (j.table.render f fallback)) (hrest : Closing rest) :
    Refers ref .statement (lead ++ clause " " " " (joins.map (Join.render f fallback)) ++ rest) := by
  obtain ⟨between, tail, htail, hjoins⟩ := joins_split f fallback hj
  have hjoined := Refers.joined j.kind (hlead.append between) h (htail.append hrest)
  rw [hjoins]
  simp only [String.append_assoc] at hjoined ⊢
  exact hjoined

/-- What is in one of the tables is in a statement that lists them behind an opening. -/
theorem refers_of_listed {ref lead rest : String} {tables : List Table} {t : Table} (hlead : Opening lead)
    (ht : t ∈ tables) (h : Refers ref .table (t.render f fallback)) (hrest : Closing rest) :
    Refers ref .statement
      (lead ++ clause " FROM " ", " (tables.map (Table.render f fallback)) ++ rest) := by
  obtain ⟨before, after, rfl⟩ := List.append_of_mem ht
  have hlisted := Refers.listed (before.map (Table.render f fallback))
    (after.map (Table.render f fallback)) hlead h hrest
  rw [List.map_append, List.map_cons, clause_of_ne_nil (by simp), ← String.append_assoc]
  exact hlisted

/-- What is in a source of a statement is in the statement. -/
theorem Select.refers_of_mem {q : Select} {t : Table} {ref : String} (ht : t ∈ q.sources)
    (h : Refers ref .table (t.render f fallback)) : Refers ref .statement (q.render f fallback) := by
  obtain ⟨rest, hrest, hrender⟩ := q.render_eq f fallback
  have hopening := Opening.select (renderFields f q.fields)
  rw [hrender]
  apply Refers.wrapUnions
  rcases List.mem_append.mp ht with ht | ht
  · have hjoins : Closing (clause " " " " (q.joins.map (Join.render f fallback))) := closing_clause "" _ _
    rw [String.append_assoc]
    exact refers_of_listed f fallback hopening ht h (hjoins.append hrest)
  · obtain ⟨j, hj, rfl⟩ := List.mem_map.mp ht
    exact refers_of_join f fallback (hopening.append _) hj h hrest

/-! ## Names and references -/

mutual

/-- The text of a table refers to the table that its name is from. -/
theorem Table.refers {t : Table} {n : String} (h : t.name = .ok n) :
    Refers (f.escapeName n) .table (t.render f fallback) := by
  match t with
  | ⟨.name name, label⟩ =>
    rw [Table.name] at h
    cases h
    obtain ⟨tail, htail, hlabelled⟩ := f.labelled_eq (f.escapeName n) (label.getD "")
    rw [Table.render, hlabelled]
    exact .named htail
  | ⟨.query q, label⟩ =>
    rw [Table.name] at h
    rw [Table.render]
    obtain ⟨tail, htail, hlabelled⟩ := f.labelled_eq (parenthesised (q.render f fallback))
      (if label.getD "" = "" then fallback else label.getD "")
    rw [hlabelled]
    exact .nested (q.refers_sourceName h) htail

theorem Select.refers_sourceName (q : Select) {n : String} (h : q.sourceName = .ok n) :
    Refers (f.escapeName n) .statement (q.render f fallback) := by
  match q with
  | ⟨[], _, _, _, _, _, _, _, _, _⟩ =>
    rw [Select.sourceName] at h
    cases h
  | ⟨t :: rest, _, _, _, _, _, _, _, _, _⟩ =>
    rw [Select.sourceName] at h
    exact Select.refers_of_mem f fallback (List.mem_cons_self ..) (t.refers h)

end

mutual

/-- All names of a statement's tables are written, at any depth. -/
theorem Select.refers_names (q : Select) {names : List String} {name : String}
    (h : q.tableNames = .ok names) (hname : name ∈ names) :
    Refers (f.escapeName name) .statement (q.render f fallback) := by
  match q with
  | ⟨tables, joins, fields, filters, groupFilters, limit, offset, orderBy, groupBy, unions⟩ =>
    rw [Select.tableNames] at h
    obtain ⟨own, hown, h⟩ := except_bind_ok h
    obtain ⟨others, hothers, h⟩ := except_bind_ok h
    cases h
    rcases List.mem_append.mp (List.mem_eraseDups.mp hname) with hname | hname
    · obtain ⟨t, ht, hfrom⟩ := exists_of_mapM_ok hown hname
      exact Select.refers_of_mem f fallback ht (t.refers f fallback hfrom)
    · obtain ⟨u, hu, hrefers⟩ := refers_unionNames unions hothers hname
      exact Select.refers_of_union f fallback hu hrefers

theorem refers_unionNames (unions : List UnionPart) {names : List String} {name : String}
    (h : unionTableNames unions = .ok names) (hname : name ∈ names) :
    ∃ u ∈ unions, Refers (f.escapeName name) .statement (u.query.render f fallback) := by
  match unions with
  | [] =>
    rw [unionTableNames] at h
    cases h
    cases hname
  | ⟨kind, q⟩ :: rest =>
    rw [unionTableNames] at h
    obtain ⟨first, hfirst, h⟩ := except_bind_ok h
    obtain ⟨others, hothers, h⟩ := except_bind_ok h
    cases h
    rcases List.mem_append.mp hname with hname | hname
    · exact ⟨⟨kind, q⟩, List.mem_cons_self .., q.refers_names hfirst hname⟩
    · obtain ⟨u, hu, hrefers⟩ := refers_unionNames rest hothers hname
      exact ⟨u, List.mem_cons_of_mem _ hu, hrefers⟩

end

/-! ## Statements that change rows -/

theorem closing_whereClause (filters : List Condition) : Closing (whereClause f filters) :=
  closing_clause "WHERE " _ _

theorem closing_joinClauses (joins : List Join) : Closing (joinClauses f fallback joins) :=
  closing_clause "" _ _

theorem Delete.render_eq {d : Delete} {sql : String} (h : d.render f fallback = .ok sql) :
    ∃ t rest target, d.tables = t :: rest ∧
      sql = "DELETE" ++ target ++ " FROM " ++ t.render f fallback ++ joinClauses f fallback d.joins ++
        whereClause f d.filters := by
  unfold Delete.render at h
  split at h
  · cases h
  · rename_i t rest htables
    dsimp only at h
    split at h
    · cases h
      exact ⟨t, rest, "", htables, rfl⟩
    · obtain ⟨target, -, h⟩ := except_bind_ok h
      cases h
      exact ⟨t, rest, target, htables, rfl⟩

theorem Update.render_eq {u : Update} {sql : String} (h : u.render f fallback = .ok sql) :
    ∃ t rest more, u.tables = t :: rest ∧ Closing more ∧
      sql = "UPDATE " ++ t.render f fallback ++ joinClauses f fallback u.joins ++ more := by
  unfold Update.render at h
  split at h
  · cases h
  · rename_i t rest htables
    split at h
    · obtain ⟨name, -, h⟩ := except_bind_ok h
      cases h
    · cases h
      exact ⟨t, rest, " SET " ++ (", ".intercalate (u.assignments.entries.map (assignment f)) ++
        whereClause f u.filters), htables, closing_word "SET " _, by simp only [String.append_assoc]⟩

/-- What is in the first table or a joined one is in a delete. -/
theorem Delete.refers_of_mem {d : Delete} {sql ref : String} {t : Table}
    (hsql : d.render f fallback = .ok sql) (ht : t ∈ d.tables.take 1 ++ d.joins.map Join.table)
    (h : Refers ref .table (t.render f fallback)) : Refers ref .statement sql := by
  obtain ⟨first, rest, target, htables, rfl⟩ := Delete.render_eq f fallback hsql
  have hopening := Opening.delete target
  have hfilters := closing_whereClause f d.filters
  rw [htables] at ht
  rcases List.mem_cons.mp ht with rfl | ht
  · have hlisted := Refers.listed [] [] hopening h ((closing_joinClauses f fallback d.joins).append hfilters)
    rw [← String.append_assoc] at hlisted
    exact hlisted
  · obtain ⟨j, hj, rfl⟩ := List.mem_map.mp ht
    exact refers_of_join f fallback ((hopening.append _).append _) hj h hfilters

/-- What is in the first table or a joined one is in an update. -/
theorem Update.refers_of_mem {u : Update} {sql ref : String} {t : Table}
    (hsql : u.render f fallback = .ok sql) (ht : t ∈ u.tables.take 1 ++ u.joins.map Join.table)
    (h : Refers ref .table (t.render f fallback)) : Refers ref .statement sql := by
  obtain ⟨first, rest, more, htables, hmore, rfl⟩ := Update.render_eq f fallback hsql
  rw [htables] at ht
  rcases List.mem_cons.mp ht with rfl | ht
  · have hupdated := Refers.updated h ((closing_joinClauses f fallback u.joins).append hmore)
    rw [← String.append_assoc] at hupdated
    exact hupdated
  · obtain ⟨j, hj, rfl⟩ := List.mem_map.mp ht
    exact refers_of_join f fallback (.update _) hj h hmore

theorem closing_columnList (columns : List String) : Closing (columnList f columns) := .words _

/-- An insert of rows: the table comes first. -/
theorem Insert.render_rows {i : Insert} {sql : String} (hsource : i.source = none)
    (h : i.render f fallback = .ok sql) :
    ∃ rest, Closing rest ∧ sql = "INSERT INTO " ++ f.escapeName i.table ++ rest := by
  unfold Insert.render at h
  rw [hsource] at h
  dsimp only at h
  split at h
  · cases h
  · cases h
    have hcolumns := closing_columnList f i.columns
    have hvalues : Closing (" VALUES " ++ ", ".intercalate (i.rows.map (valueList f i.columns))) :=
      closing_word "VALUES " _
    exact ⟨_, hcolumns.append hvalues, by simp only [String.append_assoc]⟩

/-- An insert of what a statement gives: the table comes first, the statement last. -/
theorem Insert.render_source {i : Insert} {q : Select} {sql : String} (hsource : i.source = some q)
    (h : i.render f fallback = .ok sql) :
    ∃ columns, Closing columns ∧
      sql = "INSERT INTO " ++ (f.escapeName i.table ++ columns) ++ " " ++ q.render f fallback := by
  unfold Insert.render at h
  rw [hsource] at h
  cases h
  refine ⟨if i.columnNames.getD [] = [] then "" else columnList f (i.columnNames.getD []), ?_, by
    simp only [String.append_assoc]⟩
  split
  · exact .nothing
  · exact closing_columnList f _

theorem Insert.refers_names {i : Insert} {names : List String} {name sql : String}
    (h : i.tableNames = .ok names) (hname : name ∈ names) (hsql : i.render f fallback = .ok sql) :
    Refers (f.escapeName name) .statement sql := by
  rw [Insert.tableNames] at h
  obtain ⟨others, hothers, h⟩ := except_bind_ok h
  cases h
  cases hsource : i.source with
  | none =>
    rw [hsource] at hothers
    cases hothers
    obtain ⟨rest, hrest, rfl⟩ := Insert.render_rows f fallback hsource hsql
    rw [List.mem_singleton.mp (List.mem_eraseDups.mp hname)]
    exact .filled hrest
  | some q =>
    rw [hsource] at hothers
    obtain ⟨columns, hcolumns, rfl⟩ := Insert.render_source f fallback hsource hsql
    rcases List.mem_cons.mp (List.mem_eraseDups.mp hname) with rfl | hname
    · have hfilled : Refers (f.escapeName i.table) .statement _ :=
        .filled (hcolumns.append (.words (q.render f fallback)))
      simp only [String.append_assoc] at hfilled ⊢
      exact hfilled
    · exact .provided _ (q.refers_names f fallback hothers hname)

/-! ## Nodes -/

namespace Node

/-- The tables that a node has and does not write: those of a delete or an update behind the first, and the
joined ones of a bare select list. -/
def spareTables : Node → List Table
  | .delete d => d.tables.drop 1
  | .update u => u.tables.drop 1
  | .projection p => p.joins.map Join.table
  | _ => []

def withoutSpare : Node → Node
  | .delete d => .delete { d with tables := d.tables.take 1 }
  | .update u => .update { u with tables := u.tables.take 1 }
  | .projection p => .projection { p with joins := [] }
  | n => n

theorem first_or_spare {t : Table} {tables joined : List Table} (h : t ∈ tables ++ joined) :
    t ∈ tables.take 1 ++ joined ∨ t ∈ tables.drop 1 := by
  rw [← List.take_append_drop 1 tables] at h
  rcases List.mem_append.mp h with h | h
  · rcases List.mem_append.mp h with h | h
    · exact .inl (List.mem_append_left _ h)
    · exact .inr h
  · exact .inl (List.mem_append_right _ h)

/-- A name that is among those of a node's tables is in its text, or is that of a spare table. -/
theorem refers_of_sql {n : Node} {names : List String} {name sql : String}
    (hnames : Interface.Method.tableNames? n = some (.ok names)) (hname : name ∈ names)
    (hsql : n.sql f fallback = .ok sql) :
    Refers (f.escapeName name) .statement sql ∨ ∃ t ∈ n.spareTables, t.name = .ok name := by
  cases n with
  | select q =>
    have hnames := Option.some.inj hnames
    cases hsql
    exact .inl (q.refers_names f fallback hnames hname)
  | insert i => exact .inl (Insert.refers_names f fallback (Option.some.inj hnames) hname hsql)
  | projection p =>
    cases hsql
    obtain ⟨t, ht, hfrom⟩ := exists_of_mapM_ok (Option.some.inj hnames) hname
    rcases List.mem_append.mp ht with ht | ht
    · have hlisted := refers_of_listed f fallback (.select (renderFields f p.fields)) ht
        (t.refers f fallback hfrom) .nothing
      rw [String.append_empty] at hlisted
      exact .inl hlisted
    · exact .inr ⟨t, ht, hfrom⟩
  | delete d =>
    obtain ⟨t, ht, hfrom⟩ := exists_of_mapM_ok (Option.some.inj hnames) hname
    rcases first_or_spare ht with ht | ht
    · exact .inl (Delete.refers_of_mem f fallback hsql ht (t.refers f fallback hfrom))
    · exact .inr ⟨t, ht, hfrom⟩
  | update u =>
    obtain ⟨t, ht, hfrom⟩ := exists_of_mapM_ok (Option.some.inj hnames) hname
    rcases first_or_spare ht with ht | ht
    · exact .inl (Update.refers_of_mem f fallback hsql ht (t.refers f fallback hfrom))
    · exact .inr ⟨t, ht, hfrom⟩
  | _ => cases hnames

/-- Nothing that is asked about a node on the way to its text depends on its spare tables. -/
theorem withoutSpare_same (n : Node) :
    (∀ f fallback, n.withoutSpare.sql f fallback = n.sql f fallback) ∧
      n.withoutSpare.demands = n.demands ∧ n.withoutSpare.needsFallback = n.needsFallback ∧
      n.withoutSpare.typeName = n.typeName := by
  cases n with
  | delete d =>
    obtain ⟨tables, joins, filters⟩ := d
    cases tables <;> exact ⟨fun _ _ => rfl, rfl, rfl, rfl⟩
  | update u =>
    obtain ⟨tables, joins, filters, assignments⟩ := u
    cases tables <;> exact ⟨fun _ _ => rfl, rfl, rfl, rfl⟩
  | _ => exact ⟨fun _ _ => rfl, rfl, rfl, rfl⟩

theorem spareTables_withoutSpare (n : Node) : n.withoutSpare.spareTables = [] := by
  cases n with
  | delete d =>
    obtain ⟨tables, joins, filters⟩ := d
    cases tables <;> rfl
  | update u =>
    obtain ⟨tables, joins, filters, assignments⟩ := u
    cases tables <;> rfl
  | _ => rfl

/-- A name of spare tables only. -/
def IsSpare (n : Node) (name : String) : Prop :=
  (∃ t ∈ n.spareTables, t.name = .ok name) ∧
    ∀ kept, Interface.Method.tableNames? n.withoutSpare = some (.ok kept) → name ∉ kept

/-- What a node lists is in its text, but for names of spare tables only: a name that another table has as
well is one that the node lists without its spare tables, which leaves the text as it is. -/
theorem refers_or_isSpare {n : Node} {names : List String} {name sql : String}
    (hnames : Interface.Method.tableNames? n = some (.ok names)) (hname : name ∈ names)
    (hsql : n.sql f fallback = .ok sql) :
    Refers (f.escapeName name) .statement sql ∨ n.IsSpare name := by
  -- The node without its spare tables has the same text, so the lemma above applies to both.
  by_cases hkept : ∃ kept, Interface.Method.tableNames? n.withoutSpare = some (.ok kept) ∧ name ∈ kept
  · obtain ⟨kept, hkept, hname⟩ := hkept
    have hsame := (n.withoutSpare_same.1 f fallback).trans hsql
    rcases refers_of_sql f fallback hkept hname hsame with hrefers | ⟨t, ht, -⟩
    · exact .inl hrefers
    · rw [spareTables_withoutSpare] at ht
      cases ht
  · refine (refers_of_sql f fallback hnames hname hsql).imp_right fun hspare => ⟨hspare, ?_⟩
    intro kept hlist hname
    exact hkept ⟨kept, hlist, hname⟩

end Node

end

/-! ## In a session -/

namespace Action

variable {α β : Type}

theorem outcome_bind_ok {a : Action α} {g : α → Action β} {s : Session} {b : β}
    (h : (a >>= g).outcome s = .ok b) : ∃ x s', (g x).outcome s' = .ok b := by
  simp only [outcome, ExceptT.run_bind, StateT.run_bind] at h
  rcases hrun : a.run.run s with ⟨o, s'⟩
  rw [hrun] at h
  cases o with
  | error e => cases h
  | ok x => exact ⟨x, s', h⟩

/-- A text that a call writes is one that `Node.render` writes, whatever the session. -/
theorem render_of_toSql {f : Flavor} {n : Node} {s : Session} {sql : String}
    (h : (toSql n (.flavor f)).outcome s = .ok sql) : ∃ fallback, n.render f fallback = .ok sql := by
  obtain ⟨spans, htraced⟩ := traced_outcome "sqltree.to_sql" "sqltree.nodes.base" "INTERNAL"
    [("sqltree.node", .text n.typeName)] (getFlavor (.flavor f) >>= (renderWith · n)) s
  have hwith : (renderWith f n).outcome { s with spans := spans } = .ok sql := htraced.symm.trans h
  rw [renderWith] at hwith
  obtain ⟨-, s', hwith⟩ := outcome_bind_ok hwith
  obtain ⟨-, s', hwith⟩ := outcome_bind_ok hwith
  -- Whether the fallback alias is asked for or not, the last thing done is to write the node with one.
  have hlast : ∃ fallback s', (ofOutcome (n.render f fallback)).outcome s' = .ok sql := by
    cases hneeds : n.needsFallback with
    | true =>
      rw [hneeds] at hwith
      obtain ⟨settings, s', hwith⟩ := outcome_bind_ok hwith
      exact ⟨settings.subqueryAlias, s', hwith⟩
    | false =>
      rw [hneeds] at hwith
      exact ⟨"", s', hwith⟩
  obtain ⟨fallback, s', hlast⟩ := hlast
  rw [outcome_ofOutcome] at hlast
  exact ⟨fallback, hlast⟩

end Action

/-- Each name that a node lists for its tables is referred to in what the node is written as, or is the name
of spare tables only; the spare tables of a node make no difference to what it is written as, whatever the
session. A select statement and an insert have none. -/
theorem Node.toSql_refers {n : Node} {f : Flavor} {s : Session} {names : List String} {sql : String}
    (hnames : Interface.Method.tableNames? n = some (.ok names))
    (hsql : (Action.toSql n (.flavor f)).outcome s = .ok sql) :
    (∀ name ∈ names, Refers (f.escapeName name) .statement sql ∨ n.IsSpare name) ∧
      Action.toSql n.withoutSpare (.flavor f) = Action.toSql n (.flavor f) := by
  obtain ⟨fallback, hrender⟩ := Action.render_of_toSql hsql
  refine ⟨fun name hname => n.refers_or_isSpare f fallback hnames hname (Node.sql_of_render hrender), ?_⟩
  obtain ⟨hsame, hdemands, hneeds, htype⟩ := n.withoutSpare_same
  have hwith (f : Flavor) : Action.renderWith f n.withoutSpare = Action.renderWith f n := by
    simp only [Action.renderWith, Node.render, hdemands, hneeds, hsame]
  simp only [Action.toSql, htype, hwith]

/-- A delete with two tables. -/
def deleteFromTwo : Delete := ⟨[⟨.name "a", none⟩, ⟨.name "b", none⟩], [], []⟩

/-- It lists both and is written with the first one only, for the second is spare. -/
theorem deleteFromTwo_drops :
    let sql := "DELETE FROM \x60a\x60"
    Interface.Method.tableNames? (.delete deleteFromTwo) = some (.ok ["a", "b"]) ∧
      (Action.toSql (.delete deleteFromTwo) (.flavor .mysql)).outcome {} = .ok sql ∧
      ¬ Refers (Flavor.mysql.escapeName "b") .statement sql ∧ (Node.delete deleteFromTwo).IsSpare "b" := by
  intro sql
  have hnames : Interface.Method.tableNames? (.delete deleteFromTwo) = some (.ok ["a", "b"]) := rfl
  have hsql : (Action.toSql (.delete deleteFromTwo) (.flavor .mysql)).outcome {} = .ok sql := rfl
  have hletter : 'b' ∈ (Flavor.mysql.escapeName "b").toList ∧ 'b' ∉ sql.toList := by decide
  have hwritten := (Node.toSql_refers hnames hsql).1 "b" (by decide)
  have hno : ¬ Refers (Flavor.mysql.escapeName "b") .statement sql := fun h =>
    hletter.2 (h.occurs.subset hletter.1)
  exact ⟨hnames, hsql, hno, hwritten.resolve_left hno⟩

end SqlAst
