import SqlAst.Proofs.DeleteTargets
import SqlAst.Proofs.InsertedRows
import SqlAst.Proofs.TextClasses
import SqlAst.Proofs.Writing

/-!
# Assignments of an update

What assignments leave when they are made one after the other: each column once, where it was first assigned,
with the value of its last assignment. The SET clause of an update has what is left, pair by pair.

* `Entries.leaves_unique`: keeping keys in place and replacing their values leaves this.
* `Entries.Leaves.eq`: nothing else has the two properties.
* `Update.render_sets`: the text of an update with its SET clause.
* `Update.readAssignments`: what is read of that clause.
* `Update.toSql_setsIn`: the same of the traced call.
-/
namespace SqlAst

open Sql

/-! ## Assignments one after the other -/

namespace Entries

variable {α : Type}

/-- What assignments leave: each column once, in the order in which the columns are first assigned, with the value
of the last assignment to it. -/
structure Leaves (all left : List (String × α)) : Prop where
  columns : FirstSeen (keys left) (keys all)
  values : ∀ column v, (column, v) ∈ left ↔
    ∃ before after, all = before ++ (column, v) :: after ∧ ∀ later ∈ after, later.1 ≠ column

theorem merge_append (done es more : List (String × α)) :
    merge done (es ++ more) = merge (merge done es) more := List.foldl_append

theorem unique_concat (es : List (String × α)) (e : String × α) :
    unique (es ++ [e]) = put e.1 e.2 (unique es) := merge_append [] es [e]

theorem keys_unique (es : List (String × α)) : keys (unique es) = (keys es).eraseDups := by
  induction es using List.reverseRecOn with
  | nil => rfl
  | append_singleton es e ih =>
    have hlast : keys [e] = [e.1] := rfl
    rw [unique_concat, keys_put, ih, keys_append, hlast, eraseDups_concat]
    simp only [List.mem_eraseDups, List.contains_iff_mem]

theorem nodup_unique (es : List (String × α)) : (keys (unique es)).Nodup := by
  rw [keys_unique]
  exact (firstSeen_eraseDups _).nodup

theorem mem_unique_iff (es : List (String × α)) (key : String) (v : α) :
    (key, v) ∈ unique es ↔ last? key es = some v := by
  rw [mem_iff_last? (nodup_unique es), last?_unique]

/-- Putting all assignments in turn leaves what they have to. -/
theorem leaves_unique (es : List (String × α)) : Leaves es (unique es) where
  columns := by
    rw [keys_unique]
    exact firstSeen_eraseDups _
  values column v := (mem_unique_iff es column v).trans last?_eq_some_iff

/-- Entries are told by their keys, if these are distinct, and by the value of each. -/
theorem eq_of_keys_of_mem {es other : List (String × α)} (hkeys : keys es = keys other) (h : (keys es).Nodup)
    (hmem : ∀ key v, (key, v) ∈ es → (key, v) ∈ other) : es = other := by
  have hlength : es.length = other.length := by
    simpa [keys] using congrArg List.length hkeys
  refine List.ext_getElem hlength fun n hn hn' => ?_
  have hkey : es[n].1 = other[n].1 := by
    have hget := List.getElem_of_eq hkeys (i := n) (by simpa [keys] using hn)
    simpa [keys] using hget
  have hlast := (mem_iff_last? (hkeys ▸ h) es[n].1 es[n].2).mp (hmem _ _ (List.getElem_mem hn))
  have hlast' := (mem_iff_last? (hkeys ▸ h) other[n].1 other[n].2).mp (List.getElem_mem hn')
  rw [hkey, hlast'] at hlast
  exact Prod.ext hkey (Option.some.inj hlast).symm

/-- Nothing else is left. -/
theorem Leaves.eq {all left other : List (String × α)} (h : Leaves all left) (h' : Leaves all other) : left = other :=
  eq_of_keys_of_mem (h.columns.eq h'.columns) h.columns.nodup fun column v hmem =>
    (h'.values column v).mpr ((h.values column v).mp hmem)

/-- Assignments to what others have left are more of the same. -/
theorem merge_eq_unique {done : List (String × α)} (h : (keys done).Nodup) (es : List (String × α)) :
    merge done es = unique (done ++ es) := by
  have hdone : merge [] done = done := unique_of_nodup h
  rw [unique, merge_append, hdone]

theorem last?_append (es more : List (String × α)) (key : String) :
    last? key (es ++ more) = (last? key more).or (last? key es) := by
  induction es with
  | nil => simp [last?]
  | cons e rest ih => rw [List.cons_append, last?, ih, last?, Option.or_assoc]

/-- It makes no difference to make repeated assignments only once. -/
theorem merge_unique {done : List (String × α)} (h : (keys done).Nodup) (es : List (String × α)) :
    merge done (unique es) = merge done es := by
  have honce : Leaves (done ++ es) (unique (done ++ unique es)) := by
    refine ⟨?_, fun column v => ?_⟩
    · rw [keys_unique, keys_append, keys_append, keys_unique, eraseDups_append_eraseDups]
      exact firstSeen_eraseDups _
    · rw [mem_unique_iff, last?_append, last?_unique, ← last?_append]
      exact last?_eq_some_iff
  rw [merge_eq_unique h, merge_eq_unique h]
  exact honce.eq (leaves_unique _)

end Entries

/-! ## SET clauses -/

namespace Sql

def isEquals : Tree → Bool
  | .leaf (.sign ['=']) => true
  | _ => false

/-- The two sides of a phrase with one sign of equality. -/
def sides? (phrase : List Tree) : Option (List Tree × List Tree) :=
  match phrase.splitOnP isEquals with
  | [left, right] => some (left, right)
  | _ => none

/-- What an update assigns, pair by pair: the phrases between commas, from SET to WHERE or to the end. -/
def assignments? (statement : List Tree) : Option (List (List Tree × List Tree)) :=
  match statement.dropWhile fun t => !isWord "SET" t with
  | [] => none
  | _ :: rest => ((rest.takeWhile fun t => !isWord "WHERE" t).splitOnP isComma).mapM sides?

/-- What an update assigns, if the parentheses in its text balance. -/
def Dialect.assignments? (d : Dialect) (sql : String) : Option (List (List Tree × List Tree)) :=
  (nest (d.tokens sql)).bind Sql.assignments?

/-- A word is not among the trees, but there may be groups in which it is. -/
def Lacks (w : String) (ts : List Tree) : Prop := ∀ t ∈ ts, isWord w t = false

theorem Lacks.append {w : String} {ts us : List Tree} (hts : Lacks w ts) (hus : Lacks w us) : Lacks w (ts ++ us) := by
  intro t ht
  exact (List.mem_append.mp ht).elim (hts t) (hus t)

theorem lacks_nil (w : String) : Lacks w [] := fun _ h => nomatch h

theorem lacks_words {w : String} {ws : List String} (h : ∀ x ∈ ws, x.toList ≠ w.toList) : Lacks w (words ws) := by
  intro t ht
  obtain ⟨x, hx, rfl⟩ := List.mem_map.mp ht
  simpa [isWord] using h x hx

theorem lacks_group (w : String) (inner : List Tree) : Lacks w [.group inner] := by simp [Lacks, isWord]

theorem lacks_intercalate {w : String} {sep : List Tree} (hsep : Lacks w sep) {phrases : List (List Tree)}
    (h : ∀ ts ∈ phrases, Lacks w ts) : Lacks w (sep.intercalate phrases) :=
  intercalate_induction (lacks_nil w) Lacks.append hsep h

theorem lacks_labelTrees {w : String} (hw : "AS".toList ≠ w.toList) (label : String) :
    Lacks w (labelTrees label) := by
  unfold labelTrees
  split
  · exact lacks_nil w
  · exact (lacks_words (by simpa using hw)).append (isWord_of_mem_nameTrees w label)

end Sql

/-! ### What an update is read as -/

variable {d : Dialect} {fallback : String}

/-- A literal is no word of a clause. -/
theorem lacks_literalTree {w : String} (hw : w = "SET" ∨ w = "WHERE") (v : Scalar) : Lacks w [literalTree d v] := by
  cases v with
  | null =>
    have hword : ∀ x ∈ ["NULL"], x.toList ≠ w.toList := by rcases hw with rfl | rfl <;> decide
    exact lacks_words hword
  | bool b =>
    have hword : ∀ x ∈ [d.flavor.boolWord b], x.toList ≠ w.toList := by
      rcases hw with rfl | rfl <;> cases d <;> cases b <;> decide
    exact lacks_words hword
  | _ => simp [Lacks, literalTree, literalAtom, isWord]

theorem Condition.lacks_set (c : Condition) : Lacks "SET" (c.trees d) := by
  have hname (n : String) : Lacks "SET" (nameTrees n) := isWord_of_mem_nameTrees "SET" n
  have hliteral (v : Scalar) : Lacks "SET" [literalTree d v] := lacks_literalTree (.inl rfl) v
  cases c with
  | compare op column value =>
    have hsign : Lacks "SET" [.leaf (.sign op.sign.toList)] := by simp [Lacks, isWord]
    rw [Condition.trees]
    exact (hname column).append (hsign.append (hliteral value))
  | between column low high =>
    rw [Condition.trees]
    exact ((((hname column).append (lacks_words (by decide))).append (hliteral low)).append
      (lacks_words (by decide))).append (hliteral high)
  | among column values =>
    rw [Condition.trees]
    exact ((hname column).append (lacks_words (by decide))).append (lacks_group "SET" _)
  | like negated column pattern =>
    have htext : Lacks "SET" [.leaf (.text pattern.toList)] := by simp [Lacks, isWord]
    rw [Condition.trees]
    exact ((hname column).append (lacks_words (by cases negated <;> decide))).append htext
  | isNull negated column =>
    rw [Condition.trees]
    exact (hname column).append (lacks_words (by cases negated <;> decide))
  | columnEqual left right =>
    have hsign : Lacks "SET" [.leaf (.sign ['='])] := by simp [Lacks, isWord]
    rw [Condition.trees]
    exact ((hname left).append hsign).append (hname right)
  | combine connective parts =>
    cases parts with
    | nil =>
      rw [Condition.trees]
      exact lacks_group "SET" _
    | cons c rest =>
      rw [Condition.trees]
      refine lacks_intercalate (lacks_words (by cases connective <;> decide)) fun ts hts => ?_
      rcases List.mem_cons.mp hts with rfl | hts
      · exact lacks_group "SET" _
      · obtain ⟨inner, -, rfl⟩ := List.mem_map.mp hts
        exact lacks_group "SET" inner

theorem Table.lacks_set (t : Table) : Lacks "SET" (t.trees d fallback) := by
  obtain ⟨source, label⟩ := t
  cases source with
  | name n =>
    rw [Table.trees]
    exact Lacks.append (isWord_of_mem_nameTrees "SET" n) (lacks_labelTrees (by decide) _)
  | query q =>
    rw [Table.trees]
    exact (lacks_group "SET" _).append (lacks_labelTrees (by decide) _)

theorem Join.lacks_set (j : Join) : Lacks "SET" (j.trees d fallback) := by
  obtain ⟨table, condition, kind⟩ := j
  have htable : Lacks "SET" (words [kind.word, "JOIN"] ++ table.trees d fallback) :=
    (lacks_words (by cases kind <;> decide)).append table.lacks_set
  rw [Join.trees]
  cases condition with
  | none => exact htable.append (lacks_nil "SET")
  | some c => exact htable.append ((lacks_words (by decide)).append c.lacks_set)

namespace Sql

/-- A tree that may stand on a side of an assignment. -/
def isPlainSide (t : Tree) : Bool := !isComma t && !isEquals t && !isWord "WHERE" t

/-- Two sides with a sign of equality between them. -/
def pairPhrase (pair : List Tree × List Tree) : List Tree := pair.1 ++ [.leaf (.sign ['='])] ++ pair.2

theorem sides?_pairPhrase {pair : List Tree × List Tree} (h : ∀ t ∈ pair.1 ++ pair.2, isPlainSide t) :
    sides? (pairPhrase pair) = some pair := by
  have hside {t : Tree} (ht : t ∈ pair.1 ++ pair.2) : isEquals t = false := by
    have hplain := h t ht
    simp only [isPlainSide, Bool.and_eq_true, Bool.not_eq_true'] at hplain
    exact hplain.1.2
  have hsplit : (pair.1 ++ .leaf (.sign ['=']) :: pair.2).splitOnP isEquals = [pair.1, pair.2] := by
    rw [List.splitOnP_append_cons_of_forall_mem (fun t ht => hside (List.mem_append_left _ ht)) _ rfl,
      List.splitOnP_eq_singleton fun t ht => hside (List.mem_append_right _ ht)]
  rw [pairPhrase, List.append_assoc, List.singleton_append, sides?, hsplit]

/-- There are no commas in an assignment, and no clause begins in it. -/
theorem inside_pairPhrase {pair : List Tree × List Tree} (h : ∀ t ∈ pair.1 ++ pair.2, isPlainSide t) {t : Tree}
    (ht : t ∈ pairPhrase pair) : isComma t = false ∧ isWord "WHERE" t = false := by
  rw [pairPhrase, List.append_assoc, List.mem_append, List.mem_append, List.mem_singleton] at ht
  have hside (ht : t ∈ pair.1 ++ pair.2) : isComma t = false ∧ isWord "WHERE" t = false := by
    have hplain := h t ht
    simp only [isPlainSide, Bool.and_eq_true, Bool.not_eq_true'] at hplain
    exact ⟨hplain.1.1, hplain.2⟩
  rcases ht with ht | rfl | ht
  · exact hside (List.mem_append_left _ ht)
  · exact ⟨rfl, rfl⟩
  · exact hside (List.mem_append_right _ ht)

/-- The pairs of a SET clause are found again, whatever is in front of it, if there is no other SET. -/
theorem assignments?_set {lead tail : List Tree} {pairs : List (List Tree × List Tree)} (hlead : Lacks "SET" lead)
    (hpairs : pairs ≠ []) (hplain : ∀ p ∈ pairs, ∀ t ∈ p.1 ++ p.2, isPlainSide t)
    (htail : tail.takeWhile (fun t => !isWord "WHERE" t) = []) :
    assignments? (lead ++ (words ["SET"] ++ listed (pairs.map pairPhrase) ++ tail)) = some pairs := by
  have hdrop : (lead ++ (words ["SET"] ++ listed (pairs.map pairPhrase) ++ tail)).dropWhile
      (fun t => !isWord "SET" t) = words ["SET"] ++ listed (pairs.map pairPhrase) ++ tail := by
    rw [List.dropWhile_append_of_pos fun t ht => by rw [hlead t ht]; rfl]
    rfl
  have hwhere : Lacks "WHERE" (listed (pairs.map pairPhrase)) := by
    refine lacks_intercalate (by simp [Lacks, comma, isWord]) fun ts hts => ?_
    obtain ⟨p, hp, rfl⟩ := List.mem_map.mp hts
    exact fun t ht => (inside_pairPhrase (hplain p hp) ht).2
  have htake : (listed (pairs.map pairPhrase) ++ tail).takeWhile (fun t => !isWord "WHERE" t) =
      listed (pairs.map pairPhrase) := by
    rw [List.takeWhile_append_of_pos fun t ht => by rw [hwhere t ht]; rfl, htail, List.append_nil]
  have hsplit : (listed (pairs.map pairPhrase)).splitOnP isComma = pairs.map pairPhrase := by
    refine splitOnP_listed (by simpa using hpairs) fun ts hts => ?_
    obtain ⟨p, hp, rfl⟩ := List.mem_map.mp hts
    exact fun t ht => (inside_pairPhrase (hplain p hp) ht).1
  have hsides : (pairs.map pairPhrase).mapM sides? = some (pairs.map id) := by
    rw [List.mapM_map]
    exact mapM_eq_some fun p hp => sides?_pairPhrase (hplain p hp)
  rw [assignments?, hdrop, words, List.map_cons, List.map_nil, List.singleton_append, List.cons_append]
  dsimp only
  rw [htake, hsplit, hsides, List.map_id]

end Sql

/-- The tokens of an assignment: a name and a literal. -/
def assignmentSides (d : Dialect) (entry : String × Scalar) : List Tree × List Tree :=
  (nameTrees entry.1, [literalTree d entry.2])

theorem isPlainSide_assignment (entry : String × Scalar) :
    ∀ t ∈ (assignmentSides d entry).1 ++ (assignmentSides d entry).2, isPlainSide t := by
  intro t ht
  rcases List.mem_append.mp ht with ht | ht
  · exact of_mem_nameTrees (P := fun t => isPlainSide t = true) rfl rfl (fun _ => rfl) entry.1 t ht
  · have hword := lacks_literalTree (d := d) (.inr rfl) entry.2 t ht
    rw [List.mem_singleton.mp ht] at hword ⊢
    rw [isPlainSide, hword]
    cases entry.2 <;> rfl

/-- The text of an update: its pairs stand in the SET clause, in their order. -/
theorem Update.render_sets {f : Flavor} {u : Update} {sql : String} (h : u.render f fallback = .ok sql) :
    u.assignments.entries ≠ [] ∧ ∃ t rest, u.tables = t :: rest ∧
      sql = "UPDATE " ++ t.render f fallback ++ joinClauses f fallback u.joins ++ " SET " ++
        ", ".intercalate (u.assignments.entries.map fun e => f.escapeName e.1 ++ " = " ++ f.literal e.2) ++
        whereClause f u.filters := by
  unfold Update.render at h
  split at h
  · cases h
  · rename_i t rest htables
    split at h
    · obtain ⟨name, -, h⟩ := except_bind_ok h
      cases h
    · rename_i hsome
      cases h
      exact ⟨hsome, t, rest, htables, rfl⟩

/-- In the text of an update its assignments are read, in their order. -/
theorem Update.readAssignments {u : Update} {sql : String} (hfallback : Settings.isPlainAlias fallback = true)
    (hnames : ∀ name ∈ (Node.update u).names, d.IsPlain name) (h : u.render d.flavor fallback = .ok sql) :
    d.assignments? sql = some (u.assignments.entries.map (assignmentSides d)) := by
  have htrees := Node.nest_of_sql (.update u) hnames hfallback h
  obtain ⟨hsome, t, rest, htables, -⟩ := Update.render_sets h
  obtain ⟨tables, joins, filters, assignments⟩ := u
  cases htables
  have hlead : Lacks "SET" (words ["UPDATE"] ++ t.trees d fallback ++
      clauseTrees [] [] (joins.map (Join.trees d fallback))) := by
    rw [clauseTrees_nil]
    refine ((lacks_words (by decide)).append t.lacks_set).append fun u hu => ?_
    obtain ⟨ts, hts, hu⟩ := List.mem_flatten.mp hu
    obtain ⟨j, -, rfl⟩ := List.mem_map.mp hts
    exact j.lacks_set u hu
  have hwhere : (whereTrees d filters).takeWhile (fun t => !isWord "WHERE" t) = [] := by
    cases filters with
    | nil => rfl
    | cons c more => exact List.takeWhile_cons_of_neg (by simp [isWord])
  have hpairs : assignments.entries.map (assignmentSides d) ≠ [] := by simpa using hsome
  have hplain : ∀ p ∈ assignments.entries.map (assignmentSides d), ∀ t ∈ p.1 ++ p.2, isPlainSide t := by
    intro p hp
    obtain ⟨entry, -, rfl⟩ := List.mem_map.mp hp
    exact isPlainSide_assignment entry
  have hphrases : (assignments.entries.map (assignmentSides d)).map pairPhrase =
      assignments.entries.map (assignmentTrees d) := by
    rw [List.map_map]
    rfl
  have hread := assignments?_set hlead hpairs hplain hwhere
  rw [hphrases] at hread
  rw [Dialect.assignments?, htrees, Option.bind_some, Node.trees, Update.trees]
  simp only [List.append_assoc] at hread ⊢
  exact hread

/-! ## In a session -/

/-- The text that a session gives for an update has the pairs of the update in its SET clause, in their order. In a
dialect whose rules of reading are known, and with no expressions for names, these are read from the text. -/
structure Update.SetsIn (s : Session) (f : Flavor) (u : Update) (sql : String) : Prop where
  text : ∃ fallback t rest, u.tables = t :: rest ∧
    sql = "UPDATE " ++ t.render f fallback ++ joinClauses f fallback u.joins ++ " SET " ++
      ", ".intercalate (u.assignments.entries.map fun e => f.escapeName e.1 ++ " = " ++ f.literal e.2) ++
      whereClause f u.filters
  read : ∀ c, s.Settles c → Settings.isPlainAlias c.subqueryAlias = true → ∀ d : Dialect, f = d.flavor →
    (∀ name ∈ (Node.update u).names, d.IsPlain name) →
    d.assignments? sql = some (u.assignments.entries.map fun e => (nameTrees e.1, [literalTree d e.2]))

theorem Update.toSql_setsIn {s : Session} {f : Flavor} {u : Update} {sql : String}
    (h : (Action.toSql (.update u) (.flavor f)).outcome s = .ok sql) : u.SetsIn s f sql where
  text := by
    obtain ⟨fallback, hrender⟩ := Action.render_of_toSql h
    obtain ⟨-, t, rest, htables, hsql⟩ := Update.render_sets (Node.sql_of_render hrender)
    exact ⟨fallback, t, rest, htables, hsql⟩
  read c hs hplain d hd hnames := by
    subst hd
    rw [Action.toSql_settled hs] at h
    exact Update.readAssignments hplain hnames (Node.sql_of_render h)

/-- An update of some table with something to set is written, where there are settings, unless an integer of it
has too many digits. -/
theorem Update.toSql_succeeds {s : Session} {c : Settings} (hs : s.Settles c) {u : Update} (htables : u.tables ≠ [])
    (hsome : u.assignments.entries ≠ []) (f : Flavor) :
    (¬ (Node.update u).WritesLong ∧ ∃ sql, (Action.toSql (.update u) (.flavor f)).outcome s = .ok sql) ∨
      (Node.update u).WritesLong ∧
        (Action.toSql (.update u) (.flavor f)).outcome s = .error (.misuse .wrongValue) := by
  obtain ⟨t, rest, htables⟩ := List.exists_cons_of_ne_nil htables
  obtain ⟨sql, hsql⟩ := Update.render_ok f c.subqueryAlias htables hsome
  rw [Action.toSql_settled hs]
  by_cases hlong : (Node.update u).WritesLong
  · exact .inr ⟨hlong, Node.render_of_writesLong hsql hlong⟩
  · exact .inl ⟨hlong, sql, Node.render_eq_ok_iff.mpr ⟨hsql, hlong⟩⟩

end SqlAst
