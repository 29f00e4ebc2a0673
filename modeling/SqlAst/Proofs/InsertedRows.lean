import Mathlib.Data.List.Forall2
import Mathlib.Data.List.Induction
import SqlAst.Proofs.Reading
import SqlAst.Proofs.ScopeReader
import SqlAst.Proofs.TableReferences
import SqlAst.Proofs.TokenStream

/-!
# Rows of an insert

An insert of rows names its columns once, and writes each row as a tuple with a value for each of them. The rows
need not have the same columns: what a row lacks is NULL. Without a column list of its own the statement takes the
columns of its rows, each where it is first seen, and then no value of a row is lost.

* `firstSeen_eraseDups`: the columns of the rows, in the order in which they are first seen.
* `Row.isCell_iff`: what a row has in a column.
* `Insert.matrix`: the tuples of an insert.
* `Insert.readMatrix`: what is read of its text.
* `Insert.toSql_matrix`: the same of the traced call.
-/
namespace SqlAst

open Sql

/-! ## Items in the order in which they are first seen -/

section

variable {α : Type} [BEq α]

/-- The items of a list, those before the others that are seen before them. -/
structure FirstSeen (once all : List α) : Prop where
  mem_iff : ∀ x, x ∈ once ↔ x ∈ all
  ordered : once.Pairwise fun x y => all.idxOf x < all.idxOf y

theorem FirstSeen.nodup {once all : List α} (h : FirstSeen once all) : once.Nodup := by
  refine h.ordered.imp ?_
  rintro x _ hlt rfl
  exact Nat.lt_irrefl _ hlt

/-- The order leaves no choice. -/
theorem FirstSeen.eq {once other all : List α} (h : FirstSeen once all) (h' : FirstSeen other all) : once = other := by
  have hperm : once.Perm other := (List.perm_ext_iff_of_nodup h.nodup h'.nodup).mpr fun x => by
    rw [h.mem_iff, h'.mem_iff]
  refine hperm.eq_of_pairwise ?_ h.ordered h'.ordered
  intro x y _ _ hxy hyx
  exact absurd (Nat.lt_trans hxy hyx) (Nat.lt_irrefl _)

variable [LawfulBEq α]

/-- A further item comes last, unless it has been seen. -/
theorem FirstSeen.concat {once all : List α} (h : FirstSeen once all) (x : α) :
    FirstSeen (if all.contains x then once else once ++ [x]) (all ++ [x]) := by
  have hordered : once.Pairwise fun y z => (all ++ [x]).idxOf y < (all ++ [x]).idxOf z := by
    refine h.ordered.imp_of_mem ?_
    intro y z hy hz hlt
    rwa [List.idxOf_append_of_mem ((h.mem_iff y).mp hy), List.idxOf_append_of_mem ((h.mem_iff z).mp hz)]
  cases hx : all.contains x with
  | true =>
    have hmem : x ∈ all := List.contains_iff_mem.mp hx
    refine ⟨fun y => ?_, by simpa using hordered⟩
    simp only [↓reduceIte, List.mem_append, List.mem_singleton, h.mem_iff]
    exact ⟨.inl, fun hy => hy.elim id fun hy => hy ▸ hmem⟩
  | false =>
    have hnew : x ∉ all := by simpa using hx
    refine ⟨fun y => by simp [h.mem_iff], ?_⟩
    simp only [Bool.false_eq_true, ↓reduceIte, List.pairwise_append]
    refine ⟨hordered, List.pairwise_singleton _ _, ?_⟩
    intro y hy z hz
    have hseen : all.idxOf y < all.length := List.idxOf_lt_length_iff.mpr ((h.mem_iff y).mp hy)
    rw [List.mem_singleton.mp hz, List.idxOf_append_of_mem ((h.mem_iff y).mp hy),
      List.idxOf_append_of_notMem hnew]
    omega

theorem eraseDups_concat (all : List α) (x : α) :
    (all ++ [x]).eraseDups = if all.contains x then all.eraseDups else all.eraseDups ++ [x] := by
  rw [List.eraseDups_append, List.removeAll, List.filter_singleton]
  by_cases hx : x ∈ all
  · simp [hx]
  · simp [hx, List.eraseDups_cons]

theorem firstSeen_eraseDups (all : List α) : FirstSeen all.eraseDups all := by
  induction all using List.reverseRecOn with
  | nil => exact ⟨by simp, .nil⟩
  | append_singleton all x ih =>
    rw [eraseDups_concat]
    exact ih.concat x

/-- What follows is treated alike where the same has been seen before it. -/
theorem eraseDups_append_congr {all other : List α} (h : all.eraseDups = other.eraseDups) (more : List α) :
    (all ++ more).eraseDups = (other ++ more).eraseDups := by
  have hmem (x : α) : x ∈ all ↔ x ∈ other := by rw [← List.mem_eraseDups, h, List.mem_eraseDups]
  induction more using List.reverseRecOn with
  | nil => rwa [List.append_nil, List.append_nil]
  | append_singleton more x ih =>
    have hcontains : (all ++ more).contains x = (other ++ more).contains x := by
      simp only [List.contains_eq_mem, List.mem_append, hmem]
    rw [← List.append_assoc, ← List.append_assoc, eraseDups_concat, eraseDups_concat, hcontains, ih]

/-- A part can be rid of its repeats before the whole is. -/
theorem eraseDups_append_eraseDups (all more : List α) :
    (all ++ more.eraseDups).eraseDups = (all ++ more).eraseDups := by
  induction more using List.reverseRecOn with
  | nil => rfl
  | append_singleton more x ih =>
    have hcontains : (all ++ more.eraseDups).contains x = (all ++ more).contains x := by
      simp only [List.contains_eq_mem, List.mem_append, List.mem_eraseDups]
    rw [eraseDups_concat, ← List.append_assoc, eraseDups_concat]
    cases hx : more.contains x with
    | true =>
      have hseen : (all ++ more).contains x = true := by simp [List.contains_iff_mem.mp hx]
      rw [if_pos rfl, if_pos hseen, ih]
    | false => rw [if_neg Bool.false_ne_true, ← List.append_assoc, eraseDups_concat, hcontains, ih]

end

/-! ## Cells -/

/-- What a row says in a column: the literal of its value there, or NULL. -/
inductive IsCell (f : Flavor) (row : Row) (column : String) : String → Prop
  | given {v : Scalar} (h : (column, v) ∈ row.entries) : IsCell f row column (f.literal v)
  | lacking (h : column ∉ row.columns) : IsCell f row column "NULL"

namespace Row

variable {row : Row} {column : String}

theorem lookup_eq_some_iff {v : Scalar} : row.entries.lookup column = some v ↔ (column, v) ∈ row.entries := by
  constructor
  · intro h
    obtain ⟨before, after, hsplit, -⟩ := List.lookup_eq_some_iff.mp h
    rw [hsplit]
    exact List.mem_append_right _ List.mem_cons_self
  · intro h
    obtain ⟨before, after, hsplit⟩ := List.append_of_mem h
    have hdistinct := row.distinct
    rw [hsplit, Entries.keys, List.map_append, List.map_cons, List.nodup_append] at hdistinct
    refine List.lookup_eq_some_iff.mpr ⟨before, after, hsplit, fun e he => bne_iff_ne.mpr ?_⟩
    exact (hdistinct.2.2 e.1 (List.mem_map_of_mem he) column List.mem_cons_self).symm

theorem value_of_mem {v : Scalar} (h : (column, v) ∈ row.entries) : row.value column = v := by
  rw [value, lookup_eq_some_iff.mpr h, Option.getD_some]

theorem value_of_notMem (h : column ∉ row.columns) : row.value column = .null := by
  have hnone : row.entries.lookup column = none := by
    cases hlookup : row.entries.lookup column with
    | none => rfl
    | some v => exact absurd (List.mem_map_of_mem (lookup_eq_some_iff.mp hlookup)) h
  rw [value, hnone, Option.getD_none]

/-- A row has one cell in each column. -/
theorem isCell_iff {f : Flavor} {text : String} : IsCell f row column text ↔ text = f.literal (row.value column) := by
  constructor
  · rintro (hgiven | hlacking)
    · rw [value_of_mem hgiven]
    · rw [value_of_notMem hlacking]
      rfl
  · rintro rfl
    by_cases h : column ∈ row.columns
    · obtain ⟨e, he, rfl⟩ := List.mem_map.mp h
      rw [value_of_mem he]
      exact .given he
    · rw [value_of_notMem h]
      exact .lacking h

/-- In columns without repeats, with all of a row's among them, the values of the row are its entries, each once. -/
theorem cells_perm (f : Flavor) {columns : List String} (hnodup : columns.Nodup) (hall : row.columns ⊆ columns) :
    ((columns.zip (columns.map fun c => f.literal (row.value c))).filter (·.1 ∈ row.columns)).Perm
      (row.entries.map fun e => (e.1, f.literal e.2)) := by
  have hentries : (row.entries.map fun e => (e.1, f.literal e.2)) =
      row.columns.map fun c => (c, f.literal (row.value c)) := by
    rw [Row.columns, Entries.keys, List.map_map]
    refine List.map_congr_left fun e he => ?_
    rw [Function.comp_apply, value_of_mem he]
  have hown : (columns.filter (· ∈ row.columns)).Perm row.columns := by
    refine (List.perm_ext_iff_of_nodup (hnodup.filter _) row.distinct).mpr fun c => ?_
    rw [List.mem_filter, decide_eq_true_iff]
    exact ⟨And.right, fun hc => ⟨hall hc, hc⟩⟩
  rw [hentries, ← List.map_prod_left_eq_zip, List.filter_map]
  exact hown.map _

end Row

/-! ## The tuples of an insert -/

namespace Insert

/-- The tuples that an insert has to write for its rows: one for each, in their order, with a cell for each column.
A column list that is given is kept. Otherwise the columns are those of the rows in the order in which they are
first seen, and each row's entries are in its tuple, each once. -/
structure Matrix (f : Flavor) (i : Insert) (tuples : List (List String)) : Prop where
  cells : List.Forall₂ (fun row tuple => List.Forall₂ (IsCell f row) i.columns tuple) i.rows tuples
  explicit : i.columnNames.getD [] ≠ [] → i.columns = i.columnNames.getD []
  collected : i.columnNames.getD [] = [] → FirstSeen i.columns (i.rows.flatMap Row.columns)
  complete : i.columnNames.getD [] = [] →
    List.Forall₂ (fun row tuple => ((i.columns.zip tuple).filter (·.1 ∈ row.columns)).Perm
      (row.entries.map fun e => (e.1, f.literal e.2))) i.rows tuples

/-- The literals of a row in the columns of an insert. -/
def tuple (f : Flavor) (i : Insert) (row : Row) : List String := i.columns.map fun c => f.literal (row.value c)

variable (f : Flavor) (i : Insert)

theorem columns_of_explicit (h : i.columnNames.getD [] ≠ []) : i.columns = i.columnNames.getD [] := by
  obtain ⟨table, columnNames, rows, source⟩ := i
  cases columnNames with
  | none => exact absurd rfl h
  | some names =>
    cases names with
    | nil => exact absurd rfl h
    | cons c cs => rfl

theorem firstSeen_columns (h : i.columnNames.getD [] = []) : FirstSeen i.columns (i.rows.flatMap Row.columns) := by
  obtain ⟨table, columnNames, rows, source⟩ := i
  cases columnNames with
  | none => exact firstSeen_eraseDups _
  | some names =>
    cases names with
    | nil => exact firstSeen_eraseDups _
    | cons c cs => cases h

theorem matrix : i.Matrix f (i.rows.map (i.tuple f)) where
  cells := by
    rw [List.forall₂_map_right_iff, List.forall₂_same]
    intro row _
    rw [tuple, List.forall₂_map_right_iff, List.forall₂_same]
    intro c _
    exact Row.isCell_iff.mpr rfl
  explicit := i.columns_of_explicit
  collected := i.firstSeen_columns
  complete h := by
    have hseen := i.firstSeen_columns h
    rw [List.forall₂_map_right_iff, List.forall₂_same]
    intro row hrow
    refine Row.cells_perm f hseen.nodup fun c hc => ?_
    exact (hseen.mem_iff c).mpr (List.mem_flatMap.mpr ⟨row, hrow, hc⟩)

variable {f i}

/-- An insert of rows is written with its columns and its tuples, in their order, and there are some of both. -/
theorem render_matrix {fallback sql : String} (hsource : i.source = none) (h : i.render f fallback = .ok sql) :
    i.rows ≠ [] ∧ i.columns ≠ [] ∧
      sql = "INSERT INTO " ++ f.escapeName i.table ++ " " ++
        parenthesised (", ".intercalate (i.columns.map f.escapeName)) ++ " VALUES " ++
        ", ".intercalate ((i.rows.map (i.tuple f)).map fun t => parenthesised (", ".intercalate t)) := by
  have hrows : (i.rows.map (i.tuple f)).map (fun t => parenthesised (", ".intercalate t)) =
      i.rows.map (valueList f i.columns) := by
    rw [List.map_map]
    refine List.map_congr_left fun row _ => ?_
    rw [Function.comp_apply, valueList, Flavor.literals, tuple, List.map_map]
    rfl
  unfold render at h
  rw [hsource] at h
  dsimp only at h
  split at h
  · cases h
  · rename_i hsome
    cases h
    obtain ⟨hne, hcolumns⟩ := not_or.mp hsome
    refine ⟨hne, hcolumns, ?_⟩
    rw [hrows, columnList]
    simp only [String.append_assoc]

/-- There are no nested statements in an insert of rows, so the fallback makes no difference. -/
theorem render_fallback (hsource : i.source = none) (fallback other : String) :
    i.render f fallback = i.render f other := by
  unfold render
  rw [hsource]

end Insert

/-! ## Reading tuples -/

namespace Sql

def isComma : Tree → Bool
  | .leaf (.mark ',') => true
  | _ => false

def isGroup : Tree → Bool
  | .leaf _ => false
  | .group _ => true

/-- The phrases between commas in a group that stands alone. -/
def tuple? : List Tree → Option (List (List Tree))
  | [.group inner] => some (inner.splitOnP isComma)
  | _ => none

/-- The column list and the tuples of an insert: what is in its first group, and in the groups behind VALUES. -/
def matrix? (statement : List Tree) : Option (List (List Tree) × List (List (List Tree))) :=
  match statement.dropWhile fun t => !isGroup t with
  | .group columns :: .leaf (.word word) :: tuples =>
    if word = "VALUES".toList then
      ((tuples.splitOnP isComma).mapM tuple?).map fun tuples => (columns.splitOnP isComma, tuples)
    else none
  | _ => none

/-- The column list and the tuples of an insert in a text, if its parentheses balance. -/
def Dialect.matrix? (d : Dialect) (sql : String) : Option (List (List Tree) × List (List (List Tree))) :=
  (nest (d.tokens sql)).bind Sql.matrix?

/-- Phrases without commas are found again where they are listed. -/
theorem splitOnP_listed {phrases : List (List Tree)} (hne : phrases ≠ [])
    (h : ∀ ts ∈ phrases, ∀ t ∈ ts, isComma t = false) : (listed phrases).splitOnP isComma = phrases := by
  induction phrases with
  | nil => exact absurd rfl hne
  | cons ts rest ih =>
    have hts := h ts List.mem_cons_self
    cases rest with
    | nil =>
      rw [listed, List.intercalate_singleton]
      exact List.splitOnP_eq_singleton hts
    | cons us more =>
      have hrest := ih (List.cons_ne_nil _ _) fun vs hvs => h vs (List.mem_cons_of_mem _ hvs)
      rw [listed, List.intercalate_cons_cons, List.append_assoc, comma, List.singleton_append,
        List.splitOnP_append_cons_of_forall_mem hts _ rfl]
      exact congrArg _ hrest

theorem matrix?_insert {lead : List Tree} {columns : List (List Tree)} {rows : List (List (List Tree))}
    (hlead : ∀ t ∈ lead, isGroup t = false) (hcolumns : columns ≠ []) (hrows : rows ≠ [])
    (hnames : ∀ ts ∈ columns, ∀ t ∈ ts, isComma t = false)
    (hcells : ∀ row ∈ rows, row ≠ [] ∧ ∀ ts ∈ row, ∀ t ∈ ts, isComma t = false) :
    matrix? (lead ++ (.group (listed columns) :: words ["VALUES"] ++
      listed (rows.map fun row => [.group (listed row)]))) = some (columns, rows) := by
  have hdrop : (lead ++ (.group (listed columns) :: words ["VALUES"] ++
      listed (rows.map fun row => [.group (listed row)]))).dropWhile (fun t => !isGroup t) =
      .group (listed columns) :: .leaf (.word "VALUES".toList) ::
        listed (rows.map fun row => [.group (listed row)]) := by
    rw [List.dropWhile_append_of_pos fun t ht => by rw [hlead t ht]; rfl]
    rfl
  have hgroups : (listed (rows.map fun row => [.group (listed row)])).splitOnP isComma =
      rows.map fun row => [.group (listed row)] := by
    refine splitOnP_listed (by simpa using hrows) fun ts hts => ?_
    obtain ⟨row, -, rfl⟩ := List.mem_map.mp hts
    simp [isComma]
  have htuples : (rows.map fun row => [Tree.group (listed row)]).mapM tuple? = some (rows.map id) := by
    rw [List.mapM_map]
    refine mapM_eq_some fun row hrow => ?_
    obtain ⟨hne, hrow⟩ := hcells row hrow
    rw [Function.comp_apply, tuple?, splitOnP_listed hne hrow, id_eq]
  rw [matrix?, hdrop]
  simp only [↓reduceIte]
  rw [hgroups, htuples, List.map_id, Option.map_some, splitOnP_listed hcolumns hnames]

end Sql

variable {d : Dialect}

/-- In the text of an insert its columns are read and, for each row, as many literals. -/
theorem Insert.readMatrix {i : Insert} {fallback sql : String} (hsource : i.source = none)
    (hfallback : Settings.isPlainAlias fallback = true) (hnames : ∀ name ∈ (Node.insert i).names, d.IsPlain name)
    (h : i.render d.flavor fallback = .ok sql) :
    d.matrix? sql =
      some (i.columns.map nameTrees, i.rows.map fun row => i.columns.map fun c => [literalTree d (row.value c)]) := by
  have htrees := Node.nest_of_sql (.insert i) hnames hfallback h
  obtain ⟨hrows, hcolumns, -⟩ := Insert.render_matrix hsource h
  have hlead : ∀ t ∈ words ["INSERT", "INTO"] ++ nameTrees i.table, isGroup t = false := by
    intro t ht
    rcases List.mem_append.mp ht with ht | ht
    · obtain ⟨w, -, rfl⟩ := List.mem_map.mp ht
      rfl
    · exact of_mem_nameTrees (P := fun t => isGroup t = false) rfl rfl (fun _ => rfl) i.table t ht
  have hrow (row : Row) : literalTrees d (i.columns.map row.value) =
      listed (i.columns.map fun c => [literalTree d (row.value c)]) := by
    rw [literalTrees, List.map_map]
    rfl
  have hnocomma : ∀ ts ∈ i.columns.map nameTrees, ∀ t ∈ ts, isComma t = false := by
    intro ts hts t ht
    obtain ⟨c, -, rfl⟩ := List.mem_map.mp hts
    exact of_mem_nameTrees (P := fun t => isComma t = false) rfl rfl (fun _ => rfl) c t ht
  have hcells : ∀ row ∈ i.rows.map fun row => i.columns.map fun c => [literalTree d (row.value c)],
      row ≠ [] ∧ ∀ ts ∈ row, ∀ t ∈ ts, isComma t = false := by
    intro row hrow
    obtain ⟨row, -, rfl⟩ := List.mem_map.mp hrow
    refine ⟨by simpa using hcolumns, fun ts hts t ht => ?_⟩
    obtain ⟨c, -, rfl⟩ := List.mem_map.mp hts
    rw [List.mem_singleton.mp ht, literalTree]
    cases row.value c <;> rfl
  have hread := matrix?_insert hlead (by simpa using hcolumns) (by simpa using hrows) hnocomma hcells
  rw [Dialect.matrix?, htrees, Option.bind_some, Node.trees, Insert.trees, hsource]
  simp only [hrow, columnTree]
  rw [List.map_map] at hread
  exact hread

/-! ## In a session -/

/-- Whatever the session, the text of an insert of rows names its columns and has a tuple for each row, in their
order. In a dialect whose rules of reading are known, and with no expressions for names, the columns and as many
literals for each row are read from the text. -/
theorem Insert.toSql_matrix {s : Session} {i : Insert} {f : Flavor} {sql : String} (hsource : i.source = none)
    (h : (Action.toSql (.insert i) (.flavor f)).outcome s = .ok sql) :
    ∃ tuples, i.Matrix f tuples ∧
      sql = "INSERT INTO " ++ f.escapeName i.table ++ " " ++
        parenthesised (", ".intercalate (i.columns.map f.escapeName)) ++ " VALUES " ++
        ", ".intercalate (tuples.map fun t => parenthesised (", ".intercalate t)) ∧
      ∀ d : Dialect, f = d.flavor → (∀ name ∈ (Node.insert i).names, d.IsPlain name) →
        d.matrix? sql = some (i.columns.map nameTrees,
          i.rows.map fun row => i.columns.map fun c => [literalTree d (row.value c)]) := by
  obtain ⟨fallback, hrender⟩ := Action.render_of_toSql h
  replace hrender : i.render f fallback = .ok sql := Node.sql_of_render hrender
  refine ⟨i.rows.map (i.tuple f), i.matrix f, (Insert.render_matrix hsource hrender).2.2, ?_⟩
  rintro d rfl hnames
  rw [Insert.render_fallback hsource fallback "t"] at hrender
  exact Insert.readMatrix hsource (by decide) hnames hrender

/-- An insert of rows with different columns, in different orders. -/
def unevenInsert : Insert :=
  { table := "p"
    rows := [.ofEntries [("b", .int 1), ("a", .text "x")], .ofEntries [], .ofEntries [("c", .null), ("b", .int 2)]] }

/-- Its columns are those of the first row and then the new one of the last; what a row lacks is NULL. -/
theorem unevenInsert_matrix :
    let sql := "INSERT INTO \x60p\x60 (\x60b\x60, \x60a\x60, \x60c\x60) VALUES " ++
      "(1, 'x', NULL), (NULL, NULL, NULL), (2, NULL, NULL)"
    unevenInsert.source = none ∧ (Action.toSql (.insert unevenInsert) (.flavor .mysql)).outcome {} = .ok sql ∧
      (∃ tuples, unevenInsert.Matrix .mysql tuples) ∧
      Dialect.mysql.matrix? sql = some (["b", "a", "c"].map nameTrees,
        [[.int 1, .text "x", .null], [.null, .null, .null], [.int 2, .null, .null]].map
          (List.map fun v => [literalTree .mysql v])) := by
  intro sql
  have hsource : unevenInsert.source = none := rfl
  have hsql : (Action.toSql (.insert unevenInsert) (.flavor .mysql)).outcome {} = .ok sql := rfl
  obtain ⟨tuples, hmatrix, -, hread⟩ := Insert.toSql_matrix hsource hsql
  refine ⟨hsource, hsql, ⟨tuples, hmatrix⟩, ?_⟩
  have hcolumns : unevenInsert.columns = ["b", "a", "c"] := by decide
  rw [hread .mysql rfl (by decide), hcolumns]
  rfl

end SqlAst
