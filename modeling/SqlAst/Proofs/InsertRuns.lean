import Mathlib.Data.List.Induction
import SqlAst.Build.Mutation
import SqlAst.Proofs.Histories

/-!
# Runs of calls on an insert

An insert takes its rows from literals or from a statement, and each call that sets the one drops the other. What
the calls bring, `Insert.Change`, depends on their arguments alone. So a run of calls comes down to the history of
what they brought, and where it ends is told from the last of these: `Insert.Leaves`.

* `Insert.Call.perform_eq_rebuild`: a call is a replacement with all fields checked anew.
* `Insert.Call.toOption_perform`: what a call does.
* `Insert.Leaves.concat`: what one more change makes of what a history leaves.
* `Insert.Run.perform_eq_ok_iff`: a run is accepted call by call.
* `Insert.Run.leaves`: what a run from a new insert leaves.
-/
namespace SqlAst

open Select (accepted?)

namespace Insert

/-! ## Calls -/

/-- The builder calls of an insert, each with its arguments. -/
inductive Call where
  | setRows (rows : Datum)
  | addRows (rows : List Datum)
  | setColumns (names : Datum)
  | setSource (query : Datum)

namespace Call

/-- Makes a call. -/
def perform (c : Call) (i : Insert) : Outcome Insert :=
  match c with
  | setRows rows => i.setRows rows
  | addRows rows => i.addRows rows
  | setColumns names => i.setColumns names
  | setSource query => i.setSource query

/-- The items that an argument for columns stands for. -/
def columnItems (names : Datum) : Outcome (List Datum) :=
  if names.asText?.isSome then pure [names] else Build.sequence names

/-- The data of rows behind old ones; a statement as source is dropped. -/
def rowsData (old : List Row) (rows : List Datum) : Outcome (List (String × Datum)) := do
  let rows ← rows.mapM Build.dictionary
  pure [("rows", .tuple (old.map Row.toDatum ++ rows.map .dict)), ("source_query", .null)]

/-- The new data of fields that a call makes from its arguments and the old fields. -/
def replacements (c : Call) (i : Insert) : Outcome (List (String × Datum)) :=
  match c with
  | setRows rows => do rowsData [] (← Build.sequence rows)
  | addRows rows => rowsData i.rows rows
  | setColumns names => do
    let items ← columnItems names
    pure [("column_names", if items = [] then .null else .tuple items)]
  | setSource query =>
    match query with
    | .node _ => pure [("source_query", query), ("rows", .tuple [])]
    | _ => Outcome.misuse .noAttribute

end Call

/-- Replaces the data of fields and checks all fields of the new statement. -/
def rebuilt (i : Insert) (replaced : List (String × Datum)) : Outcome Insert :=
  let es := Build.named (Entries.merge (Node.insert i).fields replaced)
  (Fields.insert none es (checkParts .data es)).orInvalid title

/-- Makes a call by checking all fields of the new statement. -/
def Call.rebuild (c : Call) (i : Insert) : Outcome Insert := do i.rebuilt (← c.replacements i)

/-! ### Checking anew -/

/-- The check of a source. -/
def checkSource : Datum → Checked (Option Select)
  | .null => .ok none
  | d => (checkPart .data .select d).map some

/-- The fields of an insert with the given data. -/
def record (table columns rows source : Datum) : Fields :=
  Build.named [("type", .text title), ("table_name", table), ("column_names", columns), ("rows", rows),
    ("source_query", source)]

theorem insert_record (table columns rows source : Datum) :
    Fields.insert none (record table columns rows source) (checkParts .data _) =
      (fun _ table columns rows source => ⟨table, columns, rows, source⟩)
        <$> Checked.ok ()
        <*> (Checked.text table).under (.key FieldName.insertTable.name)
        <*> (Checked.nullable (fun d => Checked.items d fun a _ => Checked.text a) columns).under
          (.key FieldName.columns.name)
        <*> (Checked.items rows fun a _ => Checked.row a).under (.key FieldName.rows.name)
        <*> (checkSource source).under (.key FieldName.insertSource.name) := by
  have htag : (record table columns rows source).tag NodeKind.insert.tag = .ok () := Fields.tag_given rfl
  rw [Fields.insert, htag]
  cases source <;> rfl

/-! ### What an insert has passes its checks -/

theorem ofJson_row (r : Row) : Datum.ofJson r.toJson = r.toDatum := by
  have hscalar (v : Scalar) : Datum.ofJson v.toJson = .ofScalar v := by cases v <;> rfl
  have hentries (es : List (String × Scalar)) :
      Datum.ofJsonEntries (es.map fun e => (e.1, e.2.toJson)) = es.map fun e => (.text e.1, .ofScalar e.2) := by
    induction es with
    | nil => rfl
    | cons e rest ih => rw [List.map_cons, Datum.ofJsonEntries, ih, hscalar, List.map_cons]
  exact congrArg Datum.dict (hentries r.entries)

theorem check_rowDatum (r : Row) : Checked.row r.toDatum = .ok r := by
  rw [← ofJson_row]
  exact r.check_stored

variable (i : Insert)

theorem check_rows : (Checked.items (.tuple (i.rows.map Row.toDatum)) fun a _ => Checked.row a) = .ok i.rows :=
  Select.Clause.items_tuple i.rows check_rowDatum

theorem check_columnNames :
    Checked.nullable (fun d => Checked.items d fun a _ => Checked.text a)
      (.ofOption (i.columnNames.map Datum.texts)) = .ok i.columnNames := by
  cases i.columnNames with
  | none => rfl
  | some names =>
    have hitems : (Checked.items (Datum.texts names) fun a _ => Checked.text a) = .ok names :=
      Select.Clause.items_tuple names fun _ => rfl
    show Checked.map some (Checked.items (Datum.texts names) fun a _ => Checked.text a) = .ok (some names)
    rw [hitems]
    rfl

theorem check_source : checkSource (.ofOption (i.source.map fun q => .node (.select q))) = .ok i.source := by
  cases i.source with
  | none => rfl
  | some q =>
    show Checked.map some (checkPart .data .select (.node (.select q))) = .ok (some q)
    rw [checkPart]
    rfl

theorem rebuilt_rows (rows : Datum) :
    i.rebuilt [("rows", rows), ("source_query", .null)] =
      (Checked.map (fun rows => { i with rows, source := none })
        ((Checked.items rows fun a _ => Checked.row a).under (.key FieldName.rows.name))).orInvalid title := by
  show (Fields.insert none (record (.text i.table) _ rows .null) (checkParts .data _)).orInvalid title = _
  rw [insert_record, check_columnNames]
  cases Checked.items rows fun a _ => Checked.row a <;> rfl

theorem rebuilt_columns (columns : Datum) :
    i.rebuilt [("column_names", columns)] =
      (Checked.map (fun columnNames => { i with columnNames })
        ((Checked.nullable (fun d => Checked.items d fun a _ => Checked.text a) columns).under
          (.key FieldName.columns.name))).orInvalid title := by
  show (Fields.insert none (record (.text i.table) columns _ _) (checkParts .data _)).orInvalid title = _
  rw [insert_record, check_rows, check_source]
  cases Checked.nullable (fun d => Checked.items d fun a _ => Checked.text a) columns <;> rfl

theorem rebuilt_source (source : Datum) :
    i.rebuilt [("source_query", source), ("rows", .tuple [])] =
      (Checked.map (fun source => { i with source, rows := [] })
        ((checkSource source).under (.key FieldName.insertSource.name))).orInvalid title := by
  show (Fields.insert none (record (.text i.table) _ (.tuple []) source) (checkParts .data _)).orInvalid title = _
  rw [insert_record, check_columnNames]
  cases checkSource source <;> rfl

theorem eachFrom_eq_ok_nil {α β : Type} {check : α → Checked β} {index : Nat} {items : List α}
    (h : Checked.eachFrom check index items = .ok []) : items = [] := by
  cases items with
  | nil => rfl
  | cons a rest =>
    rw [Checked.eachFrom] at h
    cases hfirst : check a <;> cases hrest : Checked.eachFrom check (index + 1) rest <;> rw [hfirst, hrest] at h <;>
      cases h

/-- New rows behind old ones: only the new ones can be wrong, at the places they have behind the old ones. -/
theorem bind_rowsFrom (old : List Row) (rows : List Datum) :
    (do pure { i with rows := old ++ (← rowsFrom old.length rows), source := none }) =
      (do i.rebuilt (← Call.rowsData old rows)) := by
  rw [rowsFrom, Call.rowsData]
  cases rows.mapM Build.dictionary with
  | error e => rfl
  | ok rows =>
    refine Eq.trans ?_ (i.rebuilt_rows _).symm
    rw [Select.items_append check_rowDatum]
    show (do
      let checked := Checked.eachFrom Checked.row old.length (rows.map .dict)
      let new ← (checked.under (.key FieldName.rows.name)).orInvalid title
      pure { i with rows := old ++ new, source := none }) = _
    cases Checked.eachFrom Checked.row old.length (rows.map .dict) <;> rfl

theorem setColumns_eq (names : Datum) :
    i.setColumns names =
      (do
        let columns ← (Build.appended .columns 0 (← Call.columnItems names) Checked.text).orInvalid title
        pure { i with columnNames := if columns = [] then none else some columns }) := by
  unfold setColumns Call.columnItems
  split <;> rfl

theorem bind_columns (items : List Datum) :
    (do
      let columns ← (Build.appended .columns 0 items Checked.text).orInvalid title
      pure { i with columnNames := if columns = [] then none else some columns }) =
      i.rebuilt [("column_names", if items = [] then .null else .tuple items)] := by
  rw [rebuilt_columns, Build.appended]
  by_cases hitems : items = []
  · rw [hitems]
    rfl
  · have hchecked : Checked.nullable (fun d => Checked.items d fun a _ => Checked.text a) (.tuple items) =
        Checked.map some (Checked.eachFrom Checked.text 0 items) := congrArg (Checked.map some) (Checked.each_eq _ _)
    rw [if_neg hitems, hchecked]
    cases heach : Checked.eachFrom Checked.text 0 items with
    | bad issues => rfl
    | ok columns =>
      have hcolumns : columns ≠ [] := by
        rintro rfl
        exact hitems (eachFrom_eq_ok_nil heach)
      show Except.ok { i with columnNames := if columns = [] then none else some columns } = _
      rw [if_neg hcolumns]
      rfl

/-- A call is a replacement of the data of some fields with all fields checked anew. -/
theorem Call.perform_eq_rebuild (c : Call) (i : Insert) : c.perform i = c.rebuild i := by
  cases c with
  | setRows rows =>
    rw [perform, Insert.setRows, rebuild, replacements]
    cases Build.sequence rows with
    | error e => rfl
    | ok items => exact i.bind_rowsFrom [] items
  | addRows rows => exact i.bind_rowsFrom i.rows rows
  | setColumns names =>
    refine (i.setColumns_eq names).trans ?_
    rw [rebuild, replacements]
    cases columnItems names with
    | error e => rfl
    | ok items => exact i.bind_columns items
  | setSource query =>
    cases query with
    | node n =>
      refine Eq.trans ?_ (i.rebuilt_source (.node n)).symm
      show (do
        let q ← ((checkPart .data .select (.node n)).under (.key FieldName.insertSource.name)).orInvalid title
        pure { i with source := some q, rows := [] }) = _
      have hsource : checkSource (.node n) = Checked.map some (checkPart .data .select (.node n)) := rfl
      rw [hsource]
      cases checkPart .data .select (.node n) <;> rfl
    | _ => rfl

/-! ## What calls bring -/

/-- What a call brings to a statement. -/
inductive Change where
  | rows (rows : List Row)
  | more (rows : List Row)
  | columns (names : List String)
  | source (query : Select)

namespace Change

def apply (i : Insert) : Change → Insert
  | .rows new => { i with rows := new, source := none }
  | .more new => { i with rows := i.rows ++ new, source := none }
  | .columns names => { i with columnNames := if names = [] then none else some names }
  | .source query => { i with source := some query, rows := [] }

/-- Whether it is about the rows or where they come from, and not about the columns. -/
def isData : Change → Bool
  | columns _ => false
  | _ => true

/-- The rows that take the place of those there are. -/
def fresh? : Change → Option (List Row)
  | .rows new => some new
  | .source _ => some []
  | _ => none

/-- The rows that come behind those there are. -/
def added : Change → List Row
  | .more new => new
  | _ => []

end Change

/-- The rows that dictionaries stand for, if all of them are rows. -/
def rowsOf? (rows : List Datum) : Option (List Row) :=
  (rows.mapM Build.dictionary).toOption.bind (List.mapM fun entries => accepted? (Checked.row (.dict entries)))

/-- The statement that an argument for the source is. -/
def select? : Datum → Option Select
  | .node (.select q) => some q
  | _ => none

namespace Call

/-- What a call brings, if its arguments are accepted. -/
def change? : Call → Option Change
  | setRows rows => (rows.items?.bind rowsOf?).map .rows
  | addRows rows => (rowsOf? rows).map .more
  | setColumns names => ((columnItems names).toOption.bind (List.mapM Datum.asText?)).map .columns
  | setSource query => (select? query).map .source

def isData : Call → Bool
  | setColumns _ => false
  | _ => true

end Call

theorem toOption_sequence (d : Datum) : (Build.sequence d).toOption = d.items? := by
  rw [Build.sequence]
  cases d.items? <;> rfl

theorem toOption_rowsFrom (length : Nat) (rows : List Datum) : (rowsFrom length rows).toOption = rowsOf? rows := by
  rw [rowsFrom, toOption_bind, rowsOf?]
  congr 1
  funext entries
  rw [Build.appended, toOption_orInvalid, accepted?_under, Select.accepted?_eachFrom, List.mapM_map]
  rfl

theorem accepted?_select (n : Node) : accepted? (checkPart .data .select (.node n)) = select? (.node n) := by
  rw [checkPart]
  cases n <;> rfl

/-- A call succeeds exactly if its arguments are accepted, and makes the change they stand for. -/
theorem Call.toOption_perform (c : Call) (i : Insert) : (c.perform i).toOption = c.change?.map (Change.apply i) := by
  cases c with
  | setRows rows =>
    rw [perform, Insert.setRows, toOption_bind, toOption_sequence, change?, Option.map_map, Option.map_bind]
    congr 1
    funext items
    rw [toOption_bind, toOption_rowsFrom, Function.comp_apply]
    cases rowsOf? items <;> rfl
  | addRows rows =>
    rw [perform, Insert.addRows, toOption_bind, toOption_rowsFrom, change?]
    cases rowsOf? rows <;> rfl
  | setColumns names =>
    rw [perform, setColumns_eq, toOption_bind, change?, Option.map_map, Option.map_bind]
    congr 1
    funext items
    rw [toOption_bind, Build.appended, toOption_orInvalid, accepted?_under, Select.accepted?_texts, Function.comp_apply]
    cases items.mapM Datum.asText? <;> rfl
  | setSource query =>
    cases query with
    | node n =>
      rw [perform, Insert.setSource, toOption_bind, toOption_orInvalid, accepted?_under, accepted?_select, change?]
      cases select? (.node n) <;> rfl
    | _ => rfl

theorem tells : Tells Call.perform Call.change? Change.apply := ⟨Call.toOption_perform⟩

/-! ## What a history leaves -/

/-- A statement was set as the source, and no rows since. -/
def SourceStands (history : List Change) (q : Select) : Prop :=
  ∃ before after, history = before ++ .source q :: after ∧ ∀ later ∈ after, later.isData = false

/-- What a statement has after a history of changes. The source is that of the last change about data, if this sets
one. The rows are those of the last change that took the place of others, or none, and those that were added since.
The columns are those that were last set. -/
structure Leaves (history : List Change) (i : Insert) : Prop where
  exclusive : i.rows = [] ∨ i.source = none
  source_iff : ∀ q, i.source = some q ↔ SourceStands history q
  rows_fresh : ∀ before e after rows, history = before ++ e :: after → e.fresh? = some rows →
    (∀ later ∈ after, later.fresh? = none) → i.rows = rows ++ after.flatMap Change.added
  rows_added : (∀ e ∈ history, e.fresh? = none) → i.rows = history.flatMap Change.added
  columns_set : ∀ before names after, history = before ++ .columns names :: after →
    (∀ e ∈ after, e.isData = true) → i.columnNames = if names = [] then none else some names
  columns_unset : (∀ e ∈ history, e.isData = true) → i.columnNames = none

section

variable {i : Insert} {e : Change}

theorem Change.rows_apply_of_fresh {rows : List Row} (h : e.fresh? = some rows) : (e.apply i).rows = rows := by
  cases e with
  | rows new => exact Option.some.inj h
  | source q => exact Option.some.inj h
  | _ => cases h

theorem Change.rows_apply_of_not_fresh (h : e.fresh? = none) : (e.apply i).rows = i.rows ++ e.added := by
  cases e with
  | more new => rfl
  | columns names => exact (List.append_nil i.rows).symm
  | _ => cases h

theorem Change.columnNames_apply_of_isData (h : e.isData = true) : (e.apply i).columnNames = i.columnNames := by
  cases e with
  | columns names => cases h
  | _ => rfl

/-- The last change about data decides on the source. -/
theorem sourceStands_concat_of_isData {history : List Change} {q : Select} (h : e.isData = true) :
    SourceStands (history ++ [e]) q ↔ e = .source q := by
  constructor
  · rintro ⟨before, after, hsplit, hlater⟩
    rcases split_concat hsplit with ⟨-, heq, -⟩ | ⟨rest, rfl, -⟩
    · exact heq.symm
    · rw [hlater e (by simp)] at h
      cases h
  · rintro rfl
    exact ⟨history, [], rfl, by simp⟩

theorem sourceStands_concat_of_not_isData {history : List Change} {q : Select} (h : e.isData = false) :
    SourceStands (history ++ [e]) q ↔ SourceStands history q := by
  constructor
  · rintro ⟨before, after, hsplit, hlater⟩
    rcases split_concat hsplit with ⟨-, rfl, -⟩ | ⟨rest, rfl, hrest⟩
    · cases h
    · exact ⟨before, rest, hrest, fun later hmem => hlater later (List.mem_append_left _ hmem)⟩
  · rintro ⟨before, after, rfl, hlater⟩
    refine ⟨before, after ++ [e], by simp, fun later hmem => ?_⟩
    rcases List.mem_append.mp hmem with hmem | hmem
    · exact hlater later hmem
    · rw [List.mem_singleton.mp hmem, h]

theorem leaves_nil (table : String) : Leaves [] { table } where
  exclusive := .inl rfl
  source_iff q := by simp [SourceStands]
  rows_fresh before e after rows h := by simp at h
  rows_added _ := rfl
  columns_set before names after h := by simp at h
  columns_unset _ := rfl

/-- One more change takes the place of what it is about, or adds to it. -/
theorem Leaves.concat {history : List Change} (h : Leaves history i) (e : Change) :
    Leaves (history ++ [e]) (e.apply i) where
  -- What was the last change of its sort still is, unless the new one is of that sort (`split_concat`).
  exclusive := by
    cases e with
    | columns names => exact h.exclusive
    | source q => exact .inl rfl
    | _ => exact .inr rfl
  source_iff q := by
    cases hdata : e.isData with
    | true =>
      rw [sourceStands_concat_of_isData hdata]
      cases e with
      | columns names => cases hdata
      | source query => simp [Change.apply]
      | _ => simp [Change.apply]
    | false =>
      rw [sourceStands_concat_of_not_isData hdata, ← h.source_iff]
      cases e with
      | columns names => rfl
      | _ => cases hdata
  rows_fresh before f after rows hsplit hf hlater := by
    rcases split_concat hsplit with ⟨-, rfl, rfl⟩ | ⟨rest, rfl, hrest⟩
    · rw [Change.rows_apply_of_fresh hf, List.flatMap_nil, List.append_nil]
    · have hrows := h.rows_fresh before f rest rows hrest hf fun later hmem =>
        hlater later (List.mem_append_left _ hmem)
      rw [Change.rows_apply_of_not_fresh (hlater e (by simp)), hrows, List.flatMap_append, List.flatMap_singleton,
        List.append_assoc]
  rows_added hnone := by
    have hrows := h.rows_added fun later hmem => hnone later (List.mem_append_left _ hmem)
    rw [Change.rows_apply_of_not_fresh (hnone e (by simp)), hrows, List.flatMap_append, List.flatMap_singleton]
  columns_set before names after hsplit hlater := by
    rcases split_concat hsplit with ⟨-, rfl, -⟩ | ⟨rest, rfl, hrest⟩
    · rfl
    · rw [Change.columnNames_apply_of_isData (hlater e (by simp))]
      exact h.columns_set before names rest hrest fun later hmem => hlater later (List.mem_append_left _ hmem)
  columns_unset hdata := by
    rw [Change.columnNames_apply_of_isData (hdata e (by simp))]
    exact h.columns_unset fun later hmem => hdata later (List.mem_append_left _ hmem)

theorem leaves_foldl (table : String) (history : List Change) :
    Leaves history (history.foldl Change.apply { table }) := by
  induction history using List.reverseRecOn with
  | nil => exact leaves_nil table
  | append_singleton history e ih =>
    rw [List.foldl_append]
    exact ih.concat e

/-- Changes to the columns and other changes do not get into each other's way. -/
theorem foldl_apply_eq (i : Insert) (history : List Change) :
    history.foldl Change.apply i =
      { (history.filter Change.isData).foldl Change.apply i with
        columnNames := ((history.filter fun e => !e.isData).foldl Change.apply i).columnNames } := by
  induction history using List.reverseRecOn with
  | nil => rfl
  | append_singleton history e ih =>
    simp only [List.filter_append, List.foldl_append]
    rw [ih]
    cases e <;> rfl

end

/-! ## Runs -/

/-- Builder calls in the order in which they are made. -/
abbrev Run := List Call

namespace Run

/-- Makes the calls of a run. -/
def perform (run : Run) (i : Insert) : Outcome Insert := run.foldlM (fun i c => c.perform i) i

/-- Makes the calls of a run, with all fields checked anew each time. -/
def rebuild (run : Run) (i : Insert) : Outcome Insert := run.foldlM (fun i c => c.rebuild i) i

/-- What the calls bring. -/
def history (run : Run) : List Change := run.filterMap Call.change?

variable {i i' : Insert}

theorem perform_eq_rebuild (run : Run) (i : Insert) : run.perform i = run.rebuild i := by
  simp only [perform, rebuild, Call.perform_eq_rebuild]

/-- A run succeeds exactly if the arguments of all calls are accepted, and makes their changes in order. -/
theorem perform_eq_ok_iff (run : Run) :
    run.perform i = .ok i' ↔ (∀ c ∈ run, c.change?.isSome) ∧ i' = run.history.foldl Change.apply i :=
  tells.foldlM_eq_ok_iff run

theorem isData_of_change? {c : Call} {e : Change} (h : c.change? = some e) : c.isData = e.isData := by
  cases c <;> obtain ⟨x, -, rfl⟩ := Option.map_eq_some_iff.mp h <;> rfl

/-- A run makes of an insert what its calls about data make of it and, for the columns, the others, so it does not
matter how these are interleaved. -/
theorem perform_of_filters {run other : Run} (hdata : other.filter Call.isData = run.filter Call.isData)
    (hcolumns : (other.filter fun c => !c.isData) = run.filter fun c => !c.isData) (h : run.perform i = .ok i') :
    other.perform i = .ok i' := by
  obtain ⟨haccepted, hi'⟩ := run.perform_eq_ok_iff.mp h
  refine other.perform_eq_ok_iff.mpr ⟨fun c hc => haccepted c ?_, ?_⟩
  · -- Each call of the other run is among the calls of one sort or the other, and so in both runs.
    cases hkind : c.isData with
    | true =>
      have hmem : c ∈ other.filter Call.isData := List.mem_filter.mpr ⟨hc, hkind⟩
      rw [hdata] at hmem
      exact (List.mem_filter.mp hmem).1
    | false =>
      have hmem : c ∈ other.filter fun c => !c.isData := List.mem_filter.mpr ⟨hc, by simp [hkind]⟩
      rw [hcolumns] at hmem
      exact (List.mem_filter.mp hmem).1
  · have hkinds (run : Run) : run.history.filter Change.isData = history (run.filter Call.isData) ∧
        (run.history.filter fun e => !e.isData) = history (run.filter fun c => !c.isData) :=
      ⟨filterMap_filter (fun _ _ => isData_of_change?) run,
        filterMap_filter (fun _ _ h => congrArg (! ·) (isData_of_change? h)) run⟩
    obtain ⟨hdatas, hothers⟩ := hkinds run
    obtain ⟨hdatas', hothers'⟩ := hkinds other
    rw [hi', foldl_apply_eq i run.history, foldl_apply_eq i other.history, hdatas, hothers, hdatas', hothers', hdata,
      hcolumns]

theorem toOption_into (table : Datum) : (into table).toOption = table.asText?.map fun table => { table } := by
  cases table <;> rfl

theorem table_foldl (i : Insert) (history : List Change) : (history.foldl Change.apply i).table = i.table := by
  induction history generalizing i with
  | nil => rfl
  | cons e rest ih =>
    rw [List.foldl_cons, ih]
    cases e <;> rfl

/-- A run of calls on a new insert that succeeds is told by the history of what each call brings. This leaves rows
or a source and never both, the source if a statement was set after all rows, and else the rows that were last set
and those that were added since; the columns are those that were last set. So another run with the same calls about
data and the same calls about columns ends alike, and so does the run with all fields checked anew each time. -/
theorem perform_leaves {table : Datum} {run : Run} (h : (into table >>= run.perform) = .ok i) :
    table.asText? = some i.table ∧ run.map Call.change? = run.history.map some ∧ Leaves run.history i ∧
      (∀ other : Run, other.filter Call.isData = run.filter Call.isData →
        (other.filter fun c => !c.isData) = (run.filter fun c => !c.isData) →
        (into table >>= other.perform) = .ok i) ∧
      (into table >>= run.rebuild) = .ok i := by
  have hinto := toOption_into table
  cases hstart : into table with
  | error e =>
    rw [hstart] at h
    cases h
  | ok start =>
    rw [hstart] at h hinto
    obtain ⟨name, hname, rfl⟩ := Option.map_eq_some_iff.mp hinto.symm
    obtain ⟨haccepted, rfl⟩ := run.perform_eq_ok_iff.mp h
    refine ⟨by rw [table_foldl, hname], map_eq_map_some_iff.mpr ⟨haccepted, rfl⟩, leaves_foldl name run.history, ?_, ?_⟩
    · exact fun other hdata hcolumns => perform_of_filters hdata hcolumns h
    · exact (run.perform_eq_rebuild _).symm.trans h

/-- Rows and a statement, and then rows that are added, with two column lists. -/
def mixedRun : Run :=
  [.setRows (.list [.dict [(.text "a", .int 1)]]), .setColumns (.text "a"), .setSource (.node (.select {})),
    .addRows [.dict [(.text "a", .int 2)]], .setColumns (.list [.text "b", .text "a"]),
    .addRows [.dict [(.text "b", .int 3), (.text "a", .null)], .dict []]]

/-- The rows that were set first and the statement are gone. -/
def mixedInsert : Insert :=
  { table := "t"
    columnNames := some ["b", "a"]
    rows := [.ofEntries [("a", .int 2)], .ofEntries [("b", .int 3), ("a", .null)], .ofEntries []] }

theorem mixedRun_leaves :
    (into (.text "t") >>= mixedRun.perform) = .ok mixedInsert ∧ Leaves mixedRun.history mixedInsert := by
  have h : (into (.text "t") >>= mixedRun.perform) = .ok mixedInsert :=
    mixedRun.perform_eq_ok_iff.mpr ⟨by decide, rfl⟩
  exact ⟨h, (perform_leaves h).2.2.1⟩

end Run

end Insert

end SqlAst
