import SqlAst.Proofs.Assignments
import SqlAst.Proofs.DefaultFlavor
import SqlAst.Proofs.InsertRuns

/-!
# Runs of calls on an update

Each call on an update replaces one field with all fields checked anew. What the calls that assign bring depends
on their arguments alone: pairs of columns and literals, in the order of each dictionary. Put behind each other,
these leave each column where it was first assigned, with its last value.

* `Update.toOption_assignAll`: what a dictionary makes of the assignments.
* `Update.Call.perform_eq_rebuild`: a call is a replacement with all fields checked anew.
* `Update.Call.toOption_perform`: what a call does.
* `Update.entries_foldl`: the assignments after a history of changes.
* `Update.Run.perform_assigns`: what a run leaves, and the SET clause that it is written as.
-/
namespace SqlAst

open Select (accepted?)
open Session (beq_of_texts)

/-! ## Pairs of columns and values in dictionaries -/

/-- Only texts and members of vocabularies are equal to a text. -/
theorem beq_of_asText?_eq_none {a b : Datum} {x : String} (ha : a.asText? = some x) (hb : b.asText? = none) :
    (a == b) = false := by
  show a.same b = false
  cases a with
  | text s =>
    cases b with
    | text t => cases hb
    | member m => cases hb
    | _ => simp [Datum.same, Datum.sameLeaf, Datum.asText?, Datum.numeral?, Datum.stored?]
  | member m =>
    cases b with
    | text t => cases hb
    | member m => cases hb
    | _ => simp [Datum.same, Datum.sameLeaf, Datum.asText?, Datum.numeral?, Datum.stored?]
  | _ => cases ha

namespace Update

/-- The columns of a dictionary, each with its datum, if all keys are texts. -/
def columns? (entries : Fields) : Option (List (String × Datum)) :=
  entries.mapM fun e => e.1.asText?.map fun column => (column, e.2)

/-- A column with the value that its datum is. -/
def valued? (e : String × Datum) : Option (String × Scalar) := (accepted? (Checked.scalar e.2)).map fun v => (e.1, v)

/-- The assignments that a dictionary stands for: each of its columns once, with its value. -/
def pairs? (entries : Fields) : Option (List (String × Scalar)) :=
  (columns? entries).bind fun columns => (Entries.unique columns).mapM valued?

theorem columns?_cons (e : Datum × Datum) (rest : Fields) :
    columns? (e :: rest) =
      e.1.asText?.bind fun column => (columns? rest).map fun columns => (column, e.2) :: columns := by
  rw [columns?, mapM_cons_eq, Option.bind_map]
  rfl

theorem columns?_put {done : Fields} {columns : List (String × Datum)} (h : columns? done = some columns)
    (key value : Datum) :
    columns? (Entries.put key value done) = key.asText?.map fun column => Entries.put column value columns := by
  induction done generalizing columns with
  | nil =>
    cases h
    rw [Entries.put, columns?_cons]
    cases key.asText? <;> rfl
  | cons e rest ih =>
    obtain ⟨k, v⟩ := e
    rw [columns?_cons] at h
    obtain ⟨column, hk, hrest⟩ := Option.bind_eq_some_iff.mp h
    obtain ⟨more, hmore, rfl⟩ := Option.map_eq_some_iff.mp hrest
    dsimp only at hk ⊢
    cases hkey : key.asText? with
    | none =>
      rw [Entries.put, beq_of_asText?_eq_none hk hkey, if_neg Bool.false_ne_true, columns?_cons, ih hmore, hkey, hk]
      rfl
    | some name =>
      rw [Entries.put, beq_of_texts hk hkey, Option.map_some, Entries.put]
      by_cases hname : column = name
      · rw [if_pos (by simpa using hname), if_pos (by simpa using hname), columns?_cons, hk, hmore]
        rfl
      · rw [if_neg (by simpa using hname), if_neg (by simpa using hname), columns?_cons, hk, ih hmore, hkey]
        rfl

/-- A key that is no text stays. -/
theorem columns?_put_eq_none {done : Fields} (h : columns? done = none) (key value : Datum) :
    columns? (Entries.put key value done) = none := by
  induction done with
  | nil => cases h
  | cons e rest ih =>
    obtain ⟨k, v⟩ := e
    rw [columns?_cons] at h
    rw [Entries.put]
    cases hk : k.asText? with
    | none => split <;> rw [columns?_cons, hk] <;> rfl
    | some column =>
      have hrest : columns? rest = none := by simpa [hk] using h
      split
      · rw [columns?_cons, hk, hrest]
        rfl
      · rw [columns?_cons, hk, ih hrest]
        rfl

theorem columns?_merge_eq_none {done : Fields} (h : columns? done = none) (entries : Fields) :
    columns? (Entries.merge done entries) = none := by
  induction entries generalizing done with
  | nil => exact h
  | cons e rest ih => exact ih (columns?_put_eq_none h e.1 e.2)

/-- Entries of a dictionary are put as those of its columns are. -/
theorem columns?_merge {done : Fields} {columns : List (String × Datum)} (h : columns? done = some columns)
    (entries : Fields) :
    columns? (Entries.merge done entries) = (columns? entries).map (Entries.merge columns) := by
  induction entries generalizing done columns with
  | nil => exact h
  | cons e rest ih =>
    have hput := columns?_put h e.1 e.2
    have hstep : Entries.merge done (e :: rest) = Entries.merge (Entries.put e.1 e.2 done) rest := rfl
    rw [hstep, columns?_cons]
    cases hkey : e.1.asText? with
    | none =>
      rw [hkey] at hput
      exact columns?_merge_eq_none hput rest
    | some column =>
      rw [hkey] at hput
      rw [ih hput]
      cases columns? rest <;> rfl

section

variable {done : List (String × Datum)} {known : List (String × Scalar)}

theorem mapM_valued?_cons_eq_some_iff {e : String × Datum} {rest : List (String × Datum)} :
    (e :: rest).mapM valued? = some known ↔
      ∃ v more, accepted? (Checked.scalar e.2) = some v ∧ rest.mapM valued? = some more ∧
        known = (e.1, v) :: more := by
  rw [mapM_cons_eq, valued?]
  cases accepted? (Checked.scalar e.2) <;> cases rest.mapM valued? <;> simp [eq_comm]

theorem mapM_valued?_put (h : done.mapM valued? = some known) (column : String) {d : Datum} {v : Scalar}
    (hd : accepted? (Checked.scalar d) = some v) :
    (Entries.put column d done).mapM valued? = some (Entries.put column v known) := by
  induction done generalizing known with
  | nil =>
    cases h
    exact mapM_valued?_cons_eq_some_iff.mpr ⟨v, [], hd, rfl, rfl⟩
  | cons e rest ih =>
    obtain ⟨w, more, hw, hmore, rfl⟩ := mapM_valued?_cons_eq_some_iff.mp h
    rw [Entries.put, Entries.put]
    split
    · exact mapM_valued?_cons_eq_some_iff.mpr ⟨v, more, hd, hmore, rfl⟩
    · exact mapM_valued?_cons_eq_some_iff.mpr ⟨w, _, hw, ih hmore, rfl⟩

theorem mapM_valued?_merge (h : done.mapM valued? = some known) {columns : List (String × Datum)}
    {pairs : List (String × Scalar)} (hpairs : columns.mapM valued? = some pairs) :
    (Entries.merge done columns).mapM valued? = some (Entries.merge known pairs) := by
  induction columns generalizing done known pairs with
  | nil =>
    cases hpairs
    exact h
  | cons e rest ih =>
    obtain ⟨v, more, hv, hmore, rfl⟩ := mapM_valued?_cons_eq_some_iff.mp hpairs
    exact ih (mapM_valued?_put h e.1 hv) hmore

/-- Where there are values for all columns, what is put behind them needs values too, but only those that are
left. -/
theorem mapM_valued?_merge_eq (h : done.mapM valued? = some known) (hdistinct : (Entries.keys done).Nodup)
    (columns : List (String × Datum)) :
    (Entries.merge done columns).mapM valued? =
      ((Entries.unique columns).mapM valued?).map (Entries.merge known) := by
  cases hpairs : (Entries.unique columns).mapM valued? with
  | some pairs =>
    rw [← Entries.merge_unique hdistinct]
    exact mapM_valued?_merge h hpairs
  | none =>
    -- The column without a value is left where it is put.
    have hall := isSome_mapM valued? (Entries.unique columns)
    rw [hpairs, Option.isSome_none, eq_comm, List.all_eq_false] at hall
    obtain ⟨e, he, hvalue⟩ := hall
    have hlast := (Entries.mem_unique_iff columns e.1 e.2).mp he
    have hmem : e ∈ Entries.merge done columns := by
      rw [Entries.merge_eq_unique hdistinct]
      refine (Entries.mem_unique_iff _ e.1 e.2).mpr ?_
      rw [Entries.last?_append, hlast, Option.some_or]
    have hmerged : (Entries.merge done columns).all (fun e => (valued? e).isSome) = false :=
      List.all_eq_false.mpr ⟨e, hmem, hvalue⟩
    rw [← isSome_mapM, Option.isSome_eq_false_iff, Option.isNone_iff_eq_none] at hmerged
    exact hmerged

end

/-! ## Checking assignments -/

theorem accepted?_assignment (e : Datum × Datum) :
    accepted? (Checked.assignment e) = (e.1.asText?.map fun column => (column, e.2)).bind valued? := by
  rw [Checked.assignment, accepted?_under, Checked.text]
  cases e.1.asText? <;> cases hv : Checked.scalar e.2 <;> simp [valued?, hv] <;> rfl

theorem accepted?_row (entries : Fields) :
    accepted? (Checked.row (.dict entries)) = ((columns? entries).bind (List.mapM valued?)).map Row.ofEntries := by
  rw [Checked.row, accepted?_map]
  congr 1
  induction entries with
  | nil => rfl
  | cons e rest ih =>
    rw [List.foldr_cons, accepted?_apply, accepted?_map, ih, accepted?_assignment, columns?_cons]
    cases e.1.asText? with
    | none => rfl
    | some column =>
      simp only [Option.map_some, Option.bind_some]
      cases hvalue : valued? (column, e.2) <;> cases columns? rest <;>
        simp only [Option.map_some, Option.map_none, Option.bind_some, Option.bind_none, mapM_cons_eq, hvalue]

/-- The columns of an update as data. -/
theorem columns?_named (columns : List (String × Datum)) : columns? (Build.named columns) = some columns := by
  induction columns with
  | nil => rfl
  | cons e rest ih =>
    have hcons : Build.named (e :: rest) = (.text e.1, e.2) :: Build.named rest := rfl
    rw [hcons, columns?_cons, ih]
    rfl

theorem mapM_valued?_ofScalar (pairs : List (String × Scalar)) :
    (pairs.map fun e => (e.1, Datum.ofScalar e.2)).mapM valued? = some pairs := by
  induction pairs with
  | nil => rfl
  | cons e rest ih =>
    have hscalar : Checked.scalar (Datum.ofScalar e.2) = .ok e.2 := by
      obtain ⟨column, v⟩ := e
      cases v with
      | float x => simp [Datum.ofScalar, Checked.scalar, x.2]
      | _ => rfl
    refine mapM_valued?_cons_eq_some_iff.mpr ⟨e.2, rest, ?_, ih, rfl⟩
    rw [hscalar]
    rfl

/-- New assignments are put behind those there are, if they are accepted. -/
theorem toOption_assignAll (u : Update) (entries : Fields) :
    (u.assignAll entries).toOption =
      (pairs? entries).map fun pairs => { u with assignments := u.assignments.merge pairs } := by
  have hdistinct : (Entries.keys (u.assignments.entries.map fun e => (e.1, Datum.ofScalar e.2))).Nodup := by
    rw [Entries.keys, List.map_map]
    exact u.assignments.distinct
  have hrow (pairs : List (String × Scalar)) :
      Row.ofEntries (Entries.merge u.assignments.entries pairs) = u.assignments.merge pairs :=
    Row.ofEntries_entries (u.assignments.merge pairs)
  rw [assignAll, toOption_bind, toOption_orInvalid, accepted?_under, accepted?_row,
    columns?_merge (columns?_named _), pairs?]
  cases columns? entries with
  | none => rfl
  | some columns =>
    rw [Option.map_some, Option.bind_some, Option.bind_some,
      mapM_valued?_merge_eq (mapM_valued?_ofScalar _) hdistinct]
    cases (Entries.unique columns).mapM valued? with
    | none => rfl
    | some pairs =>
      show some { u with assignments := Row.ofEntries (Entries.merge u.assignments.entries pairs) } = _
      rw [hrow]
      rfl

/-! ## Calls -/

/-- The builder calls of an update, each with its arguments. -/
inductive Call where
  | assign (column value : Datum)
  | assignEach (values : Datum)
  | setTable (source label : Datum)
  | addJoin (table condition kind : Datum)
  | addFilter (condition : Datum)

namespace Call

/-- Makes a call. -/
def perform (c : Call) (u : Update) : Outcome Update :=
  match c with
  | assign column value => u.assign column value
  | assignEach values => u.assignEach values
  | setTable source label => u.setTable source label
  | addJoin table condition kind => u.addJoin table condition kind
  | addFilter condition => u.addFilter condition

/-- The data of the assignments there are, and of new ones. -/
def assignmentData (u : Update) (entries : Fields) : Datum :=
  .dict (Entries.merge (Build.named (u.assignments.entries.map fun e => (e.1, .ofScalar e.2))) entries)

/-- The field that a call replaces, with the new data that it makes from its arguments and the old fields. -/
def replacement (c : Call) (u : Update) : Outcome (String × Datum) :=
  match c with
  | assign column value =>
    if column.isKey then pure ("assignments", assignmentData u [(column, value)]) else Outcome.misuse .wrongType
  | assignEach values =>
    match values with
    | .dict entries => pure ("assignments", assignmentData u entries)
    | _ => Outcome.misuse .wrongType
  | setTable source label => do pure ("tables", .tables [← Table.make source label])
  | addJoin table condition kind => do pure ("joins", .joins (u.joins ++ [← Join.make table condition kind]))
  | addFilter condition =>
    pure ("where_conditions", .tuple (u.filters.map (fun c => .node (.condition c)) ++ [condition]))

end Call

/-- Replaces the data of a field and checks all fields of the new statement. -/
def rebuilt (u : Update) (field : String) (d : Datum) : Outcome Update :=
  let es := Build.named (Entries.put field d (Node.update u).fields)
  (Fields.update {} es (checkParts .data es)).orInvalid NodeKind.update.tag

/-- Makes a call by checking all fields of the new statement. -/
def Call.rebuild (c : Call) (u : Update) : Outcome Update := do
  let r ← c.replacement u
  u.rebuilt r.1 r.2

/-! ### Checking anew -/

/-- The fields of an update with the given data. -/
def record (tables joins filters assignments : Datum) : Fields :=
  Build.named [("tables", tables), ("joins", joins), ("where_conditions", filters), ("type", .text NodeKind.update.tag),
    ("assignments", assignments)]

theorem update_record (tables joins filters assignments : Datum) :
    Fields.update {} (record tables joins filters assignments) (checkParts .data _) =
      (fun tables joins filters _ assignments => ⟨tables, joins, filters, assignments⟩)
        <$> Select.Clause.check .tables tables
        <*> Select.Clause.check .joins joins
        <*> Select.Clause.check .filters filters
        <*> Checked.ok ()
        <*> (Checked.row assignments).under (.key FieldName.assignments.name) := by
  have htag : (record tables joins filters assignments).tag NodeKind.update.tag = .ok () := Fields.tag_given rfl
  rw [Fields.update, htag]
  rfl

section

variable (u : Update)

open Select.Clause (datum check check_datum)

/-! Only the field that is replaced can be wrong, and the others are kept. -/

theorem rebuilt_tables (tables : List Table) : u.rebuilt "tables" (.tables tables) = .ok { u with tables } := by
  show (Fields.update {} (record (datum .tables tables) (datum .joins u.joins) (datum .filters u.filters)
    u.assignments.toDatum) (checkParts .data _)).orInvalid _ = _
  rw [update_record, check_datum, check_datum, check_datum, Insert.check_rowDatum]
  rfl

theorem rebuilt_joins (joins : List Join) : u.rebuilt "joins" (.joins joins) = .ok { u with joins } := by
  show (Fields.update {} (record (datum .tables u.tables) (datum .joins joins) (datum .filters u.filters)
    u.assignments.toDatum) (checkParts .data _)).orInvalid _ = _
  rw [update_record, check_datum, check_datum, check_datum, Insert.check_rowDatum]
  rfl

theorem rebuilt_filters (d : Datum) :
    u.rebuilt "where_conditions" d =
      (Checked.map (fun filters => { u with filters }) (check .filters d)).orInvalid NodeKind.update.tag := by
  show (Fields.update {} (record (datum .tables u.tables) (datum .joins u.joins) d u.assignments.toDatum)
    (checkParts .data _)).orInvalid _ = _
  rw [update_record, check_datum, check_datum, Insert.check_rowDatum]
  cases check .filters d <;> rfl

theorem rebuilt_assignments (d : Datum) :
    u.rebuilt "assignments" d =
      (Checked.map (fun assignments => { u with assignments })
        ((Checked.row d).under (.key FieldName.assignments.name))).orInvalid NodeKind.update.tag := by
  show (Fields.update {} (record (datum .tables u.tables) (datum .joins u.joins) (datum .filters u.filters) d)
    (checkParts .data _)).orInvalid _ = _
  rw [update_record, check_datum, check_datum, check_datum]
  cases Checked.row d <;> rfl

theorem assignAll_eq_rebuilt (entries : Fields) :
    u.assignAll entries = u.rebuilt "assignments" (Call.assignmentData u entries) := by
  rw [rebuilt_assignments, assignAll]
  show (do
    let assignments ← ((Checked.row (Call.assignmentData u entries)).under
      (.key FieldName.assignments.name)).orInvalid NodeKind.update.tag
    pure { u with assignments }) = _
  cases Checked.row (Call.assignmentData u entries) <;> rfl

end

/-- A call is a replacement of the data of one field with all fields checked anew. -/
theorem Call.perform_eq_rebuild (c : Call) (u : Update) : c.perform u = c.rebuild u := by
  cases c with
  | assign column value =>
    rw [perform, Update.assign, rebuild, replacement]
    split
    · exact u.assignAll_eq_rebuilt [(column, value)]
    · rfl
  | assignEach values =>
    cases values with
    | dict entries => exact u.assignAll_eq_rebuilt entries
    | _ => rfl
  | setTable source label =>
    rw [perform, Update.setTable, rebuild, replacement]
    cases Table.make source label with
    | error e => rfl
    | ok t => exact (u.rebuilt_tables [t]).symm
  | addJoin table condition kind =>
    rw [perform, Update.addJoin, rebuild, replacement]
    cases Join.make table condition kind with
    | error e => rfl
    | ok j => exact (u.rebuilt_joins (u.joins ++ [j])).symm
  | addFilter condition =>
    refine Eq.trans ?_ (u.rebuilt_filters _).symm
    have hfilters : Select.Clause.check .filters
        (.tuple (u.filters.map (fun c => .node (.condition c)) ++ [condition])) =
        addCondition .filters u.filters condition := Select.addCondition_eq .filters u.filters condition
    rw [hfilters, perform, Update.addFilter]
    cases addCondition .filters u.filters condition <;> rfl

/-! ## What calls bring -/

/-- What a call brings to an update. -/
inductive Change where
  | assigned (pairs : List (String × Scalar))
  | table (table : Table)
  | join (join : Join)
  | filter (condition : Condition)

namespace Change

def apply (u : Update) : Change → Update
  | .assigned pairs => { u with assignments := u.assignments.merge pairs }
  | .table t => { u with tables := [t] }
  | .join j => { u with joins := u.joins ++ [j] }
  | .filter c => { u with filters := u.filters ++ [c] }

/-- The assignments that are among it. -/
def pairs : Change → List (String × Scalar)
  | .assigned pairs => pairs
  | _ => []

def assigns : Change → Bool
  | .assigned _ => true
  | _ => false

end Change

namespace Call

/-- What a call brings, if its arguments are accepted. -/
def change? : Call → Option Change
  | assign column value => (pairs? [(column, value)]).map .assigned
  | assignEach (.dict entries) => (pairs? entries).map .assigned
  | assignEach _ => none
  | setTable source label => (Table.make source label).toOption.map .table
  | addJoin table condition kind => (Join.make table condition kind).toOption.map .join
  | addFilter condition => (accepted? (checkPart .data .condition condition)).map .filter

def assigns : Call → Bool
  | assign _ _ | assignEach _ => true
  | _ => false

/-- A call succeeds exactly if its arguments are accepted, and makes the change they stand for. -/
theorem toOption_perform (c : Call) (u : Update) : (c.perform u).toOption = c.change?.map (Change.apply u) := by
  cases c with
  | assign column value =>
    rw [perform, Update.assign, change?, Option.map_map]
    split
    · exact u.toOption_assignAll [(column, value)]
    · rename_i hkey
      have hcolumn : column.asText? = none := by
        cases hcolumn : column.asText? with
        | none => rfl
        | some name => exact absurd (Session.isKey_of_asText? (Option.isSome_of_eq_some hcolumn)) hkey
      rw [pairs?, columns?_cons, hcolumn]
      rfl
  | assignEach values =>
    cases values with
    | dict entries =>
      rw [change?, Option.map_map]
      exact u.toOption_assignAll entries
    | _ => rfl
  | setTable source label =>
    rw [perform, Update.setTable, change?, Option.map_map]
    cases Table.make source label <;> rfl
  | addJoin table condition kind =>
    rw [perform, Update.addJoin, change?, Option.map_map]
    cases Join.make table condition kind <;> rfl
  | addFilter condition =>
    rw [perform, Update.addFilter, toOption_bind, toOption_orInvalid, Select.Call.accepted?_addCondition, change?,
      Option.map_map]
    cases accepted? (checkPart .data .condition condition) <;> rfl

end Call

theorem tells : Tells Call.perform Call.change? Change.apply := ⟨Call.toOption_perform⟩

theorem assigns_of_change? {c : Call} {e : Change} (h : c.change? = some e) : c.assigns = e.assigns := by
  unfold Call.change? at h
  split at h
  · obtain ⟨pairs, -, rfl⟩ := Option.map_eq_some_iff.mp h
    rfl
  · obtain ⟨pairs, -, rfl⟩ := Option.map_eq_some_iff.mp h
    rfl
  · cases h
  · obtain ⟨t, -, rfl⟩ := Option.map_eq_some_iff.mp h
    rfl
  · obtain ⟨j, -, rfl⟩ := Option.map_eq_some_iff.mp h
    rfl
  · obtain ⟨c, -, rfl⟩ := Option.map_eq_some_iff.mp h
    rfl

/-! ## What a history leaves -/

/-- One change keeps the assignments that there are for what all changes leave, or adds its own to them. -/
theorem entries_apply (u : Update) (e : Change) :
    (e.apply u).assignments.entries = Entries.merge u.assignments.entries e.pairs := by
  cases e <;> rfl

theorem entries_foldl (u : Update) (history : List Change) :
    (history.foldl Change.apply u).assignments.entries =
      Entries.merge u.assignments.entries (history.flatMap Change.pairs) := by
  induction history generalizing u with
  | nil => rfl
  | cons e rest ih => rw [List.foldl_cons, ih, entries_apply, List.flatMap_cons, Entries.merge_append]

/-- Only changes that assign have assignments. -/
theorem flatMap_pairs_filter (history : List Change) :
    (history.filter Change.assigns).flatMap Change.pairs = history.flatMap Change.pairs := by
  induction history with
  | nil => rfl
  | cons e rest ih => cases e <;> simp [List.filter_cons, Change.assigns, Change.pairs, ih]

/-! ## Runs -/

/-- Builder calls in the order in which they are made. -/
abbrev Run := List Call

namespace Run

/-- Makes the calls of a run. -/
def perform (run : Run) (u : Update) : Outcome Update := run.foldlM (fun u c => c.perform u) u

/-- Makes the calls of a run, with all fields checked anew each time. -/
def rebuild (run : Run) (u : Update) : Outcome Update := run.foldlM (fun u c => c.rebuild u) u

/-- What the calls bring. -/
def history (run : Run) : List Change := run.filterMap Call.change?

/-- The assignments that the calls bring, one after the other. -/
def assigned (run : Run) : List (String × Scalar) := run.history.flatMap Change.pairs

variable {u u' : Update}

theorem perform_eq_rebuild (run : Run) (u : Update) : run.perform u = run.rebuild u := by
  simp only [perform, rebuild, Call.perform_eq_rebuild]

/-- A run succeeds exactly if the arguments of all calls are accepted, and makes their changes in order. -/
theorem perform_eq_ok_iff (run : Run) :
    run.perform u = .ok u' ↔ (∀ c ∈ run, c.change?.isSome) ∧ u' = run.history.foldl Change.apply u :=
  tells.foldlM_eq_ok_iff run

/-- The assignments of a run are those of its calls that assign. -/
theorem assigned_filter (run : Run) : assigned (run.filter Call.assigns) = run.assigned := by
  have hhistory : run.history.filter Change.assigns = history (run.filter Call.assigns) :=
    filterMap_filter (fun _ _ => assigns_of_change?) run
  rw [assigned, ← hhistory, flatMap_pairs_filter, assigned]

/-- A run leaves the assignments that were there and that its calls bring, each column in its first place and with
its last value. -/
theorem leaves {run : Run} (h : run.perform u = .ok u') :
    Entries.Leaves (u.assignments.entries ++ run.assigned) u'.assignments.entries := by
  obtain ⟨-, rfl⟩ := run.perform_eq_ok_iff.mp h
  rw [entries_foldl, Entries.merge_eq_unique u.assignments.distinct]
  exact Entries.leaves_unique _

theorem assignments_eq {run other : Run} {v v' : Update} (h : run.perform u = .ok u') (h' : other.perform v = .ok v')
    (hcalls : other.filter Call.assigns = run.filter Call.assigns) (hstart : v.assignments = u.assignments) :
    v'.assignments = u'.assignments := by
  have hassigned : other.assigned = run.assigned := by rw [← assigned_filter, hcalls, assigned_filter]
  have hleaves := other.leaves h'
  rw [hstart, hassigned] at hleaves
  have hentries := hleaves.eq (run.leaves h)
  obtain ⟨_, _, _, entries, distinct⟩ := v'
  obtain ⟨_, _, _, entries', distinct'⟩ := u'
  exact (Row.mk.injEq ..).mpr hentries

/-- A run of calls on an update that succeeds is told by what each call brings. It leaves each column that was
assigned, before or in the run, once and where it was first assigned, with the value of its last assignment; the
other calls make no difference, wherever they stand, and neither does it to check all fields anew each time. What is
left is what stands in the SET clause, pair by pair; there is one exactly if no integer of the update has more than
`Text.digitLimit` digits, and the update fails otherwise. -/
theorem perform_assigns {run : Run} (h : run.perform u = .ok u') :
    run.map Call.change? = run.history.map some ∧
      Entries.Leaves (u.assignments.entries ++ run.assigned) u'.assignments.entries ∧
      (∀ (other : Run) (v : Update), (∀ c ∈ other, c.change?.isSome) →
        other.filter Call.assigns = run.filter Call.assigns → v.assignments = u.assignments →
        ∃ v', other.perform v = .ok v' ∧ v'.assignments = u'.assignments) ∧
      run.rebuild u = .ok u' ∧
      (∀ (s : Session) (f : Flavor) (sql : String),
        (Action.toSql (.update u') (.flavor f)).outcome s = .ok sql → u'.SetsIn s f sql) ∧
      (u'.tables ≠ [] → u'.assignments.entries ≠ [] →
        ∀ (s : Session) (c : Settings) (f : Flavor), s.Settles c →
          (¬ (Node.update u').WritesLong ∧ ∃ sql, (Action.toSql (.update u') (.flavor f)).outcome s = .ok sql) ∨
            (Node.update u').WritesLong ∧
              (Action.toSql (.update u') (.flavor f)).outcome s = .error (.misuse .wrongValue)) := by
  obtain ⟨haccepted, -⟩ := run.perform_eq_ok_iff.mp h
  refine ⟨map_eq_map_some_iff.mpr ⟨haccepted, rfl⟩, run.leaves h, ?_, (run.perform_eq_rebuild u).symm.trans h,
    fun s f sql hsql => Update.toSql_setsIn hsql,
    fun htables hsome s c f hs => Update.toSql_succeeds hs htables hsome f⟩
  intro other v hother hcalls hstart
  have hperform : other.perform v = .ok (other.history.foldl Change.apply v) :=
    other.perform_eq_ok_iff.mpr ⟨hother, rfl⟩
  exact ⟨_, hperform, assignments_eq h hperform hcalls hstart⟩

/-- A join with a table and without a condition. -/
theorem join_make (t : Table) (kind : JoinKind) :
    Join.make (.node (.table t)) .null (.member (.join kind)) = .ok ⟨t, none, kind⟩ := by
  have htable : checkPart .data .table (.node (.table t)) = .ok t := by
    rw [checkPart]
    rfl
  show ((fun _ table condition kind => Join.mk table condition kind)
    <$> Checked.ok ()
    <*> (checkPart .data .table (.node (.table t))).under (.key "table")
    <*> Checked.ok none
    <*> (Checked.joinKind (.member (.join kind))).under (.key FieldName.joinKind.name)).orInvalid _ = _
  rw [htable]
  cases kind <;> rfl

/-- Assignments between calls of the other sorts: one column three times, another two times. -/
def interleavedRun : Run :=
  [.assignEach (.dict [(.text "b", .int 1), (.text "a", .text "x")]), .setTable (.text "t") .null,
    .assign (.text "c") .null, .addJoin (.node (.table ⟨.name "s", none⟩)) .null (.member (.join .left)),
    .assignEach (.dict [(.text "a", .null), (.text "b", .bool true)]),
    .addFilter (.node (.condition (.isNull true "a"))), .assign (.text "b") (.int 2)]

/-- What the calls bring. -/
def interleavedChanges : List Change :=
  [.assigned [("b", .int 1), ("a", .text "x")], .table ⟨.name "t", none⟩, .assigned [("c", .null)],
    .join ⟨⟨.name "s", none⟩, none, .left⟩, .assigned [("a", .null), ("b", .bool true)], .filter (.isNull true "a"),
    .assigned [("b", .int 2)]]

def interleavedUpdate : Update :=
  { tables := [⟨.name "t", none⟩]
    joins := [⟨⟨.name "s", none⟩, none, .left⟩]
    filters := [.isNull true "a"]
    assignments := .ofEntries [("b", .int 2), ("a", .null), ("c", .null)] }

/-- The columns are in the order of their first assignments. -/
theorem interleavedRun_assigns :
    let sql := "UPDATE \x60t\x60 LEFT JOIN \x60s\x60 SET \x60b\x60 = 2, \x60a\x60 = NULL, \x60c\x60 = NULL " ++
      "WHERE \x60a\x60 IS NOT NULL"
    interleavedRun.perform {} = .ok interleavedUpdate ∧
      Entries.Leaves [("b", .int 1), ("a", .text "x"), ("c", .null), ("a", .null), ("b", .bool true), ("b", .int 2)]
        interleavedUpdate.assignments.entries ∧
      (Action.toSql (.update interleavedUpdate) (.flavor .mysql)).outcome {} = .ok sql ∧
      interleavedUpdate.SetsIn {} .mysql sql := by
  intro sql
  have hjoin : (Call.addJoin (.node (.table ⟨.name "s", none⟩)) .null (.member (.join .left))).change? =
      some (.join ⟨⟨.name "s", none⟩, none, .left⟩) := by
    rw [Call.change?, join_make]
    rfl
  have hfilter : (Call.addFilter (.node (.condition (.isNull true "a")))).change? =
      some (.filter (.isNull true "a")) := by
    rw [Call.change?, checkPart]
    rfl
  have hchanges : interleavedRun.map Call.change? = interleavedChanges.map some := by
    simp only [interleavedRun, List.map_cons, List.map_nil, hjoin, hfilter]
    rfl
  obtain ⟨haccepted, hhistory⟩ := map_eq_map_some_iff.mp hchanges
  have h : interleavedRun.perform {} = .ok interleavedUpdate := by
    refine interleavedRun.perform_eq_ok_iff.mpr ⟨haccepted, ?_⟩
    rw [history, hhistory]
    rfl
  have hassigned : interleavedRun.assigned = interleavedChanges.flatMap Change.pairs := by
    rw [assigned, history, hhistory]
  have hleaves := (perform_assigns h).2.1
  rw [hassigned] at hleaves
  have hsql : (Action.toSql (.update interleavedUpdate) (.flavor .mysql)).outcome {} = .ok sql := rfl
  exact ⟨h, hleaves, hsql, (perform_assigns h).2.2.2.2.1 {} .mysql sql hsql⟩

end Run

end Update

end SqlAst
