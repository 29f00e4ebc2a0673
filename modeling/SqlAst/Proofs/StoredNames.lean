import SqlAst.Statement.Stored

/-!
# Names in stored nodes

The stored form that leaves the library has replacements for halves of surrogate pairs in its names, and
each name once: `Json.settled`. The names of fields are not touched by this; columns of rows are names of
the stored form too, and may be.

* `settled_object`: distinct names without halves stay.
* `Row.replaced_eq_self_iff`: a row stays as it is exactly if its columns hold no halves.
* `Node.settled_toJson`: what leaves the library is the stored form of the node with replaced columns.
-/
namespace SqlAst

/-! ## Entries with distinct keys -/

namespace Entries

variable {α β : Type}

theorem put_of_notMem {key : String} {es : List (String × α)} (h : key ∉ keys es) (value : α) :
    put key value es = es ++ [(key, value)] := by
  induction es with
  | nil => rfl
  | cons e rest ih =>
    obtain ⟨k, v⟩ := e
    simp only [keys, List.map_cons, List.mem_cons, not_or] at h
    have hne : (k == key) = false := by simpa using fun e => h.1 e.symm
    simp [put, hne, ih h.2]

theorem merge_of_nodup {done es : List (String × α)} (h : (keys (done ++ es)).Nodup) :
    merge done es = done ++ es := by
  induction es generalizing done with
  | nil => simp [merge]
  | cons e rest ih =>
    have hkey : e.1 ∉ keys done := by
      intro hm
      simp only [keys, List.map_append, List.map_cons, List.nodup_append, List.mem_cons] at h
      exact h.2.2 e.1 hm e.1 (.inl rfl) rfl
    have hstep : merge done (e :: rest) = merge (put e.1 e.2 done) rest := rfl
    rw [hstep, put_of_notMem hkey, ih (by simpa [keys] using h)]
    simp

/-- Entries with distinct keys stay as they are. -/
theorem unique_of_nodup {es : List (String × α)} (h : (keys es).Nodup) : unique es = es :=
  merge_of_nodup h

theorem mem_keys_merge {done es : List (String × α)} {k : String} (h : k ∈ keys (merge done es)) :
    k ∈ keys done ∨ k ∈ keys es := by
  induction es generalizing done with
  | nil => exact .inl h
  | cons e rest ih =>
    have hstep : merge done (e :: rest) = merge (put e.1 e.2 done) rest := rfl
    rw [hstep] at h
    rcases ih h with h | h
    · rw [keys_put] at h
      split at h
      · exact .inl h
      · rcases List.mem_append.1 h with h | h
        · exact .inl h
        · exact .inr (by simpa [keys] using Or.inl (List.mem_singleton.1 h))
    · exact .inr (List.mem_cons_of_mem _ h)

/-- Values may be mapped before or after keys are made unique. -/
theorem merge_map (f : α → β) (done es : List (String × α)) :
    merge (done.map fun e => (e.1, f e.2)) (es.map fun e => (e.1, f e.2)) =
      (merge done es).map fun e => (e.1, f e.2) := by
  have hput (key : String) (value : α) (done : List (String × α)) :
      put key (f value) (done.map fun e => (e.1, f e.2)) =
        (put key value done).map fun e => (e.1, f e.2) := by
    induction done with
    | nil => rfl
    | cons e rest ih =>
      obtain ⟨k, v⟩ := e
      simp only [List.map_cons, put]
      split
      · rfl
      · rw [List.map_cons, ih]
  induction es generalizing done with
  | nil => rfl
  | cons e rest ih =>
    show merge (put e.1 (f e.2) (done.map fun e => (e.1, f e.2))) (rest.map fun e => (e.1, f e.2)) = _
    rw [hput, ih]
    rfl

end Entries

/-! ## Settled values -/

namespace Json

/-- A value with replacements for halves in names, and each name once. -/
def settled (j : Json) : Json := j.withWholeNames.unique

theorem withWholeNamesItems_eq_map (items : List Json) : withWholeNamesItems items =
    items.map withWholeNames := by
  induction items with
  | nil => rfl
  | cons j rest ih => simp [withWholeNamesItems, ih]

theorem withWholeNamesEntries_eq_map (es : List (String × Json)) :
    withWholeNamesEntries es = es.map fun e => (Text.replaced e.1, e.2.withWholeNames) := by
  induction es with
  | nil => rfl
  | cons e rest ih => simp [withWholeNamesEntries, ih]

theorem uniqueValues_eq_map (es : List (String × Json)) :
    uniqueValues es = es.map fun e => (e.1, e.2.unique) := by
  induction es with
  | nil => rfl
  | cons e rest ih => simp [uniqueValues, ih]

theorem settled_list (items : List Json) : settled (.list items) = .list (items.map settled) := by
  simp [settled, withWholeNames, unique, withWholeNamesItems_eq_map, uniqueItems_eq_map,
    Function.comp_def]

/-- Distinct names without halves stay. -/
theorem settled_object (names : List String) {es : List (String × Json)}
    (hn : (Entries.keys es).Sublist names) (h : names.Nodup ∧ ∀ n ∈ names, Text.isWhole n = true) :
    settled (.object es) = .object (es.map fun e => (e.1, e.2.settled)) := by
  have hkeys : ∀ e ∈ es, Text.replaced e.1 = e.1 := fun e he =>
    Text.replaced_eq_self_iff.mpr (h.2 e.1 (hn.subset (List.mem_map_of_mem he)))
  have hwhole : es.map (fun e => (Text.replaced e.1, e.2.withWholeNames)) =
      es.map fun e => (e.1, e.2.withWholeNames) :=
    List.map_congr_left fun e he => by rw [hkeys e he]
  have hnodup : (Entries.keys (es.map fun e => (e.1, e.2.settled))).Nodup := by
    simpa [Entries.keys, Function.comp_def] using hn.nodup h.1
  simp only [settled, withWholeNames, withWholeNamesEntries_eq_map, hwhole, unique, uniqueValues_eq_map,
    List.map_map, Function.comp_def]
  exact congrArg Json.object (Entries.unique_of_nodup hnodup)

/-- So the whole object stays, if its values do. -/
theorem settled_object_eq (names : List String) {es : List (String × Json)}
    (hn : (Entries.keys es).Sublist names) (h : names.Nodup ∧ ∀ n ∈ names, Text.isWhole n = true)
    (hv : ∀ e ∈ es, e.2.settled = e.2) :
    settled (.object es) = .object es := by
  rw [settled_object names hn h, List.map_congr_left (g := id), List.map_id]
  intro e he
  rw [hv e he]
  rfl

theorem settled_list_eq {α : Type} {toJson : α → Json} {items : List α}
    (h : ∀ x ∈ items, (toJson x).settled = toJson x) :
    settled (.list (items.map toJson)) = .list (items.map toJson) := by
  rw [settled_list, List.map_map]
  exact congrArg Json.list (List.map_congr_left h)

end Json

/-! ## Rows -/

namespace Row

/-- A row with replacements for the halves in its columns. -/
def replaced (r : Row) : Row := ofEntries (r.entries.map fun e => (Text.replaced e.1, e.2))

theorem settled_scalar (v : Scalar) : v.toJson.settled = v.toJson := by cases v <;> rfl

theorem settled_toJson (r : Row) : r.toJson.settled = r.replaced.toJson := by
  have hmap := Entries.merge_map Scalar.toJson [] (r.entries.map fun e => (Text.replaced e.1, e.2))
  have hvalue (v : Scalar) : v.toJson.withWholeNames.unique = v.toJson := settled_scalar v
  simp only [Row.toJson, Json.settled, Json.withWholeNames, Json.withWholeNamesEntries_eq_map,
    Json.unique, Json.uniqueValues_eq_map, List.map_map, Function.comp_def, hvalue]
  rw [List.map_nil, List.map_map] at hmap
  exact congrArg Json.object hmap

theorem ofEntries_entries (r : Row) : ofEntries r.entries = r := by
  obtain ⟨entries, distinct⟩ := r
  have h : Entries.merge [] entries = entries := Entries.unique_of_nodup distinct
  simp only [ofEntries, merge, empty, h]

theorem replaced_eq_self_iff (r : Row) : r.replaced = r ↔ ∀ c ∈ r.columns, Text.isWhole c = true := by
  constructor
  · intro h c hc
    rw [← h] at hc
    rcases Entries.mem_keys_merge hc with hc | hc
    · cases hc
    · simp only [Entries.keys, List.map_map, List.mem_map] at hc
      obtain ⟨e, -, rfl⟩ := hc
      exact Text.isWhole_replaced e.1
  · intro h
    have hsame : (r.entries.map fun e => (Text.replaced e.1, e.2)) = r.entries := by
      rw [List.map_congr_left (g := id), List.map_id]
      intro e he
      rw [Text.replaced_eq_self_iff.mpr (h e.1 (List.mem_map_of_mem he))]
      rfl
    rw [replaced, hsame, ofEntries_entries]

end Row

/-! ## Nodes -/

theorem SelectField.settled_toJson (f : SelectField) : f.toJson.settled = f.toJson := by
  obtain ⟨name, label⟩ := f
  cases label with
  | none => exact Json.settled_object ["name"] (List.Sublist.refl _) (by decide)
  | some label => exact Json.settled_object ["name", "alias"] (List.Sublist.refl _) (by decide)

theorem OrderSpec.settled_toJson (o : OrderSpec) : o.toJson.settled = o.toJson :=
  Json.settled_object ["field", "direction"] (List.Sublist.refl _) (by decide)

open Stored

theorem settled_optional {key : String} {value : Option Json} (h : ∀ j ∈ value, j.settled = j) :
    ∀ e ∈ Stored.optional key value, e.2.settled = e.2 := by
  intro e he
  cases value with
  | none => cases he
  | some j =>
    rw [List.mem_singleton.1 he]
    exact h j rfl

mutual

theorem Condition.settled_toJson (c : Condition) : c.toJson.settled = c.toJson := by
  match c with
  | .compare op column value =>
    rw [Condition.toJson]
    have hvalue := Row.settled_scalar value
    by_cases hv : value = .null
    · rw [if_pos hv]
      exact Json.settled_object ["column", "type"] (List.Sublist.refl _) (by decide)
    · rw [if_neg hv]
      refine Json.settled_object_eq ["column", "value", "type"] (List.Sublist.refl _) (by decide) ?_
      simp only [Stored.optional, Option.map_some, Option.toList_some, List.cons_append,
        List.nil_append, List.forall_mem_cons]
      exact ⟨rfl, hvalue, rfl, by simp⟩
  | .between column low high =>
    refine Json.settled_object_eq ["type", "column", "values"] (List.Sublist.refl _) (by decide) ?_
    have hvalues : (Json.list ([low, high].map Scalar.toJson)).settled =
      .list ([low, high].map Scalar.toJson) := Json.settled_list_eq fun v _ => Row.settled_scalar v
    simp only [List.forall_mem_cons]
    exact ⟨rfl, rfl, hvalues, by simp⟩
  | .among column values =>
    refine Json.settled_object_eq ["type", "column", "values"] (List.Sublist.refl _) (by decide) ?_
    simp only [List.forall_mem_cons]
    exact ⟨rfl, rfl, Json.settled_list_eq fun v _ => Row.settled_scalar v, by simp⟩
  | .like negated column pattern =>
    exact Json.settled_object ["column", "pattern", "type"] (List.Sublist.refl _) (by decide)
  | .isNull negated column =>
    exact Json.settled_object ["type", "column"] (List.Sublist.refl _) (by decide)
  | .columnEqual left right =>
    exact Json.settled_object ["type", "left", "right"] (List.Sublist.refl _) (by decide)
  | .combine connective parts =>
    refine Json.settled_object_eq ["conditions", "type"] (List.Sublist.refl _) (by decide) ?_
    simp only [List.forall_mem_cons]
    exact ⟨settled_conditionItems parts, rfl, by simp⟩

theorem settled_conditionItems (cs : List Condition) :
    (Json.list (conditionItems cs)).settled = .list (conditionItems cs) := by
  match cs with
  | [] => rfl
  | c :: rest =>
    have hc := c.settled_toJson
    have hrest := settled_conditionItems rest
    rw [Json.settled_list] at hrest ⊢
    rw [conditionItems, List.map_cons, hc]
    injection hrest with hrest
    rw [hrest]

end

mutual

theorem Source.settled_toJson (s : Source) : s.toJson.settled = s.toJson := by
  match s with
  | .name n => rfl
  | .query q => exact q.settled_toJson

theorem Table.settled_toJson (t : Table) : t.toJson.settled = t.toJson := by
  match t with
  | ⟨source, none⟩ =>
    refine Json.settled_object_eq ["type", "source"] (List.Sublist.refl _) (by decide) ?_
    simp only [List.forall_mem_cons, Option.map_none, Stored.optional, Option.toList_none,
      List.append_nil]
    exact ⟨rfl, source.settled_toJson, by simp⟩
  | ⟨source, some label⟩ =>
    refine Json.settled_object_eq ["type", "source", "alias"] (List.Sublist.refl _) (by decide) ?_
    simp only [List.cons_append, List.nil_append, List.forall_mem_cons, Stored.optional,
      Option.map_some, Option.toList_some]
    exact ⟨rfl, source.settled_toJson, rfl, by simp⟩

theorem Join.settled_toJson (j : Join) : j.toJson.settled = j.toJson := by
  match j with
  | ⟨table, none, kind⟩ =>
    refine Json.settled_object_eq ["type", "table", "joinType"] (List.Sublist.refl _) (by decide) ?_
    simp only [List.cons_append, List.nil_append, List.forall_mem_cons, Stored.optional,
      Option.map_none, Option.toList_none]
    exact ⟨rfl, table.settled_toJson, rfl, by simp⟩
  | ⟨table, some c, kind⟩ =>
    refine Json.settled_object_eq ["type", "table", "condition", "joinType"] (List.Sublist.refl _)
      (by decide) ?_
    simp only [List.cons_append, List.nil_append, List.forall_mem_cons, Stored.optional,
      Option.map_some, Option.toList_some]
    exact ⟨rfl, table.settled_toJson, c.settled_toJson, rfl, by simp⟩

theorem UnionPart.settled_toJson (u : UnionPart) : u.toJson.settled = u.toJson := by
  match u with
  | ⟨kind, query⟩ =>
    refine Json.settled_object_eq ["type", "query"] (List.Sublist.refl _) (by decide) ?_
    simp only [List.forall_mem_cons]
    exact ⟨rfl, query.settled_toJson, by simp⟩

theorem Select.settled_toJson (q : Select) : q.toJson.settled = q.toJson := by
  match q with
  | ⟨tables, joins, fields, filters, groupFilters, limit, offset, orderBy, groupBy, unions⟩ =>
    have htables := settled_tableItems tables
    have hjoins := settled_joinItems joins
    have hunions := settled_unionItems unions
    have hfields : (Json.list (fields.map SelectField.toJson)).settled = _ :=
      Json.settled_list_eq fun f _ => f.settled_toJson
    have hfilters : (Json.list (filters.map Condition.toJson)).settled = _ :=
      Json.settled_list_eq fun c _ => c.settled_toJson
    have hgroups : (Json.list (groupFilters.map Condition.toJson)).settled = _ :=
      Json.settled_list_eq fun c _ => c.settled_toJson
    have horder : (Json.list (orderBy.map OrderSpec.toJson)).settled = _ :=
      Json.settled_list_eq fun o _ => o.settled_toJson
    have hgroupBy : (texts groupBy).settled = texts groupBy := Json.settled_list_eq fun _ _ => rfl
    have hcount {key : String} (n : Option Nat) :
        ∀ e ∈ Stored.optional key (n.map fun n => Json.int n), e.2.settled = e.2 := by
      cases n <;> simp [Stored.optional, Json.settled, Json.withWholeNames, Json.unique]
    rw [Select.toJson]
    refine Json.settled_object_eq ["tables", "joins", "fields", "type", "where", "having", "limit",
      "offset", "orderBy", "groupBy", "unionQueries"] ?_ (by decide) ?_
    · cases limit <;> cases offset <;> simp [Entries.keys, Stored.optional, Stored.tagEntry]
    · simp only [List.forall_mem_append, List.forall_mem_cons]
      exact ⟨⟨⟨⟨htables, hjoins, hfields, rfl, hfilters, hgroups, by simp⟩, hcount limit⟩,
        hcount offset⟩, horder, hgroupBy, hunions, by simp⟩

theorem settled_tableItems (ts : List Table) :
    (Json.list (tableItems ts)).settled = .list (tableItems ts) := by
  match ts with
  | [] => rfl
  | t :: rest =>
    have ht := t.settled_toJson
    have hrest := settled_tableItems rest
    rw [Json.settled_list] at hrest ⊢
    rw [tableItems, List.map_cons, ht]
    injection hrest with hrest
    rw [hrest]

theorem settled_joinItems (js : List Join) :
    (Json.list (joinItems js)).settled = .list (joinItems js) := by
  match js with
  | [] => rfl
  | j :: rest =>
    have hj := j.settled_toJson
    have hrest := settled_joinItems rest
    rw [Json.settled_list] at hrest ⊢
    rw [joinItems, List.map_cons, hj]
    injection hrest with hrest
    rw [hrest]

theorem settled_unionItems (us : List UnionPart) :
    (Json.list (unionItems us)).settled = .list (unionItems us) := by
  match us with
  | [] => rfl
  | u :: rest =>
    have hu := u.settled_toJson
    have hrest := settled_unionItems rest
    rw [Json.settled_list] at hrest ⊢
    rw [unionItems, List.map_cons, hu]
    injection hrest with hrest
    rw [hrest]

end

/-- The sources of a statement stay. -/
theorem settled_sources (tables : List Table) (joins : List Join) :
    ∀ e ∈ sources tables joins, e.2.settled = e.2 := by
  simp only [sources, List.forall_mem_cons]
  exact ⟨Json.settled_list_eq fun t _ => t.settled_toJson,
    Json.settled_list_eq fun j _ => j.settled_toJson, by simp⟩

theorem settled_filterEntry (cs : List Condition) : (filterEntry cs).2.settled = (filterEntry cs).2 :=
  Json.settled_list_eq fun c _ => c.settled_toJson

theorem Projection.settled_toJson (p : Projection) : p.toJson.settled = p.toJson := by
  refine Json.settled_object_eq ["tables", "joins", "fields"] (List.Sublist.refl _) (by decide) ?_
  simp only [List.forall_mem_append, List.forall_mem_cons]
  exact ⟨settled_sources _ _, Json.settled_list_eq fun f _ => f.settled_toJson, by simp⟩

theorem Delete.settled_toJson (m : Delete) : m.toJson.settled = m.toJson := by
  refine Json.settled_object_eq ["tables", "joins", "where", "type"] (List.Sublist.refl _)
    (by decide) ?_
  simp only [List.forall_mem_append, List.forall_mem_cons]
  exact ⟨settled_sources _ _, settled_filterEntry _, rfl, by simp⟩

/-- The statement with replacements for the halves in its columns. -/
def Update.replaced (m : Update) : Update := { m with assignments := m.assignments.replaced }

def Insert.replaced (m : Insert) : Insert := { m with rows := m.rows.map Row.replaced }

theorem map_settled {es : List (String × Json)} (h : ∀ e ∈ es, e.2.settled = e.2) :
    es.map (fun e => (e.1, e.2.settled)) = es := by
  rw [List.map_congr_left (g := id), List.map_id]
  intro e he
  rw [h e he]
  rfl

theorem Update.settled_toJson (m : Update) : m.toJson.settled = m.replaced.toJson := by
  refine (Json.settled_object ["tables", "joins", "where", "type", "values"] (List.Sublist.refl _)
    (by decide)).trans ?_
  simp only [List.map_append, map_settled (settled_sources m.tables m.joins), List.map_cons,
    settled_filterEntry, Row.settled_toJson]
  rfl

theorem settled_columnNames (names : Option (List String)) :
    ∀ e ∈ Stored.optional "columns" (names.map texts), e.2.settled = e.2 := by
  refine settled_optional fun j hj => ?_
  obtain ⟨names, -, rfl⟩ := Option.map_eq_some_iff.1 hj
  exact Json.settled_list_eq fun _ _ => rfl

theorem settled_sourceQuery (source : Option Select) :
    ∀ e ∈ Stored.optional "query" (source.map Select.toJson), e.2.settled = e.2 := by
  refine settled_optional fun j hj => ?_
  obtain ⟨q, -, rfl⟩ := Option.map_eq_some_iff.1 hj
  exact q.settled_toJson

theorem Insert.settled_toJson (m : Insert) : m.toJson.settled = m.replaced.toJson := by
  have hrows : (Json.list (m.rows.map Row.toJson)).settled =
    .list ((m.rows.map Row.replaced).map Row.toJson) := by
    rw [Json.settled_list, List.map_map, List.map_map]
    exact congrArg Json.list (List.map_congr_left fun r _ => r.settled_toJson)
  have hnames : (Entries.keys ([tagEntry NodeKind.insert.tag, ("table", Json.text m.table)] ++
      Stored.optional "columns" (m.columnNames.map texts) ++
        [("values", Json.list (m.rows.map Row.toJson))] ++
      Stored.optional "query" (m.source.map Select.toJson))).Sublist
        ["type", "table", "columns", "values", "query"] := by
    cases m.columnNames <;> cases m.source <;> simp [Entries.keys, Stored.optional, tagEntry]
  refine (Json.settled_object _ hnames (by decide)).trans ?_
  simp only [List.map_append, map_settled (settled_columnNames m.columnNames),
    map_settled (settled_sourceQuery m.source), List.map_cons, List.map_nil, hrows]
  rfl

namespace Node

/-- The node with replacements for the halves in the columns of its rows. -/
def replaced : Node → Node
  | .update m => .update m.replaced
  | .insert m => .insert m.replaced
  | n => n

/-- The rows of a node. -/
def rows : Node → List Row
  | .update m => [m.assignments]
  | .insert m => m.rows
  | _ => []

/-- What leaves the library is the stored form of the node with replaced columns. -/
theorem settled_toJson (n : Node) : n.toJson.settled = n.replaced.toJson := by
  cases n with
  | table t => exact t.settled_toJson
  | join j => exact j.settled_toJson
  | select q => exact q.settled_toJson
  | projection p => exact p.settled_toJson
  | condition c => exact c.settled_toJson
  | delete m => exact m.settled_toJson
  | update m => exact m.settled_toJson
  | insert m => exact m.settled_toJson

/-- A node stays exactly if the columns of its rows hold no halves. -/
theorem replaced_eq_self_iff (n : Node) :
    n.replaced = n ↔ ∀ r ∈ n.rows, ∀ c ∈ r.columns, Text.isWhole c = true := by
  cases n with
  | update m =>
    obtain ⟨tables, joins, filters, assignments⟩ := m
    simp [replaced, rows, Update.replaced, Row.replaced_eq_self_iff]
  | insert m =>
    obtain ⟨table, columns, rs, source⟩ := m
    have hmap : rs.map Row.replaced = rs ↔ ∀ r ∈ rs, r.replaced = r := by
      constructor
      · intro h r hr
        exact List.map_inj_left.1 (h.trans (List.map_id rs).symm) r hr
      · intro h
        rw [List.map_congr_left (g := id) h, List.map_id]
    simp [replaced, rows, Insert.replaced, hmap, Row.replaced_eq_self_iff]
  | _ => simp [replaced, rows]

end Node

end SqlAst
