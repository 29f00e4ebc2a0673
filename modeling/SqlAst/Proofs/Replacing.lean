import SqlAst.Proofs.Assignments
import SqlAst.Proofs.Codecs
import SqlAst.Proofs.TextClasses

/-!
# Nodes with some fields replaced

Replacing checks the given values only and takes the others from the node. That is the same as checking all
fields anew, under the names that they have in calls, because what a node has in a field passes the rule of the
field unchanged, whatever the other fields are.

* `Node.check_field`: what a node has in a field passes the rule of the field.
* `Node.replace_eq_assemble`: a replaced node is assembled from the data of all its fields.
* `Node.isOk_replace`, `Node.issues_replace`, `Node.replace_keeps`: when there is a new node, what is reported
  otherwise, and what the new node has in its fields.
* `Node.replace_changes`: the four together.
-/
namespace SqlAst

/-! ## Names of fields -/

/-- The type of a node. -/
def Node.type (n : Node) : NodeType := (n.kind?.map .stored).getD .projection

/-- The names of the declared fields. -/
def NodeType.names (t : NodeType) : List String := t.rules.map FieldRule.name

theorem Node.keys_fields (n : Node) : Entries.keys n.fields = n.type.names := by
  cases n with
  | condition c => cases c <;> rfl
  | _ => rfl

theorem NodeType.nodup_names (t : NodeType) : t.names.Nodup := by
  cases t with
  | projection => decide
  | stored kind =>
    cases kind with
    | condition kind =>
      cases kind with
      | compare op => cases op <;> decide
      | like negated => cases negated <;> decide
      | isNull negated => cases negated <;> decide
      | combine connective => cases connective <;> decide
      | _ => decide
    | _ => decide

theorem Node.nodup_fields (n : Node) : (Entries.keys n.fields).Nodup := by
  rw [n.keys_fields]
  exact n.type.nodup_names

theorem Node.fst_mem_names (n : Node) : ∀ e ∈ n.fields, e.1 ∈ n.type.names := by
  intro e he
  rw [← n.keys_fields]
  exact List.mem_map_of_mem he

/-- No name of a field of the type is taken for the stored name of this one. -/
def FieldName.IsOwn (f : FieldName) (t : NodeType) : Prop := f.stored = f.name ∨ f.stored ∉ t.names

instance (f : FieldName) (t : NodeType) : Decidable (f.IsOwn t) :=
  inferInstanceAs (Decidable (_ ∨ _))

/-! ## Data by names -/

namespace Entries

/-- The data of a name; null if there is none. -/
def datum (es : List (String × Datum)) (name : String) : Datum := (last? name es).getD .null

theorem datum_merge {fields changes : List (String × Datum)} (h : (keys fields).Nodup) (name : String) :
    datum (merge fields changes) name = (last? name changes).getD (datum fields name) := by
  rw [datum, last?_merge h]
  cases last? name changes <;> rfl

variable {α : Type} {names : List String}

theorem last?_of_keys {es : List (String × α)} {name : String} (h : ∀ e ∈ es, e.1 ∈ names)
    (hname : name ∉ names) : last? name es = none :=
  last?_eq_none_iff.2 fun e he hkey => hname (hkey ▸ h e he)

theorem fst_mem_merge {done es : List (String × α)} (hdone : ∀ e ∈ done, e.1 ∈ names)
    (hes : ∀ e ∈ es, e.1 ∈ names) : ∀ e ∈ merge done es, e.1 ∈ names := by
  induction es generalizing done with
  | nil => exact hdone
  | cons first rest ih =>
    obtain ⟨hfirst, hrest⟩ := List.forall_mem_cons.1 hes
    refine ih (fun e he => ?_) hrest
    rcases fst_of_mem_put he with hkey | hkey
    · exact hkey ▸ hfirst
    · obtain ⟨e', he', hkey⟩ := List.mem_map.1 hkey
      exact hkey ▸ hdone e' he'

end Entries

theorem Datum.valueAt?_named (name : String) (es : List (String × Datum)) :
    Datum.valueAt? name (Build.named es) = Entries.last? name es := by
  induction es with
  | nil => rfl
  | cons e rest ih =>
    show (valueAt? name (Build.named rest)).or _ = (Entries.last? name rest).or _
    rw [ih]
    simp only [asText?, Option.some.injEq, beq_iff_eq]

/-! ## Checks of single fields -/

section

variable {α : Type} {c : Codec α} {f : FieldName} {t : NodeType} {es : List (String × Datum)}
  {absent : Checked α} {value : (d : Datum) → sizeOf d < sizeOf (Build.named es) → Checked α}
  (hf : f.IsOwn t) (hes : ∀ e ∈ es, e.1 ∈ t.names)

include hf hes

theorem FieldName.IsOwn.valueAt?_stored (hne : f.stored ≠ f.name) :
    Datum.valueAt? f.stored (Build.named es) = none := by
  rw [Datum.valueAt?_named]
  exact Entries.last?_of_keys hes (hf.resolve_left hne)

theorem Fields.check_of_last? {d : Datum} (hd : Entries.last? f.name es = some d) :
    ∃ hsize, (Build.named es).check f absent value = (value d hsize).under (.key f.name) := by
  have hnamed : Datum.valueAt? f.name (Build.named es) = some d := by rw [Datum.valueAt?_named, hd]
  by_cases hne : f.stored = f.name
  · rw [← hne] at hnamed ⊢
    exact ⟨_, Fields.check_of_stored hnamed⟩
  · exact ⟨_, Fields.check_of_named (hf.valueAt?_stored hes hne) hnamed⟩

theorem Fields.check_of_last?_none (hd : Entries.last? f.name es = none) :
    (Build.named es).check f absent value = absent := by
  have hnamed : Datum.valueAt? f.name (Build.named es) = none := by rw [Datum.valueAt?_named, hd]
  by_cases hne : f.stored = f.name
  · refine Fields.check_absent ?_ hnamed
    rw [hne, hnamed]
  · exact Fields.check_absent (hf.valueAt?_stored hes hne) hnamed

end

/-! ## Data of all fields -/

/-- Entries for fields of a type, and the data of all of its fields: those that are not given are taken from a
node. -/
structure Supplies (t : NodeType) (base : Option Node) (es : List (String × Datum)) (data : String → Datum) :
    Prop where
  names : ∀ e ∈ es, e.1 ∈ t.names
  given : ∀ name d, Entries.last? name es = some d → data name = d
  kept : ∀ name ∈ t.names, Entries.last? name es = none →
    ∃ n, base = some n ∧ data name = Entries.datum n.fields name

namespace Supplies

variable {α : Type} {f : FieldName} {t : NodeType} {base : Option Node} {es changes : List (String × Datum)}
  {data : String → Datum}

theorem of_changes (n : Node) (h : ∀ e ∈ changes, e.1 ∈ n.type.names) :
    Supplies n.type (some n) changes (Entries.datum (Entries.merge n.fields changes)) where
  names := h
  given name d hd := by
    rw [Entries.datum_merge n.nodup_fields, hd]
    rfl
  kept name _ hnone := by
    refine ⟨n, rfl, ?_⟩
    rw [Entries.datum_merge n.nodup_fields, hnone]
    rfl

/-- Where all fields are given, it does not matter whether there is a node. -/
theorem of_merged (n : Node) (h : ∀ e ∈ changes, e.1 ∈ n.type.names) (base : Option Node) :
    Supplies n.type base (Entries.merge n.fields changes) (Entries.datum (Entries.merge n.fields changes)) where
  names := Entries.fst_mem_merge n.fst_mem_names h
  given name d hd := by
    rw [Entries.datum, hd]
    rfl
  kept name hname hnone := by
    rw [Entries.last?_merge n.nodup_fields, Option.or_eq_none_iff] at hnone
    rw [← n.keys_fields] at hname
    obtain ⟨e, he, rfl⟩ := List.mem_map.1 hname
    exact absurd rfl (Entries.last?_eq_none_iff.1 hnone.2 e he)

/-- A field that is given or kept is read from the data of its name. -/
theorem check (h : Supplies t base es data) {c : Codec α} {absent : Checked α}
    {value : (d : Datum) → sizeOf d < sizeOf (Build.named es) → Checked α} (hf : f.IsOwn t)
    (hname : f.name ∈ t.names)
    (hbase : ∀ n, base = some n → ∃ a, absent = .ok a ∧ Entries.datum n.fields f.name = c.datum a)
    (hvalue : ∀ d hd, value d hd = c.check d) :
    (Build.named es).check f absent value = c.read f.name data := by
  cases hlast : Entries.last? f.name es with
  | none =>
    obtain ⟨n, hn, hdata⟩ := h.kept f.name hname hlast
    obtain ⟨a, rfl, ha⟩ := hbase n hn
    rw [Fields.check_of_last?_none hf h.names hlast, Codec.read, hdata, ha, c.check_datum]
    rfl
  | some d =>
    obtain ⟨hsize, hcheck⟩ : ∃ hsize, (Build.named es).check f absent value = (value d hsize).under _ :=
      Fields.check_of_last? hf h.names hlast
    rw [hcheck, hvalue, Codec.read, h.given f.name d hlast]

end Supplies

theorem Checked.fmap_congr {α β : Type} {f : α → β} {a b : Checked α} (h : a = b) : f <$> a = f <$> b := by
  rw [h]

theorem Checked.seq_congr {α β : Type} {f g : Checked (α → β)} {a b : Checked α} (hf : f = g) (h : a = b) :
    f <*> a = g <*> b := by
  rw [hf, h]

open Checked (fmap_congr seq_congr)

/-! ## Nodes field by field -/

section

variable {es : List (String × Datum)} {data : String → Datum}

theorem Fields.table_assembled {base : Option Table}
    (h : Supplies (.stored .table) (base.map .table) es data) :
    Checked.map .table (Fields.table base (Build.named es) (checkParts .data _)) =
      (NodeType.stored .table).assemble data := by
  refine congrArg (Checked.map Node.table) ?_
  unfold Fields.table Fields.tag Fields.optional
  iterate 2 refine seq_congr ?_ ?_
  refine fmap_congr ?_
  all_goals
    refine h.check (by decide) (by decide) (fun n hn => ?_) fun _ _ => rfl
    obtain ⟨t, rfl, rfl⟩ := Option.map_eq_some_iff.1 hn
    exact ⟨_, rfl, rfl⟩

theorem Fields.join_assembled {base : Option Join} (h : Supplies (.stored .join) (base.map .join) es data) :
    Checked.map .join (Fields.join base (Build.named es) (checkParts .data _)) =
      (NodeType.stored .join).assemble data := by
  refine congrArg (Checked.map Node.join) ?_
  unfold Fields.join Fields.tag Fields.optional
  iterate 3 refine seq_congr ?_ ?_
  refine fmap_congr ?_
  all_goals
    refine h.check (by decide) (by decide) (fun n hn => ?_) fun d _ => ?_
    · obtain ⟨j, rfl, rfl⟩ := Option.map_eq_some_iff.1 hn
      exact ⟨_, rfl, rfl⟩
    · cases d <;> rfl

theorem Fields.select_assembled {base : Select}
    (h : Supplies (.stored .select) (some (.select base)) es data) :
    Checked.map .select (Fields.select base (Build.named es) (checkParts .data _)) =
      (NodeType.stored .select).assemble data := by
  refine congrArg (Checked.map Node.select) ?_
  unfold Fields.select Fields.tag Fields.leaves Fields.optional
  iterate 10 refine seq_congr ?_ ?_
  refine fmap_congr ?_
  all_goals
    refine h.check (by decide) (by decide) (fun n hn => ?_) fun _ _ => rfl
    obtain rfl := Option.some.inj hn
    exact ⟨_, rfl, rfl⟩

theorem Fields.projection_assembled {base : Projection}
    (h : Supplies .projection (some (.projection base)) es data) :
    Checked.map .projection (Fields.projection base (Build.named es) (checkParts .data _)) =
      NodeType.projection.assemble data := by
  refine congrArg (Checked.map Node.projection) ?_
  unfold Fields.projection Fields.leaves Fields.optional
  iterate 2 refine seq_congr ?_ ?_
  refine fmap_congr ?_
  all_goals
    refine h.check (by decide) (by decide) (fun n hn => ?_) fun _ _ => rfl
    obtain rfl := Option.some.inj hn
    exact ⟨_, rfl, rfl⟩

theorem Fields.delete_assembled {base : Delete}
    (h : Supplies (.stored .delete) (some (.delete base)) es data) :
    Checked.map .delete (Fields.delete base (Build.named es) (checkParts .data _)) =
      (NodeType.stored .delete).assemble data := by
  refine congrArg (Checked.map Node.delete) ?_
  unfold Fields.delete Fields.tag Fields.optional
  iterate 3 refine seq_congr ?_ ?_
  refine fmap_congr ?_
  all_goals
    refine h.check (by decide) (by decide) (fun n hn => ?_) fun _ _ => rfl
    obtain rfl := Option.some.inj hn
    exact ⟨_, rfl, rfl⟩

theorem Fields.update_assembled {base : Update}
    (h : Supplies (.stored .update) (some (.update base)) es data) :
    Checked.map .update (Fields.update base (Build.named es) (checkParts .data _)) =
      (NodeType.stored .update).assemble data := by
  refine congrArg (Checked.map Node.update) ?_
  unfold Fields.update Fields.tag Fields.optional
  iterate 4 refine seq_congr ?_ ?_
  refine fmap_congr ?_
  all_goals
    refine h.check (by decide) (by decide) (fun n hn => ?_) fun _ _ => rfl
    obtain rfl := Option.some.inj hn
    exact ⟨_, rfl, rfl⟩

theorem Fields.insert_assembled {base : Option Insert}
    (h : Supplies (.stored .insert) (base.map .insert) es data) :
    Checked.map .insert (Fields.insert base (Build.named es) (checkParts .data _)) =
      (NodeType.stored .insert).assemble data := by
  refine congrArg (Checked.map Node.insert) ?_
  unfold Fields.insert Fields.tag Fields.leaves Fields.optional
  iterate 4 refine seq_congr ?_ ?_
  refine fmap_congr ?_
  all_goals
    refine h.check (by decide) (by decide) (fun n hn => ?_) fun d _ => ?_
    · obtain ⟨m, rfl, rfl⟩ := Option.map_eq_some_iff.1 hn
      exact ⟨_, rfl, rfl⟩
    · cases d <;> rfl

/-- The condition that is replaced, if any, is of the same kind. -/
theorem Fields.condition_assembled {kind : ConditionKind} {base : Option Condition}
    (hkind : ∀ c, base = some c → c.kind = kind)
    (h : Supplies (.stored (.condition kind)) (base.map .condition) es data) :
    Checked.map .condition (Fields.condition kind base (Build.named es) (checkParts .data _)) =
      (NodeType.stored (.condition kind)).assemble data := by
  refine congrArg (Checked.map Node.condition) ?_
  cases kind with
  | isNull | combine =>
    unfold Fields.condition Fields.tag Fields.optional
    refine seq_congr ?_ ?_
    refine fmap_congr ?_
    all_goals
      refine h.check (.inl rfl) (List.contains_iff_mem.1 rfl) (fun n hn => ?_) fun _ _ => rfl
      obtain ⟨c, rfl, rfl⟩ := Option.map_eq_some_iff.1 hn
      cases c <;> cases hkind _ rfl
      exact ⟨_, rfl, rfl⟩
  | _ =>
    unfold Fields.condition Fields.tag Fields.leaves Fields.optional
    iterate 2 refine seq_congr ?_ ?_
    refine fmap_congr ?_
    all_goals
      refine h.check (.inl rfl) (List.contains_iff_mem.1 rfl) (fun n hn => ?_) fun _ _ => rfl
      obtain ⟨c, rfl, rfl⟩ := Option.map_eq_some_iff.1 hn
      cases c <;> cases hkind _ rfl
      exact ⟨_, rfl, rfl⟩

end

theorem Node.replace_nil (n : Node) : n.replace [] = .ok n := by
  cases n with
  | condition c => cases c <;> rfl
  | table t =>
    cases t
    rfl
  | join j =>
    cases j
    rfl
  | select q =>
    cases q
    rfl
  | _ => rfl

/-! ## Changed fields and kept ones -/

namespace FieldRule

variable {r : FieldRule} {data : String → Datum} {changes : List (String × Datum)}

/-- What the rule reports of the changes, with the name of the field as the first step of each place. -/
def issues (r : FieldRule) (changes : List (String × Datum)) : List Issue :=
  match Entries.last? r.name changes with
  | none => []
  | some d => ((r.check d).under (.key r.name)).issues

theorem read_eq_ok_iff {e : String × Datum} :
    r.read data = .ok e ↔ e.1 = r.name ∧ r.check (data r.name) = .ok e.2 := by
  rw [read, Checked.map_eq_ok_iff]
  constructor
  · rintro ⟨d, hd, rfl⟩
    exact ⟨rfl, Checked.under_eq_ok_iff.1 hd⟩
  · rintro ⟨hname, hd⟩
    exact ⟨e.2, Checked.under_eq_ok_iff.2 hd, by rw [← hname]⟩

theorem isOk_read : (r.read data).isOk = (r.check (data r.name)).isOk := by
  rw [read, Checked.isOk_map, Checked.isOk_under]

theorem issues_read : (r.read data).issues = ((r.check (data r.name)).under (.key r.name)).issues :=
  Checked.issues_map _ _

end FieldRule

theorem Node.replace_type (n : Node) (changes : Fields) :
    (n.replace changes).Gives fun m => m.type = n.type := by
  cases n with
  | condition c =>
    have hkind := Fields.condition_kind c.kind (some c) changes (checkParts .data changes)
    exact Checked.gives_map fun c' hc' => congrArg (NodeType.stored ∘ NodeKind.condition) (hkind c' hc')
  | _ => exact Checked.gives_map fun _ _ => rfl

section

variable (n : Node) {changes : List (String × Datum)} (h : ∀ e ∈ changes, e.1 ∈ n.type.names)

include h

/-- Only the changed fields are checked, and yet the node is the one that all fields together make. -/
theorem Node.replace_eq_assemble :
    n.replace (Build.named changes) = n.type.assemble (Entries.datum (Entries.merge n.fields changes)) := by
  have hchanges := Supplies.of_changes n h
  cases n with
  | table t => exact Fields.table_assembled hchanges
  | join j => exact Fields.join_assembled hchanges
  | select q => exact Fields.select_assembled hchanges
  | projection p => exact Fields.projection_assembled hchanges
  | condition c => exact Fields.condition_assembled (fun _ hc => congrArg _ (Option.some.inj hc).symm) hchanges
  | delete m => exact Fields.delete_assembled hchanges
  | update m => exact Fields.update_assembled hchanges
  | insert m => exact Fields.insert_assembled hchanges

theorem Node.ofFields_merged :
    n.type.ofFields .data (Build.named (Entries.merge n.fields changes)) = n.replace (Build.named changes) := by
  rw [n.replace_eq_assemble h]
  have hmerged := Supplies.of_merged n h
  cases n with
  | table t => exact Fields.table_assembled (hmerged none)
  | join j => exact Fields.join_assembled (hmerged none)
  | select q => exact Fields.select_assembled (hmerged _)
  | projection p => exact Fields.projection_assembled (hmerged _)
  | condition c => exact Fields.condition_assembled (fun _ hc => nomatch hc) (hmerged none)
  | delete m => exact Fields.delete_assembled (hmerged _)
  | update m => exact Fields.update_assembled (hmerged _)
  | insert m => exact Fields.insert_assembled (hmerged none)

theorem Node.map_fields_replace :
    Checked.map Node.fields (n.replace (Build.named changes)) =
      Checked.gather (n.type.rules.map (·.read (Entries.datum (Entries.merge n.fields changes)))) := by
  rw [n.replace_eq_assemble h, NodeType.map_fields_assemble]

end

/-- The fields of a replaced node, one for each rule. -/
theorem Node.fields_of_replace {n m : Node} {changes : List (String × Datum)}
    (h : ∀ e ∈ changes, e.1 ∈ n.type.names) (hm : n.replace (Build.named changes) = .ok m) {r : FieldRule}
    (hr : r ∈ n.type.rules) :
    r.check (Entries.datum (Entries.merge n.fields changes) r.name) = .ok (Entries.datum m.fields r.name) := by
  have hfields := n.map_fields_replace h
  rw [hm] at hfields
  have hreads := (Checked.gather_eq_ok_iff _).1 hfields.symm
  have hread : r.read (Entries.datum (Entries.merge n.fields changes)) ∈ m.fields.map Checked.ok := by
    rw [← hreads]
    exact List.mem_map_of_mem hr
  obtain ⟨e, he, heq⟩ := List.mem_map.1 hread
  obtain ⟨hname, hcheck⟩ := FieldRule.read_eq_ok_iff.1 heq.symm
  have hdatum : Entries.datum m.fields r.name = e.2 := by
    rw [Entries.datum, ← hname, (Entries.mem_iff_last? m.nodup_fields e.1 e.2).1 he]
    rfl
  rw [hdatum, hcheck]

/-- What a node has in a field passes the rule of the field unchanged. -/
theorem Node.check_field (n : Node) {r : FieldRule} (hr : r ∈ n.type.rules) :
    r.check (Entries.datum n.fields r.name) = .ok (Entries.datum n.fields r.name) :=
  have hnone : ∀ e ∈ ([] : List (String × Datum)), e.1 ∈ n.type.names := List.forall_mem_nil _
  fields_of_replace hnone n.replace_nil hr

theorem Node.last?_field (n : Node) {r : FieldRule} (hr : r ∈ n.type.rules) :
    Entries.last? r.name n.fields = some (Entries.datum n.fields r.name) := by
  have hkey : r.name ∈ Entries.keys n.fields := by
    rw [n.keys_fields]
    exact List.mem_map_of_mem hr
  cases hlast : Entries.last? r.name n.fields with
  | some d => rw [Entries.datum, hlast, Option.getD_some]
  | none =>
    obtain ⟨e, he, hname⟩ := List.mem_map.1 hkey
    exact absurd hname (Entries.last?_eq_none_iff.1 hlast e he)

section

variable (n : Node) {changes : List (String × Datum)} {r : FieldRule} (hr : r ∈ n.type.rules)

include hr

theorem Node.isOk_read_merged :
    (r.read (Entries.datum (Entries.merge n.fields changes))).isOk ↔
      ∀ d, Entries.last? r.name changes = some d → (r.check d).isOk := by
  rw [FieldRule.isOk_read, Entries.datum_merge n.nodup_fields]
  cases Entries.last? r.name changes with
  | none =>
    rw [Option.getD_none, n.check_field hr]
    simp [Checked.isOk]
  | some d => simp

theorem Node.issues_read_merged :
    (r.read (Entries.datum (Entries.merge n.fields changes))).issues = r.issues changes := by
  rw [FieldRule.issues_read, Entries.datum_merge n.nodup_fields, FieldRule.issues]
  cases Entries.last? r.name changes with
  | none =>
    rw [Option.getD_none, n.check_field hr]
    rfl
  | some d => rfl

end

theorem FieldRule.head_place {r : FieldRule} {changes : List (String × Datum)} {i : Issue}
    (hi : i ∈ r.issues changes) : ∃ c ∈ changes, i.place.head? = some (.key c.1) := by
  unfold issues at hi
  split at hi
  · cases hi
  · rename_i d hd
    obtain ⟨before, after, hsplit, -⟩ := Entries.last?_eq_some_iff.1 hd
    refine ⟨(r.name, d), by rw [hsplit]; simp, ?_⟩
    cases hcheck : r.check d with
    | ok v =>
      rw [hcheck] at hi
      cases hi
    | bad is =>
      rw [hcheck] at hi
      obtain ⟨i', -, rfl⟩ := List.mem_map.1 hi
      rfl

section

variable (n : Node) {changes : List (String × Datum)} (h : ∀ e ∈ changes, e.1 ∈ n.type.names)

include h

theorem Node.isOk_replace :
    (n.replace (Build.named changes)).isOk ↔
      ∀ r ∈ n.type.rules, ∀ d, Entries.last? r.name changes = some d → (r.check d).isOk := by
  rw [← Checked.isOk_map Node.fields, n.map_fields_replace h, Checked.isOk_gather, List.all_map,
    List.all_eq_true]
  exact forall₂_congr fun r hr => n.isOk_read_merged hr

theorem Node.issues_replace :
    (n.replace (Build.named changes)).issues = n.type.rules.flatMap (·.issues changes) := by
  rw [← Checked.issues_map Node.fields, n.map_fields_replace h, Checked.issues_gather, List.flatMap_map]
  exact List.flatMap_congr fun r hr => n.issues_read_merged hr

end

theorem Node.replace_keeps {n m : Node} {changes : List (String × Datum)}
    (h : ∀ e ∈ changes, e.1 ∈ n.type.names) (hm : n.replace (Build.named changes) = .ok m) {r : FieldRule}
    (hr : r ∈ n.type.rules) :
    match Entries.last? r.name changes with
    | none => Entries.last? r.name m.fields = Entries.last? r.name n.fields
    | some d => ∃ v, r.check d = .ok v ∧ Entries.last? r.name m.fields = some v := by
  have hcheck := Node.fields_of_replace h hm hr
  have hmr : r ∈ m.type.rules := by
    rw [n.replace_type _ m hm]
    exact hr
  rw [Entries.datum_merge n.nodup_fields] at hcheck
  rw [m.last?_field hmr, n.last?_field hr]
  cases hlast : Entries.last? r.name changes with
  | none =>
    rw [hlast, Option.getD_none, n.check_field hr, Checked.ok.injEq] at hcheck
    rw [hcheck]
  | some d =>
    rw [hlast] at hcheck
    exact ⟨_, hcheck, rfl⟩

namespace Checked

variable {α : Type} {c : Checked α} {title : String}

theorem exists_orInvalid_eq_ok_iff : (∃ a, c.orInvalid title = .ok a) ↔ c.isOk := by
  cases c <;> simp [orInvalid, isOk]

theorem eq_of_orInvalid_eq_error {e : Failure} (h : c.orInvalid title = .error e) :
    e = .fault (.invalid ⟨title, c.issues⟩) := by
  cases c with
  | ok a => cases h
  | bad is =>
    cases h
    rfl

end Checked

/-! ## Replacing -/

/-- Replacing changes only what it is given, and blames only that. All fields are checked anew, which keeps
those that are not given; a node is made exactly if each given value passes the rule of its field on its own,
and then it is of the same type and differs in the given fields only. Otherwise all that the rules have to say
about the given values is reported, field by field, each under the name of its field. -/
theorem Node.replace_changes (n : Node) {changes : List (String × Datum)}
    (h : ∀ e ∈ changes, e.1 ∈ n.type.names) :
    let o := (n.replace (Build.named changes)).orInvalid n.typeName
    n.replace (Build.named changes) =
        n.type.ofFields .data (Build.named (Entries.merge n.fields changes)) ∧
      ((∃ m, o = .ok m) ↔
        ∀ r ∈ n.type.rules, ∀ d, Entries.last? r.name changes = some d → (r.check d).isOk) ∧
      (∀ m, o = .ok m → m.type = n.type ∧ ∀ r ∈ n.type.rules,
        match Entries.last? r.name changes with
        | none => Entries.last? r.name m.fields = Entries.last? r.name n.fields
        | some d => ∃ v, r.check d = .ok v ∧ Entries.last? r.name m.fields = some v) ∧
      (∀ e, o = .error e → ∃ f issues, e = .fault f ∧ f.code = .validation ∧
        f = .invalid ⟨n.typeName, issues⟩ ∧ issues = n.type.rules.flatMap (·.issues changes) ∧
        ∀ i ∈ issues, ∃ c ∈ changes, i.place.head? = some (.key c.1)) ∧
      n.replace [] = .ok n := by
  refine ⟨(n.ofFields_merged h).symm, ?_, ?_, ?_, n.replace_nil⟩
  · rw [← n.isOk_replace h]
    exact Checked.exists_orInvalid_eq_ok_iff
  · intro m hm
    have hmade := Checked.orInvalid_eq_ok_iff.1 hm
    exact ⟨n.replace_type _ m hmade, fun r hr => Node.replace_keeps h hmade hr⟩
  · intro e he
    have hissues := n.issues_replace h
    refine ⟨_, _, Checked.eq_of_orInvalid_eq_error he, rfl, rfl, hissues, fun i hi => ?_⟩
    rw [hissues] at hi
    obtain ⟨r, -, hi⟩ := List.mem_flatMap.1 hi
    exact FieldRule.head_place hi

/-- Two values that are no counts, the later field first. -/
def badBounds : List (String × Datum) := [("offset_value", .int (-1)), ("limit_value", .list [])]

/-- Both are reported, in the order of the fields. -/
theorem Node.replace_changes_badBounds :
    (∀ e ∈ badBounds, e.1 ∈ (Node.select {}).type.names) ∧
      ((Node.select {}).replace (Build.named badBounds)).orInvalid "SelectQuery" =
        .error (.fault (.invalid ⟨"SelectQuery",
          [⟨[.key "limit_value"], .notInteger⟩, ⟨[.key "offset_value"], .negative⟩]⟩)) := by
  have hnames : ∀ e ∈ badBounds, e.1 ∈ (Node.select {}).type.names := by decide
  obtain ⟨-, hmade, -, hfailed, -⟩ := Node.replace_changes (.select {}) hnames
  refine ⟨hnames, ?_⟩
  cases ho : ((Node.select {}).replace (Build.named badBounds)).orInvalid (Node.select {}).typeName with
  | ok m =>
    have hrule : Codec.limit.rule "limit_value" ∈ (Node.select {}).type.rules := by
      simp [Node.type, Node.kind?, NodeType.rules]
    have hlimit := hmade.1 ⟨m, ho⟩ _ hrule (.list []) rfl
    cases hlimit
  | error e =>
    obtain ⟨f, issues, rfl, -, rfl, rfl, -⟩ := hfailed e ho
    exact ho

end SqlAst
