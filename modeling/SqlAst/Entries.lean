/-!
# Entries in insertion order

Lists of keys with values, as written: `put` replaces a value in place or adds at the end, so that keys
stay distinct and keep the order in which they first came.
-/
namespace SqlAst.Entries

variable {κ α β : Type}

/-- Gives a key a value: in its place if the key is there, else at the end. -/
def put [BEq κ] (key : κ) (value : α) : List (κ × α) → List (κ × α)
  | [] => [(key, value)]
  | (k, v) :: rest => if k == key then (k, value) :: rest else (k, v) :: put key value rest

/-- Puts all entries of a list, from left to right. -/
def merge [BEq κ] (done entries : List (κ × α)) : List (κ × α) :=
  entries.foldl (fun done e => put e.1 e.2 done) done

/-- Each key once, in its first place, with its last value. -/
def unique [BEq κ] (entries : List (κ × α)) : List (κ × α) := merge [] entries

/-- The value of a key; of repeated entries the last counts. -/
def last? [BEq κ] (key : κ) : List (κ × α) → Option α
  | [] => none
  | (k, v) :: rest => (last? key rest).or (if k == key then some v else none)

/-- The keys. -/
def keys (entries : List (κ × α)) : List κ := entries.map Prod.fst

/-! ## Keys under `put` and `merge`, and the entry that counts last -/

/-- Putting adds no other key. -/
theorem fst_of_mem_put [BEq κ] {key : κ} {value : α} {es : List (κ × α)} {e : κ × α}
    (h : e ∈ put key value es) : e.1 = key ∨ e.1 ∈ keys es := by
  induction es with
  | nil =>
    cases List.mem_singleton.mp h
    exact .inl rfl
  | cons first rest ih =>
    obtain ⟨k, v⟩ := first
    unfold put at h
    split at h
    · rcases List.mem_cons.mp h with rfl | h
      · exact .inr List.mem_cons_self
      · exact .inr (List.mem_cons_of_mem _ (List.mem_map_of_mem h))
    · rcases List.mem_cons.mp h with rfl | h
      · exact .inr List.mem_cons_self
      · exact (ih h).imp_right (List.mem_cons_of_mem _)

section

variable [BEq κ] [LawfulBEq κ]

theorem keys_put (key : κ) (value : α) (es : List (κ × α)) :
    keys (put key value es) = if key ∈ keys es then keys es else keys es ++ [key] := by
  induction es with
  | nil => simp [put, keys]
  | cons e rest ih =>
    obtain ⟨k, v⟩ := e
    simp only [put]
    by_cases h : k == key
    · have : k = key := by simpa using h
      simp [keys, this]
    · have hne : ¬ k = key := by simpa using h
      have hne' : ¬ key = k := fun e => hne e.symm
      simp only [h, Bool.false_eq_true, ↓reduceIte]
      simp only [keys, List.map_cons, List.mem_cons, hne', false_or] at ih ⊢
      by_cases hk : key ∈ rest.map Prod.fst <;> simp [ih, hk]

theorem nodup_put {key : κ} {value : α} {es : List (κ × α)} (h : (keys es).Nodup) :
    (keys (put key value es)).Nodup := by
  rw [keys_put]
  split
  · exact h
  · next hk =>
    rw [List.nodup_append]
    refine ⟨h, by simp, ?_⟩
    intro a ha b hb
    simp only [List.mem_singleton] at hb
    rintro rfl
    exact hk (hb ▸ ha)

theorem nodup_merge {done entries : List (κ × α)} (h : (keys done).Nodup) :
    (keys (merge done entries)).Nodup := by
  induction entries generalizing done with
  | nil => exact h
  | cons e rest ih => exact ih (nodup_put h)

theorem last?_eq_none_iff {key : κ} {es : List (κ × α)} : last? key es = none ↔ ∀ e ∈ es, e.1 ≠ key := by
  induction es with
  | nil => simp [last?]
  | cons e rest ih => simp [last?, ih, and_comm]

/-- Of the entries of a key the last counts. -/
theorem last?_eq_some_iff {key : κ} {es : List (κ × α)} {value : α} :
    last? key es = some value ↔
      ∃ before after, es = before ++ (key, value) :: after ∧ ∀ e ∈ after, e.1 ≠ key := by
  induction es with
  | nil => simp [last?]
  | cons e rest ih =>
    obtain ⟨k, v⟩ := e
    rw [last?]
    cases hrest : last? key rest with
    | some found =>
      rw [hrest] at ih
      simp only [Option.some_or]
      constructor
      · intro h
        obtain ⟨before, after, rfl, hafter⟩ := ih.mp h
        exact ⟨(k, v) :: before, after, rfl, hafter⟩
      · rintro ⟨before, after, hsplit, hafter⟩
        cases before with
        | nil =>
          cases hsplit
          rw [last?_eq_none_iff.mpr hafter] at hrest
          cases hrest
        | cons first before =>
          cases hsplit
          exact ih.mpr ⟨before, after, rfl, hafter⟩
    | none =>
      have hnone := last?_eq_none_iff.mp hrest
      rw [Option.none_or]
      constructor
      · intro h
        split at h
        · rename_i hkey
          cases h
          cases eq_of_beq hkey
          exact ⟨[], rest, rfl, hnone⟩
        · cases h
      · rintro ⟨before, after, hsplit, -⟩
        cases before with
        | nil =>
          cases hsplit
          simp
        | cons first before =>
          cases hsplit
          exact absurd rfl (hnone (key, value) (by simp))

end

theorem mem_put {key : String} {value : α} {es : List (String × α)} {e : String × α}
    (h : e ∈ put key value es) :
    e = (key, value) ∨ e ∈ es := by
  induction es with
  | nil => exact .inl (List.mem_singleton.1 h)
  | cons first rest ih =>
    obtain ⟨k, v⟩ := first
    unfold put at h
    split at h
    · rename_i hk
      rcases List.mem_cons.1 h with h | h
      · rw [h, show k = key by simpa using hk]
        exact .inl rfl
      · exact .inr (List.mem_cons_of_mem _ h)
    · rcases List.mem_cons.1 h with h | h
      · exact .inr (by simp [h])
      · exact (ih h).imp_right (List.mem_cons_of_mem _)

theorem mem_merge {done es : List (String × α)} {e : String × α} (h : e ∈ merge done es) :
    e ∈ done ∨ e ∈ es := by
  induction es generalizing done with
  | nil => exact .inl h
  | cons first rest ih =>
    have hstep : merge done (first :: rest) = merge (put first.1 first.2 done) rest := rfl
    rw [hstep] at h
    rcases ih h with h | h
    · rcases mem_put h with h | h
      · exact .inr (by simp [h])
      · exact .inl h
    · exact .inr (List.mem_cons_of_mem _ h)

theorem mem_unique {es : List (String × α)} {e : String × α} (h : e ∈ unique es) : e ∈ es :=
  (mem_merge h).resolve_left (by simp)

theorem keys_append (es more : List (String × α)) : keys (es ++ more) = keys es ++ keys more := List.map_append

theorem mem_iff_last? {es : List (String × α)} (h : (keys es).Nodup) (key : String) (v : α) :
    (key, v) ∈ es ↔ last? key es = some v := by
  constructor
  · intro hmem
    obtain ⟨before, after, rfl⟩ := List.append_of_mem hmem
    rw [keys_append, List.nodup_append] at h
    have hafter : key ∉ keys after := (List.nodup_cons.mp h.2.1).1
    refine last?_eq_some_iff.mpr ⟨before, after, rfl, ?_⟩
    rintro later hlater rfl
    exact hafter (List.mem_map_of_mem hlater)
  · intro hlast
    obtain ⟨before, after, rfl, -⟩ := last?_eq_some_iff.mp hlast
    exact List.mem_append_right _ List.mem_cons_self

theorem last?_map (f : α → β) (es : List (String × α)) (key : String) :
    last? key (es.map fun e => (e.1, f e.2)) = (last? key es).map f := by
  induction es with
  | nil => rfl
  | cons e rest ih =>
    rw [List.map_cons, last?, last?, ih, Option.map_or]
    congr 1
    split <;> rfl

end SqlAst.Entries
