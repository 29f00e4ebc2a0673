import Mathlib.Data.List.Forall2

/-!
# Steps that may fail

A step after another one, and a step made for each item of a list: when all succeed, and what then comes out.

* `except_bind_ok`: both of two steps succeed.
* `mapM_eq_ok_iff_forall₂`, `mapM_eq_some_iff_forall₂`: the step succeeds for all items.
* `mapM_cases`: or else the list fails as one of its items does.
-/
namespace SqlAst

section

variable {ε α β : Type}

theorem except_bind_ok {x : Except ε α} {g : α → Except ε β} {b : β}
    (h : (x >>= g) = .ok b) : ∃ a, x = .ok a ∧ g a = .ok b := by
  cases x with
  | error e => cases h
  | ok a => exact ⟨a, rfl, h⟩

variable {g : α → Except ε β}

theorem mapM_eq_ok_iff_forall₂ {xs : List α} {ys : List β} :
    xs.mapM g = .ok ys ↔ List.Forall₂ (fun x y => g x = .ok y) xs ys := by
  induction xs generalizing ys with
  | nil =>
    rw [List.mapM_nil, List.forall₂_nil_left_iff]
    exact ⟨fun h => (Except.ok.inj h).symm, fun h => h ▸ rfl⟩
  | cons x rest ih =>
    rw [List.mapM_cons, List.forall₂_cons_left_iff]
    constructor
    · intro h
      obtain ⟨y, hy, h⟩ := except_bind_ok h
      obtain ⟨more, hmore, h⟩ := except_bind_ok h
      cases h
      exact ⟨y, more, hy, ih.mp hmore, rfl⟩
    · rintro ⟨y, more, hy, hmore, rfl⟩
      rw [hy, ih.mpr hmore]
      rfl

theorem exists_of_mapM_ok {xs : List α} {ys : List β} {y : β} (h : xs.mapM g = .ok ys) (hy : y ∈ ys) :
    ∃ x ∈ xs, g x = .ok y := by
  rw [mapM_eq_ok_iff_forall₂] at h
  induction h with
  | nil => cases hy
  | cons hfirst _ ih =>
    rcases List.mem_cons.mp hy with rfl | hy
    · exact ⟨_, List.mem_cons_self, hfirst⟩
    · obtain ⟨x, hx, hmade⟩ := ih hy
      exact ⟨x, List.mem_cons_of_mem _ hx, hmade⟩

/-- What fails for some item fails for the list, and with the failure of an item. -/
theorem mapM_cases (xs : List α) :
    ((∃ ys, xs.mapM g = .ok ys) ∧ ∀ x ∈ xs, ∃ y, g x = .ok y) ∨
      ∃ x ∈ xs, ∃ e, g x = .error e ∧ xs.mapM g = .error e := by
  induction xs with
  | nil => exact .inl ⟨⟨[], rfl⟩, by simp⟩
  | cons x rest ih =>
    rw [List.mapM_cons]
    cases hx : g x with
    | error e => exact .inr ⟨x, List.mem_cons_self, e, hx, rfl⟩
    | ok y =>
      rcases ih with ⟨⟨ys, hys⟩, hrest⟩ | ⟨x', hx', e, he, hfails⟩
      · refine .inl ⟨⟨y :: ys, by rw [hys]; rfl⟩, List.forall_mem_cons.mpr ⟨⟨y, hx⟩, hrest⟩⟩
      · exact .inr ⟨x', List.mem_cons_of_mem _ hx', e, he, by rw [hfails]; rfl⟩

end

/-! ## Steps without a reason for failing -/

section

variable {α β : Type} {f : α → Option β}

theorem mapM_cons_eq (f : α → Option β) (x : α) (rest : List α) :
    (x :: rest).mapM f = (f x).bind fun y => (rest.mapM f).map (y :: ·) := by
  rw [List.mapM_cons]
  cases f x with
  | none => rfl
  | some y => cases rest.mapM f <;> rfl

theorem isSome_mapM (f : α → Option β) (xs : List α) : (xs.mapM f).isSome = xs.all fun x => (f x).isSome := by
  induction xs with
  | nil => rfl
  | cons x rest ih =>
    rw [mapM_cons_eq, List.all_cons, ← ih]
    cases f x <;> cases rest.mapM f <;> rfl

theorem mapM_eq_some {g : α → β} {xs : List α} (h : ∀ x ∈ xs, f x = some (g x)) :
    xs.mapM f = some (xs.map g) := by
  induction xs with
  | nil => rfl
  | cons x rest ih => simp [h x (by simp), ih fun y hy => h y (by simp [hy])]

theorem mapM_eq_some_iff_forall₂ {xs : List α} {ys : List β} :
    xs.mapM f = some ys ↔ List.Forall₂ (fun x y => f x = some y) xs ys := by
  induction xs generalizing ys with
  | nil => simp [eq_comm]
  | cons x rest ih =>
    rw [mapM_cons_eq, Option.bind_eq_some_iff, List.forall₂_cons_left_iff]
    simp only [Option.map_eq_some_iff, ih]
    constructor
    · rintro ⟨y, hy, more, hmore, rfl⟩
      exact ⟨y, more, hy, hmore, rfl⟩
    · rintro ⟨y, more, hy, hmore, rfl⟩
      exact ⟨y, hy, more, hmore, rfl⟩

end

end SqlAst
