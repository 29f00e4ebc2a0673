import Mathlib.Order.MinMax
import Mathlib.Order.Lattice

/-!
# Truth values of SQL

Three values in the order no, unknown, yes. A conjunction has the least of its values, a disjunction the
greatest.

* `any_le_iff`: the bounds of a disjunction.
* `all_append`: a conjunction of conjunctions.
-/
namespace SqlAst.Sql

inductive Truth where
  | no
  | unknown
  | yes
  deriving DecidableEq

namespace Truth

def rank : Truth → Nat
  | no => 0
  | unknown => 1
  | yes => 2

theorem rank_injective : Function.Injective rank := by
  intro a b h
  cases a <;> cases b <;> first | rfl | cases h

instance : LinearOrder Truth := LinearOrder.lift' rank rank_injective

@[simp] theorem le_yes (a : Truth) : a ≤ yes := by cases a <;> decide

@[simp] theorem no_le (a : Truth) : no ≤ a := by cases a <;> decide

@[simp] theorem min_yes (a : Truth) : min a yes = a := min_eq_left (le_yes a)

@[simp] theorem max_no (a : Truth) : max a no = a := max_eq_left (no_le a)

/-- The value of a conjunction. -/
def all (vs : List Truth) : Truth := vs.foldr min yes

/-- The value of a disjunction. -/
def any (vs : List Truth) : Truth := vs.foldr max no

@[simp] theorem all_nil : all [] = yes := rfl

@[simp] theorem all_cons (v : Truth) (vs : List Truth) : all (v :: vs) = min v (all vs) := rfl

@[simp] theorem any_nil : any [] = no := rfl

@[simp] theorem any_cons (v : Truth) (vs : List Truth) : any (v :: vs) = max v (any vs) := rfl

@[simp] theorem all_singleton (v : Truth) : all [v] = v := min_yes v

theorem any_le_iff {a : Truth} {vs : List Truth} : any vs ≤ a ↔ ∀ v ∈ vs, v ≤ a := by
  induction vs with
  | nil => simp
  | cons v rest ih => simp [ih]

theorem le_any_of_mem {v : Truth} {vs : List Truth} (h : v ∈ vs) : v ≤ any vs :=
  any_le_iff.1 (le_refl _) v h

theorem all_append (vs ws : List Truth) : all (vs ++ ws) = min (all vs) (all ws) := by
  induction vs with
  | nil => exact (min_eq_right (le_yes _)).symm
  | cons v rest ih => simp [ih, min_assoc]

end Truth

end SqlAst.Sql
