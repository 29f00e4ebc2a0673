import SqlAst.Datum.Basic

/-!
# Checked values

A check turns a datum into a value or reports all that is wrong with it, each issue with its place. Two
checks side by side report the issues of both; an issue inside a part is placed under the name or index
of that part.
-/
namespace SqlAst

/-- A step on the way to a part. -/
inductive Step where
  | key (name : String)
  | index (position : Int)
  deriving DecidableEq

/-- What is wrong at a place. -/
inductive IssueKind where
  | missing
  | notText
  | notBool
  | notInteger
  | notDouble
  | notFinite
  | notSequence
  | tooLong
  | notDictionary
  /-- A text with half of a surrogate pair where its characters matter. -/
  | notUnicode
  /-- A text that is no member of the vocabulary. -/
  | notMember
  /-- A tag other than the only one possible. -/
  | wrongTag
  /-- Neither an object of the type nor data for one. -/
  | notModel
  /-- Neither a condition nor data for one. -/
  | notCondition
  | unknownTag (tag : String)
  | missingTag
  | malformedInteger
  | oversizedInteger
  | fractional
  | negative
  | frozen
  /-- A text that is not JSON. -/
  | malformedJson
  /-- No text at all where JSON is read. -/
  | notJsonText
  /-- A value against a rule of its own. -/
  | rule (message : String)
  deriving DecidableEq

structure Issue where
  place : List Step
  kind : IssueKind
  deriving DecidableEq

inductive Checked (α : Type) where
  | ok (value : α)
  | bad (issues : List Issue)

namespace Checked

variable {α β : Type}

def map (f : α → β) : Checked α → Checked β
  | .ok a => .ok (f a)
  | .bad issues => .bad issues

/-- Applies one result to another; the issues of both are kept. -/
def apply (f : Checked (α → β)) (a : Checked α) : Checked β :=
  match f, a with
  | .ok f, .ok a => .ok (f a)
  | .ok _, .bad js => .bad js
  | .bad is, .ok _ => .bad is
  | .bad is, .bad js => .bad (is ++ js)

instance : Functor Checked := ⟨map, fun a => map fun _ => a⟩

instance : Applicative Checked where
  pure := .ok
  seq f a := apply f (a ())

/-- Two checks side by side whose results are put together. -/
theorem both_eq_ok_iff {γ : Type} {f : α → β → γ} {a : Checked α} {b : Checked β} {c : γ} :
    f <$> a <*> b = .ok c ↔ ∃ x y, a = .ok x ∧ b = .ok y ∧ f x y = c := by
  show apply (map f a) b = .ok c ↔ _
  cases a <;> cases b <;> simp [map, apply]

/-- One issue right here. -/
def fail (kind : IssueKind) : Checked α := .bad [⟨[], kind⟩]

def isOk : Checked α → Bool
  | .ok _ => true
  | .bad _ => false

def issues : Checked α → List Issue
  | .ok _ => []
  | .bad is => is

/-- Places the issues under a step. -/
def under (step : Step) : Checked α → Checked α
  | .ok a => .ok a
  | .bad is => .bad (is.map fun i => { i with place := step :: i.place })

/-- Checks items one after the other, the first at the given index. -/
def eachFrom (check : α → Checked β) (index : Nat) : List α → Checked (List β)
  | [] => .ok []
  | a :: rest =>
    apply (map List.cons ((check a).under (.index index))) (eachFrom check (index + 1) rest)

/-- Checks the items of a list; the check may use that they belong to it. -/
def each (items : List α) (check : (a : α) → a ∈ items → Checked β) : Checked (List β) :=
  eachFrom (fun a => check a.1 a.2) 0 items.attach

theorem eachFrom_map {γ : Type} (check : β → Checked γ) (f : α → β) (index : Nat) (items : List α) :
    eachFrom check index (items.map f) = eachFrom (fun a => check (f a)) index items := by
  induction items generalizing index with
  | nil => rfl
  | cons a rest ih => simp only [List.map_cons, eachFrom, ih]

/-- A check that makes no use of membership. -/
theorem each_eq (check : α → Checked β) (items : List α) :
    each items (fun a _ => check a) = eachFrom check 0 items := by
  have h := eachFrom_map check Subtype.val 0 items.attach
  rw [List.attach_map_subtype_val] at h
  exact h.symm

end Checked

end SqlAst
