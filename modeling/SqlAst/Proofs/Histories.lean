import SqlAst.Proofs.Clauses

/-!
# Histories of calls

Where each call of a builder either fails or brings a change that its arguments alone decide, a run of calls
comes down to its history: the list of what the calls bring. The run succeeds if all arguments are accepted,
and then makes the changes in order.

* `Tells.foldlM_eq_ok_iff`: a run is accepted call by call, and ends where its history leads.
* `filterMap_filter`: the changes of one sort are those of the calls of that sort.
-/
namespace SqlAst

open Select (accepted?)

section

variable {α β : Type}

theorem toOption_bind (x : Outcome α) (g : α → Outcome β) :
    (x >>= g).toOption = x.toOption.bind fun a => (g a).toOption := by
  cases x <;> rfl

theorem toOption_orInvalid (x : Checked α) (title : String) : (x.orInvalid title).toOption = accepted? x := by
  cases x <;> rfl

theorem accepted?_under (x : Checked α) (step : Step) : accepted? (x.under step) = accepted? x := by
  cases x <;> rfl

theorem accepted?_map (g : α → β) (x : Checked α) : accepted? (Checked.map g x) = (accepted? x).map g := by
  cases x <;> rfl

theorem accepted?_apply (g : Checked (α → β)) (x : Checked α) :
    accepted? (Checked.apply g x) = (accepted? g).bind fun g => (accepted? x).map g := by
  cases g <;> cases x <;> rfl

/-- A list with one more item, split at one of its items: the last or an earlier one. -/
theorem split_concat {xs before after : List α} {x y : α} (h : xs ++ [x] = before ++ y :: after) :
    (before = xs ∧ y = x ∧ after = []) ∨ ∃ rest, after = rest ++ [x] ∧ xs = before ++ y :: rest := by
  rcases List.eq_nil_or_concat after with rfl | ⟨rest, last, rfl⟩
  · obtain ⟨rfl, hlast⟩ := List.append_inj' h rfl
    cases hlast
    exact .inl ⟨rfl, rfl, rfl⟩
  · have hends : xs ++ [x] = (before ++ y :: rest) ++ [last] := by simpa using h
    obtain ⟨rfl, hlast⟩ := List.append_inj' hends rfl
    cases hlast
    exact .inr ⟨rest, List.concat_eq_append, rfl⟩

end

variable {Call Change State : Type}

/-- What a call brings, if its arguments are accepted, is given by `change?`, and all that the call does is to
apply it. -/
structure Tells (perform : Call → State → Outcome State) (change? : Call → Option Change)
    (apply : State → Change → State) : Prop where
  toOption_perform : ∀ c s, (perform c s).toOption = (change? c).map (apply s)

section

variable {perform : Call → State → Outcome State} {change? : Call → Option Change}
  {apply : State → Change → State}

/-- A run succeeds exactly if the arguments of all calls are accepted, and makes their changes in order. -/
theorem Tells.foldlM_eq_ok_iff (h : Tells perform change? apply) (run : List Call) {s s' : State} :
    run.foldlM (fun s c => perform c s) s = .ok s' ↔
      (∀ c ∈ run, (change? c).isSome) ∧ s' = (run.filterMap change?).foldl apply s := by
  induction run generalizing s with
  | nil =>
    constructor
    · intro hrun
      cases hrun
      exact ⟨by simp, rfl⟩
    · rintro ⟨-, rfl⟩
      rfl
  | cons c rest ih =>
    have hcall := h.toOption_perform c s
    rw [List.foldlM_cons, List.forall_mem_cons]
    cases hchange : change? c with
    | none =>
      rw [hchange] at hcall
      cases hc : perform c s with
      | ok next =>
        rw [hc] at hcall
        cases hcall
      | error failure => simp [bind, Except.bind]
    | some e =>
      rw [hchange] at hcall
      cases hc : perform c s with
      | error failure =>
        rw [hc] at hcall
        cases hcall
      | ok next =>
        rw [hc] at hcall
        cases hcall
        rw [List.filterMap_cons_some hchange, List.foldl_cons, Option.isSome_some, eq_self, true_and]
        exact ih

/-- Where all calls are accepted, each brings its part of the history. -/
theorem map_eq_map_some_iff {run : List Call} {changes : List Change} :
    run.map change? = changes.map some ↔ (∀ c ∈ run, (change? c).isSome) ∧ run.filterMap change? = changes := by
  induction run generalizing changes with
  | nil => cases changes <;> simp
  | cons c rest ih =>
    rw [List.map_cons, List.forall_mem_cons]
    cases hchange : change? c with
    | none =>
      constructor
      · intro h
        cases changes <;> cases h
      · rintro ⟨⟨h, -⟩, -⟩
        cases h
    | some e =>
      rw [List.filterMap_cons_some hchange]
      cases changes with
      | nil => simp
      | cons e' more =>
        rw [List.map_cons, List.cons_eq_cons, List.cons_eq_cons, ih, Option.some_inj, Option.isSome_some, eq_self,
          true_and, and_left_comm]

/-- The changes of one sort are those of the calls of that sort. -/
theorem filterMap_filter {p : Call → Bool} {q : Change → Bool} (h : ∀ c e, change? c = some e → p c = q e)
    (run : List Call) : (run.filterMap change?).filter q = (run.filter p).filterMap change? := by
  induction run with
  | nil => rfl
  | cons c rest ih =>
    cases hchange : change? c with
    | none =>
      rw [List.filterMap_cons_none hchange, ih, List.filter_cons]
      split
      · exact (List.filterMap_cons_none hchange).symm
      · rfl
    | some e =>
      rw [List.filterMap_cons_some hchange, List.filter_cons, List.filter_cons, h c e hchange, ih]
      split
      · rw [List.filterMap_cons_some hchange]
      · rfl

end

end SqlAst
