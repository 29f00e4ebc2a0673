import SqlAst.Proofs.Phrase
import SqlAst.Proofs.Sequences
import SqlAst.Proofs.Truth

/-!
# Reading predicates

The value of a predicate in SQL under a valuation of its leaves, by the precedence of SQL: the operands of
AND bind tighter than those of OR, parentheses group, and the AND behind BETWEEN belongs to BETWEEN. What
stands between these words is a leaf, which the valuation judges by its tokens.

* `split_joined`: operands that are joined by AND and OR are found again.
-/
namespace SqlAst.Sql

/-- Truth values for the leaves of predicates, by their tokens. -/
structure Valuation where
  value : List Tree → Truth
  one_equals_one : value Connective.conj.unitTrees = .yes
  one_equals_zero : value Connective.disj.unitTrees = .no

/-! ## Operands -/

/-- What a token means among the operands of a predicate. -/
inductive Role where
  | conj
  | disj
  | between
  | operand
  deriving DecidableEq

def Tree.role : Tree → Role
  | .leaf (.word w) =>
    if w = "AND".toList then .conj else if w = "OR".toList then .disj
    else if w = "BETWEEN".toList then .between else .operand
  | _ => .operand

section

variable {α β : Type}

/-- Puts items in front of the first operand of the first run. -/
def prepend (items : List α) : List (List (List α)) → List (List (List α))
  | (o :: run) :: runs => ((items ++ o) :: run) :: runs
  | [] :: runs => [items] :: runs
  | [] => [[items]]

/-- Begins a new operand in front of the first run. -/
def newOperand : List (List (List α)) → List (List (List α))
  | run :: runs => ([] :: run) :: runs
  | [] => [[[]]]

/-- The operands: those of an OR apart, and in each of them those of its ANDs. `bound` tells that the next
AND belongs to a BETWEEN. -/
def split (role : α → Role) (bound : Bool) : List α → List (List (List α))
  | [] => [[[]]]
  | x :: rest =>
    match role x with
    | .disj => [[]] :: split role false rest
    | .conj => if bound then prepend [x] (split role false rest) else newOperand (split role false rest)
    | .between => prepend [x] (split role true rest)
    | .operand => prepend [x] (split role bound rest)

end

/-- Items with their operands joined by AND, and these by OR. -/
def joined (runs : List (List (List Tree))) : List Tree :=
  (words ["OR"]).intercalate (runs.map fun run => (words ["AND"]).intercalate run)

/-! ## Values -/

/-- The value of an operand, from the values of its groups: a group on its own has the value of what it
holds. -/
def Valuation.operand (V : Valuation) : List (Tree × Option Truth) → Option Truth
  | [] => none
  | [(.group _, v)] => v
  | ps => some (V.value (ps.map Prod.fst))

/-- The value of a predicate, from the values of its groups. -/
def Valuation.assemble (V : Valuation) (ps : List (Tree × Option Truth)) : Option Truth := do
  let runs ← (split (fun p : Tree × Option Truth => p.1.role) false ps).mapM (List.mapM V.operand)
  pure (Truth.any (runs.map Truth.all))

mutual

/-- The value of what stands in a group. -/
def Valuation.group (V : Valuation) : Tree → Option Truth
  | .leaf _ => none
  | .group inner => V.assemble (V.pieces inner)

def Valuation.pieces (V : Valuation) : List Tree → List (Tree × Option Truth)
  | [] => []
  | t :: rest => (t, V.group t) :: V.pieces rest

end

/-- The value of a predicate. -/
def Valuation.read (V : Valuation) (ts : List Tree) : Option Truth := V.assemble (V.pieces ts)

/-- The value of a predicate in SQL. -/
def Valuation.readText (V : Valuation) (d : Dialect) (sql : String) : Option Truth :=
  (nest (d.tokens sql)).bind V.read

/-- The value of a text that spells some trees is that of the trees. -/
theorem readText_of_spells (V : Valuation) {d : Dialect} {sql : String} {ts : List Tree}
    (h : Spells d sql.toList ts) : V.readText d sql = V.read ts := by
  rw [Valuation.readText, h.tokens_eq, nest_tokens, Option.bind_some]

/-! ## Operands that are joined are found again -/

section

variable {α β : Type} {role : α → Role}

/-- There is a first operand to put items in front of. -/
theorem split_eq_cons (bound : Bool) (items : List α) :
    ∃ o run runs, split role bound items = (o :: run) :: runs := by
  induction items generalizing bound with
  | nil => exact ⟨[], [], [], rfl⟩
  | cons x rest ih =>
    obtain ⟨o, run, runs, h⟩ := ih false
    obtain ⟨o', run', runs', h'⟩ := ih true
    unfold split
    cases role x with
    | disj => exact ⟨[], [], _, rfl⟩
    | conj =>
      cases bound with
      | true => exact ⟨x :: o, run, runs, by simp [h, prepend]⟩
      | false => exact ⟨[], o :: run, runs, by simp [h, newOperand]⟩
    | between => exact ⟨x :: o', run', runs', by simp [h', prepend]⟩
    | operand =>
      cases bound with
      | true => exact ⟨x :: o', run', runs', by simp [h', prepend]⟩
      | false => exact ⟨x :: o, run, runs, by simp [h, prepend]⟩

theorem prepend_prepend (as bs : List α) (runs : List (List (List α))) :
    prepend as (prepend bs runs) = prepend (as ++ bs) runs := by
  rcases runs with _ | ⟨_ | ⟨o, run⟩, runs⟩ <;> simp [prepend]

theorem prepend_map (f : α → β) (items : List α) (runs : List (List (List α))) :
    prepend (items.map f) (runs.map (List.map (List.map f))) =
      (prepend items runs).map (List.map (List.map f)) := by
  rcases runs with _ | ⟨_ | ⟨o, run⟩, runs⟩ <;> simp [prepend]

theorem newOperand_map (f : α → β) (runs : List (List (List α))) :
    newOperand (runs.map (List.map (List.map f))) = (newOperand runs).map (List.map (List.map f)) := by
  cases runs <;> simp [newOperand]

theorem split_map (f : β → α) (bound : Bool) (items : List β) :
    split role bound (items.map f) =
      (split (fun b => role (f b)) bound items).map (List.map (List.map f)) := by
  induction items generalizing bound with
  | nil => rfl
  | cons x rest ih =>
    have hp := prepend_map f [x]
    simp only [List.map_cons, List.map_nil] at hp
    simp only [List.map_cons, split]
    cases role (f x) with
    | disj => simp [ih]
    | conj => cases bound <;> simp [ih, hp, newOperand_map]
    | between => simp [ih, hp]
    | operand => simp [ih, hp]

end

/-- Trees that stand in one operand, wherever they stand. -/
def Solid (ts : List Tree) : Prop :=
  ∀ rest, split Tree.role false (ts ++ rest) = prepend ts (split Tree.role false rest)

theorem split_cons_and (rest : List Tree) :
    split Tree.role false (words ["AND"] ++ rest) = newOperand (split Tree.role false rest) := rfl

theorem split_cons_or (rest : List Tree) :
    split Tree.role false (words ["OR"] ++ rest) = [[]] :: split Tree.role false rest := rfl

theorem split_run {run : List (List Tree)} (hne : run ≠ []) (hs : ∀ o ∈ run, Solid o) (rest : List Tree)
    {runs : List (List (List Tree))} (hr : split Tree.role false rest = [[]] :: runs) :
    split Tree.role false ((words ["AND"]).intercalate run ++ rest) = run :: runs := by
  induction run with
  | nil => exact absurd rfl hne
  | cons o more ih =>
    have ho := hs o (by simp)
    cases more with
    | nil =>
      simp only [List.intercalate_singleton]
      rw [ho rest, hr]
      simp [prepend]
    | cons o' more =>
      rw [List.intercalate_cons_cons, List.append_assoc, List.append_assoc, ho, split_cons_and,
        ih (by simp) fun x hx => hs x (by simp [hx])]
      simp [newOperand, prepend]

/-- Solid operands are found again where they are joined. -/
theorem split_joined {runs : List (List (List Tree))} (hne : runs ≠ []) (hrun : ∀ run ∈ runs, run ≠ [])
    (hs : ∀ run ∈ runs, ∀ o ∈ run, Solid o) : split Tree.role false (joined runs) = runs := by
  induction runs with
  | nil => exact absurd rfl hne
  | cons run more ih =>
    have hfirst := hrun run (by simp)
    have hsolid := hs run (by simp)
    cases more with
    | nil =>
      have h : split Tree.role false ((words ["AND"]).intercalate run ++ []) = [run] :=
        split_run hfirst hsolid [] rfl
      simpa [joined] using h
    | cons next more =>
      have hrest := ih (by simp) (fun r hr => hrun r (by simp [hr])) fun r hr => hs r (by simp [hr])
      have hjoin : joined (run :: next :: more) =
          (words ["AND"]).intercalate run ++ (words ["OR"] ++ joined (next :: more)) := by
        simp [joined, List.intercalate_cons_cons]
      rw [hjoin]
      apply split_run hfirst hsolid
      rw [split_cons_or, hrest]

/-! ## What is solid -/

theorem solid_group (inner : List Tree) : Solid [.group inner] := fun _ => rfl

/-- Words of no meaning to the reader are part of the operand. -/
theorem split_operands {ts : List Tree} (h : ∀ t ∈ ts, t.role = .operand) (bound : Bool)
    (rest : List Tree) :
    split Tree.role bound (ts ++ rest) = prepend ts (split Tree.role bound rest) := by
  induction ts with
  | nil =>
    obtain ⟨o, run, runs, hs⟩ : ∃ o run runs, split Tree.role bound rest = (o :: run) :: runs :=
      split_eq_cons bound rest
    simp [hs, prepend]
  | cons t more ih =>
    have ht := h t (by simp)
    have hmore := ih fun x hx => h x (by simp [hx])
    rw [List.cons_append, split, ht]
    simp only [hmore, prepend_prepend, List.singleton_append]

/-! ## The value of joined operands -/

/-- The value of an operand. -/
def Valuation.readOperand (V : Valuation) : List Tree → Option Truth
  | [] => none
  | [.group inner] => V.read inner
  | ts => some (V.value ts)

theorem pieces_eq_map (V : Valuation) (ts : List Tree) :
    V.pieces ts = ts.map fun t => (t, V.group t) := by
  induction ts with
  | nil => rfl
  | cons t rest ih => simp [Valuation.pieces, ih]

theorem operand_eq (V : Valuation) (ts : List Tree) :
    V.operand (ts.map fun t => (t, V.group t)) = V.readOperand ts := by
  match ts with
  | [] => rfl
  | [.group inner] => rfl
  | [.leaf a] => rfl
  | .leaf a :: u :: rest | .group inner :: u :: rest =>
    simp [Valuation.operand, Valuation.readOperand, Function.comp_def]

/-- Joined operands have the value of the disjunction of the conjunctions of their values. -/
theorem read_joined (V : Valuation) {α : Type} {trees : α → List Tree} {value : α → Truth}
    {runs : List (List α)}
    (hne : runs ≠ []) (hrun : ∀ run ∈ runs, run ≠ [])
    (hs : ∀ run ∈ runs, ∀ o ∈ run, Solid (trees o) ∧ V.readOperand (trees o) = some (value o)) :
    V.read (joined (runs.map (List.map trees))) =
      some (Truth.any (runs.map fun run => Truth.all (run.map value))) := by
  have hsplit : split Tree.role false (joined (runs.map (List.map trees))) =
    runs.map (List.map trees) := by
    apply split_joined (by simpa using hne)
    · intro run hr
      obtain ⟨r, hmem, rfl⟩ := List.mem_map.1 hr
      simpa using hrun r hmem
    · intro run hr o ho
      obtain ⟨r, hmem, rfl⟩ := List.mem_map.1 hr
      obtain ⟨x, hx, rfl⟩ := List.mem_map.1 ho
      exact (hs r hmem x hx).1
  have hvalues : (runs.map (List.map trees)).mapM (List.mapM V.readOperand) =
      some (runs.map fun run => run.map value) := by
    rw [List.mapM_map]
    apply mapM_eq_some
    intro run hr
    rw [Function.comp_apply, List.mapM_map]
    exact mapM_eq_some fun x hx => (hs run hr x hx).2
  unfold Valuation.read Valuation.assemble
  have hoperand : (List.mapM V.operand ∘ List.map (List.map fun t => (t, V.group t))) =
    List.mapM V.readOperand := by
    funext run
    rw [Function.comp_apply, List.mapM_map]
    exact congrArg (fun f => run.mapM f) (funext fun ts => operand_eq V ts)
  rw [pieces_eq_map, split_map, hsplit, List.mapM_map, hoperand, hvalues]
  simp [Function.comp_def]

end SqlAst.Sql
