import SqlAst.Proofs.Reading
import SqlAst.Proofs.TokenStream

/-!
# What WHERE and HAVING mean

The conditions of a clause are joined by AND, and each is written without parentheses of its own. An OR
between the parts of one of them therefore takes the neighbouring conditions into its first and its last
part: the clause has the value of its runs, which `Condition.runsOf` lists.

* `Condition.read_trees`: a predicate has the value of its tree.
* `FilterPlace.value_iff`: the text of a clause is never narrower than the conjunction of its conditions,
  and it has their value exactly if no run is wider. So it has when the clause is one condition, or none of
  them is open to its neighbours.
-/
namespace SqlAst

open Sql

/-! ## Values and runs of conditions -/

mutual

/-- The value of a condition, from those of its leaves. -/
def Condition.value (V : Valuation) (d : Dialect) : Condition → Truth
  | .combine .conj parts => Truth.all (valueEach V d parts)
  | .combine .disj parts => Truth.any (valueEach V d parts)
  | c => V.value (c.trees d)

def Condition.valueEach (V : Valuation) (d : Dialect) : List Condition → List Truth
  | [] => []
  | c :: rest => c.value V d :: valueEach V d rest

end

theorem Condition.valueEach_eq_map (V : Valuation) (d : Dialect) (cs : List Condition) :
    valueEach V d cs = cs.map (value V d) := by
  induction cs with
  | nil => rfl
  | cons c rest ih => simp [valueEach, ih]

/-- What stands between two connectives of a clause: a condition, or a part of one in its parentheses. -/
structure Operand where
  condition : Condition
  wrapped : Bool

def Operand.trees (d : Dialect) (o : Operand) : List Tree :=
  if o.wrapped then [.group (o.condition.trees d)] else o.condition.trees d

/-- The runs between the ORs of a condition, each of operands with ANDs between them. -/
def Condition.runs : Condition → List (List Operand)
  | .combine .conj (c :: rest) => [(c :: rest).map fun p => ⟨p, true⟩]
  | .combine .disj (c :: rest) => (c :: rest).map fun p => [⟨p, true⟩]
  | c => [[⟨c, false⟩]]

/-- The runs of two texts with an AND between them: the last run of the first goes on in the first run of
the second. -/
def meet {α : Type} : List (List α) → List (List α) → List (List α)
  | [], bs => bs
  | [a], b :: bs => (a ++ b) :: bs
  | [a], [] => [a]
  | a :: a' :: as, bs => a :: meet (a' :: as) bs

/-- The runs of conditions with ANDs between them. -/
def Condition.runsOf : List Condition → List (List Operand)
  | [] => []
  | [c] => c.runs
  | c :: c' :: rest => meet c.runs (runsOf (c' :: rest))

/-- The value of runs with ORs between them. -/
def valueOfRuns (V : Valuation) (d : Dialect) (runs : List (List Operand)) : Truth :=
  Truth.any (runs.map fun run => Truth.all (run.map fun o => o.condition.value V d))

/-- The value that the conditions of a clause are meant to have together. -/
def Condition.conjunction (V : Valuation) (d : Dialect) (cs : List Condition) : Truth :=
  Truth.all (cs.map (value V d))

/-- A condition with an OR between parts of its own. -/
def Condition.isOpen : Condition → Bool
  | .combine .disj (_ :: _ :: _) => true
  | _ => false

/-! ## The text of conditions, run by run -/

theorem intercalate_append {α : Type} (sep : List α) {as bs : List (List α)} (ha : as ≠ [])
    (hb : bs ≠ []) :
    sep.intercalate (as ++ bs) = sep.intercalate as ++ sep ++ sep.intercalate bs := by
  induction as with
  | nil => exact absurd rfl ha
  | cons a rest ih =>
    cases rest with
    | nil => simp [List.intercalate_cons_of_ne_nil hb]
    | cons a' rest => simpa [List.intercalate_cons_cons] using ih (by simp)

theorem joined_cons {run : List (List Tree)} {runs : List (List (List Tree))} (h : runs ≠ []) :
    joined (run :: runs) = (words ["AND"]).intercalate run ++ words ["OR"] ++ joined runs := by
  unfold joined
  rw [List.map_cons, List.intercalate_cons_of_ne_nil (by simpa using h)]

theorem meet_ne_nil {α : Type} {as bs : List (List α)} (h : as ≠ []) : meet as bs ≠ [] := by
  unfold meet
  split <;> simp_all

theorem map_meet {α β : Type} (f : α → β) (as bs : List (List α)) :
    (meet as bs).map (List.map f) = meet (as.map (List.map f)) (bs.map (List.map f)) := by
  induction as with
  | nil => rfl
  | cons a rest ih =>
    cases rest with
    | nil => cases bs <;> simp [meet]
    | cons a' rest =>
      have h : meet (a :: a' :: rest) bs = a :: meet (a' :: rest) bs := by simp [meet]
      rw [h, List.map_cons, ih]
      simp [meet]

theorem joined_meet {as bs : List (List (List Tree))} (ha : as ≠ []) (hb : bs ≠ [])
    (has : ∀ run ∈ as, run ≠ []) (hbs : ∀ run ∈ bs, run ≠ []) :
    joined (meet as bs) = joined as ++ words ["AND"] ++ joined bs := by
  induction as with
  | nil => exact absurd rfl ha
  | cons a rest ih =>
    have hane := has a (by simp)
    cases rest with
    | nil =>
      cases bs with
      | nil => exact absurd rfl hb
      | cons b more =>
        have hab := intercalate_append (words ["AND"]) hane (hbs b (by simp))
        cases more with
        | nil => simpa [meet, joined] using hab
        | cons b' more =>
          have hone : joined [a] = (words ["AND"]).intercalate a := by simp [joined]
          have hright : joined (b :: b' :: more) = _ := joined_cons (List.cons_ne_nil b' more)
          rw [meet, joined_cons (List.cons_ne_nil b' more), hab, hone, hright]
          simp only [List.append_assoc]
    | cons a' rest =>
      have h : meet (a :: a' :: rest) bs = a :: meet (a' :: rest) bs := by simp [meet]
      have hrest := ih (by simp) fun run hr => has run (by simp [hr])
      have hleft : joined (a :: a' :: rest) = _ := joined_cons (List.cons_ne_nil a' rest)
      rw [h, joined_cons (meet_ne_nil (List.cons_ne_nil a' rest)), hrest, hleft]
      simp only [List.append_assoc]

theorem Condition.runs_ne_nil (c : Condition) : c.runs ≠ [] := by
  unfold runs
  split <;> simp

theorem Condition.run_ne_nil (c : Condition) : ∀ run ∈ c.runs, run ≠ [] := by
  unfold runs
  split
  · simp
  · intro run h
    obtain ⟨p, -, rfl⟩ := List.mem_map.1 h
    simp
  · simp

theorem Condition.treesEach_eq_map (d : Dialect) (cs : List Condition) :
    treesEach d cs = cs.map (trees d) := by
  induction cs with
  | nil => rfl
  | cons c rest ih => simp [treesEach, ih]

/-- A condition is what stands in its runs. -/
theorem Condition.trees_eq_joined (d : Dialect) (c : Condition) :
    c.trees d = joined (c.runs.map (List.map (Operand.trees d))) := by
  unfold runs
  split
  · rename_i c rest
    simp [trees, treesEach_eq_map, joined, Operand.trees, Connective.word, Function.comp_def]
  · rename_i c rest
    simp [trees, treesEach_eq_map, joined, Operand.trees, Connective.word, Function.comp_def]
  · simp [joined, Operand.trees]

theorem Condition.runsOf_ne_nil {cs : List Condition} (h : cs ≠ []) : runsOf cs ≠ [] := by
  unfold runsOf
  split
  · exact absurd rfl h
  · exact runs_ne_nil _
  · exact meet_ne_nil (runs_ne_nil _)

/-- What holds of two runs and of both as one holds of the runs of two texts with an AND between them. -/
theorem forall_mem_meet {α : Type} {P : List α → Prop} (happend : ∀ a b, P a → P b → P (a ++ b))
    {as bs : List (List α)} (ha : ∀ run ∈ as, P run) (hb : ∀ run ∈ bs, P run) :
    ∀ run ∈ meet as bs, P run := by
  induction as with
  | nil => exact hb
  | cons a rest ih =>
    have hrest := ih fun run hr => ha run (by simp [hr])
    have hfirst := ha a (by simp)
    cases rest with
    | nil =>
      cases bs with
      | nil => simpa [meet] using hfirst
      | cons b more =>
        intro run hr
        rw [meet, List.mem_cons] at hr
        rcases hr with rfl | hr
        · exact happend a b hfirst (hb b (by simp))
        · exact hb run (by simp [hr])
    | cons a' rest =>
      intro run hr
      have h : meet (a :: a' :: rest) bs = a :: meet (a' :: rest) bs := by simp [meet]
      rw [h, List.mem_cons] at hr
      rcases hr with rfl | hr
      · exact hfirst
      · exact hrest run hr

theorem Condition.forall_mem_runsOf {P : List Operand → Prop} (happend : ∀ a b, P a → P b → P (a ++ b))
    {cs : List Condition} (h : ∀ c ∈ cs, ∀ run ∈ c.runs, P run) : ∀ run ∈ runsOf cs, P run := by
  induction cs with
  | nil => simp [runsOf]
  | cons c rest ih =>
    have hrest := ih fun x hx => h x (by simp [hx])
    cases rest with
    | nil => exact h c (by simp)
    | cons c' rest => exact forall_mem_meet happend (h c (by simp)) hrest

/-- The text of a clause is what stands in its runs. -/
theorem Condition.intercalate_trees (d : Dialect) {cs : List Condition} (h : cs ≠ []) :
    (words ["AND"]).intercalate (cs.map (trees d)) =
      joined ((runsOf cs).map (List.map (Operand.trees d))) := by
  have hne {runs : List (List Operand)} (hr : ∀ run ∈ runs, run ≠ []) :
      ∀ run ∈ runs.map (List.map (Operand.trees d)), run ≠ [] := by
    intro run hm
    obtain ⟨r, hmem, rfl⟩ := List.mem_map.1 hm
    simpa using hr r hmem
  induction cs with
  | nil => exact absurd rfl h
  | cons c rest ih =>
    cases rest with
    | nil => simp [runsOf, ← trees_eq_joined]
    | cons c' rest =>
      have hrun : ∀ run ∈ runsOf (c' :: rest), run ≠ [] :=
        forall_mem_runsOf (fun a b ha _ => List.append_ne_nil_of_left_ne_nil ha b)
          fun x _ => x.run_ne_nil
      rw [List.map_cons, List.intercalate_cons_of_ne_nil (by simp), ih (by simp), runsOf, map_meet,
        joined_meet (by simpa using c.runs_ne_nil)
          (by simpa using runsOf_ne_nil (List.cons_ne_nil c' rest))
          (hne c.run_ne_nil) (hne hrun), ← trees_eq_joined]

/-! ## Conditions have the values of their trees -/

theorem role_of_mem_name {n : String} {t : Tree} (h : t ∈ nameTrees n) : t.role = .operand := by
  rcases Text.mem_intercalate h with h | ⟨ts, hts, h⟩
  · rw [List.mem_singleton.1 h]
    rfl
  · obtain ⟨part, -, rfl⟩ := List.mem_map.1 hts
    rw [List.mem_singleton.1 h]
    unfold partTree
    split <;> rfl

theorem role_literal (d : Dialect) (v : Scalar) : (literalTree d v).role = .operand := by
  cases v with
  | bool b => cases d <;> cases b <;> rfl
  | _ => rfl

theorem nameTrees_eq_cons (n : String) : ∃ a rest, nameTrees n = .leaf a :: rest := by
  unfold nameTrees
  cases hparts : Text.splitOn '.' n.toList with
  | nil => exact absurd hparts (Text.splitOn_ne_nil _ _)
  | cons part more =>
    have hpart : ∃ a, partTree part = .leaf a := by
      unfold partTree
      split <;> exact ⟨_, rfl⟩
    obtain ⟨a, ha⟩ := hpart
    cases more with
    | nil => exact ⟨a, [], by simp [ha]⟩
    | cons next more => exact ⟨a, _, by simp [ha]; rfl⟩

/-- A leaf is one operand; its BETWEEN keeps its AND. -/
theorem Condition.solid_leaf {c : Condition} (d : Dialect) (h : ∀ k parts, c ≠ .combine k parts) :
    Solid (c.trees d) := by
  have solid_of_roles {ts : List Tree} (hr : ∀ t ∈ ts, t.role = .operand) : Solid ts :=
    fun rest => split_operands hr false rest
  have hname {n : String} {ts : List Tree} (hr : ∀ t ∈ ts, t.role = .operand) :
      Solid (nameTrees n ++ ts) := by
    refine solid_of_roles fun t ht => ?_
    rcases List.mem_append.1 ht with ht | ht
    · exact role_of_mem_name ht
    · exact hr t ht
  cases c with
  | compare op column value =>
    refine hname fun t ht => ?_
    simp only [List.mem_cons, List.not_mem_nil, or_false] at ht
    rcases ht with rfl | rfl
    · rfl
    · exact role_literal d value
  | between column low high =>
    intro rest
    have hlow : ∀ t ∈ [literalTree d low], t.role = .operand := by simp [role_literal]
    have hhigh : ∀ t ∈ [literalTree d high], t.role = .operand := by simp [role_literal]
    have hbetween (ts : List Tree) : split Tree.role false (words ["BETWEEN"] ++ ts) =
        prepend (words ["BETWEEN"]) (split Tree.role true ts) := rfl
    have hand (ts : List Tree) : split Tree.role true (words ["AND"] ++ ts) =
        prepend (words ["AND"]) (split Tree.role false ts) := rfl
    simp only [Condition.trees, List.append_assoc]
    rw [split_operands (fun t ht => role_of_mem_name ht), hbetween, split_operands hlow, hand,
      split_operands hhigh]
    simp only [prepend_prepend]
  | among column values =>
    rw [Condition.trees, List.append_assoc]
    refine hname fun t ht => ?_
    simp only [words, List.map_cons, List.map_nil, List.cons_append, List.nil_append, List.mem_cons,
      List.not_mem_nil, or_false] at ht
    rcases ht with rfl | rfl <;> rfl
  | like negated column pattern =>
    rw [Condition.trees, List.append_assoc]
    refine hname fun t ht => ?_
    cases negated <;>
      simp only [words, Bool.false_eq_true, if_true, if_false, List.map_cons, List.map_nil,
        List.cons_append, List.nil_append, List.mem_cons, List.not_mem_nil, or_false] at ht
    · rcases ht with rfl | rfl <;> rfl
    · rcases ht with rfl | rfl | rfl <;> rfl
  | isNull negated column =>
    refine hname fun t ht => ?_
    cases negated <;>
      simp only [words, Bool.false_eq_true, if_true, if_false, List.map_cons, List.map_nil,
        List.mem_cons, List.not_mem_nil, or_false] at ht
    · rcases ht with rfl | rfl <;> rfl
    · rcases ht with rfl | rfl | rfl <;> rfl
  | columnEqual left right =>
    rw [Condition.trees, List.append_assoc]
    refine hname fun t ht => ?_
    rcases List.mem_append.1 ht with ht | ht
    · rw [List.mem_singleton.1 ht]
      rfl
    · exact role_of_mem_name ht
  | combine k parts => exact absurd rfl (h k parts)

theorem Condition.leaf_eq_cons {c : Condition} (d : Dialect) (h : ∀ k parts, c ≠ .combine k parts) :
    ∃ a rest, c.trees d = .leaf a :: rest := by
  have hname (n : String) (ts : List Tree) : ∃ a rest, nameTrees n ++ ts = .leaf a :: rest := by
    obtain ⟨a, rest, hn⟩ := nameTrees_eq_cons n
    exact ⟨a, rest ++ ts, by rw [hn]; rfl⟩
  cases c with
  | compare op column value => exact hname _ _
  | isNull negated column => exact hname _ _
  | combine k parts => exact absurd rfl (h k parts)
  | _ =>
    simp only [Condition.trees, List.append_assoc]
    exact hname _ _

/-- An operand that the reader takes as one and gives the value of its condition. -/
def Operand.Reads (V : Valuation) (d : Dialect) (o : Operand) : Prop :=
  Solid (o.trees d) ∧ V.readOperand (o.trees d) = some (o.condition.value V d)

theorem Operand.reads_leaf (V : Valuation) (d : Dialect) {c : Condition}
    (h : ∀ k parts, c ≠ .combine k parts) :
    (Operand.mk c false).Reads V d := by
  have hvalue : c.value V d = V.value (c.trees d) := by
    cases c with
    | combine k parts => exact absurd rfl (h k parts)
    | _ => rfl
  refine ⟨Condition.solid_leaf d h, ?_⟩
  show V.readOperand (c.trees d) = _
  obtain ⟨a, rest, hc⟩ := Condition.leaf_eq_cons d h
  rw [hvalue, hc]
  cases rest <;> rfl

theorem Operand.reads_part {V : Valuation} {d : Dialect} {c : Condition}
    (h : V.read (c.trees d) = some (c.value V d)) : (Operand.mk c true).Reads V d :=
  ⟨solid_group _, h⟩

/-- A combination of nothing is the predicate that the valuation is bound to. -/
theorem Operand.reads_unit (V : Valuation) (d : Dialect) (k : Connective) :
    (Operand.mk (.combine k []) false).Reads V d := by
  have hroles : ∀ t ∈ k.unitTrees, t.role = .operand := by
    intro t ht
    cases k <;> simp only [Connective.unitTrees, List.mem_cons, List.not_mem_nil, or_false] at ht <;>
      rcases ht with rfl | rfl | rfl <;> rfl
  have hread : V.read k.unitTrees = some (V.value k.unitTrees) := by
    have h : V.read (joined ([[k.unitTrees]].map (List.map id))) =
        some (Truth.any ([[k.unitTrees]].map fun run => Truth.all (run.map V.value))) := by
      refine read_joined V (by simp) (by simp) fun run hr o ho => ?_
      rw [List.mem_singleton.1 hr] at ho
      rw [List.mem_singleton.1 ho]
      exact ⟨fun rest => split_operands hroles false rest, by cases k <;> rfl⟩
    simpa [joined] using h
  refine ⟨solid_group _, ?_⟩
  show V.read k.unitTrees = _
  rw [hread]
  cases k with
  | conj => rw [show Connective.unitTrees .conj = _ from rfl, V.one_equals_one]; rfl
  | disj => rw [show Connective.unitTrees .disj = _ from rfl, V.one_equals_zero]; rfl

/-- The parts of a combination are read, and so are the operands of its runs. -/
theorem Condition.reads_runs {V : Valuation} {d : Dialect} {c : Condition}
    (h : ∀ k parts, c = .combine k parts → ∀ p ∈ parts, V.read (p.trees d) = some (p.value V d)) :
    ∀ run ∈ c.runs, ∀ o ∈ run, o.Reads V d := by
  unfold runs
  split
  · rename_i c rest
    intro run hr o ho
    rw [List.mem_singleton.1 hr] at ho
    obtain ⟨p, hp, rfl⟩ := List.mem_map.1 ho
    exact Operand.reads_part (h _ _ rfl p hp)
  · rename_i c rest
    intro run hr o ho
    obtain ⟨p, hp, rfl⟩ := List.mem_map.1 hr
    rw [List.mem_singleton.1 ho]
    exact Operand.reads_part (h _ _ rfl p hp)
  · rename_i hconj hdisj
    intro run hr o ho
    rw [List.mem_singleton.1 hr] at ho
    rw [List.mem_singleton.1 ho]
    cases c with
    | combine k parts =>
      cases parts with
      | nil => exact Operand.reads_unit V d k
      | cons p rest =>
        cases k with
        | conj => exact absurd rfl (hconj p rest)
        | disj => exact absurd rfl (hdisj p rest)
    | _ => exact Operand.reads_leaf V d (by simp)

theorem Condition.valueOfRuns_runs (V : Valuation) (d : Dialect) (c : Condition) :
    valueOfRuns V d c.runs = c.value V d := by
  unfold runs
  split
  · simp [valueOfRuns, value, valueEach, valueEach_eq_map, Function.comp_def]
  · simp [valueOfRuns, value, valueEach, valueEach_eq_map, Function.comp_def]
  · simp [valueOfRuns]

mutual

/-- A predicate has the value of its tree. -/
theorem Condition.read_trees (V : Valuation) (d : Dialect) (c : Condition) :
    V.read (c.trees d) = some (c.value V d) := by
  have hparts : ∀ k parts, c = .combine k parts →
    ∀ p ∈ parts, V.read (p.trees d) = some (p.value V d) := by
    intro k parts hc
    match c, hc with
    | .combine _ ps, rfl => exact Condition.read_treesEach V d ps
  rw [trees_eq_joined, read_joined V c.runs_ne_nil c.run_ne_nil (reads_runs hparts), ← valueOfRuns_runs]
  rfl

theorem Condition.read_treesEach (V : Valuation) (d : Dialect) (cs : List Condition) :
    ∀ p ∈ cs, V.read (p.trees d) = some (p.value V d) := by
  match cs with
  | [] => simp
  | c :: rest =>
    intro p hp
    rcases List.mem_cons.1 hp with h | hp
    · rw [h]
      exact Condition.read_trees V d c
    · exact Condition.read_treesEach V d rest p hp

end

/-! ## Clauses and conjunctions -/

section

variable (V : Valuation) (d : Dialect)

theorem valueOfRuns_cons (run : List Operand) (runs : List (List Operand)) :
    valueOfRuns V d (run :: runs) =
      max (Truth.all (run.map fun o => o.condition.value V d)) (valueOfRuns V d runs) := rfl

/-- An AND between two texts does not narrow them to less than both. -/
theorem min_le_valueOfRuns_meet (as bs : List (List Operand)) :
    min (valueOfRuns V d as) (valueOfRuns V d bs) ≤ valueOfRuns V d (meet as bs) := by
  induction as with
  | nil => exact le_trans (min_le_left _ _) (Truth.no_le _)
  | cons a rest ih =>
    cases rest with
    | nil =>
      cases bs with
      | nil => exact le_trans (min_le_right _ _) (Truth.no_le _)
      | cons b more =>
        have ha : valueOfRuns V d [a] = Truth.all (a.map fun o => o.condition.value V d) :=
          Truth.max_no _
        rw [meet, ha, valueOfRuns_cons, valueOfRuns_cons, List.map_append, Truth.all_append,
          min_max_distrib_left]
        exact max_le_max le_rfl (min_le_right _ _)
    | cons a' rest =>
      have h : meet (a :: a' :: rest) bs = a :: meet (a' :: rest) bs := by simp [meet]
      rw [h, valueOfRuns_cons, valueOfRuns_cons, min_max_distrib_right]
      exact max_le_max (min_le_left _ _) ih

theorem Condition.conjunction_le {cs : List Condition} (h : cs ≠ []) :
    conjunction V d cs ≤ valueOfRuns V d (runsOf cs) := by
  induction cs with
  | nil => exact absurd rfl h
  | cons c rest ih =>
    cases rest with
    | nil => rw [runsOf, valueOfRuns_runs, conjunction, List.map_singleton, Truth.all_singleton]
    | cons c' rest =>
      rw [runsOf]
      calc conjunction V d (c :: c' :: rest)
          = min (c.value V d) (conjunction V d (c' :: rest)) := rfl
        _ ≤ min (valueOfRuns V d c.runs) (valueOfRuns V d (runsOf (c' :: rest))) := by
          rw [valueOfRuns_runs]
          exact min_le_min le_rfl (ih (by simp))
        _ ≤ valueOfRuns V d (meet c.runs (runsOf (c' :: rest))) := min_le_valueOfRuns_meet V d _ _

theorem Condition.runs_of_not_open {c : Condition} (h : c.isOpen = false) : ∃ run, c.runs = [run] := by
  cases c with
  | combine k parts =>
    cases k with
    | conj => cases parts <;> exact ⟨_, rfl⟩
    | disj =>
      match parts, h with
      | [], _ => exact ⟨_, rfl⟩
      | [p], _ => exact ⟨_, rfl⟩
  | _ => exact ⟨_, rfl⟩

/-- Without an OR that is open to its neighbours there is one run. -/
theorem Condition.runsOf_of_not_open {cs : List Condition} (hne : cs ≠ [])
    (h : ∀ c ∈ cs, c.isOpen = false) :
    ∃ run, runsOf cs = [run] ∧ Truth.all (run.map fun o => o.condition.value V d) =
      conjunction V d cs := by
  induction cs with
  | nil => exact absurd rfl hne
  | cons c rest ih =>
    obtain ⟨first, hfirst⟩ := runs_of_not_open (h c (by simp))
    have hvalue : Truth.all (first.map fun o => o.condition.value V d) = c.value V d := by
      have hc := valueOfRuns_runs V d c
      rw [hfirst] at hc
      simpa [valueOfRuns] using hc
    cases rest with
    | nil => exact ⟨first, hfirst, by rw [hvalue]; simp [conjunction]⟩
    | cons c' rest =>
      obtain ⟨run, hrun, hall⟩ := ih (by simp) fun x hx => h x (by simp [hx])
      refine ⟨first ++ run, by rw [runsOf, hfirst, hrun]; rfl, ?_⟩
      rw [List.map_append, Truth.all_append, hvalue, hall]
      rfl

end

/-- The value of the text of a clause. -/
theorem Condition.readText_renderAll (V : Valuation) (d : Dialect) {cs : List Condition} (hne : cs ≠ [])
    (hn : ∀ c ∈ cs, ∀ n ∈ c.names, d.IsPlain n) :
    V.readText d (renderAll d.flavor cs) = some (valueOfRuns V d (runsOf cs)) := by
  have hspells :
    Spells d (renderAll d.flavor cs).toList ((words ["AND"]).intercalate (cs.map (trees d))) :=
    spells_intercalate gap_and (eachSpells_map fun c hc => Condition.spells c (hn c hc))
  have hreads : ∀ run ∈ runsOf cs, run ≠ [] ∧ ∀ o ∈ run, o.Reads V d := by
    apply forall_mem_runsOf
    · intro a b ha hb
      refine ⟨List.append_ne_nil_of_left_ne_nil ha.1 b, fun o ho => ?_⟩
      rcases List.mem_append.1 ho with ho | ho
      · exact ha.2 o ho
      · exact hb.2 o ho
    · intro c hc run hr
      exact ⟨c.run_ne_nil run hr, reads_runs (fun k parts _ p hp => p.read_trees V d) run hr⟩
  rw [readText_of_spells V hspells, intercalate_trees d hne,
    read_joined V (runsOf_ne_nil hne) (fun run hr => (hreads run hr).1) fun run hr => (hreads run hr).2]
  rfl

/-! ## Statements with a clause of conditions -/

/-- A statement and one of its clauses of conditions. -/
inductive FilterPlace where
  | selectWhere (query : Select)
  | selectHaving (query : Select)
  | deleteWhere (mutation : Delete)
  | updateWhere (mutation : Update)

namespace FilterPlace

def node : FilterPlace → Node
  | .selectWhere q | .selectHaving q => .select q
  | .deleteWhere m => .delete m
  | .updateWhere m => .update m

def conditions : FilterPlace → List Condition
  | .selectWhere q => q.filters
  | .selectHaving q => q.groupFilters
  | .deleteWhere m => m.filters
  | .updateWhere m => m.filters

/-- The SQL of the statement with a text behind the word of the clause. -/
def fill (f : Flavor) (fallback text : String) : FilterPlace → Except Refusal String
  | .selectWhere q =>
    let front : Select := { tables := q.tables, joins := q.joins, fields := q.fields }
    .ok (wrapUnions
      (front.render f fallback ++ " WHERE " ++ text ++
        clause " GROUP BY " ", " (q.groupBy.map f.escapeName) ++
        clause " HAVING " " AND " (q.groupFilters.map (Condition.render f)) ++
        clause " ORDER BY " ", " (q.orderBy.map (OrderSpec.render f)) ++
        countClause " LIMIT " q.limit ++ countClause " OFFSET " q.offset)
      (renderUnions f fallback q.unions))
  | .selectHaving q =>
    let front : Select :=
      { tables := q.tables, joins := q.joins, fields := q.fields, filters := q.filters,
        groupBy := q.groupBy }
    .ok (wrapUnions
      (front.render f fallback ++ " HAVING " ++ text ++
        clause " ORDER BY " ", " (q.orderBy.map (OrderSpec.render f)) ++
        countClause " LIMIT " q.limit ++ countClause " OFFSET " q.offset)
      (renderUnions f fallback q.unions))
  | .deleteWhere m =>
    (fun sql => sql ++ " WHERE " ++ text) <$> Delete.render f fallback { m with filters := [] }
  | .updateWhere m =>
    (fun sql => sql ++ " WHERE " ++ text) <$> Update.render f fallback { m with filters := [] }

/-- The conditions of a clause are joined by AND behind its word. -/
theorem sql_eq_fill (f : Flavor) (fallback : String) (p : FilterPlace) (hne : p.conditions ≠ []) :
    p.node.sql f fallback = p.fill f fallback (Condition.renderAll f p.conditions) := by
  have hclause (lead : String) : clause lead " AND " (p.conditions.map (Condition.render f)) =
      lead ++ Condition.renderAll f p.conditions := by
    rw [clause, if_neg (by simpa using hne)]
    rfl
  have hnil (lead separator : String) : clause lead separator [] = "" := rfl
  cases p with
  | selectWhere q =>
    obtain ⟨tables, joins, fields, filters, groupFilters, limit, offset, orderBy, groupBy, unions⟩ := q
    dsimp only [conditions] at hclause ⊢
    simp only [node, Node.sql, fill, Select.render, hclause, List.map_nil, hnil, renderUnions,
      wrapUnions, List.foldl_nil, countClause, String.append_empty, String.append_assoc]
  | selectHaving q =>
    obtain ⟨tables, joins, fields, filters, groupFilters, limit, offset, orderBy, groupBy, unions⟩ := q
    dsimp only [conditions] at hclause ⊢
    simp only [node, Node.sql, fill, Select.render, hclause, List.map_nil, hnil, renderUnions,
      wrapUnions, List.foldl_nil, countClause, String.append_empty, String.append_assoc]
  | deleteWhere m =>
    obtain ⟨tables, joins, filters⟩ := m
    cases tables with
    | nil => rfl
    | cons t more =>
      dsimp only [conditions] at hclause ⊢
      simp only [node, Node.sql, fill, Delete.render, whereClause, hclause, List.map_nil, hnil]
      by_cases hj : joins = []
      · simp [hj, String.append_assoc]
      · cases t.target f <;> simp [hj, String.append_assoc]
  | updateWhere m =>
    obtain ⟨tables, joins, filters, assignments⟩ := m
    cases tables with
    | nil => rfl
    | cons t more =>
      dsimp only [conditions] at hclause ⊢
      simp only [node, Node.sql, fill, Update.render, whereClause, hclause, List.map_nil, hnil]
      by_cases ha : assignments.entries = []
      · cases t.name <;> simp [ha]
      · simp [ha, String.append_assoc]

/-- A statement with a clause has the text of `fill`, which is written unless an integer in it has too many
digits. The text behind WHERE or HAVING is never narrower than the conjunction of its conditions. It has their
value exactly if no run of it is wider than they are together; a clause of one condition, or of conditions
that are not open to their neighbours, always does. -/
theorem value_iff (V : Valuation) (d : Dialect) (fallback : String) (p : FilterPlace)
    (hne : p.conditions ≠ [])
    (hn : ∀ c ∈ p.conditions, ∀ n ∈ c.names, d.IsPlain n) :
    p.node.sql d.flavor fallback =
        p.fill d.flavor fallback (Condition.renderAll d.flavor p.conditions) ∧
      (∀ sql, p.node.render d.flavor fallback = .ok sql ↔
        p.fill d.flavor fallback (Condition.renderAll d.flavor p.conditions) = .ok sql ∧
          ¬ p.node.WritesLong) ∧
      ∃ v, V.readText d (Condition.renderAll d.flavor p.conditions) = some v ∧
        Condition.conjunction V d p.conditions ≤ v ∧
        (v = Condition.conjunction V d p.conditions ↔
          ∀ run ∈ Condition.runsOf p.conditions,
            Truth.all (run.map fun o => o.condition.value V d) ≤
              Condition.conjunction V d p.conditions) ∧
        (p.conditions.length = 1 ∨ (∀ c ∈ p.conditions, c.isOpen = false) →
          v = Condition.conjunction V d p.conditions) := by
  have hfill := sql_eq_fill d.flavor fallback p hne
  refine ⟨hfill, fun sql => hfill ▸ Node.render_eq_ok_iff, _, Condition.readText_renderAll V d hne hn,
    Condition.conjunction_le V d hne, ⟨fun h run hr => ?_, fun h => ?_⟩, fun h => ?_⟩
  · rw [← h]
    exact Truth.le_any_of_mem (List.mem_map_of_mem hr)
  · refine le_antisymm (Truth.any_le_iff.2 fun v hv => ?_) (Condition.conjunction_le V d hne)
    obtain ⟨run, hr, rfl⟩ := List.mem_map.1 hv
    exact h run hr
  · rcases h with h | h
    · obtain ⟨c, hc⟩ := List.length_eq_one_iff.1 h
      rw [hc, Condition.runsOf, Condition.valueOfRuns_runs, Condition.conjunction, List.map_singleton,
        Truth.all_singleton]
    · obtain ⟨run, hrun, hall⟩ := Condition.runsOf_of_not_open V d hne h
      rw [hrun, ← hall]
      exact Truth.max_no _

end FilterPlace

/-- A valuation under which a comparison of `a` holds and no other leaf does. -/
def onlyA : Valuation where
  value
    | .leaf (.name ['a']) :: _ => .yes
    | [.leaf (.number ['1']), .leaf (.sign ['=']), .leaf (.number ['1'])] => .yes
    | _ => .no
  one_equals_one := rfl
  one_equals_zero := rfl

/-- A delete of rows with `c = 3` among those with `a = 1` or `b = 2`. -/
def openDelete : FilterPlace :=
  .deleteWhere ⟨[⟨.name "t", none⟩], [],
    [.combine .disj [.compare .equal "a" (.int 1), .compare .equal "b" (.int 2)],
      .compare .equal "c" (.int 3)]⟩

/-- A row with `a = 1` is deleted whatever its `c`. -/
theorem openDelete_widens :
    openDelete.conditions ≠ [] ∧ (∀ c ∈ openDelete.conditions, ∀ n ∈ c.names, Dialect.mysql.IsPlain n) ∧
      openDelete.node.render Flavor.mysql "t" =
        .ok "DELETE FROM \x60t\x60 WHERE (\x60a\x60 = 1) OR (\x60b\x60 = 2) AND \x60c\x60 = 3" ∧
      ∃ v, onlyA.readText .mysql (Condition.renderAll Flavor.mysql openDelete.conditions) = some v ∧
        Condition.conjunction onlyA .mysql openDelete.conditions < v := by
  have hne : openDelete.conditions ≠ [] := by simp [openDelete, FilterPlace.conditions]
  have hn : ∀ c ∈ openDelete.conditions, ∀ n ∈ c.names, Dialect.mysql.IsPlain n := by decide
  obtain ⟨-, -, v, hv, hle, hiff, -⟩ := FilterPlace.value_iff onlyA .mysql "t" openDelete hne hn
  have hmem : [⟨.compare .equal "a" (.int 1), true⟩] ∈ Condition.runsOf openDelete.conditions :=
    List.mem_cons_self
  refine ⟨hne, hn, rfl, v, hv, lt_of_le_of_ne hle fun h => ?_⟩
  exact absurd (hiff.1 h.symm _ hmem) (by decide)

end SqlAst
