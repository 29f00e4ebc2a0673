import SqlAst.Build.Query
import SqlAst.Proofs.Codecs
import SqlAst.Proofs.WholeNumbers

/-!
# Counts

What a limit or an offset is set to is the number that the datum denotes, and data that denote no natural number
are refused: nothing is rounded, cut off or wrapped around.

* `Datum.Denotes`: the number that a datum denotes, which is unique.
* `Checked.integer_ok_iff`: the integer that a datum is taken for is the number that it denotes.
* `Bound.set_ok_iff`, `Bound.set_invalid`: what the builders make of a datum.
* `Select.exists_sql_bounds`: where the clauses stand in a statement.
-/
namespace SqlAst

/-! ## Numbers that data denote -/

namespace Binary64

/-- The value of a finite double. -/
def value (x : Binary64) : ℚ := x.signedQuotient.1 / x.signedQuotient.2

theorem signedQuotient_snd_pos (x : Binary64) : 0 < x.signedQuotient.2 := Nat.two_pow_pos _

/-- A double is taken for the integer that is its value. -/
theorem toInt?_eq_some_iff {x : Binary64} {i : Int} :
    x.toInt? = some i ↔ x.isFinite = true ∧ x.value = i := by
  have hpos := x.signedQuotient_snd_pos
  have hden : (x.signedQuotient.2 : ℚ) ≠ 0 := by exact_mod_cast hpos.ne'
  have hvalue : x.value = i ↔ x.signedQuotient.1 = i * x.signedQuotient.2 := by
    unfold value
    rw [div_eq_iff hden]
    exact_mod_cast Iff.rfl
  rw [hvalue]
  unfold toInt?
  generalize x.signedQuotient = q at hpos ⊢
  obtain ⟨num, den⟩ := q
  dsimp only at hpos ⊢
  have hpos : (0 : Int) < den := by exact_mod_cast hpos
  constructor
  · intro h
    split at h
    · rename_i hwhole
      obtain rfl := Option.some.inj h
      exact ⟨hwhole.1, (Int.ediv_mul_cancel (Int.dvd_of_emod_eq_zero hwhole.2)).symm⟩
    · cases h
  · rintro ⟨hfinite, rfl⟩
    rw [if_pos ⟨hfinite, Int.mul_emod_left i den⟩, Int.mul_ediv_cancel _ hpos.ne']

end Binary64

/-- The number that a datum denotes: truth values are zero and one, texts are read as numbers, and members of
vocabularies as their texts. -/
def Datum.Denotes (d : Datum) (q : ℚ) : Prop :=
  match d with
  | .bool b => q = if b then 1 else 0
  | .int i => q = i
  | .float x => x.isFinite = true ∧ x.value = q
  | .text s => Whole.Denotes s.toList q
  | .member m => Whole.Denotes m.value.toList q
  | _ => False

/-- A datum denotes one number at most. -/
theorem Datum.Denotes.unique {d : Datum} {q q' : ℚ} (h : d.Denotes q) (h' : d.Denotes q') : q = q' := by
  cases d with
  | bool b => exact Eq.trans h (Eq.symm h')
  | int i => exact Eq.trans h (Eq.symm h')
  | float x => exact h.2.symm.trans h'.2
  | text s => exact Whole.Denotes.unique h h'
  | member m => exact Whole.Denotes.unique h h'
  | _ => exact h.elim

theorem Datum.denotes_of_decimal {d : Datum} {s : String} {q : ℚ} (hd : d.asText? = some s)
    (h : Whole.Decimal s.toList q) : d.Denotes q := by
  cases d with
  | text t | member m =>
    obtain rfl := Option.some.inj hd
    exact Whole.Denotes.of_decimal h
  | _ => cases hd

/-- How large an integer may be that a datum is taken for. -/
def Datum.Reaches (d : Datum) (i : Int) : Prop :=
  match d with
  | .float _ => i.natAbs < Checked.doubleLimit
  | .text _ | .member _ => i.natAbs < 10 ^ Whole.digitLimit
  | _ => True

namespace Checked

theorem integer_of_text {d : Datum} {s : String} (hd : d.asText? = some s) (i : Int) :
    integer d = .ok i ↔ Whole.read s = .ok i := by
  have hread : integer d = integer (.text s) := by
    cases d with
    | text t | member m =>
      obtain rfl := Option.some.inj hd
      rfl
    | _ => cases hd
  rw [hread]
  simp only [integer, Datum.asText?]
  cases Whole.read s with
  | ok j => simp
  | error e =>
    refine iff_of_false (fun h => ?_) (fun h => by cases h)
    cases e with
    | malformed =>
      unfold unexpected fail at h
      cases h
    | tooLong => cases h

/-- The integer that a datum is taken for is the number that it denotes. -/
theorem integer_ok_iff (d : Datum) (i : Int) : integer d = .ok i ↔ d.Denotes i ∧ d.Reaches i := by
  cases d with
  | bool b =>
    show Checked.ok (if b then 1 else 0) = .ok i ↔ (i : ℚ) = (if b then 1 else 0) ∧ True
    rw [and_true, Checked.ok.injEq, eq_comm]
    cases b <;> simp
  | int j =>
    show Checked.ok j = .ok i ↔ (i : ℚ) = j ∧ True
    rw [and_true, Checked.ok.injEq, Int.cast_inj, eq_comm]
  | float x =>
    show (if _ then _ else _) = _ ↔ (x.isFinite = true ∧ x.value = i) ∧ i.natAbs < doubleLimit
    rw [← Binary64.toInt?_eq_some_iff]
    cases hfinite : x.isFinite with
    | false =>
      refine iff_of_false nofun fun h => ?_
      have hx := (Binary64.toInt?_eq_some_iff.1 h.1).1
      rw [hfinite] at hx
      cases hx
    | true =>
      rw [if_neg (by decide)]
      cases x.toInt? with
      | none => exact iff_of_false nofun fun h => absurd h.1.symm (Option.some_ne_none i)
      | some j =>
        dsimp only
        split
        · rename_i hless
          rw [Checked.ok.injEq, Option.some.injEq]
          exact ⟨fun h => ⟨h, h ▸ hless⟩, fun h => h.1⟩
        · rename_i hless
          refine iff_of_false nofun fun h => hless ?_
          rw [Option.some.inj h.1]
          exact h.2
  | text s => exact (integer_of_text rfl i).trans (Whole.read_ok_iff s i)
  | member m => exact (integer_of_text rfl i).trans (Whole.read_ok_iff m.value i)
  | _ => exact iff_of_false (fun h => by cases h) fun h => h.1

/-- The count that a datum is taken for is the number that it denotes. -/
theorem count_ok_iff (d : Datum) (n : Nat) : count d = .ok n ↔ d.Denotes n ∧ d.Reaches n := by
  have hinteger := integer_ok_iff d n
  rw [Int.cast_natCast] at hinteger
  rw [← hinteger]
  unfold count
  cases integer d with
  | ok i => cases i <;> simp [fail]
  | bad is => simp

end Checked

/-! ## What a limit or an offset is set to -/

/-- What a datum sets a limit or an offset to: nothing if it is null, and else the number that it denotes. -/
inductive Datum.Counts (d : Datum) : Option Nat → Prop where
  | absent (h : d = .null) : Counts d none
  | number {n : Nat} (hd : d.Denotes n) (hr : d.Reaches n) : Counts d (some n)

namespace Datum

variable {d : Datum} {q : ℚ}

/-- What denotes a number below zero or no whole number sets nothing. -/
theorem Denotes.not_counts (h : d.Denotes q) (hq : q < 0 ∨ ∀ i : Int, q ≠ i) (v : Option Nat) :
    ¬ d.Counts v := by
  rintro (rfl | ⟨hd, -⟩)
  · exact h
  · rename_i n
    obtain rfl := h.unique hd
    rcases hq with hneg | hwhole
    · exact absurd hneg (not_lt.2 n.cast_nonneg)
    · exact hwhole n (Int.cast_natCast n).symm

/-- What denotes no number sets nothing unless it is null. -/
theorem not_counts_of_not_denotes (hne : d ≠ .null) (h : ∀ q, ¬ d.Denotes q) (v : Option Nat) :
    ¬ d.Counts v := by
  rintro (hnull | ⟨hd, -⟩)
  · exact hne hnull
  · exact h _ hd

end Datum

theorem Checked.nullable_count_ok_iff (d : Datum) (v : Option Nat) :
    nullable count d = .ok v ↔ d.Counts v := by
  by_cases hnull : d = .null
  · subst hnull
    constructor
    · intro h
      obtain rfl := Checked.ok.inj h
      exact .absent rfl
    · rintro (- | ⟨hd, -⟩)
      · rfl
      · exact hd.elim
  · rw [nullable.eq_2 _ _ hnull, map_eq_ok_iff]
    constructor
    · rintro ⟨n, hn, rfl⟩
      obtain ⟨hd, hr⟩ := (count_ok_iff d n).1 hn
      exact .number hd hr
    · rintro (h | ⟨hd, hr⟩)
      · exact absurd h hnull
      · exact ⟨_, (count_ok_iff d _).2 ⟨hd, hr⟩, rfl⟩

/-- The two clauses with a count. -/
inductive Bound where
  | limit
  | offset

namespace Bound

def field : Bound → FieldName
  | limit => .limit
  | offset => .offset

def value : Bound → Select → Option Nat
  | limit, q => q.limit
  | offset, q => q.offset

def put : Bound → Select → Option Nat → Select
  | limit, q, v => { q with limit := v }
  | offset, q, v => { q with offset := v }

/-- The builder of the clause. -/
def set : Bound → Select → Datum → Outcome Select
  | limit, q, d => q.setLimit d
  | offset, q, d => q.setOffset d

theorem set_eq (b : Bound) (q : Select) (d : Datum) :
    b.set q d = (Select.countOf b.field d).map (b.put q) := by
  cases b with
  | limit =>
    show (Select.countOf .limit d >>= _) = (Select.countOf .limit d).map _
    cases Select.countOf .limit d <;> rfl
  | offset =>
    show (Select.countOf .offset d >>= _) = (Select.countOf .offset d).map _
    cases Select.countOf .offset d <;> rfl

theorem set_of_counts (b : Bound) (q : Select) {d : Datum} {v : Option Nat} (h : d.Counts v) :
    b.set q d = .ok (b.put q v) := by
  rw [set_eq, Select.countOf, (Checked.nullable_count_ok_iff d v).2 h]
  rfl

/-- A builder refuses what stands for no count. -/
theorem set_invalid (b : Bound) (q : Select) {d : Datum} (h : ∀ v, ¬ d.Counts v) :
    ∃ f, b.set q d = .error (.fault f) ∧ f.code = .validation := by
  rw [set_eq, Select.countOf]
  cases hcount : Checked.nullable Checked.count d with
  | ok v => exact absurd ((Checked.nullable_count_ok_iff d v).1 hcount) (h v)
  | bad is => exact ⟨_, rfl, rfl⟩

/-- A builder sets the clause to what the datum stands for. -/
theorem set_ok_iff (b : Bound) (q q' : Select) (d : Datum) :
    b.set q d = .ok q' ↔ ∃ v, d.Counts v ∧ q' = b.put q v := by
  constructor
  · intro h
    by_cases hcounts : ∃ v, d.Counts v
    · obtain ⟨v, hv⟩ := hcounts
      rw [b.set_of_counts q hv] at h
      exact ⟨v, hv, (Except.ok.inj h).symm⟩
    · obtain ⟨f, hf, -⟩ := b.set_invalid q fun v hv => hcounts ⟨v, hv⟩
      rw [h] at hf
      cases hf
  · rintro ⟨v, hv, rfl⟩
    exact b.set_of_counts q hv

end Bound

/-! ## How the clauses are written -/

/-- The clauses stand at the end of a statement, in front of the members of its union. -/
theorem Select.exists_sql_bounds (q : Select) (f : Flavor) (fallback : String) :
    ∃ front, ∀ limit offset, Node.sql f fallback (.select { q with limit, offset }) =
      .ok (wrapUnions (front ++ countClause " LIMIT " limit ++ countClause " OFFSET " offset)
        (renderUnions f fallback q.unions)) :=
  ⟨_, fun _ _ => rfl⟩

end SqlAst
