import Mathlib.Algebra.Group.Nat.Defs
import SqlAst.Render.Node

/-!
# Integers that are written

Which integers stand in the text of a node: the literals of its conditions, assignments and rows, and its limits
and offsets, at any depth. Spare tables, and values of rows under no column of the insert, are not written.
`Writes` says so apart from the order of writing; `demands` lists the same integers.

* `Text.isWritable_iff`: an integer is short enough if it is below a power of ten.
* `Node.digits_mem_demands_iff`: what writing a node asks digits for.
* `Node.render_eq_ok_iff`, `Node.render_of_sql_error`, `Node.render_of_writesLong`: what writing gives, from the
  text that a node has apart from its digits.
-/
namespace SqlAst

theorem Text.isWritable_iff (i : Int) : Text.isWritable i = true ↔ i.natAbs < 10 ^ Text.digitLimit := by
  rw [Text.isWritable, decide_eq_true_iff]
  exact Nat.length_toDigits_le_iff (by decide) (by decide)

/-! ## The integers of a node -/

/-- A literal in a condition is this integer. -/
inductive Condition.Writes : Condition → Int → Prop where
  | compare {op : Comparison} {column : String} {i : Int} : Writes (.compare op column (.int i)) i
  | low {column : String} {i : Int} {high : Scalar} : Writes (.between column (.int i) high) i
  | high {column : String} {low : Scalar} {i : Int} : Writes (.between column low (.int i)) i
  | among {column : String} {values : List Scalar} {i : Int} (h : .int i ∈ values) :
    Writes (.among column values) i
  | inside {connective : Connective} {parts : List Condition} {c : Condition} {i : Int} (hc : c ∈ parts)
    (h : c.Writes i) : Writes (.combine connective parts) i

mutual

/-- A table is the result of a statement that writes this integer. -/
inductive Table.Writes : Table → Int → Prop where
  | inside {q : Select} {label : Option String} {i : Int} (h : Select.Writes q i) :
    Table.Writes ⟨.query q, label⟩ i

/-- This integer is written somewhere in a statement. -/
inductive Select.Writes : Select → Int → Prop where
  | table {q : Select} {t : Table} {i : Int} (ht : t ∈ q.tables) (h : Table.Writes t i) : Select.Writes q i
  | join {q : Select} {j : Join} {i : Int} (hj : j ∈ q.joins) (h : Table.Writes j.table i) : Select.Writes q i
  | joinCondition {q : Select} {j : Join} {c : Condition} {i : Int} (hj : j ∈ q.joins)
    (hc : j.condition = some c) (h : c.Writes i) : Select.Writes q i
  | filter {q : Select} {c : Condition} {i : Int} (hc : c ∈ q.filters) (h : c.Writes i) : Select.Writes q i
  | groupFilter {q : Select} {c : Condition} {i : Int} (hc : c ∈ q.groupFilters) (h : c.Writes i) :
    Select.Writes q i
  | limit {q : Select} {n : Nat} (h : q.limit = some n) : Select.Writes q n
  | offset {q : Select} {n : Nat} (h : q.offset = some n) : Select.Writes q n
  | union {q : Select} {u : UnionPart} {i : Int} (hu : u ∈ q.unions) (h : Select.Writes u.query i) :
    Select.Writes q i

end

/-- This integer is written in one of some joins. -/
def JoinsWrite (joins : List Join) (i : Int) : Prop :=
  ∃ j ∈ joins, j.table.Writes i ∨ ∃ c, j.condition = some c ∧ c.Writes i

/-- This integer is written in the text of a node. -/
inductive Node.Writes : Node → Int → Prop where
  | table {t : Table} {i : Int} (h : t.Writes i) : Writes (.table t) i
  | join {j : Join} {i : Int} (h : JoinsWrite [j] i) : Writes (.join j) i
  | select {q : Select} {i : Int} (h : q.Writes i) : Writes (.select q) i
  | projection {p : Projection} {t : Table} {i : Int} (ht : t ∈ p.tables) (h : t.Writes i) : Writes (.projection p) i
  | condition {c : Condition} {i : Int} (h : c.Writes i) : Writes (.condition c) i
  | deleteTable {d : Delete} {t : Table} {i : Int} (ht : d.tables.head? = some t) (h : t.Writes i) :
    Writes (.delete d) i
  | deleteJoin {d : Delete} {i : Int} (h : JoinsWrite d.joins i) : Writes (.delete d) i
  | deleteFilter {d : Delete} {c : Condition} {i : Int} (hc : c ∈ d.filters) (h : c.Writes i) : Writes (.delete d) i
  | updateTable {u : Update} {t : Table} {i : Int} (ht : u.tables.head? = some t) (h : t.Writes i) :
    Writes (.update u) i
  | updateJoin {u : Update} {i : Int} (h : JoinsWrite u.joins i) : Writes (.update u) i
  | assignment {u : Update} {column : String} {i : Int} (h : (column, .int i) ∈ u.assignments.entries) :
    Writes (.update u) i
  | updateFilter {u : Update} {c : Condition} {i : Int} (hc : c ∈ u.filters) (h : c.Writes i) : Writes (.update u) i
  | insertSource {n : Insert} {q : Select} {i : Int} (hq : n.source = some q) (h : q.Writes i) :
    Writes (.insert n) i
  | insertRow {n : Insert} {row : Row} {column : String} {i : Int} (hsource : n.source = none) (hrow : row ∈ n.rows)
    (hcolumn : column ∈ n.columns) (h : row.value column = .int i) : Writes (.insert n) i

/-! ## Asking for digits -/

theorem Scalar.digits_mem_demands_iff {v : Scalar} {i : Int} : .digits i ∈ v.demands ↔ v = .int i := by
  cases v <;> simp [Scalar.demands, eq_comm]

mutual

theorem Condition.digits_mem_demands_iff (c : Condition) {i : Int} : .digits i ∈ c.demands ↔ c.Writes i := by
  match c with
  | .compare op column v =>
    rw [Condition.demands, Scalar.digits_mem_demands_iff]
    exact ⟨fun h => h ▸ .compare, fun h => by cases h; rfl⟩
  | .between column low high =>
    rw [Condition.demands, List.mem_append, Scalar.digits_mem_demands_iff, Scalar.digits_mem_demands_iff]
    exact ⟨fun h => h.elim (· ▸ .low) (· ▸ .high), fun h => by cases h <;> simp⟩
  | .among column values =>
    simp only [Condition.demands, List.mem_flatMap, Scalar.digits_mem_demands_iff, exists_eq_right]
    exact ⟨.among, fun h => by cases h; assumption⟩
  | .combine connective parts =>
    rw [Condition.demands, digits_mem_conditionDemands_iff parts]
    exact ⟨fun ⟨c, hc, h⟩ => .inside hc h, fun h => by cases h with | inside hc h => exact ⟨_, hc, h⟩⟩
  | .like .. | .isNull .. | .columnEqual .. =>
    exact iff_of_false (by simp [Condition.demands]) fun h => by cases h

theorem digits_mem_conditionDemands_iff (cs : List Condition) {i : Int} :
    .digits i ∈ conditionDemands cs ↔ ∃ c ∈ cs, c.Writes i := by
  match cs with
  | [] => simp [conditionDemands]
  | c :: rest =>
    simp [conditionDemands, c.digits_mem_demands_iff, digits_mem_conditionDemands_iff rest]

end

theorem digits_mem_countDemands_iff {count : Option Nat} {i : Int} :
    .digits i ∈ countDemands count ↔ ∃ n : Nat, count = some n ∧ i = n := by
  cases count <;> simp [countDemands]

theorem digits_mem_optionDemands_iff {condition : Option Condition} {i : Int} :
    .digits i ∈ (condition.map Condition.demands).getD [] ↔ ∃ c, condition = some c ∧ c.Writes i := by
  cases condition <;> simp [Condition.digits_mem_demands_iff]

mutual

theorem Table.digits_mem_demands_iff (t : Table) {i : Int} : .digits i ∈ t.demands ↔ t.Writes i := by
  match t with
  | ⟨.name name, label⟩ => exact iff_of_false (by simp [Table.demands]) fun h => by cases h
  | ⟨.query q, label⟩ =>
    have halias : .digits i ∉ if label.getD "" = "" then [Demand.fallback] else [] := by split <;> simp
    rw [Table.demands, List.mem_append, or_iff_left halias, q.digits_mem_demands_iff]
    exact ⟨.inside, fun h => by cases h; assumption⟩

theorem Select.digits_mem_demands_iff (q : Select) {i : Int} : .digits i ∈ q.demands ↔ q.Writes i := by
  match q with
  | ⟨tables, joins, fields, filters, groupFilters, limit, offset, orderBy, groupBy, unions⟩ =>
    simp only [Select.demands, List.mem_append, digits_mem_tableDemands_iff tables,
      digits_mem_joinDemands_iff joins, digits_mem_conditionDemands_iff, digits_mem_countDemands_iff,
      digits_mem_unionDemands_iff unions]
    constructor
    · rintro ((((((⟨t, ht, h⟩ | ⟨j, hj, h | ⟨c, hc, h⟩⟩) | ⟨c, hc, h⟩) | ⟨c, hc, h⟩) | ⟨n, hn, rfl⟩) | ⟨n, hn, rfl⟩) |
        ⟨u, hu, h⟩)
      · exact .table ht h
      · exact .join hj h
      · exact .joinCondition hj hc h
      · exact .filter hc h
      · exact .groupFilter hc h
      · exact .limit hn
      · exact .offset hn
      · exact .union hu h
    · intro h
      cases h with
      | table ht h => exact .inl (.inl (.inl (.inl (.inl (.inl ⟨_, ht, h⟩)))))
      | join hj h => exact .inl (.inl (.inl (.inl (.inl (.inr ⟨_, hj, .inl h⟩)))))
      | joinCondition hj hc h => exact .inl (.inl (.inl (.inl (.inl (.inr ⟨_, hj, .inr ⟨_, hc, h⟩⟩)))))
      | filter hc h => exact .inl (.inl (.inl (.inl (.inr ⟨_, hc, h⟩))))
      | groupFilter hc h => exact .inl (.inl (.inl (.inr ⟨_, hc, h⟩)))
      | limit hn => exact .inl (.inl (.inr ⟨_, hn, rfl⟩))
      | offset hn => exact .inl (.inr ⟨_, hn, rfl⟩)
      | union hu h => exact .inr ⟨_, hu, h⟩

theorem digits_mem_tableDemands_iff (tables : List Table) {i : Int} :
    .digits i ∈ tableDemands tables ↔ ∃ t ∈ tables, t.Writes i := by
  match tables with
  | [] => simp [tableDemands]
  | t :: rest =>
    simp [tableDemands, t.digits_mem_demands_iff, digits_mem_tableDemands_iff rest]

theorem digits_mem_joinDemands_iff (joins : List Join) {i : Int} :
    .digits i ∈ joinDemands joins ↔ JoinsWrite joins i := by
  match joins with
  | [] => simp [joinDemands, JoinsWrite]
  | ⟨t, condition, kind⟩ :: rest =>
    simp [joinDemands, t.digits_mem_demands_iff, digits_mem_optionDemands_iff, digits_mem_joinDemands_iff rest,
      JoinsWrite, or_assoc]

theorem digits_mem_unionDemands_iff (unions : List UnionPart) {i : Int} :
    .digits i ∈ unionDemands unions ↔ ∃ u ∈ unions, u.query.Writes i := by
  match unions with
  | [] => simp [unionDemands]
  | ⟨kind, q⟩ :: rest =>
    simp [unionDemands, q.digits_mem_demands_iff, digits_mem_unionDemands_iff rest]

end

theorem digits_mem_primaryDemands_iff {tables : List Table} {i : Int} :
    .digits i ∈ tableDemands (tables.take 1) ↔ ∃ t, tables.head? = some t ∧ t.Writes i := by
  rw [digits_mem_tableDemands_iff]
  cases tables <;> simp

theorem Insert.digits_mem_demands_iff (n : Insert) {i : Int} :
    .digits i ∈ n.demands ↔ (Node.insert n).Writes i := by
  rw [Insert.demands]
  split
  · rename_i q hq
    rw [q.digits_mem_demands_iff]
    refine ⟨.insertSource hq, fun h => ?_⟩
    cases h with
    | insertSource hq' h =>
      cases hq.symm.trans hq'
      exact h
    | insertRow hnone => cases hq.symm.trans hnone
  · rename_i hnone
    simp only [List.mem_flatMap, Scalar.digits_mem_demands_iff]
    refine ⟨fun ⟨row, hrow, column, hcolumn, h⟩ => .insertRow hnone hrow hcolumn h, fun h => ?_⟩
    cases h with
    | insertSource hq => cases hq.symm.trans hnone
    | insertRow _ hrow hcolumn h => exact ⟨_, hrow, _, hcolumn, h⟩

/-- Writing a node asks for the digits of the integers that its text holds. -/
theorem Node.digits_mem_demands_iff (n : Node) {i : Int} : .digits i ∈ n.demands ↔ n.Writes i := by
  cases n with
  | table t =>
    exact t.digits_mem_demands_iff.trans ⟨.table, fun h => by cases h; assumption⟩
  | join j =>
    exact (digits_mem_joinDemands_iff [j]).trans ⟨.join, fun h => by cases h; assumption⟩
  | select q => exact q.digits_mem_demands_iff.trans ⟨.select, fun h => by cases h; assumption⟩
  | projection p =>
    refine (digits_mem_tableDemands_iff p.tables).trans ⟨fun ⟨t, ht, h⟩ => .projection ht h, fun h => ?_⟩
    cases h with
    | projection ht h => exact ⟨_, ht, h⟩
  | condition c => exact c.digits_mem_demands_iff.trans ⟨.condition, fun h => by cases h; assumption⟩
  | delete d =>
    rw [Node.demands, List.mem_append, List.mem_append, digits_mem_primaryDemands_iff, digits_mem_joinDemands_iff,
      digits_mem_conditionDemands_iff]
    constructor
    · rintro ((⟨t, ht, h⟩ | h) | ⟨c, hc, h⟩)
      · exact .deleteTable ht h
      · exact .deleteJoin h
      · exact .deleteFilter hc h
    · intro h
      cases h with
      | deleteTable ht h => exact .inl (.inl ⟨_, ht, h⟩)
      | deleteJoin h => exact .inl (.inr h)
      | deleteFilter hc h => exact .inr ⟨_, hc, h⟩
  | update u =>
    simp only [Node.demands, List.mem_append, digits_mem_primaryDemands_iff, digits_mem_joinDemands_iff,
      digits_mem_conditionDemands_iff, List.mem_flatMap, Scalar.digits_mem_demands_iff]
    constructor
    · rintro (((⟨t, ht, h⟩ | h) | ⟨⟨column, v⟩, he, rfl⟩) | ⟨c, hc, h⟩)
      · exact .updateTable ht h
      · exact .updateJoin h
      · exact .assignment he
      · exact .updateFilter hc h
    · intro h
      cases h with
      | updateTable ht h => exact .inl (.inl (.inl ⟨_, ht, h⟩))
      | updateJoin h => exact .inl (.inl (.inr h))
      | assignment he => exact .inl (.inr ⟨_, he, rfl⟩)
      | updateFilter hc h => exact .inr ⟨_, hc, h⟩
  | insert n => exact n.digits_mem_demands_iff

/-! ## Too many digits -/

/-- An integer with too many digits stands in the text of a node. -/
def Node.WritesLong (n : Node) : Prop := ∃ i, n.Writes i ∧ 10 ^ Text.digitLimit ≤ i.natAbs

theorem Demand.isTooLong_digits (i : Int) :
    (Demand.digits i).isTooLong = true ↔ 10 ^ Text.digitLimit ≤ i.natAbs := by
  rw [Demand.isTooLong, Bool.not_eq_true', ← Bool.not_eq_true, Text.isWritable_iff, Nat.not_lt]

theorem Node.any_isTooLong_iff (n : Node) : n.demands.any Demand.isTooLong = true ↔ n.WritesLong := by
  rw [List.any_eq_true]
  constructor
  · rintro ⟨d, hd, hlong⟩
    cases d with
    | digits i => exact ⟨i, n.digits_mem_demands_iff.mp hd, (Demand.isTooLong_digits i).mp hlong⟩
    | fallback => cases hlong
  · rintro ⟨i, hi, hlong⟩
    exact ⟨.digits i, n.digits_mem_demands_iff.mpr hi, (Demand.isTooLong_digits i).mpr hlong⟩

/-- What is too long in front of the first fallback alias is too long for the whole node. -/
theorem Node.writesLong_of_prefix {n : Node} {p : Demand → Bool}
    (h : (n.demands.takeWhile p).any Demand.isTooLong = true) : n.WritesLong := by
  obtain ⟨d, hd, hlong⟩ := List.any_eq_true.mp h
  exact n.any_isTooLong_iff.mp (List.any_eq_true.mpr ⟨d, (List.takeWhile_prefix p).subset hd, hlong⟩)

namespace Node

variable {f : Flavor} {fallback : String} {n : Node}

theorem checkDigits_of_any {demands : List Demand} (h : demands.any Demand.isTooLong = true) :
    checkDigits demands = Outcome.misuse .wrongValue :=
  if_pos h

theorem checkDigits_of_not_any {demands : List Demand} (h : ¬ demands.any Demand.isTooLong = true) :
    checkDigits demands = .ok () :=
  if_neg h

theorem render_of_sql_error {r : Refusal} (h : n.sql f fallback = .error r) :
    n.render f fallback = .error (.fault (.refused r)) := by
  rw [render, h]
  rfl

theorem render_of_writesLong {sql : String} (h : n.sql f fallback = .ok sql) (hlong : n.WritesLong) :
    n.render f fallback = Outcome.misuse .wrongValue := by
  rw [render, h, checkDigits_of_any (n.any_isTooLong_iff.mpr hlong)]
  rfl

theorem render_of_not_writesLong (hshort : ¬ n.WritesLong) :
    n.render f fallback = Outcome.ofRefusable (n.sql f fallback) := by
  rw [render, checkDigits_of_not_any (mt n.any_isTooLong_iff.mp hshort)]
  exact bind_pure _

theorem render_eq_ok_iff {sql : String} :
    n.render f fallback = .ok sql ↔ n.sql f fallback = .ok sql ∧ ¬ n.WritesLong := by
  by_cases hlong : n.WritesLong
  · refine iff_of_false (fun h => ?_) fun h => h.2 hlong
    cases hsql : n.sql f fallback with
    | ok sql => cases (render_of_writesLong hsql hlong).symm.trans h
    | error r => cases (render_of_sql_error hsql).symm.trans h
  · rw [render_of_not_writesLong hlong, and_iff_left hlong]
    cases n.sql f fallback with
    | ok sql => exact ⟨fun h => by cases h; rfl, fun h => by cases h; rfl⟩
    | error r => exact iff_of_false (fun h => by cases h) fun h => by cases h

/-- The text that is written is the one that the node has. -/
theorem sql_of_render {sql : String} (h : n.render f fallback = .ok sql) : n.sql f fallback = .ok sql :=
  (render_eq_ok_iff.mp h).1

end Node

end SqlAst
