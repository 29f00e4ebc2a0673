import SqlAst.Proofs.Counts
import SqlAst.Proofs.ReadParts
import SqlAst.Proofs.Respelling
import SqlAst.Proofs.TextRoundTrip

/-!
# Limits and offsets keep their numbers

A limit or an offset is the number that was given for it, whether it comes from a call or from a query at any
depth of a payload; it is written as its digits, and it is kept when its node is stored and read back.

* `Fields.bound_counts`: what a query in a payload has for the datum under the key.
* `Decode.Way.query_read`, `Decode.Way.query_refused`: what the readers make of such a datum.
* `Node.holds_stored`: nodes that are read back have the same queries inside.
* `Bound.Exact`, `Bound.exact`: all of this for both clauses.
-/
namespace SqlAst

/-! ## Queries in payloads -/

/-- A query has the count that the datum under the key stands for. -/
theorem Fields.bound_counts {b : Bound} {es : Fields} {q : Select} {form : Form}
    (h : checkPart form .select (.dict es) = .ok q) {d : Datum} (hd : es.given? b.field = some d) :
    d.Counts (b.value q) := by
  rw [checkPart_select] at h
  obtain ⟨-, hlimit, hoffset⟩ := select_ok h
  rw [← Checked.nullable_count_ok_iff]
  cases b with
  | limit => exact check_ok_of_given hlimit hd
  | offset => exact check_ok_of_given hoffset hd

namespace Decode

/-- The type of node that an object is read as. Conditions, which hold no queries, are left out where any
condition is read. -/
def Reading.type? (r : Reading) (es : Fields) : Option NodeType :=
  match r with
  | .tagged => es.kind?.map .stored
  | .typed (.node t) => some t
  | .typed .anyCondition => none

theorem Reading.check_of_type {r : Reading} {es : Fields} {t : NodeType} (h : r.type? es = some t) :
    r.check es = t.check .data (.dict es) := by
  match r with
  | .tagged =>
    obtain ⟨kind, hkind, rfl⟩ := Option.map_eq_some_iff.1 h
    show Place.payload.check (.dict es) = _
    unfold Place.check
    simp only [hkind]
    rfl
  | .typed (.node t') =>
    obtain rfl := Option.some.inj h
    rfl

section

variable [Json.StrictReader] {r : Reading} {es fs : Fields} {o : Outcome Node} {t : NodeType} {b : Bound} {d : Datum}

/-- In what is read, each query of the payload has the count that the datum stands for. -/
theorem Way.query_read (hway : Way r es o) (ht : r.type? es = some t) (hquery : t.HasQuery es fs)
    (hd : fs.given? b.field = some d) {n : Node} (ho : o = .ok n) :
    ∃ q, checkPart .data .select (.dict fs) = .ok q ∧ n.Holds q ∧ d.Counts (b.value q) := by
  have hverdict := hway.verdict
  rw [ho, Reading.check_of_type ht] at hverdict
  cases hcheck : t.check .data (.dict es) with
  | ok n' =>
    rw [hcheck] at hverdict
    cases hverdict
    obtain ⟨q, hq, hholds⟩ := NodeType.exists_query hcheck hquery
    exact ⟨q, hq, hholds, Fields.bound_counts hq hd⟩
  | bad is =>
    rw [hcheck] at hverdict
    cases hverdict

/-- A payload with a datum that stands for no count is refused; tags that stand for no type come first. -/
theorem Way.query_refused (hway : Way r es o) (ht : r.type? es = some t) (hquery : t.HasQuery es fs)
    (hd : fs.given? b.field = some d) (hno : ∀ v, ¬ d.Counts v) :
    ∃ f, o = .error (.fault f) ∧ f.code = if es.mistags t.slots = [] then .parse else .unknownType := by
  have hverdict := hway.verdict
  rw [Reading.check_of_type ht] at hverdict
  have htags := t.tags_check .data es
  cases hcheck : t.check .data (.dict es) with
  | ok n =>
    obtain ⟨q, hq, -⟩ := NodeType.exists_query hcheck hquery
    exact absurd (Fields.bound_counts hq hd) (hno _)
  | bad is =>
    rw [hcheck] at hverdict htags
    rw [Checked.verdict_bad, htags] at hverdict
    exact Outcome.fault_of_verdict hverdict

end

end Decode

/-! ## Nodes that are read back -/

theorem Node.holds_replaced (n : Node) (q : Select) : n.replaced.Holds q ↔ n.Holds q := by
  cases n with
  | update m | insert m => exact or_congr_left (iff_of_false nofun nofun)
  | _ => exact Iff.rfl

/-- A node that is stored and read back has the same queries inside. -/
theorem Node.holds_stored [Json.StrictReader] (n : Node) {kind : NodeKind} (h : n.kind? = some kind) :
    ∃ n', (∀ q, n'.Holds q ↔ n.Holds q) ∧
      Decode.ofTagged (.ofJson n.toJson.withWholeNames.unique) = .ok n' ∧
      Decode.ofData (.node (.stored kind)) (.ofJson n.toJson.withWholeNames.unique) = .ok n' ∧
      ∀ s, n.serialize? = some s →
        (n.toJson.isShort = true → Decode.ofTaggedText (.text s) = .ok n') ∧
          (n.toJson.isShorter = true → Decode.ofText (.node (.stored kind)) (.text s) = .ok n') := by
  refine ⟨n.replaced, n.holds_replaced, n.ofTagged_settled h, ?_,
    fun s hs => ⟨fun hshort => ?_, fun hshorter => ?_⟩⟩
  · have hdata : n.toJson.withWholeNames.unique = n.replaced.toJson := n.settled_toJson
    rw [hdata]
    exact n.replaced.ofData_toJson (n.kind?_replaced.trans h)
  · rw [Node.ofTaggedText_serialized h hs, if_pos hshort]
  · rw [Node.ofText_serialized hs (.node (.stored kind)) (n.check_written .text h), if_pos hshorter]

/-! ## Clauses as they are written -/

namespace Bound

/-- The word of the clause, with the blanks around it. -/
def word : Bound → String
  | limit => " LIMIT "
  | offset => " OFFSET "

/-- The clause stands at the end of a statement, in front of the members of its union, and is its word and the
digits of the count. -/
theorem exists_sql_put (b : Bound) (q : Select) (f : Flavor) (fallback : String) :
    ∃ front behind,
      Node.sql f fallback (.select (b.put q none)) =
          .ok (wrapUnions (front ++ behind) (renderUnions f fallback q.unions)) ∧
        ∀ n, ∃ ds, Json.IsWhole ds ∧ Nat.ofDigitChars 10 ds 0 = n ∧
          Node.sql f fallback (.select (b.put q (some n))) =
            .ok (wrapUnions (front ++ (b.word ++ String.ofList ds) ++ behind)
              (renderUnions f fallback q.unions)) := by
  obtain ⟨front, hfront⟩ := q.exists_sql_bounds f fallback
  have hdigits (n : Nat) := And.intro (Json.isWhole_toDigits n) (Nat.ofDigitChars_ten_toDigits (n := n))
  cases b with
  | limit =>
    refine ⟨front, countClause " OFFSET " q.offset, ?_, fun n => ⟨_, (hdigits n).1, (hdigits n).2, ?_⟩⟩
    · exact (hfront none q.offset).trans (by rw [countClause, String.append_empty])
    · exact hfront (some n) q.offset
  | offset =>
    refine ⟨front ++ countClause " LIMIT " q.limit, "", ?_, fun n => ⟨_, (hdigits n).1, (hdigits n).2, ?_⟩⟩
    · exact hfront q.limit none
    · exact (hfront q.limit (some n)).trans (by rw [countClause, word, String.append_empty])

/-- What is too long in a statement with a count is so without the count, or is the count. -/
theorem writesLong_put_iff (b : Bound) (q : Select) (n : Nat) :
    (Node.select (b.put q (some n))).WritesLong ↔
      10 ^ Text.digitLimit ≤ n ∨ (Node.select (b.put q none)).WritesLong := by
  have hwrites (i : Int) : (Node.select (b.put q (some n))).Writes i ↔
      i = n ∨ (Node.select (b.put q none)).Writes i := by
    rw [← Node.digits_mem_demands_iff, ← Node.digits_mem_demands_iff]
    cases b <;> simp [Node.demands, put, Select.demands, countDemands, or_left_comm]
  simp only [Node.WritesLong, hwrites]
  constructor
  · rintro ⟨i, rfl | hi, hlong⟩
    · exact .inl hlong
    · exact .inr ⟨i, hi, hlong⟩
  · rintro (hlong | ⟨i, hi, hlong⟩)
    · exact ⟨n, .inl rfl, hlong⟩
    · exact ⟨i, .inr hi, hlong⟩

theorem exists_render_put (b : Bound) (q : Select) (f : Flavor) (fallback : String)
    (hshort : ¬ (Node.select (b.put q none)).WritesLong) :
    ∃ front behind,
      Node.render f fallback (.select (b.put q none)) =
          .ok (wrapUnions (front ++ behind) (renderUnions f fallback q.unions)) ∧
        ∀ n < 10 ^ Text.digitLimit, ∃ ds, Json.IsWhole ds ∧ Nat.ofDigitChars 10 ds 0 = n ∧
          Node.render f fallback (.select (b.put q (some n))) =
            .ok (wrapUnions (front ++ (b.word ++ String.ofList ds) ++ behind)
              (renderUnions f fallback q.unions)) := by
  obtain ⟨front, behind, hnone, hsome⟩ := b.exists_sql_put q f fallback
  refine ⟨front, behind, Node.render_eq_ok_iff.mpr ⟨hnone, hshort⟩, fun n hn => ?_⟩
  obtain ⟨ds, hwhole, hvalue, hsql⟩ := hsome n
  refine ⟨ds, hwhole, hvalue, Node.render_eq_ok_iff.mpr ⟨hsql, fun hlong => ?_⟩⟩
  exact ((b.writesLong_put_iff q n).mp hlong).elim (Nat.not_le.mpr hn) hshort

theorem render_put_of_long (b : Bound) (q : Select) (f : Flavor) (fallback : String) (n : Nat)
    (h : 10 ^ Text.digitLimit ≤ n ∨ (Node.select (b.put q none)).WritesLong) :
    Node.render f fallback (.select (b.put q (some n))) = .error (.misuse .wrongValue) := by
  obtain ⟨front, behind, -, hsome⟩ := b.exists_sql_put q f fallback
  obtain ⟨ds, -, -, hsql⟩ := hsome n
  exact Node.render_of_writesLong hsql ((b.writesLong_put_iff q n).mpr h)

/-! ## Counts are exact -/

/-- What it means that a clause with a count is exact. -/
structure Exact [Json.StrictReader] (b : Bound) : Prop where
  /-- Data stand for nothing else than the one number that they denote; null stands for none. -/
  counts : ∀ (d : Datum) (v : Option Nat), d.Counts v →
    d = .null ∧ v = none ∨ ∃ n, v = some n ∧ d.Denotes n ∧ ∀ x, d.Denotes x → x = n
  /-- What denotes a number below zero or no whole number stands for no count. -/
  not_natural : ∀ (d : Datum) (x : ℚ), d.Denotes x → (x < 0 ∨ ∀ i : Int, x ≠ i) → ∀ v, ¬ d.Counts v
  /-- What denotes no number stands for no count, unless it is null. -/
  no_number : ∀ d : Datum, d ≠ .null → (∀ x, ¬ d.Denotes x) → ∀ v, ¬ d.Counts v
  /-- Texts of decimal numbers denote these numbers. -/
  decimal : ∀ (d : Datum) (s : String) (x : ℚ), d.asText? = some s → Whole.Decimal s.toList x → d.Denotes x
  /-- A builder sets the clause to what the datum stands for, and nothing else. -/
  set_ok : ∀ (q q' : Select) (d : Datum), b.set q d = .ok q' ↔ ∃ v, d.Counts v ∧ q' = b.put q v
  /-- A builder refuses all other data. -/
  set_refused : ∀ (q : Select) (d : Datum), (∀ v, ¬ d.Counts v) →
    ∃ f, b.set q d = .error (.fault f) ∧ f.code = .validation
  /-- If a payload is read, each query in it has what the datum under its key stands for. -/
  read_ok : ∀ {r : Decode.Reading} {es fs : Fields} {o : Outcome Node} {t : NodeType} {d : Datum},
    Decode.Way r es o → r.type? es = some t → t.HasQuery es fs → fs.given? b.field = some d →
    ∀ n, o = .ok n →
      ∃ q, checkPart .data .select (.dict fs) = .ok q ∧ n.Holds q ∧ d.Counts (b.value q)
  /-- Payloads with other data under the key are refused; only a tag of no type is reported in their place. -/
  read_refused : ∀ {r : Decode.Reading} {es fs : Fields} {o : Outcome Node} {t : NodeType} {d : Datum},
    Decode.Way r es o → r.type? es = some t → t.HasQuery es fs → fs.given? b.field = some d →
    (∀ v, ¬ d.Counts v) →
      ∃ f, o = .error (.fault f) ∧ f.code = if es.mistags t.slots = [] then .parse else .unknownType
  /-- The clause is written as its word and the digits of the count, without superfluous zeros, in a statement that
  is written without it, too. -/
  written : ∀ (q : Select) (f : Flavor) (fallback : String), ¬ (Node.select (b.put q none)).WritesLong →
    ∃ front behind,
      Node.render f fallback (.select (b.put q none)) =
          .ok (wrapUnions (front ++ behind) (renderUnions f fallback q.unions)) ∧
        ∀ n < 10 ^ Text.digitLimit, ∃ ds, Json.IsWhole ds ∧ Nat.ofDigitChars 10 ds 0 = n ∧
          Node.render f fallback (.select (b.put q (some n))) =
            .ok (wrapUnions (front ++ (b.word ++ String.ofList ds) ++ behind) (renderUnions f fallback q.unions))
  /-- A count with more digits is not written, nor is a statement that is not written without the clause. -/
  not_written : ∀ (q : Select) (f : Flavor) (fallback : String) (n : Nat),
    10 ^ Text.digitLimit ≤ n ∨ (Node.select (b.put q none)).WritesLong →
      Node.render f fallback (.select (b.put q (some n))) = .error (.misuse .wrongValue)
  /-- A node that is stored and read back has the same queries inside, with the same counts; as text it is read
  back unless an integer has too many digits, the strict reader counting in its way. -/
  stored : ∀ (n : Node) {kind : NodeKind}, n.kind? = some kind →
    ∃ n', (∀ q, n'.Holds q ↔ n.Holds q) ∧
      Decode.ofTagged (.ofJson n.toJson.withWholeNames.unique) = .ok n' ∧
      Decode.ofData (.node (.stored kind)) (.ofJson n.toJson.withWholeNames.unique) = .ok n' ∧
      ∀ s, n.serialize? = some s →
        (n.toJson.isShort = true → Decode.ofTaggedText (.text s) = .ok n') ∧
          (n.toJson.isShorter = true → Decode.ofText (.node (.stored kind)) (.text s) = .ok n')

/-- Limits and offsets are exact. -/
theorem exact [Json.StrictReader] (b : Bound) : b.Exact where
  counts d v h := by
    rcases h with hnull | ⟨hd, -⟩
    · exact .inl ⟨hnull, rfl⟩
    · exact .inr ⟨_, rfl, hd, fun x hx => hx.unique hd⟩
  not_natural _ _ hd hx := hd.not_counts hx
  no_number _ hne hno := Datum.not_counts_of_not_denotes hne hno
  decimal _ _ _ hs hx := Datum.denotes_of_decimal hs hx
  set_ok := b.set_ok_iff
  set_refused q _ hno := b.set_invalid q hno
  read_ok hway ht hquery hd _ ho := hway.query_read ht hquery hd ho
  read_refused hway ht hquery hd hno := hway.query_refused ht hquery hd hno
  written := b.exists_render_put
  not_written := b.render_put_of_long
  stored n _ h := n.holds_stored h

/-- Zeros and a minus sign are read as zero although they are no decimal number. -/
theorem set_zeroMinusZero :
    limit.set {} (.text "0-0") = .ok (limit.put {} (some 0)) ∧ ∀ x, ¬ Whole.Decimal "0-0".toList x :=
  ⟨rfl, fun _ h => h.not_mem_minus (by decide) (by decide)⟩

end Bound

end SqlAst
