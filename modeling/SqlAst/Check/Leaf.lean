import SqlAst.Check.Basic
import SqlAst.Datum.Display
import SqlAst.Datum.Iterate
import SqlAst.Number.Whole
import SqlAst.Statement.Row

/-!
# Checks of values without parts

Texts, members of vocabularies, literals and counts. A member of a vocabulary is taken for its text; a
count is taken from numbers and texts that denote a whole number; null stands for an absent value.
-/
namespace SqlAst

namespace Checked

def text (d : Datum) : Checked String :=
  match d.asText? with
  | some s => .ok s
  | none => fail .notText

/-- An absent value, or what the check makes of a present one. -/
def nullable {α : Type} (check : Datum → Checked α) : Datum → Checked (Option α)
  | .null => .ok none
  | d => (check d).map some

/-- Refuses a text that is none of the words expected. -/
def unexpected {α : Type} (kind : IssueKind) (s : String) : Checked α :=
  fail (if Text.isWhole s then kind else .notUnicode)

/-- The only tag that is possible. -/
def tag (expected : String) (d : Datum) : Checked Unit :=
  match d.asText? with
  | some s => if s = expected then .ok () else unexpected .wrongTag s
  | none => fail .wrongTag

/-- The member of a vocabulary that a text stands for. -/
def member {α : Type} (all : List α) (word : α → String) (d : Datum) : Checked α :=
  match d.asText? with
  | some s =>
    match all.find? (word · = s) with
    | some a => .ok a
    | none => unexpected .notMember s
  | none => fail .notMember

def joinKind : Datum → Checked JoinKind := member JoinKind.all JoinKind.word

def unionKind : Datum → Checked UnionKind := member UnionKind.every UnionKind.word

def direction : Datum → Checked Direction := member Direction.all Direction.word

/-- A literal value. What is none fails each of the four kinds in turn. -/
def scalar (d : Datum) : Checked Scalar :=
  let none (double : IssueKind) : Checked Scalar :=
    .bad [⟨[.key "bool"], .notBool⟩, ⟨[.key "int"], .notInteger⟩, ⟨[.key "float"], double⟩,
      ⟨[.key "str"], .notText⟩]
  match d with
  | .null => .ok .null
  | .bool b => .ok (.bool b)
  | .int i => .ok (.int i)
  | .float x => if h : x.isFinite = true then .ok (.float ⟨x, h⟩) else none .notFinite
  | d =>
    match d.asText? with
    | some s => .ok (.text s)
    | Option.none => none .notDouble

/-- Doubles of at least this magnitude are not taken for integers. -/
def doubleLimit : Nat := Nat.pow 2 63

/-- The integer that a datum denotes. -/
def integer (d : Datum) : Checked Int :=
  match d with
  | .bool b => .ok (if b then 1 else 0)
  | .int i => .ok i
  | .float x =>
    if !x.isFinite then fail .notFinite
    else
      match x.toInt? with
      | some i => if i.natAbs < doubleLimit then .ok i else fail .oversizedInteger
      | none => fail .fractional
  | d =>
    match d.asText? with
    | some s =>
      match Whole.read s with
      | .ok i => .ok i
      | .error .malformed => unexpected .malformedInteger s
      | .error .tooLong => fail .oversizedInteger
    | none => fail .notInteger

/-- The count that a datum denotes. -/
def count (d : Datum) : Checked Nat :=
  match integer d with
  | .ok (.ofNat n) => .ok n
  | .ok (.negSucc _) => fail .negative
  | .bad is => .bad is

/-! ## Collections of leaves -/

/-- The items of a list or tuple. An object has its fields as pairs, which no check takes; an empty tuple
stands for each. -/
def items {α : Type} (d : Datum) (check : (a : Datum) → sizeOf a < sizeOf d → Checked α) :
    Checked (List α) :=
  match d with
  | .list items =>
    each items fun a h => check a (by
      have := List.sizeOf_lt_of_mem h
      simp only [Datum.list.sizeOf_spec]
      omega)
  | .tuple items =>
    each items fun a h => check a (by
      have := List.sizeOf_lt_of_mem h
      simp only [Datum.tuple.sizeOf_spec]
      omega)
  | d =>
    match h : d.fields? with
    | some fields => each fields fun _ _ => check (.tuple []) (Datum.sizeOf_fields h)
    | none => fail .notSequence

/-- The two bounds of a range. -/
def pair {α : Type} (check : Datum → Checked α) (d : Datum) : Checked (α × α) :=
  let two : List Datum → Checked (α × α)
    | [] => .bad [⟨[.index 0], .missing⟩, ⟨[.index 1], .missing⟩]
    | [a] => apply (map Prod.mk ((check a).under (.index 0))) (.bad [⟨[.index 1], .missing⟩])
    | [a, b] => apply (map Prod.mk ((check a).under (.index 0))) ((check b).under (.index 1))
    | _ => fail .tooLong
  match d with
  | .list items | .tuple items => two items
  | d =>
    match d.fields? with
    | some fields => two (Datum.pairs fields)
    | none => fail .notSequence

/-- The step to an entry: integers are steps as they are, other keys by their display. -/
def entryStep (key : Datum) : Step :=
  match key with
  | .int i => if -Int.pow 2 63 ≤ i ∧ i < Int.pow 2 63 then .index i else .key key.display
  | .bool b => .index (if b then 1 else 0)
  | key => .key (Text.replaced (key.asText?.getD key.display))

/-- A column with its value. -/
def assignment (entry : Datum × Datum) : Checked (String × Scalar) :=
  (apply (map Prod.mk ((text entry.1).under (.key "[key]"))) (scalar entry.2)).under (entryStep entry.1)

/-- A dictionary from columns to values. -/
def row (d : Datum) : Checked Row :=
  match d with
  | .dict entries =>
    map Row.ofEntries
      (entries.foldr (fun e done => apply (map List.cons (assignment e)) done) (.ok []))
  | _ => fail .notDictionary

end Checked

end SqlAst
