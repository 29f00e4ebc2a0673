import SqlAst.Check.Leaf

/-!
# Checks of fields

A field is given under its stored name or, if that is not there, under the name it has in calls. The
parts of an object are checked by an `Inner`, a check of everything smaller than the object.
-/
namespace SqlAst

/-- Where a value comes from: it is data of the program, or was read from JSON text. -/
inductive Form where
  | data
  | text
  deriving DecidableEq

/-- The entries of an object to be checked. -/
abbrev Fields := List (Datum × Datum)

/-- The two names of a field. -/
structure FieldName where
  name : String
  stored : String

/-- A field with one name. -/
def FieldName.plain (name : String) : FieldName := ⟨name, name⟩

/-- The places where an object of a certain type is expected. -/
inductive Position where
  | condition
  | table
  | join
  | select
  | unionPart

abbrev Position.Value : Position → Type
  | .condition => Condition
  | .table => Table
  | .join => Join
  | .select => Select
  | .unionPart => UnionPart

/-- A check of all data of less than a given size. -/
abbrev Inner (bound : Nat) := (p : Position) → (d : Datum) → sizeOf d < bound → Checked p.Value

namespace Fields

variable {α : Type}

/-- Checks a field; `absent` is its result if it is not given. -/
def check (es : Fields) (f : FieldName) (absent : Checked α)
    (value : (d : Datum) → sizeOf d < sizeOf es → Checked α) : Checked α :=
  match h : Datum.valueAt? f.stored es with
  | some d => (value d (Datum.sizeOf_entry h)).under (.key f.stored)
  | none =>
    match h : Datum.valueAt? f.name es with
    | some d => (value d (Datum.sizeOf_entry h)).under (.key f.name)
    | none => absent

/-- A field with a default. -/
def optional (es : Fields) (f : FieldName) (default : α) (value : Datum → Checked α) : Checked α :=
  es.check f (.ok default) fun d _ => value d

/-- The value of a field that is not given: the present one, or an issue. -/
def present (f : FieldName) (base : Option α) : Checked α :=
  match base with
  | some a => .ok a
  | none => .bad [⟨[.key f.stored], .missing⟩]

/-- A field that has to be given, unless there is a present value. -/
def required (es : Fields) (name : String) (base : Option α) (value : Datum → Checked α) : Checked α :=
  es.check (.plain name) (present (.plain name) base) fun d _ => value d

/-- The tag, which need not be given. -/
def tag (es : Fields) (expected : String) : Checked Unit :=
  es.optional (.plain "type") () (Checked.tag expected)

/-- A field that is a sequence of leaves. -/
def leaves (es : Fields) (f : FieldName) (default : List α) (item : Datum → Checked α) :
    Checked (List α) :=
  es.optional f default fun d => Checked.items d fun a _ => item a

/-- A field that is a sequence of parts. -/
def parts (es : Fields) (f : FieldName) (p : Position) (default : List p.Value)
    (inner : Inner (sizeOf es)) : Checked (List p.Value) :=
  es.check f (.ok default) fun d h => Checked.items d fun a h' => inner p a (Nat.lt_trans h' h)

/-- A field that is a part or null. -/
def nullablePart (es : Fields) (f : FieldName) (p : Position) (default : Option p.Value)
    (inner : Inner (sizeOf es)) : Checked (Option p.Value) :=
  es.check f (.ok default) fun d h =>
    match d, h with
    | .null, _ => .ok none
    | d, h => (inner p d h).map some

/-- A part that has to be given. -/
def requiredPart (es : Fields) (f : FieldName) (p : Position) (base : Option p.Value)
    (inner : Inner (sizeOf es)) : Checked p.Value :=
  es.check f (present f base) fun d h => inner p d h

end Fields

end SqlAst
