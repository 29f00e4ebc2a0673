import SqlAst.Text.Blank

/-!
# Whole numbers in loose spellings

An integer in plain decimal is read as it is. Otherwise the spelling is cleaned first: blanks around it,
a plus sign, zeros in front, a fraction of zeros, and single underscores between digits go. Only a
spelling that needs no cleaning can be too long; of a cleaned one it is said that it cannot be read.
-/
namespace SqlAst.Whole

/-- Why a spelling is not read. -/
inductive Flaw where
  | malformed
  /-- More digits than are read. -/
  | tooLong
  deriving DecidableEq

/-- The most digits that are read. -/
def digitLimit : Nat := 4300

/-- Digits without a superfluous zero in front, and their value. -/
def digits? (cs : List Char) : Except Flaw Nat :=
  if cs = ['0'] then .ok 0
  else if cs.head? = some '0' then .error .malformed
  else if digitLimit < (cs.takeWhile Text.isDecimalDigit).length then .error .tooLong
  else if cs ≠ [] ∧ cs.all Text.isDecimalDigit then .ok (Nat.ofDigitChars 10 cs 0)
  else .error .malformed

/-- An integer in plain decimal. -/
def plain? : List Char → Except Flaw Int
  | '-' :: r => (digits? r).map fun n => -(n : Int)
  | cs => (digits? cs).map fun n => (n : Int)

/-! ## Cleaning -/

/-- Whether digits go on from here: one that is not zero, or a minus sign. -/
def isStart (c : Char) : Bool := decide ('1' ≤ c ∧ c ≤ '9') || c = '-'

/-- Takes off zeros and underscores, but for the last of them before a fraction or the end. `last` is
the character taken off last. -/
def withoutZeros (last : Char) : List Char → Option (List Char)
  | [] => some [last]
  | c :: r =>
    if c = '0' ∨ c = '_' then withoutZeros c r
    else if isStart c then some (c :: r)
    else if c = '.' then some (last :: c :: r)
    else none

/-- The spelling without zeros in front; it has to begin with a digit or a minus sign. -/
def fromFirstDigit : List Char → Option (List Char)
  | [] => none
  | c :: r => if c = '0' then withoutZeros c r else if isStart c then some (c :: r) else none

/-- The spelling without zeros in front, or behind a minus sign in front. -/
def fromSign : List Char → Option (List Char)
  | '-' :: r => (fromFirstDigit r).map ('-' :: ·)
  | cs => fromFirstDigit cs

/-- Takes off a plus sign. -/
def withoutPlus : List Char → Option (List Char)
  | '+' :: '-' :: _ => none
  | '+' :: r => some r
  | cs => some cs

/-- Takes off a fraction of zeros. -/
def withoutFraction (cs : List Char) : List Char :=
  match cs.dropWhile (· ≠ '.') with
  | _ :: zeros => if zeros ≠ [] ∧ zeros.all (· = '0') then cs.takeWhile (· ≠ '.') else cs
  | [] => cs

/-- Whether two underscores stand side by side. -/
def hasDoubleUnderscore : List Char → Bool
  | '_' :: '_' :: _ => true
  | _ :: r => hasDoubleUnderscore r
  | [] => false

/-- Takes out the underscores if each stands alone and inside. -/
def withoutUnderscores (cs : List Char) : List Char :=
  if cs.head? = some '_' ∨ cs.getLast? = some '_' ∨ hasDoubleUnderscore cs then cs
  else cs.filter (· ≠ '_')

/-- The cleaned spelling. -/
def cleaned? (cs : List Char) : Option (List Char) := do
  let cs ← withoutPlus (Text.trimBoth Text.isWhiteSpace cs)
  let cs ← fromSign cs
  pure (withoutUnderscores (withoutFraction cs))

/-- The integer that a text spells. -/
def read (s : String) : Except Flaw Int :=
  let cs := s.toList
  match plain? cs with
  | .error .malformed =>
    match (cleaned? cs).map plain? with
    | some (.ok n) => .ok n
    | _ => .error .malformed
  | result => result

end SqlAst.Whole
