/-!
# Character lists

Splitting at a separator, doubling a quotation mark, taking blanks off both ends. Text is worked on as
a list of characters, so that every function here is a structural recursion.
-/
namespace SqlAst.Text

/-- The parts between the separators; the empty text has one empty part. -/
def splitOn (sep : Char) : List Char → List (List Char)
  | [] => [[]]
  | c :: r =>
    if c = sep then [] :: splitOn sep r
    else match splitOn sep r with
      | [] => [[c]]
      | part :: parts => (c :: part) :: parts

/-- Writes `mark` a second time at each of its occurrences, which are counted from the left and do not
overlap; `pending` characters still belong to the occurrence before. -/
def doubledFrom (mark : List Char) : Nat → List Char → List Char
  | _, [] => []
  | pending + 1, c :: r => c :: doubledFrom mark pending r
  | 0, c :: r =>
    if mark.isPrefixOf (c :: r) then mark ++ c :: doubledFrom mark (mark.length - 1) r
    else c :: doubledFrom mark 0 r

/-- Writes `mark` twice wherever it occurs. -/
def doubled (mark cs : List Char) : List Char := doubledFrom mark 0 cs

/-- Takes the characters of a class off both ends. -/
def trimBoth (blank : Char → Bool) (cs : List Char) : List Char :=
  ((cs.dropWhile blank).reverse.dropWhile blank).reverse

/-- Pads with zeros on the left up to a width. -/
def zeroPadded (width : Nat) (cs : List Char) : List Char :=
  List.replicate (width - cs.length) '0' ++ cs

/-- A natural number in decimal with at least `width` digits. -/
def natText (width n : Nat) : List Char := zeroPadded width (Nat.toDigits 10 n)

/-- An integer in decimal. -/
def intText : Int → List Char
  | .ofNat n => Nat.toDigits 10 n
  | .negSucc n => '-' :: Nat.toDigits 10 (n + 1)

/-- The greatest number of digits that an integer is written in decimal with. -/
def digitLimit : Nat := 4300

/-- Whether an integer is short enough to be written in decimal. -/
def isWritable (i : Int) : Bool := (Nat.toDigits 10 i.natAbs).length ≤ digitLimit

/-- A natural number in lower-case hexadecimal with at least `width` digits. -/
def hexText (width n : Nat) : List Char := zeroPadded width (Nat.toDigits 16 n)

/-- The value of a hexadecimal digit. -/
def hexValue? (c : Char) : Option Nat :=
  if '0' ≤ c ∧ c ≤ '9' then some (c.toNat - 48)
  else if 'a' ≤ c ∧ c ≤ 'f' then some (c.toNat - 87)
  else if 'A' ≤ c ∧ c ≤ 'F' then some (c.toNat - 55)
  else none

/-- The ten digits of plain decimal numbers. -/
def isDecimalDigit (c : Char) : Bool := '0' ≤ c && c ≤ '9'

/-- Membership in a set given by the increasing code points at which membership changes. -/
def isAmong (changes : List Nat) (c : Char) : Bool :=
  (changes.takeWhile (· ≤ c.toNat)).length % 2 = 1

/-! ## What the operations keep -/

theorem splitOn_ne_nil (sep : Char) (cs : List Char) : splitOn sep cs ≠ [] := by
  cases cs with
  | nil => simp [splitOn]
  | cons c r =>
    simp only [splitOn]
    split
    · simp
    · split <;> simp

theorem intercalate_splitOn (sep : Char) (cs : List Char) :
    List.intercalate [sep] (splitOn sep cs) = cs := by
  induction cs with
  | nil => simp [splitOn]
  | cons c r ih =>
    cases h : splitOn sep r with
    | nil => exact absurd h (splitOn_ne_nil sep r)
    | cons p ps =>
      rw [h] at ih
      by_cases hc : c = sep
      · simp [splitOn, hc, h, List.intercalate_cons_cons, ih]
      · cases ps with
        | nil => simpa [splitOn, hc, h] using ih
        | cons q qs =>
          rw [splitOn, if_neg hc, h]
          simp only [List.intercalate_cons_cons] at ih ⊢
          simpa using ih

/-- A one-character mark is doubled character by character. -/
theorem doubled_singleton (m : Char) (cs : List Char) :
    doubled [m] cs = cs.flatMap fun c => if c = m then [m, m] else [c] := by
  unfold doubled
  induction cs with
  | nil => rfl
  | cons c r ih =>
    by_cases h : c = m
    · simp [doubledFrom, h, ih]
    · simp [doubledFrom, h, ih, Ne.symm h]

/-- What is joined consists of the parts and the separator. -/
theorem mem_intercalate {α : Type} {sep : List α} {items : List (List α)} {x : α}
    (h : x ∈ sep.intercalate items) :
    x ∈ sep ∨ ∃ item ∈ items, x ∈ item := by
  induction items with
  | nil => cases h
  | cons item rest ih =>
    cases rest with
    | nil => exact .inr ⟨item, by simp, by simpa using h⟩
    | cons next rest =>
      simp only [List.intercalate_cons_cons, List.mem_append] at h
      rcases h with (h | h) | h
      · exact .inr ⟨item, by simp, h⟩
      · exact .inl h
      · rcases ih h with h | ⟨y, hy, hx⟩
        · exact .inl h
        · exact .inr ⟨y, by simp [hy], hx⟩

end SqlAst.Text
