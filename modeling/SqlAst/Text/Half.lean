import SqlAst.Text.Basic

/-!
# Halves of surrogate pairs

An escape can name half of a surrogate pair, which is no character. A text with halves is held as a string all
the same: a half as the mark U+10FFFF, behind it the character of the last plane whose number ends in the same
four hexadecimal digits. The mark itself, which Unicode leaves to uses like this, is held as two marks. So a
text may have all characters and all halves, and what stands in a text is told apart again.

* `points_hold`: the points that a string holds.
* `isWhole_iff`: a text of characters only is one in which marks come in pairs.
* `replaced_eq_self_iff`: only halves are replaced.
-/
namespace SqlAst.Text

/-- The character that announces a half. -/
def halfMark : Char := Char.ofNat 0x10ffff

def isHalfCode (n : Nat) : Bool := 0xd800 ≤ n && n < 0xe000

/-- What a text consists of: characters, and halves of surrogate pairs by their codes. -/
inductive Point where
  | char (c : Char)
  | half (unit : Nat) (isHalf : isHalfCode unit = true)
  deriving DecidableEq

/-- Where the plane begins that holds the halves. -/
def halfPlane : Nat := 0x100000

namespace Point

/-- The number of a point. -/
def code : Point → Nat
  | char c => c.toNat
  | half unit _ => unit

def isChar : Point → Bool
  | char _ => true
  | half _ _ => false

/-- The point that a unit of sixteen bits stands for alone. -/
def ofUnit (n : Nat) : Point := if h : isHalfCode n = true then half n h else char (Char.ofNat n)

/-- The characters that hold a point. -/
def held : Point → List Char
  | char c => if c = halfMark then [halfMark, halfMark] else [c]
  | half unit _ => [halfMark, Char.ofNat (halfPlane + unit)]

end Point

/-- The point that a character holds behind a mark. -/
def marked? (c : Char) : Option Point :=
  if c = halfMark then some (.char halfMark)
  else if h : isHalfCode (c.toNat - halfPlane) = true then some (.half _ h)
  else none

/-- The points of a text. A mark that announces nothing is a character. -/
def points : List Char → List Point
  | c :: d :: rest =>
    if c = halfMark then
      match marked? d with
      | some p => p :: points rest
      | none => .char c :: points (d :: rest)
    else .char c :: points (d :: rest)
  | [c] => [.char c]
  | [] => []

/-- What follows the first point of a text. -/
def behindPoint : List Char → List Char
  | c :: d :: rest => if c = halfMark && (marked? d).isSome then rest else d :: rest
  | _ => []

/-- A text with given points. -/
def hold (ps : List Point) : List Char := ps.flatMap Point.held

/-- A text of characters. -/
def ofChars (cs : List Char) : String := String.ofList (hold (cs.map .char))

/-- Whether marks come in pairs. -/
def marksPaired : List Char → Bool
  | c :: d :: rest => if c = halfMark then d = halfMark && marksPaired rest else marksPaired (d :: rest)
  | [c] => c ≠ halfMark
  | [] => true

/-- Whether a text consists of characters only. -/
def isWhole (s : String) : Bool := marksPaired s.toList

/-- Whether one text comes before another. -/
def precedes (s t : String) : Bool := decide ((points s.toList).map Point.code < (points t.toList).map Point.code)

/-- What stands in place of a half: a replacement character for each of the three bytes it would take. -/
def replacement : List Char := ['\ufffd', '\ufffd', '\ufffd']

/-- A text with replacements for its halves. -/
def replaced (s : String) : String :=
  String.ofList ((points s.toList).flatMap fun p => if p.isChar then p.held else replacement)

/-! ## Points and what holds them -/

theorem hold_cons (p : Point) (ps : List Point) : hold (p :: ps) = p.held ++ hold ps := rfl

theorem hold_append (ps qs : List Point) : hold (ps ++ qs) = hold ps ++ hold qs := List.flatMap_append

theorem marked?_mark : marked? halfMark = some (.char halfMark) := if_pos rfl

theorem marked?_half {unit : Nat} (h : isHalfCode unit = true) :
    marked? (Char.ofNat (halfPlane + unit)) = some (.half unit h) := by
  have hrange : 0xd800 ≤ unit ∧ unit < 0xe000 := by simpa [isHalfCode] using h
  have hvalid : (halfPlane + unit).isValidChar := by
    simp only [Nat.isValidChar, halfPlane]
    omega
  have hnat : (Char.ofNat (halfPlane + unit)).toNat = halfPlane + unit := by
    rw [Char.ofNat, dif_pos hvalid]
    rfl
  have hne : Char.ofNat (halfPlane + unit) ≠ halfMark := by
    intro heq
    have hmark : halfMark.toNat = 0x10ffff := rfl
    rw [← heq, hnat, halfPlane] at hmark
    omega
  simp only [marked?, if_neg hne, hnat, Nat.add_sub_cancel_left, dif_pos h]

/-- The first point of a text is the one that is held in front. -/
theorem points_held_append (p : Point) (rest : List Char) : points (p.held ++ rest) = p :: points rest := by
  cases p with
  | char c =>
    by_cases hc : c = halfMark
    · subst hc
      simp [Point.held, points, marked?_mark]
    · rw [Point.held, if_neg hc, List.singleton_append]
      cases rest with
      | nil => rfl
      | cons d rest => rw [points, if_neg hc]
  | half unit h => simp [Point.held, points, marked?_half h]

theorem points_cons {c : Char} (hc : c ≠ halfMark) (rest : List Char) :
    points (c :: rest) = .char c :: points rest := by
  have hheld : (Point.char c).held = [c] := if_neg hc
  rw [← points_held_append, hheld, List.singleton_append]

theorem behindPoint_cons {c : Char} (hc : c ≠ halfMark) (rest : List Char) : behindPoint (c :: rest) = rest := by
  cases rest with
  | nil => rfl
  | cons d rest => simp [behindPoint, hc]

theorem points_eq_nil_iff {cs : List Char} : points cs = [] ↔ cs = [] := by
  constructor
  · intro h
    match cs with
    | [] => rfl
    | [c] => cases h
    | c :: d :: rest =>
      rw [points] at h
      split at h
      · split at h <;> cases h
      · cases h
  · rintro rfl
    rfl

theorem points_hold (ps : List Point) : points (hold ps) = ps := by
  induction ps with
  | nil => rfl
  | cons p ps ih => rw [hold_cons, points_held_append, ih]

/-! ## Texts of characters -/

theorem marksPaired_held_append (c : Char) (rest : List Char) :
    marksPaired ((Point.char c).held ++ rest) = marksPaired rest := by
  by_cases hc : c = halfMark
  · subst hc
    simp [Point.held, marksPaired]
  · rw [Point.held, if_neg hc, List.singleton_append]
    cases rest with
    | nil => simp [marksPaired, hc]
    | cons d rest => rw [marksPaired, if_neg hc]

theorem marksPaired_hold (cs : List Char) : marksPaired (hold (cs.map .char)) = true := by
  induction cs with
  | nil => rfl
  | cons c cs ih => rw [List.map_cons, hold_cons, marksPaired_held_append, ih]

theorem isWhole_ofChars (cs : List Char) : isWhole (ofChars cs) = true := by
  rw [isWhole, ofChars, String.toList_ofList]
  exact marksPaired_hold cs

theorem exists_hold {cs : List Char} (h : marksPaired cs = true) :
    ∃ ds : List Char, cs = hold (ds.map .char) := by
  induction cs using marksPaired.induct with
  | case1 d rest ih =>
    rw [marksPaired, if_pos rfl, Bool.and_eq_true, decide_eq_true_eq] at h
    obtain ⟨ds, rfl⟩ := ih h.2
    exact ⟨halfMark :: ds, by rw [h.1]; rfl⟩
  | case2 c d rest hc ih =>
    rw [marksPaired, if_neg hc] at h
    obtain ⟨ds, hds⟩ := ih h
    exact ⟨c :: ds, by rw [hds, List.map_cons, hold_cons, Point.held, if_neg hc]; rfl⟩
  | case3 c =>
    have hc : c ≠ halfMark := by simpa [marksPaired] using h
    exact ⟨[c], by simp [hold, Point.held, hc]⟩
  | case4 => exact ⟨[], rfl⟩

/-- A whole text is a text of characters. -/
theorem isWhole_iff {s : String} : isWhole s = true ↔ ∃ cs, s = ofChars cs := by
  constructor
  · intro h
    obtain ⟨cs, hcs⟩ := exists_hold h
    exact ⟨cs, by rw [ofChars, ← hcs, String.ofList_toList]⟩
  · rintro ⟨cs, rfl⟩
    exact isWhole_ofChars cs

theorem isWhole_replaced (s : String) : isWhole (replaced s) = true := by
  have hchars (ps : List Point) :
      ∃ cs : List Char, (ps.flatMap fun p => if p.isChar then p.held else replacement) = hold (cs.map .char) := by
    induction ps with
    | nil => exact ⟨[], rfl⟩
    | cons p ps ih =>
      obtain ⟨cs, hcs⟩ := ih
      cases p with
      | char c => exact ⟨c :: cs, by rw [List.flatMap_cons, hcs]; rfl⟩
      | half unit h => exact ⟨replacement ++ cs, by rw [List.flatMap_cons, hcs, List.map_append, hold_append]; rfl⟩
  obtain ⟨cs, hcs⟩ := hchars (points s.toList)
  rw [replaced, hcs]
  exact isWhole_ofChars cs

/-- A text of characters has nothing to replace, and every other text has. -/
theorem replaced_eq_self_iff {s : String} : replaced s = s ↔ isWhole s = true := by
  constructor
  · intro h
    rw [← h]
    exact isWhole_replaced s
  · rw [isWhole_iff]
    rintro ⟨cs, rfl⟩
    rw [replaced, ofChars, String.toList_ofList, points_hold, hold, List.flatMap_map, List.flatMap_map]
    rfl

end SqlAst.Text
