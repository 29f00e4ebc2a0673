import SqlAst.Json.Writer
import SqlAst.Proofs.HexText
import SqlAst.Proofs.TokenRuns

/-!
# Quoted texts

A text between quotation marks is one token. Where all but printable ASCII is escaped, halves of surrogate
pairs are written by their numbers like any character; what is read of two such numbers in a row is the one
character of the pair, if they are the two halves of one. Every other text is read as it was written.

* `Json.quotedTokens_escaped`, `Json.quotedTokens_char`: one character in either form.
* `Json.isPrintable_quoted`: escaped texts consist of printable ASCII characters.
* `Text.joinHalves`: a text in which halves that stand together are joined.
* `Json.tokens_quoted`: what is written is one token.
-/
namespace SqlAst

namespace Text

/-- Letters, digits, marks and the blank of ASCII. -/
def IsPrintable (c : Char) : Prop := 0x20 ≤ c.toNat ∧ c.toNat < 0x7f

instance (c : Char) : Decidable (IsPrintable c) := inferInstanceAs (Decidable (_ ∧ _))

theorem isPrintable_of_all {cs : List Char} (h : cs.all (fun c => decide (IsPrintable c)) = true) :
    ∀ c ∈ cs, IsPrintable c := fun c hc => of_decide_eq_true (List.all_eq_true.mp h c hc)

/-! ## Points -/

theorem isHalfCode_iff {n : Nat} : isHalfCode n = true ↔ 0xd800 ≤ n ∧ n < 0xe000 := by
  simp [isHalfCode]

theorem toNat_valid (c : Char) : c.toNat < 0xd800 ∨ 0xdfff < c.toNat ∧ c.toNat < 0x110000 := by
  have hvalid := c.valid
  simp only [UInt32.isValidChar, Nat.isValidChar] at hvalid
  exact hvalid

/-- The number of a character is no code of a half. -/
theorem isHalfCode_toNat (c : Char) : isHalfCode c.toNat = false := by
  have hvalid := toNat_valid c
  simp only [isHalfCode, Bool.and_eq_false_iff, decide_eq_false_iff_not]
  omega

/-- Below the last plane a character holds itself. -/
theorem held_char {c : Char} (h : c.toNat < halfPlane) : (Point.char c).held = [c] := by
  refine if_neg ?_
  rintro rfl
  exact absurd h (by decide)

namespace Point

theorem code_lt (p : Point) : p.code < 0x110000 := by
  cases p with
  | char c =>
    have hvalid := toNat_valid c
    show c.toNat < 0x110000
    omega
  | half unit h =>
    have hrange := isHalfCode_iff.mp h
    show unit < 0x110000
    omega

/-- The first half of a pair. -/
def isHigh (p : Point) : Bool := 0xd800 ≤ p.code && p.code < 0xdc00

/-- The second half of a pair. -/
def isLow (p : Point) : Bool := 0xdc00 ≤ p.code && p.code < 0xe000

/-- The character of a pair. -/
def joined (high low : Point) : Point :=
  .char (Char.ofNat (0x10000 + (high.code - 0xd800) * 0x400 + (low.code - 0xdc00)))

end Point

/-- A text with one character for each first half that its second half follows. -/
def joinHalves : List Point → List Point
  | high :: low :: rest =>
    if high.isHigh && low.isLow then high.joined low :: joinHalves rest else high :: joinHalves (low :: rest)
  | ps => ps

end Text

namespace Json

open Text

/-! ## What is written -/

/-- A character that has a short escape. The strict parts of a text never have one that announces a number. -/
theorem shortEscape?_eq_some {c letter : Char} (h : shortEscape? c = some letter) :
    letter ≠ 'u' ∧ IsPrintable letter ∧ c.toNat < 0x7f ∧
      ∀ start r, escape start (letter :: r) = .ok (.char c, 1) := by
  unfold shortEscape? at h
  split at h
  · rename_i hc
    cases h
    rcases hc with rfl | rfl
    · exact ⟨by decide, by decide, by decide, fun _ _ => rfl⟩
    · exact ⟨by decide, by decide, by decide, fun _ _ => rfl⟩
  iterate 3
    split at h
    · rename_i hc
      cases h
      cases hc
      exact ⟨by decide, by decide, by decide, fun _ _ => rfl⟩
  split at h
  · rename_i hc
    cases h
    rw [show c = '\x08' from Char.toNat_inj.1 hc]
    exact ⟨by decide, by decide, by decide, fun _ _ => rfl⟩
  split at h
  · rename_i hc
    cases h
    rw [show c = '\x0c' from Char.toNat_inj.1 hc]
    exact ⟨by decide, by decide, by decide, fun _ _ => rfl⟩
  · cases h

theorem ne_of_shortEscape? {c : Char} (h : shortEscape? c = none) : c ≠ '"' ∧ c ≠ '\\' := by
  constructor
  · rintro rfl
    cases h
  · rintro rfl
    cases h

/-- A point is written by number, or raw, or by a mark behind a backslash that announces no number. -/
theorem escapedPoint_cases (p : Point) :
    escapedPoint p = numberedEscape p ∨ (∃ c, escapedPoint p = [c] ∧ c ≠ '\\' ∧ IsPrintable c) ∨
      ∃ letter, escapedPoint p = ['\\', letter] ∧ letter ≠ 'u' ∧ IsPrintable letter := by
  cases p with
  | half unit h => exact .inl rfl
  | char c =>
    cases hshort : shortEscape? c with
    | some letter =>
      obtain ⟨hu, hprintable, -⟩ := shortEscape?_eq_some hshort
      exact .inr (.inr ⟨letter, by simp only [escapedPoint, hshort], hu, hprintable⟩)
    | none =>
      by_cases hc : 0x20 ≤ c.toNat ∧ c.toNat < 0x7f
      · exact .inr (.inl ⟨c, by simp only [escapedPoint, hshort, if_pos hc], (ne_of_shortEscape? hshort).2, hc⟩)
      · exact .inl (by simp only [escapedPoint, hshort, if_neg hc])

theorem isPrintable_unitEscape {n : Nat} {c : Char} (h : c ∈ unitEscape n) : IsPrintable c := by
  have hdigit : ∀ c ∈ lowerHexDigits, IsPrintable c := isPrintable_of_all rfl
  rcases List.mem_cons.mp h with rfl | h
  · decide
  · rcases List.mem_cons.mp h with rfl | h
    · decide
    · exact hdigit c (mem_lowerHexDigits_of_mem_hexText h)

theorem isPrintable_escapedPoint {p : Point} {d : Char} (h : d ∈ escapedPoint p) : IsPrintable d := by
  rcases escapedPoint_cases p with hp | ⟨c, hp, -, hraw⟩ | ⟨letter, hp, -, hletter⟩
  · rw [hp, numberedEscape] at h
    split at h
    · exact isPrintable_unitEscape h
    · rcases List.mem_append.mp h with h | h
      · exact isPrintable_unitEscape h
      · exact isPrintable_unitEscape h
  · rw [hp] at h
    rw [List.mem_singleton.mp h]
    exact hraw
  · rw [hp] at h
    rcases List.mem_cons.mp h with rfl | h
    · decide
    · rw [List.mem_singleton.mp h]
      exact hletter

/-- A quoted text consists of printable characters. -/
theorem isPrintable_quoted {s : String} {c : Char} (h : c ∈ quoted true s) : IsPrintable c := by
  simp only [quoted, if_true, List.mem_append, List.mem_cons, List.mem_flatMap, List.not_mem_nil, or_false] at h
  rcases h with (rfl | ⟨p, -, h⟩) | rfl
  · decide
  · exact isPrintable_escapedPoint h
  · decide

/-! ## What is read -/

theorem length_hexText_four {n : Nat} (h : n < 0x10000) : (hexText 4 n).length = 4 :=
  length_hexText (by decide) h

/-- A character is read from its number, or from the numbers of its pair. -/
theorem quotedTokens_numbered (c : Char) {tail : List Char} (ht : tail ≠ []) (start done : List Char) :
    quotedTokens start done (numberedEscape (.char c) ++ tail) =
      quotedTokens start ((Point.char c).held.reverse ++ done) tail := by
  have hlast : c.toNat < 0x110000 := (Point.char c).code_lt
  by_cases hsmall : c.toNat < 0x10000
  · have hnumber : numberedEscape (.char c) = unitEscape c.toNat := if_pos hsmall
    rw [hnumber]
    have hescape := escape_code (unit?_hexText hsmall ht) (isHalfCode_toNat c) start
    rw [Char.ofNat_toNat] at hescape
    exact quotedTokens_escape hescape (List.drop_left' (congrArg Nat.succ (length_hexText_four hsmall)))
  · obtain ⟨high, hhigh⟩ : ∃ high, high = 0xd800 + (c.toNat - 0x10000) / 0x400 := ⟨_, rfl⟩
    obtain ⟨low, hlow⟩ : ∃ low, low = 0xdc00 + (c.toNat - 0x10000) % 0x400 := ⟨_, rfl⟩
    have hnumber : numberedEscape (.char c) = unitEscape high ++ unitEscape low := by
      rw [hhigh, hlow]
      exact if_neg hsmall
    have hnext : (hexText 4 high ++ '\\' :: 'u' :: (hexText 4 low ++ tail)).drop 4 =
        '\\' :: 'u' :: (hexText 4 low ++ tail) := List.drop_left' (length_hexText_four (by omega))
    have hrest : (hexText 4 low ++ tail).drop 4 = tail := List.drop_left' (length_hexText_four (by omega))
    have hsame : 0x10000 + (high - 0xd800) * 0x400 + (low - 0xdc00) = c.toNat := by omega
    have hescape := escape_pair (unit?_hexText (n := high) (by omega) (by simp)) (by omega) hnext
      (unit?_hexText (n := low) (by omega) ht) (by omega) (by rw [hrest]; exact ht) start
    rw [hsame, Char.ofNat_toNat] at hescape
    have htext : unitEscape high ++ unitEscape low ++ tail =
        '\\' :: 'u' :: (hexText 4 high ++ '\\' :: 'u' :: (hexText 4 low ++ tail)) := by
      simp [unitEscape]
    rw [hnumber, htext]
    refine quotedTokens_escape hescape ?_
    rw [List.drop_succ_cons, ← List.drop_drop (i := 6) (j := 4), hnext]
    exact hrest

/-- What is written for a character, in the form that escapes no more than it must, is read as this character. -/
theorem quotedTokens_escaped (c : Char) {tail : List Char} (ht : tail ≠ []) (start done : List Char) :
    quotedTokens start done (escaped c ++ tail) = quotedTokens start (c :: done) tail := by
  cases hshort : shortEscape? c with
  | some letter =>
    obtain ⟨-, -, hsmall, hescape⟩ := shortEscape?_eq_some hshort
    have hheld : (Point.char c).held = [c] := held_char (Nat.lt_trans hsmall (by decide))
    simp only [escaped, hshort]
    refine (quotedTokens_escape (hescape start tail) rfl).trans ?_
    rw [hheld]
    rfl
  | none =>
    simp only [escaped, hshort]
    split
    · rename_i hcontrol
      rw [quotedTokens_numbered c ht, held_char (Nat.lt_trans hcontrol (by decide))]
      rfl
    · rename_i hcontrol
      obtain ⟨hquote, hslash⟩ := ne_of_shortEscape? hshort
      exact quotedTokens_raw hquote hslash hcontrol start done tail

/-- What is written for a character in the form that escapes all but printable ASCII is read as this character. -/
theorem quotedTokens_char (c : Char) {tail : List Char} (ht : tail ≠ []) (start done : List Char) :
    quotedTokens start done (escapedPoint (.char c) ++ tail) =
      quotedTokens start ((Point.char c).held.reverse ++ done) tail := by
  cases hshort : shortEscape? c with
  | some letter =>
    obtain ⟨-, -, -, hescape⟩ := shortEscape?_eq_some hshort
    simp only [escapedPoint, hshort]
    exact quotedTokens_escape (hescape start tail) rfl
  | none =>
    simp only [escapedPoint, hshort]
    split
    · rename_i hraw
      obtain ⟨hquote, hslash⟩ := ne_of_shortEscape? hshort
      rw [held_char (Nat.lt_trans hraw.2 (by decide))]
      exact quotedTokens_raw hquote hslash (Nat.not_lt.mpr hraw.1) start done tail
    · exact quotedTokens_numbered c ht start done

/-- Half of a pair is read from its number where its other half does not follow. -/
theorem escape_half {r next : List Char} {n : Nat} (hread : unit? r = some n) (hhalf : isHalfCode n = true)
    (hnext : r.drop 4 = next)
    (hfollow : n < 0xdc00 → next.take 2 = ['\\', 'u'] →
      ∃ m, unit? (next.drop 2) = some m ∧ ¬ (0xdc00 ≤ m ∧ m < 0xe000)) (start : List Char) :
    escape start ('u' :: r) = .ok (.half n hhalf, 5) := by
  simp only [escape, Char.reduceEq, or_self, ↓reduceIte, hread, hnext]
  split
  · rename_i h
    obtain ⟨m, hm, hlow⟩ := hfollow h.2.1 h.2.2.2
    simp only [hm]
    rw [if_neg hlow, Point.ofUnit, dif_pos hhalf]
  · rw [Point.ofUnit, dif_pos hhalf]

theorem unit?_unitEscape {n : Nat} (h : n < 0x10000) {tail : List Char} (ht : tail ≠ []) :
    unit? ((unitEscape n ++ tail).drop 2) = some n := unit?_hexText h ht

/-- The first number that is written for a point other than a second half is none of a second half. -/
theorem numberedEscape_follows {p : Point} (hp : p.isLow = false) {tail : List Char} (ht : tail ≠ []) :
    ∃ m, unit? ((numberedEscape p ++ tail).drop 2) = some m ∧ ¬ (0xdc00 ≤ m ∧ m < 0xe000) := by
  obtain ⟨n, hn⟩ : ∃ n, n = p.code := ⟨_, rfl⟩
  have hlast : n < 0x110000 := hn ▸ p.code_lt
  have hlow : ¬ (0xdc00 ≤ n ∧ n < 0xe000) := by
    rw [hn]
    simpa [Point.isLow] using hp
  rw [numberedEscape, ← hn]
  split
  · rename_i hsmall
    exact ⟨n, unit?_unitEscape hsmall ht, hlow⟩
  · obtain ⟨high, hhigh⟩ : ∃ high, high = 0xd800 + (n - 0x10000) / 0x400 := ⟨_, rfl⟩
    rw [← hhigh, List.append_assoc]
    exact ⟨high, unit?_unitEscape (by omega) (List.cons_ne_nil _ _), by omega⟩

/-- What is written for a point other than a second half does not spell a second half. -/
theorem escapedPoint_follows {p : Point} (hp : p.isLow = false) {tail : List Char} (ht : tail ≠ [])
    (h : (escapedPoint p ++ tail).take 2 = ['\\', 'u']) :
    ∃ m, unit? ((escapedPoint p ++ tail).drop 2) = some m ∧ ¬ (0xdc00 ≤ m ∧ m < 0xe000) := by
  rcases escapedPoint_cases p with hc | ⟨c, hc, hslash, -⟩ | ⟨letter, hc, hletter, -⟩
  · rw [hc]
    exact numberedEscape_follows hp ht
  · rw [hc] at h
    exact absurd (List.cons.inj h).1 hslash
  · rw [hc] at h
    exact absurd (List.cons.inj (List.cons.inj h).2).1 hletter

/-- A half is written by its number. -/
theorem escapedPoint_half {p : Point} (h : isHalfCode p.code = true) : escapedPoint p = unitEscape p.code := by
  have hrange := isHalfCode_iff.mp h
  cases p with
  | char c => exact absurd h (by simp [Point.code, isHalfCode_toNat])
  | half unit h => exact if_pos (show unit < 0x10000 by simp only [Point.code] at hrange; omega)

/-- A half inside quotation marks, where its other half does not follow. -/
theorem quotedTokens_half {unit : Nat} (h : isHalfCode unit = true) {tail : List Char} (ht : tail ≠ [])
    (hfollow : (Point.half unit h).isHigh = true → tail.take 2 = ['\\', 'u'] →
      ∃ m, unit? (tail.drop 2) = some m ∧ ¬ (0xdc00 ≤ m ∧ m < 0xe000))
    (start done : List Char) :
    quotedTokens start done (escapedPoint (.half unit h) ++ tail) =
      quotedTokens start ((Point.half unit h).held.reverse ++ done) tail := by
  have hrange := isHalfCode_iff.mp h
  have hsmall : unit < 0x10000 := by omega
  have hnext : (hexText 4 unit ++ tail).drop 4 = tail := List.drop_left' (length_hexText_four hsmall)
  have hescape := escape_half (unit?_hexText hsmall ht) h hnext
    (fun hhigh => hfollow (by simp [Point.isHigh, Point.code, hrange.1, hhigh])) start
  have htext : escapedPoint (.half unit h) ++ tail = '\\' :: 'u' :: (hexText 4 unit ++ tail) := by
    rw [escapedPoint_half (p := .half unit h) h]
    rfl
  rw [htext]
  exact quotedTokens_escape hescape hnext

/-- A pair inside quotation marks. -/
theorem quotedTokens_pair {high low : Point} (hhigh : high.isHigh = true) (hlow : low.isLow = true)
    {tail : List Char} (ht : tail ≠ []) (start done : List Char) :
    quotedTokens start done (escapedPoint high ++ (escapedPoint low ++ tail)) =
      quotedTokens start ((high.joined low).held.reverse ++ done) tail := by
  have hcode : 0xd800 ≤ high.code ∧ high.code < 0xdc00 := by simpa [Point.isHigh] using hhigh
  have hcode' : 0xdc00 ≤ low.code ∧ low.code < 0xe000 := by simpa [Point.isLow] using hlow
  have hsmall : high.code < 0x10000 ∧ low.code < 0x10000 := by omega
  have hnext : (hexText 4 high.code ++ '\\' :: 'u' :: (hexText 4 low.code ++ tail)).drop 4 =
      '\\' :: 'u' :: (hexText 4 low.code ++ tail) := List.drop_left' (length_hexText_four hsmall.1)
  have hrest : (hexText 4 low.code ++ tail).drop 4 = tail := List.drop_left' (length_hexText_four hsmall.2)
  have hescape := escape_pair (unit?_hexText hsmall.1 (by simp)) hcode hnext (unit?_hexText hsmall.2 ht) hcode'
    (by rw [hrest]; exact ht) start
  have htext : escapedPoint high ++ (escapedPoint low ++ tail) =
      '\\' :: 'u' :: (hexText 4 high.code ++ '\\' :: 'u' :: (hexText 4 low.code ++ tail)) := by
    rw [escapedPoint_half (isHalfCode_iff.mpr (by omega)), escapedPoint_half (isHalfCode_iff.mpr (by omega))]
    rfl
  rw [htext]
  refine quotedTokens_escape hescape ?_
  rw [List.drop_succ_cons, ← List.drop_drop (i := 6) (j := 4), hnext]
  exact hrest

/-- A point inside quotation marks that does not belong to the one behind it. -/
theorem quotedTokens_point {p : Point} {tail : List Char} (ht : tail ≠ [])
    (hfollow : p.isHigh = true → tail.take 2 = ['\\', 'u'] →
      ∃ m, unit? (tail.drop 2) = some m ∧ ¬ (0xdc00 ≤ m ∧ m < 0xe000))
    (start done : List Char) :
    quotedTokens start done (escapedPoint p ++ tail) = quotedTokens start (p.held.reverse ++ done) tail := by
  cases p with
  | char c => exact quotedTokens_char c ht start done
  | half unit h => exact quotedTokens_half h ht hfollow start done

/-- The points inside quotation marks, up to the closing mark. -/
theorem quotedTokens_joined (start : List Char) (ps : List Point) (rest done : List Char) :
    quotedTokens start done (ps.flatMap escapedPoint ++ '"' :: rest) =
      (start, .text (String.ofList (done.reverse ++ hold (joinHalves ps)))) :: tokens rest := by
  induction ps using joinHalves.induct generalizing done with
  | case1 high low more hpair ih =>
    obtain ⟨hhigh, hlow⟩ := Bool.and_eq_true_iff.mp hpair
    rw [List.flatMap_cons, List.flatMap_cons, List.append_assoc, List.append_assoc,
      quotedTokens_pair hhigh hlow (by simp), ih, joinHalves, if_pos hpair, hold_cons]
    simp
  | case2 high low more hpair ih =>
    have hfollow (h : high.isHigh = true) : low.isLow = false := by simpa [h] using hpair
    rw [joinHalves, if_neg hpair, List.flatMap_cons, List.append_assoc, quotedTokens_point (by simp) fun h => ?_,
      ih, hold_cons]
    · simp
    · rw [List.flatMap_cons, List.append_assoc]
      exact escapedPoint_follows (hfollow h) (by simp)
  | case3 ps hshort =>
    match ps with
    | [] => simp [quotedTokens, joinHalves, hold]
    | [p] =>
      have hend (h : ('"' :: rest).take 2 = ['\\', 'u']) : False := absurd (List.cons.inj h).1 (by decide)
      rw [List.flatMap_singleton, quotedTokens_point (by simp) fun _ h => (hend h).elim]
      simp [quotedTokens, joinHalves, hold]
    | high :: low :: more => exact absurd rfl (hshort high low more)

/-! ### Whole quoted texts -/

/-- A text as it is read from what is written of it. -/
def rejoined (plain : Bool) (s : String) : String :=
  if plain then String.ofList (hold (joinHalves (points s.toList))) else s

theorem tokens_quoted (plain : Bool) (s : String) (rest : List Char) :
    ∃ place, tokens (quoted plain s ++ rest) = (place, .text (rejoined plain s)) :: tokens rest := by
  cases plain with
  | true =>
    have htext : quoted true s ++ rest = '"' :: ((points s.toList).flatMap escapedPoint ++ '"' :: rest) := by
      simp [quoted]
    refine ⟨'"' :: ((points s.toList).flatMap escapedPoint ++ '"' :: rest), ?_⟩
    rw [htext, tokens, if_neg (by decide), if_pos rfl, quotedTokens_joined]
    rfl
  | false =>
    have htext : quoted false s ++ rest = '"' :: (s.toList.flatMap escaped ++ '"' :: rest) := by simp [quoted]
    have hread (c : Char) (start done tail : List Char) (ht : tail ≠ []) :
        quotedTokens start done (escaped c ++ tail) = quotedTokens start ([c].reverse ++ done) tail :=
      quotedTokens_escaped c ht start done
    have hspelled := tokens_spelled hread s.toList rest
    rw [List.flatMap_singleton', String.ofList_toList] at hspelled
    rw [htext]
    exact hspelled

end Json

end SqlAst
