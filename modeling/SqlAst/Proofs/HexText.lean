import Mathlib.Algebra.Group.Nat.Defs
import SqlAst.Json.Token

/-!
# Hexadecimal text

Numbers in lower-case hexadecimal with zeros in front: how long they are, what they consist of, and which
number they spell.

* `Text.length_hexText`: a number that is small enough takes exactly the width that is asked for.
* `Text.hexNumber_hexText`: the digits spell the number.
* `Json.unit?_hexText`: four digits are read as the code unit that they spell.
-/
namespace SqlAst

namespace Text

/-- The number that hexadecimal digits spell. -/
def hexNumber (cs : List Char) : Nat := cs.foldl (fun n c => 16 * n + (hexValue? c).getD 0) 0

/-- The lower-case hexadecimal digits. -/
def lowerHexDigits : List Char := "0123456789abcdef".toList

theorem hexValue?_digitChar : ∀ d < 16, hexValue? (Nat.digitChar d) = some d := by decide

theorem hexNumber_concat (cs : List Char) (c : Char) :
    hexNumber (cs ++ [c]) = 16 * hexNumber cs + (hexValue? c).getD 0 := by
  rw [hexNumber, List.foldl_append]
  rfl

theorem hexNumber_toDigits (n : Nat) : hexNumber (Nat.toDigits 16 n) = n := by
  induction n using Nat.strongRecOn with
  | ind n ih =>
    rw [Nat.toDigits_eq_if (by decide)]
    split
    · rename_i hlt
      have hlast := hexNumber_concat [] (Nat.digitChar n)
      rw [hexValue?_digitChar n hlt] at hlast
      exact hlast.trans (Nat.zero_add n)
    · rw [hexNumber_concat, ih (n / 16) (by omega), hexValue?_digitChar _ (Nat.mod_lt n (by decide)),
        Option.getD_some]
      omega

theorem mem_lowerHexDigits_of_mem_toDigits {n : Nat} {c : Char} (h : c ∈ Nat.toDigits 16 n) :
    c ∈ lowerHexDigits := by
  have hdigit : ∀ d < 16, Nat.digitChar d ∈ lowerHexDigits := by decide
  induction n using Nat.strongRecOn with
  | ind n ih =>
    rw [Nat.toDigits_eq_if (by decide)] at h
    split at h
    · rename_i hlt
      rw [List.mem_singleton.mp h]
      exact hdigit n hlt
    · rcases List.mem_append.mp h with h | h
      · exact ih (n / 16) (by omega) h
      · rw [List.mem_singleton.mp h]
        exact hdigit _ (Nat.mod_lt n (by decide))

theorem mem_lowerHexDigits_of_mem_hexText {width n : Nat} {c : Char} (h : c ∈ hexText width n) :
    c ∈ lowerHexDigits := by
  rcases List.mem_append.mp h with h | h
  · rw [List.eq_of_mem_replicate h]
    decide
  · exact mem_lowerHexDigits_of_mem_toDigits h

theorem isSome_hexValue? {c : Char} (h : c ∈ lowerHexDigits) : (hexValue? c).isSome = true := by
  have hall : lowerHexDigits.all (fun c => (hexValue? c).isSome) = true := rfl
  exact List.all_eq_true.mp hall c h

theorem hexNumber_hexText (width n : Nat) : hexNumber (hexText width n) = n := by
  have hzeros (k : Nat) : hexNumber (List.replicate k '0' ++ Nat.toDigits 16 n) = n := by
    induction k with
    | zero => exact hexNumber_toDigits n
    | succ k ih => exact ih
  exact hzeros _

theorem length_hexText {width n : Nat} (hwidth : 0 < width) (h : n < 16 ^ width) :
    (hexText width n).length = width := by
  have hle : (Nat.toDigits 16 n).length ≤ width := (Nat.length_toDigits_le_iff (by decide) hwidth).mpr h
  rw [hexText, zeroPadded, List.length_append, List.length_replicate]
  omega

end Text

namespace Json

open Text (hexText hexNumber hexValue?)

/-- Digits are folded up without a failure. -/
theorem foldl_hexValue? {cs : List Char} (h : ∀ c ∈ cs, (hexValue? c).isSome) (n : Nat) :
    cs.foldl (fun n c => n.bind fun n => (hexValue? c).map (16 * n + ·)) (some n) =
      some (cs.foldl (fun n c => 16 * n + (hexValue? c).getD 0) n) := by
  induction cs generalizing n with
  | nil => rfl
  | cons c rest ih =>
    obtain ⟨v, hv⟩ := Option.isSome_iff_exists.mp (h c List.mem_cons_self)
    have hrest := ih (fun d hd => h d (List.mem_cons_of_mem c hd)) (16 * n + v)
    simpa [hv] using hrest

theorem unit?_digits {digits : List Char} (hlength : digits.length = 4)
    (h : ∀ c ∈ digits, (hexValue? c).isSome) {tail : List Char} (ht : tail ≠ []) :
    unit? (digits ++ tail) = some (hexNumber digits) := by
  rw [unit?, List.drop_left' hlength, List.take_left' hlength, if_neg ht]
  exact foldl_hexValue? h 0

/-- Four digits are read as the code unit that they spell; something has to follow. -/
theorem unit?_hexText {n : Nat} (h : n < 0x10000) {tail : List Char} (ht : tail ≠ []) :
    unit? (hexText 4 n ++ tail) = some n := by
  have hread := unit?_digits (Text.length_hexText (by decide) h)
    (fun c hc => Text.isSome_hexValue? (Text.mem_lowerHexDigits_of_mem_hexText hc)) ht
  rw [Text.hexNumber_hexText] at hread
  exact hread

end Json

end SqlAst
