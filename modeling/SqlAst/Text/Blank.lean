import SqlAst.Text.Basic

/-!
# Blanks

Two sets of blank characters: those of the Unicode property White_Space, which numbers written as text
may be surrounded by, and these with the four information separators, which names of settings may be.
-/
namespace SqlAst.Text

/-- The Unicode property White_Space. -/
def isWhiteSpace (c : Char) : Bool :=
  let n := c.toNat
  (9 ≤ n && n ≤ 13) || n = 0x20 || n = 0x85 || n = 0xa0 || n = 0x1680 || (0x2000 ≤ n && n ≤ 0x200a)
    || n = 0x2028 || n = 0x2029 || n = 0x202f || n = 0x205f || n = 0x3000

/-- White space or one of the separators U+001C to U+001F. -/
def isBlank (c : Char) : Bool := isWhiteSpace c || (0x1c ≤ c.toNat && c.toNat ≤ 0x1f)

/-- Upper case, for comparing with words of plain Latin capitals: of the other characters only the
dotless i and the long s have such a capital of their own. -/
def upperLatin (c : Char) : Char :=
  if c.toNat = 0x131 then 'I' else if c.toNat = 0x17f then 'S' else c.toUpper

end SqlAst.Text
