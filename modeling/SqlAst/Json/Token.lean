import SqlAst.Json.Basic
import SqlAst.Text.Half

/-!
# Tokens of JSON text

`tokens` cuts a text into marks, atoms and quoted texts. It never fails: what cannot be read becomes a
token of its own, so that a fault is reported only if reading gets as far as that. A place in the text is
given by the text from there on, or by the number of its characters.
-/
namespace SqlAst.Json

/-- Why a text is not JSON. -/
inductive Reason where
  | noValue
  | noName
  | noColon
  | noComma
  | extraData
  | byteOrderMark
  | unterminated
  | controlCharacter
  | unknownEscape
  | brokenUnicodeEscape
  deriving DecidableEq

def Reason.text : Reason → String
  | .noValue => "Expecting value"
  | .noName => "Expecting property name enclosed in double quotes"
  | .noColon => "Expecting ':' delimiter"
  | .noComma => "Expecting ',' delimiter"
  | .extraData => "Extra data"
  | .byteOrderMark => "Unexpected UTF-8 BOM (decode using utf-8-sig)"
  | .unterminated => "Unterminated string starting at"
  | .controlCharacter => "Invalid control character at"
  | .unknownEscape => "Invalid \\escape"
  | .brokenUnicodeEscape => "Invalid \\uXXXX escape"

/-- The most digits of an integer; to a strict reader, also the most in front of a fraction or an
exponent. -/
def digitLimit : Nat := 4300

/-- How a strict reader counts the digits of a number. Its releases differ in this. -/
class StrictReader where
  /-- Whether the sign of a number counts as one of its digits. -/
  countsSign : Bool

instance : StrictReader := ⟨false⟩

/-- Which strict readers take a number. -/
inductive Strictness where
  | always
  /-- Those that do not count its sign. -/
  | withoutSign
  | never

/-- Which strict readers take a number, by the digits in front of its fraction and exponent. -/
def Strictness.ofDigits (negative : Bool) (digits : Nat) : Strictness :=
  if digits + (if negative then 1 else 0) ≤ digitLimit then .always
  else if digits ≤ digitLimit then .withoutSign
  else .never

/-- Whether the strict reader takes a number. -/
def Strictness.holds [StrictReader] : Strictness → Bool
  | .always => true
  | .withoutSign => !StrictReader.countsSign
  | .never => false

/-- A piece of JSON text. -/
inductive Token where
  /-- A bracket, a comma, a colon, or a character that begins no token. -/
  | mark (c : Char)
  /-- A word or a number; `strict` says which strict readers take it. -/
  | atom (value : Json) (strict : Strictness)
  | text (value : String)
  /-- A quoted text that cannot be read, and where. -/
  | broken (reason : Reason) (left : Nat)
  /-- An integer with more digits than are read. -/
  | oversized

def isSpace (c : Char) : Bool := c = ' ' || c = '\t' || c = '\n' || c = '\r'

/-! ## Atoms -/

/-- The words, which are read wherever they begin. -/
def words : List (List Char × Json) :=
  [("null".toList, .null), ("true".toList, .bool true), ("false".toList, .bool false),
    ("NaN".toList, .float .nan), ("Infinity".toList, .float (.infinity false)),
    ("-Infinity".toList, .float (.infinity true))]

/-- The digits of a whole number: a zero, or digits that begin with another one. -/
def wholeDigits : List Char → List Char
  | '0' :: _ => ['0']
  | cs => cs.takeWhile Text.isDecimalDigit

/-- The digits of a fraction that a text begins with. -/
def fractionDigits : List Char → List Char
  | '.' :: r => r.takeWhile Text.isDecimalDigit
  | _ => []

/-- The exponent that a text begins with, and its length. -/
def exponent? : List Char → Option (Int × Nat)
  | e :: r =>
    if e = 'e' ∨ e = 'E' then
      let sign := match r with
        | c :: _ => if c = '+' ∨ c = '-' then [c] else []
        | [] => []
      let ds := (r.drop sign.length).takeWhile Text.isDecimalDigit
      let n : Int := (Nat.ofDigitChars 10 ds 0 : Nat)
      if ds = [] then none else some (if sign = ['-'] then -n else n, 1 + sign.length + ds.length)
    else none
  | [] => none

/-- The number that a text begins with, and its length. -/
def number? (cs : List Char) : Option (Token × Nat) :=
  let negative := cs.head? = some '-'
  let cs := if negative then cs.drop 1 else cs
  let whole := wholeDigits cs
  let afterWhole := cs.drop whole.length
  let fraction := fractionDigits afterWhole
  let fractionLength := if fraction = [] then 0 else 1 + fraction.length
  let exponent := exponent? (afterWhole.drop fractionLength)
  let signLength := if negative then 1 else 0
  if whole = [] then none
  else if fraction = [] ∧ exponent = none then
    let n : Int := (Nat.ofDigitChars 10 whole 0 : Nat)
    let token :=
      if digitLimit < whole.length then .oversized
      else .atom (.int (if negative then -n else n)) (.ofDigits negative whole.length)
    some (token, signLength + whole.length)
  else
    let (power, exponentLength) := exponent.getD (0, 0)
    let digits := Nat.ofDigitChars 10 (whole ++ fraction) 0
    some (.atom (.float (.nearest negative digits (power - fraction.length)))
        (.ofDigits negative whole.length),
      signLength + whole.length + fractionLength + exponentLength)

/-- The word that a text begins with. -/
def word? (cs : List Char) : Option (Token × Nat) :=
  (words.find? fun w => w.1.isPrefixOf cs).map fun w => (.atom w.2 .always, w.1.length)

/-- The token that a text begins with, quoted texts apart, and its length. -/
def plainToken (c : Char) (r : List Char) : Token × Nat :=
  ((word? (c :: r)).or (number? (c :: r))).getD (.mark c, 1)

/-! ## Quoted texts -/

/-- The code unit that four hexadecimal digits spell, if a character follows them. -/
def unit? (cs : List Char) : Option Nat :=
  if cs.drop 4 = [] then none
  else (cs.take 4).foldl (fun n c => n.bind fun n => (Text.hexValue? c).map (16 * n + ·)) (some 0)

/-- The point that is spelled behind a backslash, and the length of its spelling. `cs` is the text from there,
and `start` the text from the quotation mark on. -/
def escape (start cs : List Char) : Except (Reason × Nat) (Text.Point × Nat) :=
  match cs with
  | [] => .error (.unterminated, start.length)
  | e :: r =>
    if e = '"' ∨ e = '\\' ∨ e = '/' then .ok (.char e, 1)
    else if e = 'n' then .ok (.char '\n', 1)
    else if e = 'r' then .ok (.char '\r', 1)
    else if e = 't' then .ok (.char '\t', 1)
    else if e = 'b' then .ok (.char '\x08', 1)
    else if e = 'f' then .ok (.char '\x0c', 1)
    else if e = 'u' then
      match unit? r with
      | none => .error (.brokenUnicodeEscape, cs.length)
      | some high =>
        let next := r.drop 4
        if 0xd800 ≤ high ∧ high < 0xdc00 ∧ next.drop 6 ≠ [] ∧ next.take 2 = ['\\', 'u'] then
          match unit? (next.drop 2) with
          | none => .error (.brokenUnicodeEscape, next.length - 1)
          | some low =>
            if 0xdc00 ≤ low ∧ low < 0xe000 then
              .ok (.char (Char.ofNat (0x10000 + (high - 0xd800) * 0x400 + (low - 0xdc00))), 11)
            else .ok (.ofUnit high, 5)
        else .ok (.ofUnit high, 5)
    else .error (.unknownEscape, cs.length + 1)

/-! ## The tokens of a text -/

mutual

/-- The tokens of a text, each with the text from there on. -/
def tokens (cs : List Char) : List (List Char × Token) :=
  match cs with
  | [] => []
  | c :: r =>
    if isSpace c then tokens r
    else if c = '"' then quotedTokens (c :: r) [] r
    else
      let (token, length) := plainToken c r
      (c :: r, token) :: tokens (r.drop (length - 1))
  termination_by cs.length
  decreasing_by all_goals (simp only [List.length_cons, List.length_drop]; omega)

/-- The tokens from inside a quoted text that began at `start`; `done` is what was read of it, in reverse. -/
def quotedTokens (start done cs : List Char) : List (List Char × Token) :=
  match cs with
  | [] => [(start, .broken .unterminated start.length)]
  | c :: r =>
    if c = '"' then (start, .text (String.ofList done.reverse)) :: tokens r
    else if c = '\\' then
      match escape start r with
      | .ok (p, length) => quotedTokens start (p.held.reverse ++ done) (r.drop length)
      | .error (reason, left) => [(start, .broken reason left)]
    else if c.toNat < 0x20 then [(start, .broken .controlCharacter (r.length + 1))]
    else quotedTokens start (c :: done) r
  termination_by cs.length
  decreasing_by all_goals (simp only [List.length_cons, List.length_drop]; omega)

end

/-- Whether the strict reader takes a token. It takes no text with a half of a pair. -/
def Token.isStrict [StrictReader] : Token → Bool
  | .atom _ strict => strict.holds
  | .text s => Text.isWhole s
  | .oversized => false
  | _ => true

end SqlAst.Json
