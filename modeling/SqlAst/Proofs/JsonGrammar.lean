import SqlAst.Proofs.HexText
import SqlAst.Proofs.TokenRuns

/-!
# The grammar of JSON

A `Doc` is a text of RFC 8259 with its derivation: every blank, sign, digit and escape is there as written.
Escapes name characters, alone or as a pair, never half of a pair. Its value keeps whole numbers without
fraction and exponent as integers, and takes the nearest double for all others.

* `Numeral.spelled_isRead`, `Quotation.tokens_text`: numbers and texts, each a single token.
* `Doc.spelled_isRead`: a text of the grammar is a spelling of its value.
* `Doc.read_text`, `Doc.readStrictly?_text`: what both readers make of it.
-/
namespace SqlAst.Json

/-! ## Numbers -/

inductive Sign where
  | plus
  | minus
  deriving DecidableEq

/-- An exponent as written. -/
structure Exponent where
  upper : Bool
  sign : Option Sign
  digits : List Char
  ne_nil : digits ≠ []
  isDigit : ∀ c ∈ digits, c.isDigit = true

namespace Exponent

def signChars (x : Exponent) : List Char :=
  match x.sign with
  | none => []
  | some .plus => ['+']
  | some .minus => ['-']

def text (x : Exponent) : List Char := (if x.upper then 'E' else 'e') :: (x.signChars ++ x.digits)

def value (x : Exponent) : Int := signed (x.sign = some .minus) (Nat.ofDigitChars 10 x.digits 0)

theorem exponent?_text (x : Exponent) {rest : List Char} (hr : EndsNumber rest) :
    exponent? (x.text ++ rest) = some (x.value, x.text.length) := by
  have hmark : (if x.upper then 'E' else 'e') = 'e' ∨ (if x.upper then 'E' else 'e') = 'E' := by
    cases x.upper with
    | true => exact .inr rfl
    | false => exact .inl rfl
  have hsign : (x.signChars = [] ∨ x.signChars = ['+'] ∨ x.signChars = ['-']) ∧
      (x.signChars = ['-'] ↔ x.sign = some .minus) := by
    unfold signChars
    split
    · rename_i h
      simp [h]
    · rename_i h
      simp [h]
    · rename_i h
      simp [h]
  have hread := exponent?_digits hmark hsign.1 x.ne_nil x.isDigit hr
  rw [text, List.cons_append, List.append_assoc, hread, value, decide_eq_decide.2 hsign.2,
    List.length_cons, List.length_append]
  congr 2
  omega

end Exponent

/-- A number as written. No digits in the fraction stand for no fraction. -/
structure Numeral where
  negative : Bool
  whole : List Char
  fraction : List Char := []
  exponent : Option Exponent := none
  isWhole : IsWhole whole
  isFraction : ∀ c ∈ fraction, c.isDigit = true := by simp

namespace Numeral

def exponentText (n : Numeral) : List Char := (n.exponent.map Exponent.text).getD []

def text (n : Numeral) : List Char :=
  signText n.negative ++ (n.whole ++ (fractionText n.fraction ++ n.exponentText))

/-- Whether a number is written without a fraction and an exponent. -/
def isInteger (n : Numeral) : Bool := n.fraction = [] && n.exponent.isNone

def value (n : Numeral) : Json :=
  if n.isInteger then .int (signed n.negative (Nat.ofDigitChars 10 n.whole 0))
  else .float (.nearest n.negative (Nat.ofDigitChars 10 (n.whole ++ n.fraction) 0)
    ((n.exponent.map Exponent.value).getD 0 - n.fraction.length))

/-- Whether an integer has not too many digits. -/
def isReadable (n : Numeral) : Bool := !n.isInteger || n.whole.length ≤ digitLimit

/-- Whether not too many digits stand in front of the fraction and the exponent, as the strict reader counts. -/
def isShort [StrictReader] (n : Numeral) : Bool := n.whole.length + signDigits n.negative ≤ digitLimit

/-- Without its sign a number is never the longer. -/
theorem isReadable_of_isShort [StrictReader] {n : Numeral} (h : n.isShort = true) : n.isReadable = true := by
  have hdigits : n.whole.length ≤ digitLimit :=
    Nat.le_trans (Nat.le_add_right _ _) (of_decide_eq_true h)
  rw [isReadable, decide_eq_true hdigits, Bool.or_true]

/-- A number with the readers that take it: long integers are taken by none, other long numbers by all but
the strict one. -/
def spelled (n : Numeral) : Spelled where
  text := n.text
  value := n.value
  strict _ := n.isShort
  fits := n.isReadable

/-- The token that a number is. -/
def token (n : Numeral) : Token :=
  if n.isInteger ∧ digitLimit < n.whole.length then .oversized
  else .atom n.value (.ofDigits n.negative n.whole.length)

theorem isStrict_token [StrictReader] (n : Numeral) : n.token.isStrict = n.isShort := by
  unfold token
  split
  · rename_i h
    exact (decide_eq_false (by omega)).symm
  · exact Strictness.holds_ofDigits n.negative n.whole.length

theorem startsNumber_text (n : Numeral) : StartsNumber n.text := by
  obtain ⟨c, r, hwhole, hc⟩ : ∃ c r, n.whole = c :: r ∧ c.isDigit = true := by
    rcases n.isWhole with h | ⟨c, r, h, -, hd⟩
    · exact ⟨'0', [], h, rfl⟩
    · exact ⟨c, r, h, hd c (h ▸ List.mem_cons_self)⟩
  exact ⟨n.negative, c, r ++ (fractionText n.fraction ++ n.exponentText), by rw [text, hwhole]; rfl, hc⟩

/-- Behind the fraction stands an exponent, or what follows the number. -/
theorem exponent?_exponentText (n : Numeral) {rest : List Char} (hr : EndsNumber rest) :
    exponent? (n.exponentText ++ rest) =
        n.exponent.map (fun x => (x.value, n.exponentText.length)) ∧
      ∀ c ∈ (n.exponentText ++ rest).head?, Text.isDecimalDigit c = false ∧ c ≠ '.' := by
  unfold exponentText
  cases n.exponent with
  | none => exact ⟨exponent?_ends hr, fun c hc => ⟨(hr c hc).1, (hr c hc).2.1⟩⟩
  | some x =>
    refine ⟨x.exponent?_text hr, fun c hc => ?_⟩
    have hhead : (if x.upper then 'E' else 'e') = c := Option.some.inj hc
    rw [← hhead]
    cases x.upper with
    | true => exact ⟨rfl, by decide⟩
    | false => exact ⟨rfl, by decide⟩

theorem number?_text (n : Numeral) {rest : List Char} (hr : EndsNumber rest) :
    number? (n.text ++ rest) = some (n.token, n.text.length) := by
  by_cases hinteger : n.isInteger = true
  · obtain ⟨hfraction, hexponent⟩ : n.fraction = [] ∧ n.exponent = none := by
      simpa [isInteger] using hinteger
    have htext : n.text = signText n.negative ++ n.whole := by
      rw [text, exponentText, hfraction, hexponent]
      exact congrArg _ (List.append_nil n.whole)
    rw [htext, number?_whole n.negative n.isWhole hr, token, value, if_pos hinteger]
    simp only [hinteger, true_and]
  · obtain ⟨hexponent, hhead⟩ := n.exponent?_exponentText hr
    have hsome : ¬ (n.fraction = [] ∧ exponent? (n.exponentText ++ rest) = none) := by
      rw [hexponent, Option.map_eq_none_iff]
      simpa [isInteger] using hinteger
    have hread := number?_split n.negative n.whole n.fraction (n.exponentText ++ rest)
      ((n.exponent.map Exponent.value).getD 0) n.exponentText.length n.isWhole n.isFraction hhead
      (by rw [hexponent]; unfold exponentText; cases n.exponent <;> rfl) hsome
    have htext : n.text ++ rest =
        signText n.negative ++ (n.whole ++ (fractionText n.fraction ++ (n.exponentText ++ rest))) := by
      simp only [text, List.append_assoc]
    rw [htext, hread, token, if_neg fun h => hinteger h.1, value, if_neg hinteger, text]
    simp only [List.length_append, Option.some.injEq, Prod.mk.injEq, true_and]
    omega

/-- A number is a single token. -/
theorem spelled_isRead (n : Numeral) : n.spelled.IsRead := by
  have htokens (rest : List Char) (hr : EndsNumber rest) :
      ∃ place, tokens (n.text ++ rest) = (place, n.token) :: tokens rest :=
    ⟨_, tokens_number n.startsNumber_text (n.number?_text hr)⟩
  have hmark (c : Char) : n.token ≠ .mark c := by
    unfold token
    split <;> exact nofun
  refine Spelled.isRead_of_token n.token hmark n.isStrict_token htokens fun frames w place => ?_
  by_cases hlong : n.isInteger = true ∧ digitLimit < n.whole.length
  · have hfits : n.spelled.fits = false := by simp [spelled, isReadable, hlong]
    rw [token, if_pos hlong, hfits]
    rfl
  · have hfits : n.spelled.fits = true := by
      simpa [spelled, isReadable] using Or.symm (not_and_or.mp hlong).symm
    rw [token, if_neg hlong, hfits]
    rfl

end Numeral

/-! ## Texts -/

/-- Four hexadecimal digits. -/
structure HexUnit where
  digits : List Char
  length_eq : digits.length = 4
  isHex : ∀ c ∈ digits, (Text.hexValue? c).isSome

def HexUnit.code (u : HexUnit) : Nat :=
  u.digits.foldl (fun n c => 16 * n + (Text.hexValue? c).getD 0) 0

/-- The escapes of a single letter or mark. -/
inductive ShortEscape where
  | quote
  | backslash
  | slash
  | backspace
  | formFeed
  | newline
  | carriageReturn
  | tab

namespace ShortEscape

def letter : ShortEscape → Char
  | quote => '"'
  | backslash => '\\'
  | slash => '/'
  | backspace => 'b'
  | formFeed => 'f'
  | newline => 'n'
  | carriageReturn => 'r'
  | tab => 't'

def char : ShortEscape → Char
  | quote => '"'
  | backslash => '\\'
  | slash => '/'
  | backspace => '\x08'
  | formFeed => '\x0c'
  | newline => '\n'
  | carriageReturn => '\r'
  | tab => '\t'

end ShortEscape

/-- Whether a character may stand for itself inside quotation marks. -/
def isPlain (c : Char) : Bool := c ≠ '"' && c ≠ '\\' && 0x20 ≤ c.toNat

/-- A character inside quotation marks, as written. -/
inductive Piece where
  /-- It stands for itself. -/
  | raw (c : Char) (plain : isPlain c = true)
  | short (e : ShortEscape)
  /-- By its number in the basic plane. -/
  | unit (u : HexUnit) (whole : Text.isHalfCode u.code = false)
  /-- By the numbers of a pair of surrogates. -/
  | pair (high low : HexUnit) (isHigh : 0xd800 ≤ high.code ∧ high.code < 0xdc00)
    (isLow : 0xdc00 ≤ low.code ∧ low.code < 0xe000)

namespace Piece

def text : Piece → List Char
  | raw c .. => (Text.Point.char c).held
  | short e => ['\\', e.letter]
  | unit u _ => '\\' :: 'u' :: u.digits
  | pair high low _ _ => '\\' :: 'u' :: (high.digits ++ '\\' :: 'u' :: low.digits)

def char : Piece → Char
  | raw c .. => c
  | short e => e.char
  | unit u _ => Char.ofNat u.code
  | pair high low _ _ => Char.ofNat (0x10000 + (high.code - 0xd800) * 0x400 + (low.code - 0xdc00))

end Piece

/-! ### Reading -/

theorem HexUnit.unit?_digits (u : HexUnit) {tail : List Char} (ht : tail ≠ []) :
    unit? (u.digits ++ tail) = some u.code := Json.unit?_digits u.length_eq u.isHex ht

theorem escape_short (e : ShortEscape) (start tail : List Char) :
    escape start (e.letter :: tail) = .ok (.char e.char, 1) := by
  cases e <;> rfl

/-- A character that stands for itself is read as it is held. -/
theorem quotedTokens_held {c : Char} (hplain : isPlain c = true) (start done tail : List Char) :
    quotedTokens start done ((Text.Point.char c).held ++ tail) =
      quotedTokens start ((Text.Point.char c).held.reverse ++ done) tail := by
  simp only [isPlain, Bool.and_eq_true, decide_eq_true_eq] at hplain
  obtain ⟨⟨hquote, hbackslash⟩, hcontrol⟩ := hplain
  have hraw := quotedTokens_raw hquote hbackslash (Nat.not_lt.2 hcontrol) start
  rw [Text.Point.held]
  by_cases hmark : c = Text.halfMark
  · rw [if_pos hmark, ← hmark]
    exact (hraw _ _).trans (hraw _ _)
  · rw [if_neg hmark]
    exact hraw done tail

/-- A character inside quotation marks is read as this character. -/
theorem Piece.quotedTokens_text (p : Piece) (start done : List Char) {tail : List Char}
    (ht : tail ≠ []) :
    quotedTokens start done (p.text ++ tail) =
      quotedTokens start ((Text.Point.char p.char).held.reverse ++ done) tail := by
  cases p with
  | raw c plain => exact quotedTokens_held plain start done tail
  | short e => exact quotedTokens_escape (escape_short e start tail) rfl
  | unit u whole =>
    exact quotedTokens_escape (escape_code (u.unit?_digits ht) whole start)
      (List.drop_left' (congrArg Nat.succ u.length_eq))
  | pair high low isHigh isLow =>
    let digits := high.digits ++ '\\' :: 'u' :: (low.digits ++ tail)
    have htext : (Piece.pair high low isHigh isLow).text ++ tail = '\\' :: 'u' :: digits := by
      simp [text, digits]
    have hnext : digits.drop 4 = '\\' :: 'u' :: (low.digits ++ tail) := List.drop_left' high.length_eq
    have htail : (low.digits ++ tail).drop 4 = tail := List.drop_left' low.length_eq
    have hdrop : ('u' :: digits).drop 11 = tail := by
      rw [List.drop_succ_cons, ← List.drop_drop (i := 6) (j := 4), hnext]
      exact htail
    have hescape := escape_pair (high.unit?_digits (by simp)) isHigh hnext (low.unit?_digits ht) isLow
      (htail.trans_ne ht) start
    rw [htext]
    exact quotedTokens_escape hescape hdrop

/-- A quoted text as written. -/
abbrev Quotation := List Piece

namespace Quotation

def text (ps : Quotation) : List Char := '"' :: (ps.flatMap Piece.text ++ ['"'])

def value (ps : Quotation) : String := Text.ofChars (ps.map Piece.char)

/-- Characters that all stand for themselves. -/
def plain (s : String) (h : s.toList.all isPlain = true) : Quotation :=
  s.toList.attach.map fun c => .raw c.1 (List.all_eq_true.1 h c.1 c.2)

theorem value_plain (s : String) (h : s.toList.all isPlain = true) :
    (plain s h).value = Text.ofChars s.toList := by
  have hchars : (plain s h).map Piece.char = s.toList.attach.map Subtype.val := by
    rw [plain, List.map_map]
    rfl
  rw [value, hchars, List.attach_map_subtype_val]

/-- A quoted text is a single token. -/
theorem tokens_text (ps : Quotation) (rest : List Char) :
    ∃ place, tokens (ps.text ++ rest) = (place, .text ps.value) :: tokens rest := by
  have htext : ps.text ++ rest = '"' :: (ps.flatMap Piece.text ++ '"' :: rest) := by simp [text]
  have hvalue : ps.value = String.ofList (ps.flatMap fun p => (Text.Point.char p.char).held) := by
    rw [value, Text.ofChars, Text.hold, List.flatMap_map, List.flatMap_map]
  rw [htext, hvalue]
  exact tokens_spelled (fun p start done _ ht => p.quotedTokens_text start done ht) ps rest

end Quotation

/-! ## Values -/

/-- Blanks as written. -/
structure Blanks where
  chars : List Char := []
  isBlank : IsBlank chars := by simp [IsBlank]

/-- The name of an entry, with the blanks around it. -/
structure Name where
  before : Blanks := {}
  quotation : Quotation
  after : Blanks := {}

def Name.spelled (n : Name) : SpelledName where
  text := n.before.chars ++ (n.quotation.text ++ n.after.chars)
  name := n.quotation.value

theorem Name.spelled_isRead (n : Name) : n.spelled.IsRead := by
  refine ⟨Text.isWhole_ofChars _, fun rest => ?_⟩
  obtain ⟨place, hplace⟩ := n.quotation.tokens_text (n.after.chars ++ rest)
  refine ⟨place, ?_⟩
  rw [spelled, List.append_assoc, List.append_assoc, tokens_blanks n.before.isBlank, hplace,
    tokens_blanks n.after.isBlank]

/-- A text of JSON. Blanks may stand around any value, and in front of the first item or entry. -/
inductive Doc where
  | null
  | bool (value : Bool)
  | number (numeral : Numeral)
  | quoted (quotation : Quotation)
  | list (lead : Blanks) (items : List Doc)
  | object (lead : Blanks) (entries : List (Name × Doc))
  | between (before : Blanks) (doc : Doc) (after : Blanks)

namespace Doc

mutual

/-- The text of a document, with its value and the readers that take it. -/
def spelled : Doc → Spelled
  | null => { text := "null".toList, value := .null }
  | bool true => { text := "true".toList, value := .bool true }
  | bool false => { text := "false".toList, value := .bool false }
  | number n => n.spelled
  | quoted q => { text := q.text, value := .text q.value }
  | list lead items => .list lead.chars (spelledItems items)
  | object lead entries => .object lead.chars (spelledEntries entries)
  | between before doc after => .between before.chars after.chars (spelled doc)

def spelledItems : List Doc → List Spelled
  | [] => []
  | d :: rest => spelled d :: spelledItems rest

def spelledEntries : List (Name × Doc) → List (SpelledName × Spelled)
  | [] => []
  | (n, d) :: rest => (n.spelled, spelled d) :: spelledEntries rest

end

mutual

/-- A text of the grammar is a spelling of its value. -/
theorem spelled_isRead (d : Doc) : d.spelled.IsRead := by
  match d with
  | null =>
    exact Spelled.isRead_of_token (.atom .null .always) (by simp) rfl
      (fun rest _ => ⟨_, tokens_plain rfl (by decide) rfl⟩) fun _ _ _ => rfl
  | bool true =>
    exact Spelled.isRead_of_token (.atom (.bool true) .always) (by simp) rfl
      (fun rest _ => ⟨_, tokens_plain rfl (by decide) rfl⟩) fun _ _ _ => rfl
  | bool false =>
    exact Spelled.isRead_of_token (.atom (.bool false) .always) (by simp) rfl
      (fun rest _ => ⟨_, tokens_plain rfl (by decide) rfl⟩) fun _ _ _ => rfl
  | number n => exact n.spelled_isRead
  | quoted q =>
    exact Spelled.isRead_of_token (.text q.value) (by simp) (Text.isWhole_ofChars _)
      (fun rest _ => q.tokens_text rest) fun _ _ _ => rfl
  | list lead items => exact Spelled.list_isRead lead.isBlank (spelledItems_isRead items)
  | object lead entries => exact Spelled.object_isRead lead.isBlank (spelledEntries_isRead entries)
  | between before doc after =>
    exact Spelled.between_isRead before.isBlank after.isBlank (spelled_isRead doc)

theorem spelledItems_isRead (items : List Doc) : ∀ p ∈ spelledItems items, p.IsRead := by
  match items with
  | [] => simp [spelledItems]
  | d :: rest =>
    rw [spelledItems, List.forall_mem_cons]
    exact ⟨spelled_isRead d, spelledItems_isRead rest⟩

theorem spelledEntries_isRead (entries : List (Name × Doc)) :
    ∀ e ∈ spelledEntries entries, e.1.IsRead ∧ e.2.IsRead := by
  match entries with
  | [] => simp [spelledEntries]
  | (n, d) :: rest =>
    rw [spelledEntries, List.forall_mem_cons]
    exact ⟨⟨n.spelled_isRead, spelled_isRead d⟩, spelledEntries_isRead rest⟩

end

/-! ### Reading -/

/-- The text that is written. -/
def text (d : Doc) : String := String.ofList d.spelled.text

/-- The value that is meant. -/
def value (d : Doc) : Json := d.spelled.value

mutual

/-- The numbers in a text, in their order. -/
def numerals : Doc → List Numeral
  | number n => [n]
  | list _ items => numeralsOfItems items
  | object _ entries => numeralsOfEntries entries
  | between _ doc _ => numerals doc
  | null | bool _ | quoted _ => []

def numeralsOfItems : List Doc → List Numeral
  | [] => []
  | d :: rest => numerals d ++ numeralsOfItems rest

def numeralsOfEntries : List (Name × Doc) → List Numeral
  | [] => []
  | (_, d) :: rest => numerals d ++ numeralsOfEntries rest

end

/-- Whether no integer has too many digits. -/
def hasShortIntegers (d : Doc) : Bool := d.numerals.all Numeral.isReadable

/-- Whether no number has too many digits in front of its fraction and exponent, as the strict reader counts. -/
def hasShortNumbers [StrictReader] (d : Doc) : Bool := d.numerals.all Numeral.isShort

theorem hasShortIntegers_of_numbers [StrictReader] {d : Doc} (h : d.hasShortNumbers = true) :
    d.hasShortIntegers = true :=
  List.all_eq_true.mpr fun n hn => Numeral.isReadable_of_isShort (List.all_eq_true.mp h n hn)

mutual

/-- Only numbers are taken by some readers and not by others. -/
theorem spelled_flags (d : Doc) (r : StrictReader) :
    d.spelled.fits = d.numerals.all (·.spelled.fits) ∧
      d.spelled.strict r = d.numerals.all (·.spelled.strict r) := by
  match d with
  | null | quoted _ => exact ⟨rfl, rfl⟩
  | bool b => cases b <;> exact ⟨rfl, rfl⟩
  | number n => exact ⟨(Bool.and_true _).symm, (Bool.and_true _).symm⟩
  | list lead items => exact spelledItems_flags items r
  | object lead entries => exact spelledEntries_flags entries r
  | between before doc after => exact spelled_flags doc r

theorem spelledItems_flags (items : List Doc) (r : StrictReader) :
    (spelledItems items).all Spelled.fits = (numeralsOfItems items).all (·.spelled.fits) ∧
      (spelledItems items).all (·.strict r) = (numeralsOfItems items).all (·.spelled.strict r) := by
  match items with
  | [] => exact ⟨rfl, rfl⟩
  | d :: rest =>
    obtain ⟨hfits, hstrict⟩ := spelled_flags d r
    obtain ⟨hmoreFits, hmoreStrict⟩ := spelledItems_flags rest r
    simp only [spelledItems, numeralsOfItems, List.all_cons, List.all_append, hfits, hstrict, hmoreFits,
      hmoreStrict, and_self]

theorem spelledEntries_flags (entries : List (Name × Doc)) (r : StrictReader) :
    ((spelledEntries entries).all fun e => e.2.fits) =
        (numeralsOfEntries entries).all (·.spelled.fits) ∧
      ((spelledEntries entries).all fun e => e.2.strict r) =
        (numeralsOfEntries entries).all (·.spelled.strict r) := by
  match entries with
  | [] => exact ⟨rfl, rfl⟩
  | (n, d) :: rest =>
    obtain ⟨hfits, hstrict⟩ := spelled_flags d r
    obtain ⟨hmoreFits, hmoreStrict⟩ := spelledEntries_flags rest r
    simp only [spelledEntries, numeralsOfEntries, List.all_cons, List.all_append, hfits, hstrict,
      hmoreFits, hmoreStrict, and_self]

end

theorem spelled_fits (d : Doc) : d.spelled.fits = d.hasShortIntegers := (d.spelled_flags inferInstance).1

/-- What a strict reader takes it reads to its end. -/
theorem spelled_strict_and_fits [r : StrictReader] (d : Doc) :
    (d.spelled.strict r && d.spelled.fits) = d.hasShortNumbers := by
  have hstrict : d.spelled.strict r = d.hasShortNumbers := (d.spelled_flags r).2
  rw [d.spelled_fits, hstrict]
  cases hshort : d.hasShortNumbers with
  | true => rw [hasShortIntegers_of_numbers hshort]; rfl
  | false => rfl

/-- The reader of JSON refuses long integers, and reads every other text as its value. -/
theorem read_text (d : Doc) :
    read d.text = if d.hasShortIntegers then .ok d.value else .error .oversized := by
  rw [text, d.spelled_isRead.read_eq, d.spelled_fits]
  rfl

/-- The strict reader refuses long numbers of every kind. -/
theorem readStrictly?_text [StrictReader] (d : Doc) :
    readStrictly? d.text = if d.hasShortNumbers then some d.value else none := by
  rw [text, d.spelled_isRead.readStrictly?_eq, d.spelled_strict_and_fits]
  rfl

end Doc

end SqlAst.Json
