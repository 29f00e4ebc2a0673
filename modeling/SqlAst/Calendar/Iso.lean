import SqlAst.Calendar.Date
import SqlAst.Text.Half

/-!
# Reading ISO days and times

A day is spelled `YYYY-MM-DD`, `YYYYMMDD`, `YYYY-Www[-D]` or `YYYYWww[D]`. It may be followed by any one
character, or half of a pair, and a time of day, in two-digit groups with or without colons, with a fraction
and a distance from UTC.
-/
namespace SqlAst.Iso

open Text (isDecimalDigit)

/-- Reads exactly `n` decimal digits. -/
def digits? : Nat → List Char → Option (Nat × List Char)
  | n, cs =>
    let ds := cs.take n
    if ds.length = n ∧ ds.all isDecimalDigit then some (Nat.ofDigitChars 10 ds 0, cs.drop n) else none

/-- Reads one given character. -/
def char? (c : Char) : List Char → Option (List Char)
  | [] => none
  | d :: r => if d = c then some r else none

/-! ## Days -/

/-- How many characters of a text spell its day. A week date without its day and one with it are told
apart by what follows: after `YYYY-Www-` a digit two places on makes the rest a time, and after
`YYYYWww` an even number of digits begins with the weekday. -/
def dayLength (cs : List Char) : Nat :=
  let at? (i : Nat) : Option Char := cs[i]?
  if cs.length = 7 then 7
  else if at? 4 = some '-' then
    if at? 5 = some 'W' then
      if at? 8 = some '-' ∧ !((at? 10).any isDecimalDigit) then 10 else 8
    else 10
  else if at? 4 = some 'W' then
    let run := ((cs.drop 7).takeWhile isDecimalDigit).length
    if run < 2 then 7 + run else if run % 2 = 0 then 8 else 7
  else 8

/-- Reads a day that takes up a whole text. -/
def day? (cs : List Char) : Option Date := do
  let (y, r) ← digits? 4 cs
  let dashed := r.head? = some '-'
  let r := if dashed then r.drop 1 else r
  match r with
  | 'W' :: r =>
    let (week, r) ← digits? 2 r
    match r with
    | [] => Date.ofWeek? y week 1
    | r =>
      let r ← if dashed then char? '-' r else some r
      let (weekday, r) ← digits? 1 r
      if r.isEmpty then Date.ofWeek? y week weekday else none
  | r =>
    let (m, r) ← digits? 2 r
    let r ← if dashed then char? '-' r else some r
    let (d, r) ← digits? 2 r
    if r.isEmpty then Date.make? y m d else none

/-! ## Times -/

/-- A reading of a clock: the two-digit groups, the fraction, and whether anything was left over. -/
structure Clock where
  groups : List Nat
  microsecond : Nat
  leftover : Bool

/-- Reads a fraction of a second; digits beyond the sixth are dropped. `stop` is the character behind the
text, NUL at its end. -/
def fraction? (stop : Char) (cs : List Char) : Option Clock := do
  let n := min cs.length 6
  let (v, r) ← digits? n cs
  let r := r.dropWhile isDecimalDigit
  pure ⟨[], v * Nat.pow 10 (6 - n), r.headD stop != '\x00'⟩

/-- Reads at most `n` groups and a fraction. Whether the groups are separated by colons is decided by
the character after the first one (`colons` is then known). One plain character may be left over at the
end. -/
def clock? (stop : Char) : Nat → Option Bool → List Char → Option Clock
  | 0, _, cs => fraction? stop cs
  | n + 1, colons, cs => do
    let (v, r) ← digits? 2 cs
    let add (c : Clock) : Clock := { c with groups := v :: c.groups }
    match r with
    | [] => pure ⟨[v], 0, stop != '\x00'⟩
    | [c] => if c.toNat < 128 then pure ⟨[v], 0, c != '\x00'⟩ else none
    | c :: rest =>
      let separated := colons.getD (c = ':')
      if separated && c = ':' then (clock? stop n (some separated) rest).map add
      else if c = '.' || c = ',' then (fraction? stop rest).map add
      else if !separated then (clock? stop n (some separated) (c :: rest)).map add
      else none

/-- A distance from UTC read from its clock reading: less than a day. -/
def offset? (negative : Bool) (c : Clock) : Option Int :=
  let seconds := c.groups.headD 0 * 3600 + (c.groups[1]?).getD 0 * 60 + (c.groups[2]?).getD 0
  let total : Int := if seconds = 0 then 0 else ((seconds * 1000000 + c.microsecond : Nat) : Int)
  if total < 86400000000 then some (if negative then -total else total) else none

/-- Reads a distance from UTC that begins with its sign. -/
def zone? : List Char → Option Int
  | [] => none
  | 'Z' :: r => if r.headD '\x00' = '\x00' then some 0 else none
  | sign :: r => do
    let c ← clock? '\x00' 3 none r
    if c.leftover then none else offset? (sign = '-') c

/-- Reads the time of a day. -/
def time? (day : Date) (cs : List Char) : Option DateTime := do
  let isSign (c : Char) : Bool := c = '+' || c = '-' || c = 'Z'
  let zone := cs.dropWhile (!isSign ·)
  let c ← clock? (zone.headD '\x00') 3 none (cs.takeWhile (!isSign ·))
  let offset ←
    if zone.isEmpty then (if c.leftover then none else some none) else (zone? zone).map some
  let hour := c.groups.headD 0
  let minute := (c.groups[1]?).getD 0
  let second := (c.groups[2]?).getD 0
  if hour < 24 ∧ minute < 60 ∧ second < 60 then
    some ⟨day, hour, minute, second, c.microsecond, offset⟩
  else none

/-- Reads a day or a day with a time behind any one point; a day alone is taken at midnight. -/
def dateTime? (s : String) : Option DateTime := do
  let cs := s.toList
  if cs.length < 7 then none
  else
    let n := dayLength cs
    let day ← day? (cs.take n)
    let rest := cs.drop n
    if rest.isEmpty then some ⟨day, 0, 0, 0, 0, none⟩ else time? day (Text.behindPoint rest)

end SqlAst.Iso
