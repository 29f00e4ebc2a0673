import SqlAst.Json.Token

/-!
# Reading JSON

A machine takes the tokens one by one, with the open lists and objects on a stack. The first token that
does not fit ends the reading with a reason and a place. `read` gives the value with the entries of
objects as written, repeated keys included; `readStrictly?` refuses more and does not say why.
-/
namespace SqlAst.Json

/-- An open list or object; what was read of it stands in reverse. -/
inductive Frame where
  | list (done : List Json)
  | object (done : List (String × Json))
  | entry (done : List (String × Json)) (key : String)

/-- What may come next. -/
inductive Wanted where
  | value
  /-- A value or the end of a list that has just begun. -/
  | valueOrEnd
  | name
  /-- A name or the end of an object that has just begun. -/
  | nameOrEnd
  | colon
  | comma
  | nothing (result : Json)

structure State where
  frames : List Frame
  wanted : Wanted

/-- A reading that failed. -/
inductive ReadError where
  /-- Not JSON, for a reason that shows `left` characters before the end. -/
  | malformed (reason : Reason) (left : Nat)
  /-- An integer with more digits than are read. -/
  | oversized
  deriving DecidableEq

/-- The reason why a token does not fit. -/
def Wanted.reason : Wanted → Reason
  | .value | .valueOrEnd => .noValue
  | .name | .nameOrEnd => .noName
  | .colon => .noColon
  | .comma => .noComma
  | .nothing _ => .extraData

def State.start : State := ⟨[], .value⟩

/-- Goes on behind a complete value. -/
def State.accept (frames : List Frame) (v : Json) : State :=
  match frames with
  | [] => ⟨[], .nothing v⟩
  | .list done :: rest => ⟨.list (v :: done) :: rest, .comma⟩
  | .entry done key :: rest => ⟨.object ((key, v) :: done) :: rest, .comma⟩
  | .object done :: rest => ⟨.object done :: rest, .comma⟩

/-- A token that does not fit where it stands. -/
def misfit (reason : Reason) (rest : List Char) : Except ReadError State :=
  .error (.malformed reason rest.length)

/-- Takes a token where a value may begin. -/
def State.takeValue (s : State) (rest : List Char) : Token → Except ReadError State
  | .atom v _ => .ok (accept s.frames v)
  | .text t => .ok (accept s.frames (.text t))
  | .mark c =>
    if c = '[' then .ok ⟨.list [] :: s.frames, .valueOrEnd⟩
    else if c = '\x7b' then .ok ⟨.object [] :: s.frames, .nameOrEnd⟩
    else misfit .noValue rest
  | .broken reason place => .error (.malformed reason place)
  | .oversized => .error .oversized

/-- Takes a token where a name may begin. -/
def State.takeName (s : State) (rest : List Char) : Token → Except ReadError State
  | .text t =>
    match s.frames with
    | .object done :: frames => .ok ⟨.entry done t :: frames, .colon⟩
    | _ => misfit .noName rest
  | .broken reason place => .error (.malformed reason place)
  | _ => misfit .noName rest

/-- Takes one token, given with the text from there on. -/
def State.step (s : State) (place : List Char × Token) : Except ReadError State :=
  let (rest, token) := place
  match s.wanted, token, s.frames with
  | .value, _, _ => s.takeValue rest token
  | .valueOrEnd, .mark ']', .list _ :: frames => .ok (accept frames (.list []))
  | .valueOrEnd, _, _ => s.takeValue rest token
  | .name, _, _ => s.takeName rest token
  | .nameOrEnd, .mark '\x7d', .object _ :: frames => .ok (accept frames (.object []))
  | .nameOrEnd, _, _ => s.takeName rest token
  | .colon, .mark ':', _ => .ok ⟨s.frames, .value⟩
  | .comma, .mark ',', .list _ :: _ => .ok ⟨s.frames, .value⟩
  | .comma, .mark ',', .object _ :: _ => .ok ⟨s.frames, .name⟩
  | .comma, .mark ']', .list done :: frames => .ok (accept frames (.list done.reverse))
  | .comma, .mark '\x7d', .object done :: frames => .ok (accept frames (.object done.reverse))
  | wanted, _, _ => misfit wanted.reason rest

/-- The value, if the text may end here. -/
def State.finish (s : State) : Except ReadError Json :=
  match s.wanted with
  | .nothing v => .ok v
  | w => .error (.malformed w.reason 0)

/-- Reads the tokens of a whole text. -/
def ofTokens (ts : List (List Char × Token)) : Except ReadError Json := do
  (← ts.foldlM State.step .start).finish

/-- Reads a whole text; a byte order mark in front is refused. -/
def readChars (cs : List Char) : Except ReadError Json :=
  if cs.head? = some '\ufeff' then .error (.malformed .byteOrderMark cs.length) else ofTokens (tokens cs)

/-- Reads a whole text. -/
def read (s : String) : Except ReadError Json := readChars s.toList

/-- Reads a whole text strictly: halves of surrogate pairs and numbers of too many digits in front of a
fraction or an exponent are refused as well. -/
def readStrictly? [StrictReader] (s : String) : Option Json :=
  let ts := tokens s.toList
  if ts.all (·.2.isStrict) then (ofTokens ts).toOption else none

/-! ## Places in a text -/

/-- Where something is in a text: line, column, and number of points before it. -/
structure Place where
  line : Nat
  column : Nat
  offset : Nat

/-- The place behind which the text takes `left` more characters; lines and columns count from 1. -/
def place (cs : List Char) (left : Nat) : Place :=
  let before := Text.points (cs.take (cs.length - left))
  ⟨before.count (.char '\n') + 1, (before.reverse.takeWhile (· ≠ .char '\n')).length + 1, before.length⟩

/-- `line 1 column 5 (char 4)`. -/
def Place.text (p : Place) : String :=
  s!"line {p.line} column {p.column} (char {p.offset})"

end SqlAst.Json
