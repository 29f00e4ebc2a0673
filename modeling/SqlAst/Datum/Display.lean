import SqlAst.Datum.Basic
import SqlAst.Text.Quoted

/-!
# Data as text

`phrase` is how a datum stands in a message of its own, `display` how it is quoted in one: the two differ
for texts, days and members of vocabularies, and agree for collections, whose items are displayed. Neither
is there for a datum with an integer of too many digits: see `isWritable`.
-/
namespace SqlAst.Datum

/-- The parts of a display with commas between them. -/
def listing (parts : List String) : String := ", ".intercalate parts

/-- A tuple of one ends in a comma. -/
def tupleText (parts : List String) : String :=
  match parts with
  | [one] => "(" ++ one ++ ",)"
  | parts => "(" ++ listing parts ++ ")"

def numbers (ns : List Nat) : String := listing (ns.map fun n => String.ofList (Nat.toDigits 10 n))

/-- A distance from UTC, in days, seconds and microseconds, the days alone negative. -/
def offsetDisplay (offset : Int) : String :=
  let day : Int := 86400000000
  let days := offset.fdiv day
  let rest := offset.fmod day
  let part (name : String) (n : Int) : List String :=
    if n = 0 then [] else [name ++ "=" ++ String.ofList (Text.intText n)]
  let parts := part "days" days ++ part "seconds" (rest / 1000000) ++ part "microseconds" (rest % 1000000)
  if offset = 0 then "datetime.timezone.utc"
  else "datetime.timezone(datetime.timedelta(" ++ listing parts ++ "))"

def dateDisplay (d : Date) : String := "datetime.date(" ++ numbers [d.year, d.month, d.day] ++ ")"

def dateTimeDisplay (t : DateTime) : String :=
  let small := if t.microsecond ≠ 0 then [t.second, t.microsecond]
    else if t.second ≠ 0 then [t.second] else []
  let zone := (t.offset.map fun o => ", tzinfo=" ++ offsetDisplay o).getD ""
  "datetime.datetime(" ++ numbers ([t.date.year, t.date.month, t.date.day, t.hour, t.minute] ++ small) ++
    zone ++ ")"

/-- `Vocabulary.MEMBER`. -/
def memberText (m : Member) : String := m.vocabulary ++ "." ++ m.name

mutual

/-- A datum quoted in a message. -/
def display : Datum → String
  | .null => "None"
  | .bool b => if b then "True" else "False"
  | .int i => String.ofList (Text.intText i)
  | .float d => d.text
  | .text s => Text.Quoted.display s
  | .list items => "[" ++ listing (displays items) ++ "]"
  | .tuple items => tupleText (displays items)
  | .dict entries => "\x7b" ++ listing (entryDisplays entries) ++ "\x7d"
  | .date d => dateDisplay d
  | .dateTime t => dateTimeDisplay t
  | .member m => "<" ++ memberText m ++ ": " ++ Text.Quoted.display m.value ++ ">"
  | .flavor f => f.display
  | .exception name argument => name ++ "(" ++ display argument ++ ")"
  | .error _ message _ _ => "SQLTreeError(" ++ display message ++ ")"
  | d => d.typeName ++ "()"

def displays : List Datum → List String
  | [] => []
  | d :: rest => display d :: displays rest

def entryDisplays : List (Datum × Datum) → List String
  | [] => []
  | (k, v) :: rest => (display k ++ ": " ++ display v) :: entryDisplays rest

end

/-- A datum as a message of its own. -/
def phrase : Datum → String
  | .text s => s
  | .date d => d.text
  | .dateTime t => t.isoText ' '
  | .member m => memberText m
  | .exception name argument => if name = "KeyError" then argument.display else argument.phrase
  | .error code message _ cause =>
    "[" ++ code.value ++ "] " ++ message.phrase ++
      (if cause.isTrue then " (caused by: " ++ cause.typeName ++ ": " ++ cause.phrase ++ ")" else "")
  | d => d.display

mutual

/-- Whether all integers that a datum is written with are short enough. -/
def isWritable : Datum → Bool
  | .int i => Text.isWritable i
  | .list items | .tuple items => areWritable items
  | .dict entries => entriesAreWritable entries
  | .exception _ argument => isWritable argument
  | .error _ message _ cause => isWritable message && isWritable cause
  | _ => true

def areWritable : List Datum → Bool
  | [] => true
  | d :: rest => isWritable d && areWritable rest

def entriesAreWritable : List (Datum × Datum) → Bool
  | [] => true
  | (k, v) :: rest => isWritable k && isWritable v && entriesAreWritable rest

end

end SqlAst.Datum
