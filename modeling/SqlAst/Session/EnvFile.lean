import SqlAst.Entries
import SqlAst.Text.Blank

/-!
# Files of environment variables

A line binds a name to a value, which may stand in quotation marks. Lines that bind nothing are passed
over. A value may refer to variables bound before, with a default.
-/
namespace SqlAst.EnvFile

/-- The variables of a file in order; a name without an equals sign has no value. -/
abbrev Bindings := List (String × Option String)

/-- A text with line feeds in place of the other line ends. -/
def withLineFeeds : List Char → List Char
  | [] => []
  | '\r' :: '\n' :: rest => '\n' :: withLineFeeds rest
  | c :: rest => (if c = '\r' then '\n' else c) :: withLineFeeds rest

/-- A blank inside a line. -/
def isInlineBlank (c : Char) : Bool := Text.isBlank c && c ≠ '\n'

def skipInline (cs : List Char) : List Char := cs.dropWhile isInlineBlank

/-- What follows the next line feed. -/
def nextLine (cs : List Char) : List Char := (cs.dropWhile (· ≠ '\n')).drop 1

/-- What follows `export` and blanks, if a line begins so. -/
def skipExport (cs : List Char) : List Char :=
  let word := "export".toList
  let rest := cs.drop word.length
  if word.isPrefixOf cs && rest.head?.any isInlineBlank then skipInline rest else cs

/-- Reads up to the closing quotation mark: the text inside and what follows. A backslash belongs to the
character behind it. -/
def closing? (mark : Char) : List Char → Option (List Char × List Char)
  | [] => none
  | '\\' :: c :: rest => (closing? mark rest).map fun r => ('\\' :: c :: r.1, r.2)
  | c :: rest => if c = mark then some ([], rest) else (closing? mark rest).map fun r => (c :: r.1, r.2)

/-- Resolves backslash escapes of the given letters. -/
def unescaped (table : List (Char × Char)) : List Char → List Char
  | '\\' :: c :: rest =>
    match table.lookup c with
    | some d => d :: unescaped table rest
    | none => '\\' :: unescaped table (c :: rest)
  | c :: rest => c :: unescaped table rest
  | [] => []

def singleEscapes : List (Char × Char) := [('\\', '\\'), ('\'', '\'')]

def doubleEscapes : List (Char × Char) :=
  singleEscapes ++ [('"', '"'), ('a', '\x07'), ('b', '\x08'), ('f', '\x0c'), ('n', '\n'), ('r', '\r'),
    ('t', '\t'), ('v', '\x0b')]

/-- Cuts off a comment, which begins with blanks and a number sign. -/
def withoutComment : List Char → List Char
  | [] => []
  | c :: rest =>
    if Text.isBlank c && (rest.dropWhile Text.isBlank).head? = some '#' then []
    else c :: withoutComment rest

def trimEnd (cs : List Char) : List Char := (cs.reverse.dropWhile Text.isBlank).reverse

/-- Reads what stands behind an equals sign: the value and what follows, if it is well-formed. Without
quotation marks the value ends with the line or before a comment, which may begin right here. -/
def value? (cs : List Char) : Option (List Char × List Char) :=
  match skipInline cs with
  | '\'' :: rest => (closing? '\'' rest).map fun r => (unescaped singleEscapes r.1, r.2)
  | '"' :: rest => (closing? '"' rest).map fun r => (unescaped doubleEscapes r.1, r.2)
  | _ =>
    some (skipInline (trimEnd (withoutComment (cs.takeWhile (· ≠ '\n')))), cs.dropWhile (· ≠ '\n'))

/-- Reads a name: the name, none for a comment, and what follows. -/
def name? (cs : List Char) : Option (Option (List Char) × List Char) :=
  match cs with
  | '#' :: _ => some (none, cs)
  | '\'' :: rest =>
    let name := rest.takeWhile (· ≠ '\'')
    match rest.dropWhile (· ≠ '\'') with
    | _ :: after => if name = [] then none else some (some name, after)
    | [] => none
  | cs =>
    let inside (c : Char) : Bool := c ≠ '=' && c ≠ '#' && !Text.isBlank c
    let name := cs.takeWhile inside
    if name = [] then none else some (some name, cs.dropWhile inside)

/-- What follows the end of a line, with a comment before it, if the line ends here. -/
def lineEnd? (cs : List Char) : Option (List Char) :=
  let cs := skipInline cs
  let cs := if cs.head? = some '#' then cs.dropWhile (· ≠ '\n') else cs
  match cs with
  | [] => some []
  | c :: rest => if c = '\n' then some rest else none

/-- Reads one binding from a text without blanks in front: the binding, if there is one, and what
follows. -/
def binding (cs : List Char) : Option (String × Option String) × List Char :=
  let cs := skipExport cs
  match name? cs with
  | none => (none, nextLine cs)
  | some (name, rest) =>
    let rest := skipInline rest
    let valued : Option (Option (List Char) × List Char) :=
      match rest with
      | '=' :: after => (value? after).map fun r => (some r.1, r.2)
      | _ => some (none, rest)
    match valued with
    | none => (none, nextLine (skipInline (rest.drop 1)))
    | some (value, after) =>
      match lineEnd? after with
      | some next => (name.map fun n => (String.ofList n, value.map String.ofList), next)
      | none => (none, nextLine after)

/-- The bindings of a text; every step takes at least one character, which bounds their number. -/
def bindingsFrom : Nat → List Char → Bindings
  | 0, _ => []
  | steps + 1, cs =>
    match cs.dropWhile Text.isBlank with
    | [] => []
    | cs =>
      let (found, rest) := binding cs
      found.toList ++ bindingsFrom steps rest

/-- A text without the byte order mark in front, if there is one. -/
def withoutMark (cs : List Char) : List Char := if cs.head? = some '\ufeff' then cs.drop 1 else cs

def bindings (text : String) : Bindings :=
  bindingsFrom text.length (withLineFeeds (withoutMark text.toList))

/-! ## References -/

/-- A reference to a variable: its name, its default, and what follows. -/
def reference? (cs : List Char) : Option (List Char × List Char × List Char) :=
  match cs with
  | '$' :: '\x7b' :: rest =>
    let stop (c : Char) : Bool := c = '\x7d' || c = ':'
    let name := rest.takeWhile (!stop ·)
    match rest.dropWhile (!stop ·) with
    | '\x7d' :: after => some (name, [], after)
    | ':' :: '-' :: more =>
      match more.dropWhile (· ≠ '\x7d') with
      | _ :: after => some (name, more.takeWhile (· ≠ '\x7d'), after)
      | [] => none
    | _ => none
  | _ => none

/-- A value with its references replaced; every step takes at least one character. -/
def resolvedFrom (valueOf : String → Option String) : Nat → List Char → List Char
  | 0, _ => []
  | _, [] => []
  | steps + 1, c :: rest =>
    match reference? (c :: rest) with
    | some (name, default, after) =>
      let value := (valueOf (String.ofList name)).getD (String.ofList default)
      value.toList ++ resolvedFrom valueOf steps after
    | none => c :: resolvedFrom valueOf steps rest

/-- The bindings with their references replaced, from first to last: a variable has the value that was
bound before, or else that of the environment. -/
def resolved (environment : List (String × String)) (found : Bindings) : Bindings :=
  found.foldl (fun done (name, value) =>
    let valueOf (n : String) : Option String :=
      match Entries.last? n done with
      | some value => some (value.getD "")
      | none => Entries.last? n environment
    let value := value.map fun v =>
      String.ofList (resolvedFrom valueOf v.length v.toList)
    Entries.put name value done) []

end SqlAst.EnvFile
