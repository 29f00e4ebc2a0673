import SqlAst.Flavor

/-!
# Tokens of SQL text

How a database reads SQL text, by the lexical rules of the two dialects: a name stands between quotation
marks, which are doubled inside; a text literal stands between apostrophes, which are doubled inside, and
in MySQL a backslash escapes what follows it; letters, digits and operators form runs, which are as long as
possible. `scan` is a machine that takes the characters one by one, and `nest` pairs the parentheses.

Nothing here knows how statements are written.

* `scan_append`: a text is scanned piece by piece.
* `nest_tokens`: trees are found again in their tokens, so that the parentheses of these balance.
-/
namespace SqlAst.Sql

/-- The dialects with lexical rules of their own. -/
inductive Dialect where
  | mysql
  | timestream
  deriving DecidableEq

namespace Dialect

def flavor : Dialect → Flavor
  | .mysql => .mysql
  | .timestream => .timestream

/-- The quotation mark around names. -/
def mark : Dialect → Char
  | .mysql => '\x60'
  | .timestream => '"'

/-- Whether a backslash in a text literal escapes what follows. -/
def escapes : Dialect → Bool
  | .mysql => true
  | .timestream => false

end Dialect

/-- A token other than a parenthesis. -/
inductive Atom where
  /-- What stands between quotation marks, with doubled marks undone. -/
  | name (part : List Char)
  /-- What a text literal denotes. -/
  | text (value : List Char)
  | number (spelling : List Char)
  | word (letters : List Char)
  | sign (spelling : List Char)
  /-- A character that is a token on its own. -/
  | mark (c : Char)
  /-- A quotation without an end. -/
  | unclosed
  deriving DecidableEq

inductive Token where
  | atom (a : Atom)
  | opening
  | closing
  deriving DecidableEq

/-! ## The machine -/

/-- Runs of characters of one class. -/
inductive Run where
  | word
  | number
  | sign
  deriving DecidableEq

namespace Run

def isLetter (c : Char) : Bool := ('A' ≤ c && c ≤ 'Z') || ('a' ≤ c && c ≤ 'z') || c = '_'

def isDigit (c : Char) : Bool := '0' ≤ c && c ≤ '9'

def isSign (c : Char) : Bool := c = '=' || c = '!' || c = '<' || c = '>'

/-- Whether a run goes on with a character. -/
def holds : Run → Char → Bool
  | .word, c => isLetter c || isDigit c
  | .number, c => isDigit c || c = '.' || c = 'e' || c = '+' || c = '-'
  | .sign, c => isSign c

def atom : Run → List Char → Atom
  | .word => .word
  | .number => .number
  | .sign => .sign

end Run

/-- Where the machine is; what was read of a token stands in reverse. -/
inductive Mode where
  | between
  | run (kind : Run) (done : List Char)
  | name (done : List Char)
  /-- Behind a quotation mark that ends the name, or is the first of two. -/
  | nameMark (done : List Char)
  | text (done : List Char)
  /-- Behind an apostrophe that ends the text, or is the first of two. -/
  | textMark (done : List Char)
  /-- Behind a backslash. -/
  | textEscape (done : List Char)
  deriving DecidableEq

/-- What a character behind a backslash stands for. -/
def unescaped (c : Char) : List Char :=
  if c = '0' then ['\x00']
  else if c = 'b' then ['\x08']
  else if c = 't' then ['\t']
  else if c = 'n' then ['\n']
  else if c = 'r' then ['\r']
  else if c = 'Z' then ['\x1a']
  else if c = '%' ∨ c = '_' then ['\\', c]
  else [c]

/-- What a character does between tokens. -/
def Dialect.start (d : Dialect) (c : Char) : List Token × Mode :=
  if c = d.mark then ([], .name [])
  else if c = '\'' then ([], .text [])
  else if c = '(' then ([.opening], .between)
  else if c = ')' then ([.closing], .between)
  else if c = ' ' ∨ c = '\t' ∨ c = '\n' ∨ c = '\r' then ([], .between)
  else if Run.isLetter c then ([], .run .word [c])
  else if Run.isDigit c ∨ c = '-' then ([], .run .number [c])
  else if Run.isSign c then ([], .run .sign [c])
  else ([.atom (.mark c)], .between)

/-- The token that ends if the text ends. -/
def Mode.close : Mode → List Token
  | .between => []
  | .run kind done => [.atom (kind.atom done.reverse)]
  | .nameMark done => [.atom (.name done.reverse)]
  | .textMark done => [.atom (.text done.reverse)]
  | .name _ | .text _ | .textEscape _ => [.atom .unclosed]

/-- Ends the token at hand and begins anew with a character. -/
def Dialect.restart (d : Dialect) (m : Mode) (c : Char) : List Token × Mode :=
  (m.close ++ (d.start c).1, (d.start c).2)

/-- Takes one character: the tokens that end with it, and where the machine is then. -/
def Dialect.step (d : Dialect) (m : Mode) (c : Char) : List Token × Mode :=
  match m with
  | .between => d.start c
  | .run kind done => if kind.holds c then ([], .run kind (c :: done)) else d.restart m c
  | .name done => ([], if c = d.mark then .nameMark done else .name (c :: done))
  | .nameMark done => if c = d.mark then ([], .name (c :: done)) else d.restart m c
  | .text done =>
    ([], if c = '\'' then .textMark done
      else if c = '\\' ∧ d.escapes then .textEscape done else .text (c :: done))
  | .textMark done => if c = '\'' then ([], .text (c :: done)) else d.restart m c
  | .textEscape done => ([], .text ((unescaped c).reverse ++ done))

/-- The tokens of a text from a place where the machine is in a mode. -/
def Dialect.scan (d : Dialect) (m : Mode) : List Char → List Token
  | [] => m.close
  | c :: r => (d.step m c).1 ++ d.scan (d.step m c).2 r

/-- The tokens of a text. -/
def Dialect.tokens (d : Dialect) (s : String) : List Token := d.scan .between s.toList

/-- The tokens that end within a text, and where the machine is behind it. -/
def Dialect.runFrom (d : Dialect) (m : Mode) : List Char → List Token × Mode
  | [] => ([], m)
  | c :: r => ((d.step m c).1 ++ (d.runFrom (d.step m c).2 r).1, (d.runFrom (d.step m c).2 r).2)

/-! ### What a step does -/

variable {d : Dialect}

@[simp] theorem step_between (c : Char) : d.step .between c = d.start c := rfl

@[simp] theorem start_mark : d.start d.mark = ([], .name []) := by simp [Dialect.start]

@[simp] theorem step_name_mark (done : List Char) :
    d.step (.name done) d.mark = ([], .nameMark done) := by
  simp [Dialect.step]

theorem step_name {c : Char} (h : c ≠ d.mark) (done : List Char) :
    d.step (.name done) c = ([], .name (c :: done)) := by
  simp [Dialect.step, h]

@[simp] theorem step_nameMark_mark (done : List Char) :
    d.step (.nameMark done) d.mark = ([], .name (d.mark :: done)) := by
  simp [Dialect.step]

/-- A character that does not belong to the token at hand ends it. -/
theorem scan_restart {m : Mode} {c : Char} (h : d.step m c = d.restart m c) (r : List Char) :
    d.scan m (c :: r) = m.close ++ d.scan .between (c :: r) := by
  rw [Dialect.scan, h, Dialect.scan, step_between, Dialect.restart, List.append_assoc]

theorem scan_append (d : Dialect) (m : Mode) (cs rest : List Char) :
    d.scan m (cs ++ rest) = (d.runFrom m cs).1 ++ d.scan (d.runFrom m cs).2 rest := by
  induction cs generalizing m with
  | nil => rfl
  | cons c r ih => simp only [List.cons_append, Dialect.scan, Dialect.runFrom, ih, List.append_assoc]

/-! ## Parentheses -/

/-- Tokens with the parentheses paired. -/
inductive Tree where
  | leaf (a : Atom)
  | group (inner : List Tree)

mutual

def Tree.tokens : Tree → List Token
  | .leaf a => [.atom a]
  | .group inner => .opening :: (tokensOf inner ++ [.closing])

/-- The tokens of trees one after the other. -/
def tokensOf : List Tree → List Token
  | [] => []
  | t :: rest => t.tokens ++ tokensOf rest

end

@[simp] theorem tokensOf_append (ts us : List Tree) :
    tokensOf (ts ++ us) = tokensOf ts ++ tokensOf us := by
  induction ts with
  | nil => simp [tokensOf]
  | cons t rest ih => simp [tokensOf, ih]

/-- Pairs the parentheses. `outer` holds what stands before each open one, the innermost first, and `done`
what was read since, all in reverse; a parenthesis without its partner makes the reading fail. -/
def nestFrom (outer : List (List Tree)) (done : List Tree) : List Token → Option (List Tree)
  | [] => if outer = [] then some done.reverse else none
  | .atom a :: rest => nestFrom outer (.leaf a :: done) rest
  | .opening :: rest => nestFrom (done :: outer) [] rest
  | .closing :: rest =>
    match outer with
    | [] => none
    | before :: outer => nestFrom outer (.group done.reverse :: before) rest

/-- The trees of some tokens, if the parentheses balance. -/
def nest (ts : List Token) : Option (List Tree) := nestFrom [] [] ts

mutual

theorem nestFrom_tree (t : Tree) (outer : List (List Tree)) (done : List Tree) (rest : List Token) :
    nestFrom outer done (t.tokens ++ rest) = nestFrom outer (t :: done) rest := by
  match t with
  | .leaf a => rfl
  | .group inner =>
    rw [Tree.tokens, List.cons_append, nestFrom, List.append_assoc, nestFrom_trees]
    simp [nestFrom]

theorem nestFrom_trees (ts : List Tree) (outer : List (List Tree)) (done : List Tree)
    (rest : List Token) :
    nestFrom outer done (tokensOf ts ++ rest) = nestFrom outer (ts.reverse ++ done) rest := by
  match ts with
  | [] => rfl
  | t :: us =>
    rw [tokensOf, List.append_assoc, nestFrom_tree t, nestFrom_trees us]
    simp

end

/-- Trees are found again in their tokens. -/
theorem nest_tokens (ts : List Tree) : nest (tokensOf ts) = some ts := by
  have h := nestFrom_trees ts [] [] []
  rw [List.append_nil] at h
  simp [nest, h, nestFrom]

end SqlAst.Sql
