import SqlAst.Interface.Statements
import SqlAst.Session.Nodes

/-!
# Calls on objects

A `Method` is a call on a receiver; it is there for some types of receivers only.
-/
namespace SqlAst.Interface

/-- The call on a receiver, if its type has one. -/
abbrev Method := Datum → Option Operation

namespace Method

open Operation

/-- The names under which a receiver has data. -/
def dataNames : Datum → List String
  | .node n => n.fields.map Prod.fst ++ typeLevelNames n
  | .field _ => ["name", "alias"]
  | .order _ => ["field", "direction"]
  | .part _ => ["union_type", "query"]
  | .flavor _ => ["name", "quote_char"]
  | .exception _ _ => ["args"]
  | .error _ _ _ _ => ["args", "message", "error_code", "details", "cause"]
  | _ => []

/-- What is wrong with a call that a receiver does not have: under the name there is either data, which
cannot be called, or nothing. -/
def absence (name : String) (receiver : Datum) : Misuse :=
  if name ∈ dataNames receiver then .wrongType else .noAttribute

/-- Makes the call of a name on a receiver; where its type has none, that is a failure. -/
def call (m : Method) (name : String) (receiver : Datum) (args : List Datum)
    (named : List (String × Datum)) : Action Datum :=
  match m receiver with
  | some o => o.call args named
  | none => Action.misuse (absence name receiver)

def ofJson (j : Json) : Action Datum := pure (.ofJson j)

/-- The result of a call that may be refused. -/
def refusable (r : Except Refusal Datum) : Action Datum := Action.ofOutcome (Outcome.ofRefusable r)

/-! ## All nodes -/

def toSql : Method
  | .node n =>
    let write := of1 (optional "flavor") fun flavor => do pure (.text (← Action.toSql n flavor))
    some { write with refuse := Action.refuseToSql }
  | _ => none

def clone : Method
  | .node n => some <| of0 (pure (.node n))
  | _ => none

/-- The stored form as data. -/
def toJson : Method
  | .node n => some <| of0 (ofJson n.toJson.withWholeNames.unique)
  | _ => none

/-- The stored form of a node or of a part of one, or what an error says of itself. -/
def toDict : Method := fun d =>
  ((d.stored?.map fun j => .ofJson j.withWholeNames.unique).or d.errorRecord?).map fun record =>
    of0 (pure record)

def serialize : Method
  | .node n => some <| of0 <|
    match n.serialize? with
    | some s => pure (.text s)
    | none => Action.misuse .unwritable
  | _ => none

/-! ## Tables and joins -/

def setTable : Method
  | .node (.select q) => some <| call fun s l => giving .select (q.setTable s l)
  | .node (.projection p) => some <| call fun s l => giving .projection (p.setTable s l)
  | .node (.delete d) => some <| call fun s l => giving .delete (d.setTable s l)
  | .node (.update u) => some <| call fun s l => giving .update (u.setTable s l)
  | _ => none
where
  call (run : Datum → Datum → Action Datum) : Operation := of2 (needed "source") (optional "alias") run

/-- Adding a join to a node that can have some. -/
def joining? : Datum → Option (Datum → Datum → Datum → Action Datum)
  | .node (.select q) => some fun t c k => giving .select (q.addJoin t c k)
  | .node (.projection p) => some fun t c k => giving .projection (p.addJoin t c k)
  | .node (.delete d) => some fun t c k => giving .delete (d.addJoin t c k)
  | .node (.update u) => some fun t c k => giving .update (u.addJoin t c k)
  | _ => none

def addJoin : Method := fun d => (joining? d).map fun run =>
  of3 (needed "table") (optional "condition") ⟨"join_type", some (.member (.join .inner))⟩ run

def addJoinOf (kind : JoinKind) : Method := fun d => (joining? d).map fun run =>
  of2 (needed "table") (optional "condition") fun t c => run t c (.member (.join kind))

/-- The tables of a node and their joins. -/
def sources? : Node → Option (List Table × List Join)
  | .select q => some (q.tables, q.joins)
  | .projection p => some (p.tables, p.joins)
  | .delete d => some (d.tables, d.joins)
  | .update u => some (u.tables, u.joins)
  | _ => none

def tables : Method
  | .node n => (sources? n).map fun s => of0 (pure (.tables s.1))
  | _ => none

def joins : Method
  | .node n => (sources? n).map fun s => of0 (pure (.joins s.2))
  | _ => none

/-- The primary table of a statement, or the table of a join. -/
def primaryTable : Method
  | .node (.join j) => some <| of0 (pure (.node (.table j.table)))
  | .node n => (sources? n).map fun s => of0 <|
    match s.1 with
    | t :: _ => pure (.node (.table t))
    | [] => refusable (.error (.noTable n.typeName))
  | _ => none

def tableName : Method
  | .node (.table t) => some <| of0 (refusable (t.name.map .text))
  | .node (.join j) => some <| of0 (refusable (j.table.name.map .text))
  | _ => none

/-- The names of the tables of a statement, if it is one. -/
def tableNames? : Node → Option (Except Refusal (List String))
  | .select q => some q.tableNames
  | .projection p => some (namesOf p.tables p.joins)
  | .delete d => some (namesOf d.tables d.joins)
  | .update u => some (namesOf u.tables u.joins)
  | .insert i => some i.tableNames
  | _ => none

def tableNames : Method
  | .node n => (tableNames? n).map fun names => of0 (refusable (names.map fun ns => .list (ns.map .text)))
  | _ => none

/-! ## Conditions -/

def addFilter : Method
  | .node (.select q) => some <| call fun c => giving .select (q.addFilter c)
  | .node (.delete d) => some <| call fun c => giving .delete (d.addFilter c)
  | .node (.update u) => some <| call fun c => giving .update (u.addFilter c)
  | _ => none
where
  call (run : Datum → Action Datum) : Operation := of1 (needed "condition") run

/-! ## Select statements -/

/-- A call on a select statement. -/
def onSelect (operation : Select → Operation) : Method
  | .node (.select q) => some (operation q)
  | _ => none

def addGroupFilter : Method := onSelect fun q =>
  of1 (needed "condition") fun c => giving .select (q.addGroupFilter c)

def setLimit : Method := onSelect fun q =>
  of1 (needed "limit") fun n => giving .select (q.setLimit n)

def setOffset : Method := onSelect fun q =>
  of1 (needed "offset") fun n => giving .select (q.setOffset n)

def clearLimit : Method := onSelect fun q => of0 (pure (.node (.select q.clearLimit)))

def clearOffset : Method := onSelect fun q => of0 (pure (.node (.select q.clearOffset)))

def limit : Method := onSelect fun q => of0 (pure (.optionalCount q.limit))

def offset : Method := onSelect fun q => of0 (pure (.optionalCount q.offset))

def addOrder : Method := onSelect fun q =>
  of2 (needed "field") ⟨"direction", some (.member (.direction .ascending))⟩ fun f d =>
    giving .select (q.addOrder f d)

def clearOrder : Method := onSelect fun q => of0 (pure (.node (.select q.clearOrder)))

def order : Method := onSelect fun q => of0 (pure (.tuple (q.orderBy.map .order)))

def addGroups : Method := onSelect fun q => ofMany fun columns => giving .select (q.addGroups columns)

def clearGroups : Method := onSelect fun q => of0 (pure (.node (.select q.clearGroups)))

def groups : Method := onSelect fun q => of0 (pure (.texts q.groupBy))

def addUnion : Method := onSelect fun q =>
  of2 (needed "query") ⟨"union_type", some (.member (.union .distinct))⟩ fun other kind =>
    giving .select (q.addUnion other kind)

/-! ## Select lists -/

def addField : Method
  | .node (.select q) => some <| call fun n l => giving .select (q.addField n l)
  | .node (.projection p) => some <| call fun n l => giving .projection (p.addField n l)
  | _ => none
where
  call (run : Datum → Datum → Action Datum) : Operation := of2 (needed "name") (optional "alias") run

def addFields : Method
  | .node (.select q) => some <| of1 (needed "fields") fun fs => giving .select (q.addFields fs)
  | .node (.projection p) => some <| of1 (needed "fields") fun fs => giving .projection (p.addFields fs)
  | _ => none

def setFields : Method
  | .node (.select q) => some <| of1 (needed "fields") fun fs => giving .select (q.setFields fs)
  | .node (.projection p) => some <| of1 (needed "fields") fun fs => giving .projection (p.setFields fs)
  | _ => none

def clearFields : Method
  | .node (.select q) => some <| of0 (pure (.node (.select q.clearFields)))
  | .node (.projection p) => some <| of0 (pure (.node (.projection { p with fields := [] })))
  | _ => none

def fields : Method
  | .node (.select q) => some <| of0 (pure (.selectFields q.fields))
  | .node (.projection p) => some <| of0 (pure (.selectFields p.fields))
  | _ => none

/-! ## Updates and inserts -/

def assign : Method
  | .node (.update u) =>
    some <| of2 (needed "column") (needed "value") fun c v => giving .update (u.assign c v)
  | _ => none

def assignEach : Method
  | .node (.update u) => some <| of1 (needed "values") fun vs => giving .update (u.assignEach vs)
  | _ => none

/-- A call on an insert. -/
def onInsert (operation : Insert → Operation) : Method
  | .node (.insert i) => some (operation i)
  | _ => none

def setRows : Method := onInsert fun i =>
  of1 (needed "rows") fun rows => giving .insert (i.setRows rows)

def addRows : Method := onInsert fun i => ofMany fun rows => giving .insert (i.addRows rows)

def setColumns : Method := onInsert fun i =>
  of1 (needed "names") fun names => giving .insert (i.setColumns names)

def setSource : Method := onInsert fun i =>
  of1 (needed "query") fun query => giving .insert (i.setSource query)

def columns : Method := onInsert fun i => of0 (pure (.list (i.columns.map .text)))

/-! ## Flavors -/

/-- A call on a flavor. -/
def onFlavor (operation : Flavor → Operation) : Method
  | .flavor f => some (operation f)
  | _ => none

/-- A call on a flavor with a text; other arguments fail in the given way. -/
def onText (name : String) (other : Datum → Misuse) (run : Flavor → String → Datum) : Method :=
  onFlavor fun f => of1 (needed name) fun d =>
    match d.asText? with
    | some s => pure (run f s)
    | none => Action.misuse (other d)

def escapeName : Method := onText "name" (fun _ => .wrongType) fun f s => .text (f.escapeName s)

def isExpression : Method := onText "name" (fun _ => .wrongType) fun f s => .bool (f.isExpression s)

/-- Days can be asked to replace parts of themselves, though not in this way. -/
def notReplaceable : Datum → Misuse
  | .date _ | .dateTime _ => .wrongType
  | _ => .noAttribute

def quoteText : Method := onText "value" notReplaceable fun f s => .text (f.quoteText s)

def quotePart : Method := onText "identifier" notReplaceable fun f s =>
  .text (String.ofList (f.quotePart s.toList))

def literal : Method := onFlavor fun f =>
  of1 (needed "value") fun v => do pure (.text (← Action.ofOutcome (Action.literal f v)))

def literals : Method := onFlavor fun f =>
  of1 (needed "values") fun vs => do pure (.text (← Action.ofOutcome (Action.literals f vs)))

def boolWord : Method := onFlavor fun f =>
  of1 (needed "value") fun v => pure (.text (f.boolWord v.isTrue))

end Method

end SqlAst.Interface
