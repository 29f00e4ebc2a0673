import SqlAst.Build.Query

/-!
# Building statements that change rows

Of an update, `assign` is `set` and `assignEach` is `set_values`. Of an insert, `setRows` is `values`, `addRows` is
`add_values`, `setColumns` is `columns` and `setSource` is `select`.
-/
namespace SqlAst

namespace Delete

def setTable (d : Delete) (source label : Datum) : Outcome Delete := do
  pure { d with tables := [← Table.make source label] }

def addJoin (d : Delete) (table condition kind : Datum) : Outcome Delete := do
  pure { d with joins := d.joins ++ [← Join.make table condition kind] }

def addFilter (d : Delete) (condition : Datum) : Outcome Delete := do
  let filters ← (addCondition .filters d.filters condition).orInvalid NodeKind.delete.tag
  pure { d with filters }

end Delete

namespace Update

def setTable (u : Update) (source label : Datum) : Outcome Update := do
  pure { u with tables := [← Table.make source label] }

def addJoin (u : Update) (table condition kind : Datum) : Outcome Update := do
  pure { u with joins := u.joins ++ [← Join.make table condition kind] }

def addFilter (u : Update) (condition : Datum) : Outcome Update := do
  let filters ← (addCondition .filters u.filters condition).orInvalid NodeKind.update.tag
  pure { u with filters }

/-- Adds assignments to those there are: a column keeps its place and takes its last value. -/
def assignAll (u : Update) (entries : Fields) : Outcome Update := do
  let merged := Entries.merge (Build.named (u.assignments.entries.map fun e => (e.1, .ofScalar e.2)))
    entries
  let row := (Checked.row (.dict merged)).under (.key FieldName.assignments.name)
  pure { u with assignments := ← row.orInvalid NodeKind.update.tag }

/-- Assigns a value to a column. -/
def assign (u : Update) (column value : Datum) : Outcome Update :=
  if column.isKey then u.assignAll [(column, value)] else Outcome.misuse .wrongType

/-- Assigns the values of a dictionary. -/
def assignEach (u : Update) (values : Datum) : Outcome Update :=
  match values with
  | .dict entries => u.assignAll entries
  | _ => Outcome.misuse .wrongType

end Update

namespace Insert

/-- The name of the type in reports. -/
def title : String := NodeKind.insert.tag

/-- An insert into a table, as yet without values. -/
def into (table : Datum) : Outcome Insert :=
  let es := Build.named [("table_name", table)]
  (Fields.insert none es (checkParts .data es)).orInvalid title

/-- Checks rows that follow `length` others. -/
def rowsFrom (length : Nat) (rows : List Datum) : Outcome (List Row) := do
  let rows ← rows.mapM Build.dictionary
  (Build.appended .rows length (rows.map .dict) Checked.row).orInvalid title

/-- Inserts the rows of a collection, and nothing else. -/
def setRows (i : Insert) (rows : Datum) : Outcome Insert := do
  pure { i with rows := ← rowsFrom 0 (← Build.sequence rows), source := none }

/-- Adds rows; a statement as source is dropped. -/
def addRows (i : Insert) (rows : List Datum) : Outcome Insert := do
  pure { i with rows := i.rows ++ (← rowsFrom i.rows.length rows), source := none }

/-- Sets the column list. A text stands for one column, and no columns for no list. -/
def setColumns (i : Insert) (names : Datum) : Outcome Insert := do
  let items ← if names.asText?.isSome then pure [names] else Build.sequence names
  let columns ← (Build.appended .columns 0 items Checked.text).orInvalid title
  pure { i with columnNames := if columns = [] then none else some columns }

/-- Inserts the result of a statement, and nothing else. -/
def setSource (i : Insert) (query : Datum) : Outcome Insert :=
  match query with
  | .node n => do
    let q ← ((checkPart .data .select (.node n)).under (.key FieldName.insertSource.name)).orInvalid title
    pure { i with source := some q, rows := [] }
  | _ => Outcome.misuse .noAttribute

end Insert

end SqlAst
