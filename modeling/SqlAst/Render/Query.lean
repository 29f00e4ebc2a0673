import SqlAst.Render.Condition
import SqlAst.Statement.Query

/-!
# Writing select statements

Each `render` here is `_render` of the class of the same name. `fallback` is the setting `subquery_alias`, which
the result of a statement gets where it is a table without an alias. The clauses stand in a fixed order, and
each member of a union wraps all that is written before it.
-/
namespace SqlAst

/-- A clause with its word in front, or nothing if there are no items. -/
def clause (lead separator : String) (items : List String) : String :=
  if items = [] then "" else lead ++ separator.intercalate items

/-- A table or a field with `AS` and its alias behind, unless that is empty. -/
def Flavor.labelled (f : Flavor) (sql : String) (label : String) : String :=
  if label = "" then sql else sql ++ " AS " ++ f.escapeName label

def SelectField.render (f : Flavor) (field : SelectField) : String :=
  f.labelled (f.escapeName field.name) (field.label.getD "")

def OrderSpec.render (f : Flavor) (o : OrderSpec) : String :=
  f.escapeName o.field ++ " " ++ o.direction.word

/-- The select list; an empty one stands for all columns. -/
def renderFields (f : Flavor) (fields : List SelectField) : String :=
  if fields = [] then "*" else ", ".intercalate (fields.map (SelectField.render f))

/-- `LIMIT` or `OFFSET` with its count, which is to be short enough to be written. -/
def countClause (word : String) : Option Nat → String
  | none => ""
  | some n => word ++ String.ofList (Nat.toDigits 10 n)

/-- A statement wrapped by the members of its union, from the first to the last. -/
def wrapUnions (sql : String) (members : List (String × String)) : String :=
  members.foldl (fun sql m => parenthesised sql ++ " " ++ m.1 ++ " " ++ parenthesised m.2) sql

mutual

/-- A table. The result of a statement always gets an alias. -/
def Table.render (f : Flavor) (fallback : String) : Table → String
  | ⟨.name n, label⟩ => f.labelled (f.escapeName n) (label.getD "")
  | ⟨.query q, label⟩ =>
    let label := label.getD ""
    f.labelled (parenthesised (q.render f fallback)) (if label = "" then fallback else label)

def Join.render (f : Flavor) (fallback : String) : Join → String
  | ⟨table, condition, kind⟩ =>
    kind.word ++ " JOIN " ++ table.render f fallback ++
      (condition.map fun c => " ON " ++ c.render f).getD ""

def UnionPart.render (f : Flavor) (fallback : String) : UnionPart → String × String
  | ⟨kind, query⟩ => (kind.word, query.render f fallback)

/-- A select statement: `_render` of `SelectQuery`. -/
def Select.render (f : Flavor) (fallback : String) : Select → String
  | ⟨tables, joins, fields, filters, groupFilters, limit, offset, orderBy, groupBy, unions⟩ =>
    wrapUnions
      ("SELECT " ++ renderFields f fields ++
        clause " FROM " ", " (renderTables f fallback tables) ++
        clause " " " " (renderJoins f fallback joins) ++
        clause " WHERE " " AND " (filters.map (Condition.render f)) ++
        clause " GROUP BY " ", " (groupBy.map f.escapeName) ++
        clause " HAVING " " AND " (groupFilters.map (Condition.render f)) ++
        clause " ORDER BY " ", " (orderBy.map (OrderSpec.render f)) ++
        countClause " LIMIT " limit ++ countClause " OFFSET " offset)
      (renderUnions f fallback unions)

def renderTables (f : Flavor) (fallback : String) : List Table → List String
  | [] => []
  | t :: rest => t.render f fallback :: renderTables f fallback rest

def renderJoins (f : Flavor) (fallback : String) : List Join → List String
  | [] => []
  | j :: rest => j.render f fallback :: renderJoins f fallback rest

def renderUnions (f : Flavor) (fallback : String) : List UnionPart → List (String × String)
  | [] => []
  | u :: rest => u.render f fallback :: renderUnions f fallback rest

end

/-- A select list with its sources: `_render` of `SelectBaseQuery`. -/
def Projection.render (f : Flavor) (fallback : String) (p : Projection) : String :=
  "SELECT " ++ renderFields f p.fields ++
    clause " FROM " ", " (p.tables.map (Table.render f fallback))

theorem renderTables_eq_map (f : Flavor) (fallback : String) (ts : List Table) :
    renderTables f fallback ts = ts.map (Table.render f fallback) := by
  induction ts with
  | nil => simp [renderTables]
  | cons t rest ih => simp [renderTables, ih]

theorem renderJoins_eq_map (f : Flavor) (fallback : String) (js : List Join) :
    renderJoins f fallback js = js.map (Join.render f fallback) := by
  induction js with
  | nil => simp [renderJoins]
  | cons j rest ih => simp [renderJoins, ih]

theorem renderUnions_eq_map (f : Flavor) (fallback : String) (us : List UnionPart) :
    renderUnions f fallback us = us.map (UnionPart.render f fallback) := by
  induction us with
  | nil => simp [renderUnions]
  | cons u rest ih => simp [renderUnions, ih]

end SqlAst
