import SqlAst.Statement.Condition

/-!
# Select statements

Tables, joins and select statements, which hold each other: the source of a table may be a statement,
and a statement may be followed by the members of a union.
-/
namespace SqlAst

/-- A column or expression of a select list. -/
structure SelectField where
  name : String
  label : Option String
  deriving DecidableEq

structure OrderSpec where
  field : String
  direction : Direction
  deriving DecidableEq

mutual

/-- What a table is: a name, or the result of a statement. -/
inductive Source where
  | name (name : String)
  | query (query : Select)

structure Table where
  source : Source
  /-- The alias; an empty one counts as none in SQL. -/
  label : Option String

structure Join where
  table : Table
  condition : Option Condition
  kind : JoinKind

structure UnionPart where
  kind : UnionKind
  query : Select

/-- `SelectQuery`. -/
structure Select where
  tables : List Table := []
  joins : List Join := []
  fields : List SelectField := []
  /-- The conditions of WHERE. -/
  filters : List Condition := []
  /-- The conditions of HAVING. -/
  groupFilters : List Condition := []
  limit : Option Nat := none
  offset : Option Nat := none
  orderBy : List OrderSpec := []
  groupBy : List String := []
  unions : List UnionPart := []

end

instance : Inhabited Source := ⟨.name ""⟩
instance : Inhabited Table := ⟨⟨default, none⟩⟩
instance : Inhabited Select := ⟨⟨[], [], [], [], [], none, none, [], [], []⟩⟩

/-- A select list with its sources and no further clauses: `SelectBaseQuery`. -/
structure Projection where
  tables : List Table := []
  joins : List Join := []
  fields : List SelectField := []

end SqlAst
