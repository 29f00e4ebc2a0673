import SqlAst.Statement.Node
import SqlAst.Text.Basic

/-!
# What writing asks for

Writing a node puts the digits of its integers and the fallback alias into the text, in a fixed order. Each
may fail: an integer may have too many digits, and the alias is asked from the settings. `demands` lists
both in the order in which they are asked for.
-/
namespace SqlAst

/-- What the writing of a node asks for. -/
inductive Demand where
  /-- The digits of an integer. -/
  | digits (i : Int)
  /-- The alias of a derived table without one. -/
  | fallback
  deriving DecidableEq

/-- Whether an integer with too many digits is asked for. -/
def Demand.isTooLong : Demand → Bool
  | .digits i => !Text.isWritable i
  | .fallback => false

/-- The digits that a literal asks for. -/
def Scalar.demands : Scalar → List Demand
  | .int i => [.digits i]
  | _ => []

/-- The digits that a `LIMIT` or an `OFFSET` asks for. -/
def countDemands : Option Nat → List Demand
  | none => []
  | some n => [.digits n]

mutual

def Condition.demands : Condition → List Demand
  | .compare _ _ value => value.demands
  | .between _ low high => low.demands ++ high.demands
  | .among _ values => values.flatMap Scalar.demands
  | .combine _ cs => conditionDemands cs
  | _ => []

def conditionDemands : List Condition → List Demand
  | [] => []
  | c :: rest => c.demands ++ conditionDemands rest

end

mutual

/-- The alias of a derived table is asked for once its statement is written. -/
def Table.demands : Table → List Demand
  | ⟨.name _, _⟩ => []
  | ⟨.query q, label⟩ => q.demands ++ if label.getD "" = "" then [.fallback] else []

def Select.demands : Select → List Demand
  | ⟨tables, joins, _, filters, groupFilters, limit, offset, _, _, unions⟩ =>
    tableDemands tables ++ joinDemands joins ++ conditionDemands filters ++
      conditionDemands groupFilters ++ countDemands limit ++ countDemands offset ++ unionDemands unions

def tableDemands : List Table → List Demand
  | [] => []
  | t :: rest => t.demands ++ tableDemands rest

def joinDemands : List Join → List Demand
  | [] => []
  | ⟨t, condition, _⟩ :: rest =>
    t.demands ++ (condition.map Condition.demands).getD [] ++ joinDemands rest

def unionDemands : List UnionPart → List Demand
  | [] => []
  | ⟨_, q⟩ :: rest => q.demands ++ unionDemands rest

end

/-- What an insert asks for: what its source does, or the values of its rows under its columns. -/
def Insert.demands (i : Insert) : List Demand :=
  match i.source with
  | some q => q.demands
  | none => i.rows.flatMap fun row => i.columns.flatMap fun column => (row.value column).demands

def Node.demands : Node → List Demand
  | .table t => t.demands
  | .join j => joinDemands [j]
  | .select q => q.demands
  | .projection p => tableDemands p.tables
  | .condition c => c.demands
  | .delete d => tableDemands (d.tables.take 1) ++ joinDemands d.joins ++ conditionDemands d.filters
  | .update u =>
    tableDemands (u.tables.take 1) ++ joinDemands u.joins ++
      u.assignments.entries.flatMap (fun e => e.2.demands) ++ conditionDemands u.filters
  | .insert i => i.demands

end SqlAst
