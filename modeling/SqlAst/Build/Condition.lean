import SqlAst.Build.Basic

/-!
# Building conditions

The constructors of `Conditions`: `compareWith` is `equal`, `not_equal`, `greater_than` and `less_than`, `ofValues`
is `between` and `in_`, and `combined` is `and_` and `or_`.
-/
namespace SqlAst.Condition

/-- A condition of a kind from its fields. -/
def make (kind : ConditionKind) (fields : List (String × Datum)) : Outcome Condition :=
  let es := Build.named fields
  (Fields.condition kind none es (checkParts .data es)).orInvalid kind.tag

def compareWith (op : Comparison) (column value : Datum) : Outcome Condition :=
  make (.compare op) [("column", column), ("value", value)]

/-- A condition on the values of a collection. -/
def ofValues (kind : ConditionKind) (column values : Datum) : Outcome Condition := do
  make kind [("column", column), ("values", .tuple (← Build.sequence values))]

def likePattern (negated : Bool) (column pattern : Datum) : Outcome Condition :=
  make (.like negated) [("column", column), ("pattern", pattern)]

def nullCheck (negated : Bool) (column : Datum) : Outcome Condition :=
  make (.isNull negated) [("column", column)]

def columnsEqual (left right : Datum) : Outcome Condition :=
  make .columnEqual [("left", left), ("right", right)]

/-- A combination of the conditions of a collection. -/
def combined (connective : Connective) (conditions : Datum) : Outcome Condition := do
  make (.combine connective) [("conditions", .tuple (← Build.sequence conditions))]

end SqlAst.Condition
