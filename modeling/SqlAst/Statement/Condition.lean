import SqlAst.Scalar
import SqlAst.Statement.Vocabulary

/-!
# Predicates

What a statement can ask of a row: leaves about one or two columns, and their combinations.
-/
namespace SqlAst

inductive Condition where
  | compare (op : Comparison) (column : String) (value : Scalar)
  /-- The bounds belong to the range. -/
  | between (column : String) (low high : Scalar)
  /-- The column has one of the values: `InCondition`. -/
  | among (column : String) (values : List Scalar)
  | like (negated : Bool) (column pattern : String)
  | isNull (negated : Bool) (column : String)
  | columnEqual (left right : String)
  /-- `AndCondition` and `OrCondition`. -/
  | combine (connective : Connective) (parts : List Condition)
  deriving Inhabited

namespace Condition

def kind : Condition → ConditionKind
  | .compare op _ _ => .compare op
  | .between _ _ _ => .between
  | .among _ _ => .among
  | .like negated _ _ => .like negated
  | .isNull negated _ => .isNull negated
  | .columnEqual _ _ => .columnEqual
  | .combine connective _ => .combine connective

end Condition

end SqlAst
