/-!
# Closed vocabularies

The kinds of joins, of unions, of predicates and of nodes, with the words that stand for them in SQL and
in stored statements.
-/
namespace SqlAst

inductive JoinKind where
  | inner
  | left
  | right
  | full
  deriving DecidableEq

namespace JoinKind

def all : List JoinKind := [.inner, .left, .right, .full]

def word : JoinKind → String
  | .inner => "INNER"
  | .left => "LEFT"
  | .right => "RIGHT"
  | .full => "FULL"

end JoinKind

inductive UnionKind where
  | distinct
  | all
  deriving DecidableEq

namespace UnionKind

def every : List UnionKind := [.distinct, .all]

def word : UnionKind → String
  | .distinct => "UNION"
  | .all => "UNION ALL"

/-- The name of the kind among the kinds. -/
def memberName : UnionKind → String
  | .distinct => "UNION"
  | .all => "UNION_ALL"

end UnionKind

inductive Direction where
  | ascending
  | descending
  deriving DecidableEq

namespace Direction

def all : List Direction := [.ascending, .descending]

def word : Direction → String
  | .ascending => "ASC"
  | .descending => "DESC"

end Direction

/-- Comparisons of a column with a value. -/
inductive Comparison where
  | equal
  | notEqual
  | greaterThan
  | lessThan
  deriving DecidableEq

def Comparison.sign : Comparison → String
  | .equal => "="
  | .notEqual => "!="
  | .greaterThan => ">"
  | .lessThan => "<"

/-- Combinations of predicates. -/
inductive Connective where
  | conj
  | disj
  deriving DecidableEq

namespace Connective

def word : Connective → String
  | .conj => "AND"
  | .disj => "OR"

/-- The predicate that a combination of nothing is. -/
def unit : Connective → String
  | .conj => "1 = 1"
  | .disj => "1 = 0"

end Connective

/-- The thirteen kinds of predicates. -/
inductive ConditionKind where
  | compare (op : Comparison)
  | between
  | among
  | like (negated : Bool)
  | isNull (negated : Bool)
  | columnEqual
  | combine (connective : Connective)
  deriving DecidableEq

namespace ConditionKind

def all : List ConditionKind :=
  [.compare .equal, .compare .notEqual, .compare .greaterThan, .compare .lessThan, .between, .among,
    .like false, .like true, .isNull false, .isNull true, .columnEqual, .combine .conj,
    .combine .disj]

/-- The tag of a stored predicate. -/
def tag : ConditionKind → String
  | .compare .equal => "EqualCondition"
  | .compare .notEqual => "NotEqualCondition"
  | .compare .greaterThan => "GreaterThanCondition"
  | .compare .lessThan => "LessThanCondition"
  | .between => "BetweenCondition"
  | .among => "InCondition"
  | .like false => "LikeCondition"
  | .like true => "NotLikeCondition"
  | .isNull false => "NullCondition"
  | .isNull true => "NotNullCondition"
  | .columnEqual => "ColumnEqualCondition"
  | .combine .conj => "AndCondition"
  | .combine .disj => "OrCondition"

/-- The name of the kind among the kinds of nodes. -/
def memberName : ConditionKind → String
  | .compare .equal => "EQUAL"
  | .compare .notEqual => "NOT_EQUAL"
  | .compare .greaterThan => "GREATER_THAN"
  | .compare .lessThan => "LESS_THAN"
  | .between => "BETWEEN"
  | .among => "IN"
  | .like false => "LIKE"
  | .like true => "NOT_LIKE"
  | .isNull false => "NULL"
  | .isNull true => "NOT_NULL"
  | .columnEqual => "COLUMN_EQUAL"
  | .combine .conj => "AND"
  | .combine .disj => "OR"

def ofTag? (t : String) : Option ConditionKind := all.find? (·.tag = t)

end ConditionKind

/-- The kinds of nodes that are stored with a tag. -/
inductive NodeKind where
  | table
  | join
  | select
  | condition (kind : ConditionKind)
  | delete
  | update
  | insert
  deriving DecidableEq

namespace NodeKind

def all : List NodeKind :=
  [.table, .join, .select] ++ ConditionKind.all.map .condition ++ [.delete, .update, .insert]

/-- The tag of a stored node. -/
def tag : NodeKind → String
  | .table => "Table"
  | .join => "Join"
  | .select => "SelectQuery"
  | .condition k => k.tag
  | .delete => "DeleteMutation"
  | .update => "UpdateMutation"
  | .insert => "InsertMutation"

def memberName : NodeKind → String
  | .table => "TABLE"
  | .join => "JOIN"
  | .select => "SELECT_QUERY"
  | .condition k => k.memberName
  | .delete => "DELETE_MUTATION"
  | .update => "UPDATE_MUTATION"
  | .insert => "INSERT_MUTATION"

def ofTag? (t : String) : Option NodeKind := all.find? (·.tag = t)

end NodeKind

end SqlAst
