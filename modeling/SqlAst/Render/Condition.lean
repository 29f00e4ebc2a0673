import SqlAst.Flavor
import SqlAst.Statement.Condition

/-!
# Writing predicates

`Condition.render` is `_render` of the conditions. Each part of a combination stands in parentheses, and so does
the predicate that an empty one is.
-/
namespace SqlAst

def parenthesised (s : String) : String := "(" ++ s ++ ")"

/-- The operator of a text pattern. -/
def patternWord (negated : Bool) : String := if negated then "NOT LIKE" else "LIKE"

/-- The test for NULL. -/
def nullTest (negated : Bool) : String := if negated then "IS NOT NULL" else "IS NULL"

/-- The list of an `InCondition`; NULL, which no value equals, if it is empty. -/
def Flavor.choices (f : Flavor) (values : List Scalar) : String :=
  if values = [] then "NULL" else f.literals values

mutual

/-- A predicate in SQL. -/
def Condition.render (f : Flavor) : Condition → String
  | .compare op column value => f.escapeName column ++ " " ++ op.sign ++ " " ++ f.literal value
  | .between column low high =>
    f.escapeName column ++ " BETWEEN " ++ f.literal low ++ " AND " ++ f.literal high
  | .among column values => f.escapeName column ++ " IN " ++ parenthesised (f.choices values)
  | .like negated column pattern =>
    f.escapeName column ++ " " ++ patternWord negated ++ " " ++ f.quoteText pattern
  | .isNull negated column => f.escapeName column ++ " " ++ nullTest negated
  | .columnEqual left right => f.escapeName left ++ " = " ++ f.escapeName right
  | .combine connective [] => parenthesised connective.unit
  | .combine connective (c :: rest) =>
    (" " ++ connective.word ++ " ").intercalate
      (parenthesised (c.render f) :: (renderEach f rest).map parenthesised)

/-- Predicates in SQL, one by one. -/
def Condition.renderEach (f : Flavor) : List Condition → List String
  | [] => []
  | c :: rest => c.render f :: renderEach f rest

end

namespace Condition

/-- The conditions of WHERE or HAVING, joined by AND. -/
def renderAll (f : Flavor) (cs : List Condition) : String := " AND ".intercalate (cs.map (render f))

end Condition

end SqlAst
