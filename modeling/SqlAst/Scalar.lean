import SqlAst.Number.Binary64

/-!
# Literal values

The values that a statement may hold. Booleans, integers and doubles are kinds of their own, so that
`true`, `1` and `1.0` stay apart; a double is finite.
-/
namespace SqlAst

inductive Scalar where
  | null
  | bool (value : Bool)
  | int (value : Int)
  | float (value : FiniteBinary64)
  | text (value : String)
  deriving DecidableEq

end SqlAst
