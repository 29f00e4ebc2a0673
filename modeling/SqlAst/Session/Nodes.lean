import SqlAst.Decode
import SqlAst.Render.Node
import SqlAst.Session.Flavors

/-!
# Nodes in a session

Writing nodes in the flavors of the session, and reading stored ones; both are traced.
-/
namespace SqlAst.Action

/-- A node in SQL: `_render`, with the settings. The fallback alias is asked from the settings only if it is
needed, and once all integers in front of its first place are written. -/
def renderWith (f : Flavor) (n : Node) : Action String := do
  discard (ofOutcome (Outcome.ofRefusable (n.sql f "")))
  ofOutcome (Node.checkDigits (n.demands.takeWhile (· ≠ .fallback)))
  let fallback ← if n.needsFallback then do pure (← getSettings).subqueryAlias else pure ""
  ofOutcome (n.render f fallback)

/-- Traces the writing of a node. -/
def tracedWriting {α : Type} (attributes : Action (List (String × Datum))) (call : Action α) : Action α :=
  traced "sqltree.to_sql" "sqltree.nodes.base" "INTERNAL" attributes call

/-- A node in SQL, in a flavor given in any form: `to_sql`. -/
def toSql (n : Node) (flavor : Datum) : Action String :=
  tracedWriting (pure [("sqltree.node", .text n.typeName)]) do renderWith (← getFlavor flavor) n

/-- Why arguments do not match those of `_node_attributes`, which are a node and a flavor: the
first name that is unknown or given twice, or else the number of arguments. -/
def mismatch (args : List Datum) (named : List (String × Datum)) : String :=
  let placed := if args.isEmpty then ["node"] else ["node", "flavor"]
  let wrong (e : String × Datum) : Bool := e.1 ≠ "flavor" || placed.contains e.1
  match named.find? wrong with
  | some (name, _) =>
    if name = "node" ∨ name = "flavor" then "got multiple values for argument '" ++ name ++ "'"
    else "got an unexpected keyword argument '" ++ name ++ "'"
  | none =>
    "takes from 1 to 2 positional arguments but " ++
      String.ofList (Nat.toDigits 10 (args.length + 1)) ++ " were given"

/-- What asking for a node in SQL does if the arguments do not match: the attributes of the span are not
found either, which is logged. -/
def refuseToSql {α : Type} (args : List Datum) (named : List (String × Datum)) : Action α :=
  tracedWriting
    (do
      logGetterFailure ("_node_attributes() " ++ mismatch args named)
      pure [])
    (misuse .wrongType)

/-- Traces the reading of a node. -/
def tracedReading {α : Type} (call : Action α) : Action α :=
  traced "sqltree.deserialize" "sqltree.nodes.builder" "INTERNAL" (pure []) call

/-- Reads JSON text of any node: `deserialize`. -/
def deserialize (text : Datum) : Action Node :=
  tracedReading do
    let n ← ofOutcome (Decode.ofTaggedText text)
    log "sqltree.nodes.builder" 10 ("Deserialized " ++ n.typeName ++ " node")
    pure n

end SqlAst.Action
