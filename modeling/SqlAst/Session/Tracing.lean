import SqlAst.Session.Basic
import SqlAst.Datum.Display

/-!
# Traced calls

A decoration, `traced`, puts a call into a span. The span's attributes are fixed ones overlaid by those that
a getter finds when the call is made; nulls count as absent. A getter that fails is logged and passed over.
-/
namespace SqlAst

/-- What finds further attributes at the time of a call. -/
inductive Getter where
  | absent
  | failing (message : String)
  | giving (result : Datum)

/-- The arguments of `traced` and what it takes from the function. -/
structure Decoration where
  moduleName : String
  qualifiedName : String
  /-- The name of the span, if it is not empty. -/
  spanName : String := ""
  kind : String := "INTERNAL"
  attributes : List (String × Datum) := []
  getter : Getter := .absent

namespace Decoration

/-- Attributes that are not null. -/
def present (attributes : List (String × Datum)) : List (String × Datum) :=
  attributes.filter fun a => match a.2 with
    | .null => false
    | _ => true

/-- Finds the attributes of a call, `_collect_attributes`: those of the decoration and those of the getter. A
result of the getter that counts as false adds none; any other has to be a dictionary, of which the entries under
texts are attributes. -/
def collect (d : Decoration) : Action (List (String × Datum)) := do
  let fixed := present d.attributes
  let found : Datum ← match d.getter with
    | .absent => pure .null
    | .failing message => do
      Action.logGetterFailure message
      pure .null
    | .giving result => pure result
  if !found.isTrue then pure fixed
  else
    match found with
    | .dict es =>
      pure (Entries.merge fixed (present (Datum.textEntries es)))
    | _ => Action.misuse .noAttribute

/-- The name of the span: its own, or else the full name of the call. -/
def label (d : Decoration) : String :=
  if d.spanName = "" then d.moduleName ++ "." ++ d.qualifiedName else d.spanName

/-- Makes a call inside a span. -/
def run {α : Type} (d : Decoration) (call : Action α) : Action α :=
  Action.traced d.label d.moduleName d.kind d.collect call

/-- A decorated function: each call of it is made inside a span, and the getter looks at its arguments. -/
def wrap {δ α : Type} (d : Decoration) (getter : δ → Getter) (f : δ → Action α) (args : δ) : Action α :=
  run { d with getter := getter args } (f args)

end Decoration

end SqlAst
