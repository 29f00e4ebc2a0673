import SqlAst.Fault.Basic
import SqlAst.Render.Demand
import SqlAst.Render.Mutation

/-!
# Writing nodes

`Node.sql` is the text of any node, whatever integers stand in it, and `Node.render` is what writing the node
gives: the text, or why there is none. `Node.needsFallback` tells whether a table without an alias of its
own is written on the way, so that the fallback alias matters.
-/
namespace SqlAst

mutual

/-- Whether the alias of a table, or of one inside it, is the fallback. -/
def Table.needsFallback : Table → Bool
  | ⟨.name _, _⟩ => false
  | ⟨.query q, label⟩ => label.getD "" = "" || q.needsFallback

def Select.needsFallback : Select → Bool
  | ⟨tables, joins, _, _, _, _, _, _, _, unions⟩ =>
    tablesNeedFallback tables || joinsNeedFallback joins || unionsNeedFallback unions

def tablesNeedFallback : List Table → Bool
  | [] => false
  | t :: rest => t.needsFallback || tablesNeedFallback rest

def joinsNeedFallback : List Join → Bool
  | [] => false
  | ⟨t, _, _⟩ :: rest => t.needsFallback || joinsNeedFallback rest

def unionsNeedFallback : List UnionPart → Bool
  | [] => false
  | ⟨_, q⟩ :: rest => q.needsFallback || unionsNeedFallback rest

end

namespace Node

/-- The text of a node in SQL. -/
def sql (f : Flavor) (fallback : String) : Node → Except Refusal String
  | .table t => .ok (t.render f fallback)
  | .join j => .ok (j.render f fallback)
  | .select q => .ok (q.render f fallback)
  | .projection p => .ok (p.render f fallback)
  | .condition c => .ok (c.render f)
  | .delete d => d.render f fallback
  | .update u => u.render f fallback
  | .insert i => i.render f fallback

/-- Fails if one of the integers asked for has too many digits. -/
def checkDigits (demands : List Demand) : Outcome Unit :=
  if demands.any Demand.isTooLong then Outcome.misuse .wrongValue else pure ()

/-- A node in SQL: `_render`. A refused node is refused before any digits are written. -/
def render (f : Flavor) (fallback : String) (n : Node) : Outcome String := do
  let sql ← Outcome.ofRefusable (n.sql f fallback)
  checkDigits n.demands
  pure sql

/-- Whether the text of a node depends on the fallback alias. A delete or an update writes its primary
table and its joins only, a select list its tables only. -/
def needsFallback : Node → Bool
  | .table t => t.needsFallback
  | .join j => j.table.needsFallback
  | .select q => q.needsFallback
  | .projection p => tablesNeedFallback p.tables
  | .condition _ => false
  | .delete d => tablesNeedFallback (d.tables.take 1) || joinsNeedFallback d.joins
  | .update u => tablesNeedFallback (u.tables.take 1) || joinsNeedFallback u.joins
  | .insert i => (i.source.map Select.needsFallback).getD false

end Node

end SqlAst
