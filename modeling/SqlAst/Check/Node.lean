import SqlAst.Check.Object

/-!
# Checks of nodes

`checkPart` checks what stands at a position, by recursion on the size of the datum. A condition is told
from its tag, and a tag that is none of the thirteen is an issue of its own; tables, joins and queries are
told from where they stand.
-/
namespace SqlAst

/-! ## Data at a position -/

/-- What stands where a condition is expected. -/
inductive ConditionShape where
  | given (condition : Condition)
  | tagged (kind : ConditionKind)
  | flawed (kind : IssueKind)

/-- Tells a condition from the tag of its data. -/
def Datum.conditionShape (form : Form) : Datum → ConditionShape
  | .node (.condition c) => .given c
  | .dict es =>
    match valueAt? "type" es with
    | none => .flawed .missingTag
    | some t =>
      match t.asText?.bind ConditionKind.ofTag? with
      | some kind => .tagged kind
      | none => .flawed (.unknownTag (Text.replaced t.phrase))
  | .node n =>
    match n.kind? with
    | some kind => .flawed (.unknownTag kind.tag)
    | none => .flawed .missingTag
  | .member _ | .field _ | .order _ | .part _ | .flavor _ | .settings _ | .error _ _ _ _ =>
    .flawed .missingTag
  | _ => .flawed (if form = .data then .notCondition else .notDictionary)

/-- An object at a position: itself, or data for one. -/
def Position.check (p : Position) (form : Form) (d : Datum) (inner : Inner (sizeOf d)) :
    Checked p.Value :=
  match p, d, inner with
  | .condition, d, inner =>
    match d.conditionShape form, d, inner with
    | .given c, _, _ => .ok c
    | .flawed kind, _, _ => .fail kind
    | .tagged kind, .dict es, inner =>
      (Fields.condition kind none es fun p a h =>
        inner p a (by simp only [Datum.dict.sizeOf_spec]; omega)).under (.key kind.tag)
    | .tagged _, _, _ => .fail .notCondition
  | .table, .node (.table t), _ => .ok t
  | .join, .node (.join j), _ => .ok j
  | .select, .node (.select q), _ => .ok q
  | .unionPart, .part u, _ => .ok u
  | .table, .dict es, inner =>
    Fields.table none es fun p a h => inner p a (by simp only [Datum.dict.sizeOf_spec]; omega)
  | .join, .dict es, inner =>
    Fields.join none es fun p a h => inner p a (by simp only [Datum.dict.sizeOf_spec]; omega)
  | .select, .dict es, inner =>
    Fields.select {} es fun p a h => inner p a (by simp only [Datum.dict.sizeOf_spec]; omega)
  | .unionPart, .dict es, inner =>
    Fields.unionPart es fun p a h => inner p a (by simp only [Datum.dict.sizeOf_spec]; omega)
  | .table, _, _ => .fail .notModel
  | .join, _, _ => .fail .notModel
  | .select, _, _ => .fail .notModel
  | .unionPart, _, _ => .fail .notModel

/-- Checks a datum for what a position expects. -/
def checkPart (form : Form) (p : Position) (d : Datum) : Checked p.Value :=
  p.check form d fun q a _ => checkPart form q a
  termination_by sizeOf d

/-- The check of the parts of an object. -/
def checkParts (form : Form) (es : Fields) : Inner (sizeOf es) := fun p d _ => checkPart form p d

/-! ## Whole nodes -/

/-- The types of nodes: those stored with a tag, and the select list with its sources. -/
inductive NodeType where
  | stored (kind : NodeKind)
  | projection
  deriving DecidableEq

namespace NodeType

def name : NodeType → String
  | .stored kind => kind.tag
  | .projection => "SelectBaseQuery"

def ofName? (n : String) : Option NodeType :=
  if n = "SelectBaseQuery" then some .projection else (NodeKind.ofTag? n).map .stored

/-- Whether a node is of a type. A select statement is a select list with more. -/
def has (t : NodeType) (n : Node) : Bool :=
  match t, n.kind? with
  | .stored kind, some k => kind = k
  | .stored _, none => false
  | .projection, some k => k = .select
  | .projection, none => true

end NodeType

/-- Checks the fields of a new node. -/
def NodeType.ofFields (t : NodeType) (form : Form) (es : Fields) : Checked Node :=
  let parts := checkParts form es
  match t with
  | .stored .table => Checked.map .table (Fields.table none es parts)
  | .stored .join => Checked.map .join (Fields.join none es parts)
  | .stored .select => Checked.map .select (Fields.select {} es parts)
  | .stored (.condition kind) => Checked.map .condition (Fields.condition kind none es parts)
  | .stored .delete => Checked.map .delete (Fields.delete {} es parts)
  | .stored .update => Checked.map .update (Fields.update {} es parts)
  | .stored .insert => Checked.map .insert (Fields.insert none es parts)
  | .projection => Checked.map .projection (Fields.projection {} es parts)

/-- Checks a datum for a node of a type: a node itself, or data for one. -/
def NodeType.check (t : NodeType) (form : Form) (d : Datum) : Checked Node :=
  match d with
  | .node n => if t.has n then .ok n else .fail .notModel
  | .dict es => t.ofFields form es
  | _ => .fail .notModel

/-- The node with some of its fields replaced. -/
def Node.replace (n : Node) (changes : Fields) : Checked Node :=
  let parts := checkParts .data changes
  match n with
  | .table t => Checked.map .table (Fields.table (some t) changes parts)
  | .join j => Checked.map .join (Fields.join (some j) changes parts)
  | .select q => Checked.map .select (Fields.select q changes parts)
  | .projection p => Checked.map .projection (Fields.projection p changes parts)
  | .condition c => Checked.map .condition (Fields.condition c.kind (some c) changes parts)
  | .delete d => Checked.map .delete (Fields.delete d changes parts)
  | .update u => Checked.map .update (Fields.update u changes parts)
  | .insert i => Checked.map .insert (Fields.insert (some i) changes parts)

end SqlAst
