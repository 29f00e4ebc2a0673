import SqlAst.Build.Condition
import SqlAst.Build.Mutation
import SqlAst.Decode
import SqlAst.Interface.Signature

/-!
# Calls that make nodes

Constructors of statements and conditions, readers of stored nodes, and the calls that compare and copy.
-/
namespace SqlAst.Interface

open Operation

/-- A new node as the result of a call. -/
def giving {α : Type} (wrap : α → Node) (o : Outcome α) : Action Datum := do
  pure (.node (wrap (← Action.ofOutcome o)))

/-! ## Statements -/

def table : Operation :=
  of2 (needed "name") (optional "alias") fun name label => giving .table (Table.make name label)

def select : Operation := of0 (pure (.node (.select {})))

/-- A statement around a placeholder that stands for another one. -/
def template : Operation := of0 (giving .select (Select.setTable {} (.text "(?)") (.text "t")))

def delete : Operation :=
  of2 (needed "from_") (optional "alias") fun table label => giving .delete (Delete.setTable {} table label)

def update : Operation :=
  of2 (needed "table_name") (optional "alias") fun table label =>
    giving .update (Update.setTable {} table label)

def insert : Operation := of1 (needed "into") fun table => giving .insert (Insert.into table)

/-! ## Conditions -/

def comparison (op : Comparison) : Operation :=
  of2 (needed "column") (needed "value") fun column value =>
    giving .condition (Condition.compareWith op column value)

/-- A range or a choice of values. -/
def ofValues (kind : ConditionKind) : Operation :=
  of2 (needed "column") (needed "values") fun column values =>
    giving .condition (Condition.ofValues kind column values)

def like (negated : Bool) : Operation :=
  of2 (needed "column") (needed "pattern") fun column pattern =>
    giving .condition (Condition.likePattern negated column pattern)

def nullCheck (negated : Bool) : Operation :=
  of1 (needed "column") fun column => giving .condition (Condition.nullCheck negated column)

def columnsEqual : Operation :=
  of2 (needed "left") (needed "right") fun left right =>
    giving .condition (Condition.columnsEqual left right)

def combination (connective : Connective) : Operation :=
  of1 (needed "conditions") fun conditions =>
    giving .condition (Condition.combined connective conditions)

/-! ## Stored nodes -/

def ofTagged : Operation := of1 (needed "node_dict") fun d => giving id (Decode.ofTagged d)

/-- What is read under the name of a type; the parts of a statement are not read on their own. -/
def targetNamed? (name : String) : Option Decode.Target :=
  if name = "Condition" then some .anyCondition else (NodeType.ofName? name).map .node

def withTarget (type : Datum) (call : Decode.Target → Action Datum) : Action Datum :=
  match type.asText?.bind targetNamed? with
  | some target => call target
  | none => Action.misuse .noAttribute

def ofData : Operation :=
  of2 (needed "cls") (needed "data") fun type data =>
    withTarget type fun target => giving id (Decode.ofData target data)

def ofText : Operation :=
  of2 (needed "cls") (needed "text") fun type text =>
    withTarget type fun target => giving id (Decode.ofText target text)

/-- The tags of stored nodes in order, each with the name of its type. -/
def registeredTypes : Operation :=
  of0 <| pure <| .list <|
    ((NodeKind.all.map NodeKind.tag).mergeSort fun a b => decide (a ≤ b)).map fun tag =>
      .list [.text tag, .text tag]

/-- The members of a vocabulary with the texts that they stand for. -/
def vocabulary : Operation :=
  of1 (needed "name") fun name => pure <| .list <|
    (Member.all.filter fun m => name.asText? = some m.vocabulary).map fun m =>
      .list [.text m.name, .text m.value]

/-! ## New objects from fields, copies and comparisons -/

/-- The entries of a dictionary whose keys are all texts, none of them reserved. -/
def fieldsOf (reserved : List String) (d : Datum) : Action Fields :=
  match d with
  | .dict es =>
    let keys := es.map fun e => e.1.asText?
    if keys.all Option.isSome ∧ keys.all (fun k => !reserved.contains (k.getD "")) then pure es
    else Action.misuse .wrongType
  | _ => Action.misuse .wrongType

/-- A checked object; what is wrong is reported as it is. -/
def reported {α : Type} (title : String) (wrap : α → Datum) (c : Checked α) : Action Datum :=
  match c with
  | .ok a => pure (wrap a)
  | .bad issues => Action.fail (.rejected ⟨title, issues⟩)

/-- A new object of a type from its fields. -/
def new : Operation :=
  of2 (needed "cls") (needed "data") fun type data => do
    let es ← fieldsOf [] data
    let name := type.asText?.getD ""
    if name = "SelectField" then reported name Datum.field (Fields.selectField es)
    else if name = "OrderSpec" then reported name Datum.order (Fields.orderSpec es)
    else if name = "UnionPart" then
      reported name Datum.part (Fields.unionPart es (checkParts .data es))
    else
      match NodeType.ofName? name with
      | some t => reported name Datum.node (t.ofFields .data es)
      | none => Action.misuse .wrongType

/-- A node with some fields replaced. -/
def replace : Operation :=
  of2 (needed "node") (needed "changes") fun node changes => do
    match node with
    | .node n =>
      let es ← fieldsOf ["self", "model_class"] changes
      giving id ((n.replace es).orInvalid n.typeName)
    | _ => Action.misuse .noAttribute

/-- The names that belong to a node's type and not to the node. -/
def typeLevelNames : Node → List String
  | .condition (.compare _ _ _) | .condition (.like _ _ _) => ["operator"]
  | .condition (.combine _ _) => ["operator", "empty"]
  | _ => []

/-- Objects cannot be changed. -/
def setAttribute : Operation :=
  of3 (needed "node") (needed "name") (needed "value") fun node name _ =>
    match name.asText? with
    | none => Action.misuse .wrongType
    | some s =>
      let typeLevel := match node with
        | .node n => typeLevelNames n
        | _ => []
      if s ∈ typeLevel then Action.misuse .noAttribute
      else if s.toList.head? = some '_' then pure .null
      else Action.fail (.rejected ⟨node.typeName, [⟨[.key s], .frozen⟩]⟩)

def equals : Operation := of2 (needed "a") (needed "b") fun a b => pure (.bool (a.same b))

def same : Operation := of1 (needed "value") pure

end SqlAst.Interface
