import SqlAst.Fault.Basic

/-!
# Reading stored nodes

Stored nodes are read from data or from JSON text. A tag that stands for no type, at any depth, is a fault
of its own; whatever else is wrong makes the payload a rejected one.
-/
namespace SqlAst.Decode

/-- The fault of a rejected payload, `decoding_error`: the first issue about a tag decides. -/
def payloadFault (report : Report) (text : Datum) : Fault :=
  let about (i : Issue) : Option Datum :=
    match i.kind with
    | .unknownTag tag => some (.text tag)
    | .missingTag => some .null
    | _ => none
  match report.issues.findSome? about with
  | some tag => .unknownTag tag (some report)
  | none => .rejectedPayload report text

/-- A checked payload. -/
def decoded {α : Type} (title : String) (text : Datum) : Checked α → Outcome α
  | .ok a => .ok a
  | .bad issues => .error (.fault (payloadFault ⟨title, issues⟩ text))

/-- The name of the choice between all conditions. -/
def conditionTitle : String :=
  "tagged-union[" ++ ",".intercalate (ConditionKind.all.map ConditionKind.tag) ++ "]"

/-- What a payload is read as: the class whose `from_json` or `deserialize` is called. -/
inductive Target where
  | node (type : NodeType)
  | anyCondition

namespace Target

def title : Target → String
  | .node type => type.name
  | .anyCondition => conditionTitle

def check (t : Target) (form : Form) (d : Datum) : Checked Node :=
  match t with
  | .node type => type.check form d
  | .anyCondition => Checked.map .condition (checkPart form .condition d)

end Target

/-- Reads data: `from_json`. -/
def ofData (t : Target) (d : Datum) : Outcome Node := decoded t.title .null (t.check .data d)

/-- Checks the value of a JSON text, which is read strictly. -/
def checkText [Json.StrictReader] (t : Target) (s : String) : Checked Node :=
  match Json.readStrictly? s with
  | some j => t.check .text (.ofJson j)
  | none => .fail .malformedJson

/-- Reads JSON text: `deserialize` of a class. -/
def ofText [Json.StrictReader] (t : Target) (text : Datum) : Outcome Node :=
  match text.asText? with
  | some s => decoded t.title (.text s) (checkText t s)
  | none =>
    if Fault.isQuotable text then decoded t.title text (.fail .notJsonText)
    else Outcome.misuse .wrongType

/-- Reads data of any node by its tag: `create_node_from_dict`. -/
def ofTagged (d : Datum) : Outcome Node :=
  match d with
  | .dict es =>
    let tag := Datum.ofOption (Datum.valueAt? "type" es)
    match tag.asText?.bind NodeKind.ofTag? with
    | some kind => ofData (.node (.stored kind)) d
    | none => .error (.fault (.unknownTag tag none))
  | d => .error (.fault (.notObject d.typeName))

/-- Reads JSON text of any node, `NodeBuilder.deserialize`; repeated keys count by their last values. -/
def ofTaggedText (text : Datum) : Outcome Node :=
  match text.asText? with
  | none => .error (.fault (.notJsonText text.typeName))
  | some s =>
    match Json.read s with
    | .ok j => ofTagged (.ofJson j.unique)
    | .error (.malformed reason left) =>
      .error (.fault (.malformedJson reason (Json.place s.toList left) s))
    | .error .oversized => Outcome.misuse .wrongValue

end SqlAst.Decode
