import SqlAst.Datum.Order
import SqlAst.Interface.Signature

/-!
# Calls that make errors as values

Each gives an error of a fixed code with its message, details and cause, and logs it.
-/
namespace SqlAst.Interface.Errors

open Operation

/-- Makes an error and logs it. Details that count as false are none. -/
def make (code : FaultCode) (message details cause : Datum) : Action Datum := do
  let details := if details.isTrue then details else .dict []
  let shown : Datum := match cause with
    | .null => .null
    | _ => Log.noErrorInfo
  modify fun s => s.logError code message details shown
  pure (.error code message details cause)

/-- The option of a name, or null. -/
def option (options : List (String × Datum)) (name : String) : Datum :=
  .ofOption (options.lookup name)

/-- Refuses options of other names. -/
def onlyOptions (allowed : List String) (options : List (String × Datum)) : Action Unit :=
  if options.all fun e => allowed.contains e.1 then pure () else Action.misuse .wrongType

/-- Details with further entries; only a dictionary takes any. -/
def extended (options : List (String × Datum)) (entries : List (String × Datum)) : Action Datum :=
  match (options.lookup "details").getD (.dict []) with
  | .dict es => pure (.dict (Entries.merge es (Build.named entries)))
  | d => if entries = [] then pure d else Action.misuse .wrongType

/-- The error of a code with what the options add. -/
def withOptions (code : FaultCode) (message : Datum) (entries : List (String × Datum))
    (options : List (String × Datum)) : Action Datum := do
  let details ← extended options entries
  onlyOptions ["details", "cause"] options
  make code message details (option options "cause")

def configuration : Operation :=
  ofSignature { parameters := [needed "message", optional "config_key"], options := true } fun
    | ⟨[message, key], _, options⟩ =>
      withOptions .config message (if key.isTrue then [("config_key", key)] else []) options
    | _ => wrongCount

def validation : Operation :=
  ofSignature { parameters := [needed "message", optional "field", optional "value"], options := true } fun
    | ⟨[message, field, value], _, options⟩ =>
      let value := match value with
        | .null => []
        | v => [("value", Datum.text v.phrase)]
      withOptions .validation message ((if field.isTrue then [("field", field)] else []) ++ value) options
    | _ => wrongCount

def noTable : Operation :=
  of1 (optional "node") fun node =>
    make .noTable (.text "No table defined") (if node.isTrue then .record [("node", node)] else .null)
      .null

def unknownType : Operation :=
  ofSignature { parameters := [needed "type_tag"], options := true } fun
    | ⟨[tag], _, options⟩ =>
      withOptions .unknownType (.text ("Unknown node type: " ++ tag.display))
        [("type", .text tag.phrase)] options
    | _ => wrongCount

/-- The beginning of a text, as it stands in details. -/
def excerpt (text : Datum) : Action (List (String × Datum)) :=
  if Fault.isQuotable text then pure (Fault.textDetails text) else Action.misuse .wrongType

def parse : Operation :=
  ofSignature { parameters := [needed "error", optional "text"], options := true } fun
    | ⟨[error, text], _, options⟩ => do
      let details ← extended options (← excerpt text)
      onlyOptions ["details", "cause"] options
      make .parse (.text ("Error parsing query: " ++ error.phrase)) details error
    | _ => wrongCount

/-- The items of a collection in order, if they have one. -/
def sorted (d : Datum) : Action Datum := do
  match Datum.sorted? (← Action.ofOutcome (Build.sequence d)) with
  | some items => pure (.list items)
  | none => Action.misuse .wrongType

def flavorNotFound : Operation :=
  of2 (needed "name") (optional "available") fun name available => do
    let entries ← match available with
      | .null => pure []
      | d => do pure [("available", ← sorted d)]
    make .flavorNotFound (.text ("Flavor '" ++ name.phrase ++ "' is not registered"))
      (.record (("flavor", name) :: entries)) .null

/-- The code of a name; null stands for the code of invalid arguments. -/
def codeOf (d : Datum) : Action FaultCode :=
  match d, d.asText?.bind FaultCode.ofName? with
  | .null, _ => pure .validation
  | _, some code => pure code
  | _, none => Action.misuse .wrongValue

def error : Operation :=
  ofSignature { parameters := [needed "message", optional "error_code"], options := true } fun
    | ⟨[message, code], _, options⟩ => do
      let code ← codeOf code
      onlyOptions ["details", "cause"] options
      make code message (option options "details") (option options "cause")
    | _ => wrongCount

def ofCode : Operation :=
  ofSignature { parameters := [needed "error_code", needed "message"], options := true } fun
    | ⟨[code, message], _, options⟩ => do
      let code ← codeOf code
      onlyOptions ["details", "cause"] options
      make code message (option options "details") (option options "cause")
    | _ => wrongCount

end SqlAst.Interface.Errors
