import SqlAst.Session.Settings

/-!
# Flavors of a session

Flavors are registered under names. Where no flavor is given, the default of the settings counts.
-/
namespace SqlAst

/-- Names in order; names of several kinds have none. -/
def sortedNames? (names : List Datum) : Option (List String) :=
  (names.mapM Datum.asText?).map fun texts => texts.mergeSort (fun s t => !Text.precedes t s)

namespace Session

def registeredNames (s : Session) : List Datum := s.registry.map Prod.fst

def flavorNamed? (s : Session) (name : Datum) : Option Flavor :=
  (s.registry.find? fun e => e.1 == name).map Prod.snd

end Session

namespace Action

/-- Makes a new flavor, which is equal to no other. -/
def makeFlavor (name quote : String) : Action Flavor := do
  let serial := (← get).made + 1
  modify fun s => { s with made := serial }
  pure (.custom name quote serial)

/-- The names of the registered flavors, in order. -/
def flavorNames : Action (List String) := do
  match sortedNames? (← get).registeredNames with
  | some names => pure names
  | none => misuse .wrongType

/-- The flavor that an argument stands for: itself, a registered name, or the default. This is `get_flavor`. -/
def getFlavor (flavor : Datum) : Action Flavor := do
  match flavor with
  | .flavor f => pure f
  | d =>
    let name ← match d with
      | .null => do pure (Datum.text (← getSettings).defaultFlavor)
      | d => pure d
    if name.isKey then
      match (← get).flavorNamed? name with
      | some f => pure f
      | none => do
        let available ← do
          match sortedNames? (← get).registeredNames with
          | some names => pure names
          | none => misuse .wrongType
        fail (.fault (.flavorNotFound name available))
    else misuse .wrongType

/-- Registers a flavor under a name, in place of the one that had it: `register_flavor`. -/
def registerFlavor (name flavor : Datum) : Action Unit := do
  match flavor with
  | .flavor f =>
    if name.isKey then
      if ((← get).flavorNamed? name).isSome then
        log "sqltree.flavors.factory" 20 ("Replacing registered flavor " ++ name.phrase)
      modify fun s => { s with registry := Entries.put name f s.registry }
    else misuse .wrongType
  | d => fail (.fault (.notAFlavor d.typeName))

/-! ## Literals of loosely typed values -/

/-- A value as a literal, if it has one: `escape_value`. An integer must not have too many digits. -/
def literal (f : Flavor) (value : Datum) : Outcome String :=
  match value with
  | .null => .ok (f.literal .null)
  | .bool b => .ok (f.literal (.bool b))
  | .int i => if Text.isWritable i then .ok (f.literal (.int i)) else Outcome.misuse .wrongValue
  | .float d =>
    if h : d.isFinite = true then .ok (f.literal (.float ⟨d, h⟩))
    else .error (.fault (.nonFiniteLiteral d))
  | d =>
    match d.asText? with
    | some s => .ok (f.literal (.text s))
    | none => .error (.fault (.unsupportedLiteral d))

/-- The values of a collection as literals: `format_value_list`. -/
def literals (f : Flavor) (values : Datum) : Outcome String := do
  pure (", ".intercalate (← (← Build.sequence values).mapM (literal f)))

end Action

end SqlAst
