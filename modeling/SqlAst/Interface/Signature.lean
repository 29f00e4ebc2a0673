import SqlAst.Session.Basic

/-!
# Signatures

How the arguments of a call by name are matched with parameters: by place first, then by name. A call
that leaves a parameter without a default open, gives one twice, or names an unknown one makes no sense.
-/
namespace SqlAst.Interface

structure Parameter where
  name : String
  /-- What counts if the argument is not given. -/
  default : Option Datum := none

/-- A parameter that has to be given. -/
def needed (name : String) : Parameter := ⟨name, none⟩

/-- A parameter that is null if it is not given. -/
def optional (name : String) : Parameter := ⟨name, some .null⟩

structure Signature where
  parameters : List Parameter := []
  /-- Any number of further arguments may follow. -/
  many : Bool := false
  /-- Arguments of other names may be given. -/
  options : Bool := false

/-- Matched arguments. -/
structure Arguments where
  values : List Datum
  rest : List Datum
  options : List (String × Datum)

namespace Signature

/-- Matches arguments with parameters. -/
def match? (s : Signature) (args : List Datum) (named : List (String × Datum)) : Option Arguments :=
  let placed := s.parameters.take args.length
  let left := s.parameters.drop args.length
  let isOf (ps : List Parameter) (e : String × Datum) : Bool := ps.any (·.name = e.1)
  let others := named.filter (!isOf s.parameters ·)
  if (s.parameters.length < args.length ∧ !s.many) ∨ named.any (isOf placed) ∨
      (others ≠ [] ∧ !s.options) then none
  else do
    let values ← left.mapM fun p => (named.lookup p.name).or p.default
    pure ⟨args.take s.parameters.length ++ values, args.drop s.parameters.length, others⟩

end Signature

/-- A call that can be made by name. -/
structure Operation where
  signature : Signature
  run : Arguments → Action Datum
  /-- What a call does whose arguments do not match. -/
  refuse : List Datum → List (String × Datum) → Action Datum := fun _ _ => Action.misuse .wrongType

namespace Operation

/-- Makes a call. -/
def call (o : Operation) (args : List Datum) (named : List (String × Datum)) : Action Datum :=
  match o.signature.match? args named with
  | some arguments => o.run arguments
  | none => o.refuse args named

/-- Never reached: a match has one value for each parameter. -/
def wrongCount : Action Datum := Action.misuse .wrongType

/-- A call with a signature. -/
def ofSignature (signature : Signature) (run : Arguments → Action Datum) : Operation := { signature, run }

def of0 (run : Action Datum) : Operation := ofSignature {} fun _ => run

def of1 (a : Parameter) (run : Datum → Action Datum) : Operation :=
  ofSignature { parameters := [a] } fun
    | ⟨[x], _, _⟩ => run x
    | _ => wrongCount

def of2 (a b : Parameter) (run : Datum → Datum → Action Datum) : Operation :=
  ofSignature { parameters := [a, b] } fun
    | ⟨[x, y], _, _⟩ => run x y
    | _ => wrongCount

def of3 (a b c : Parameter) (run : Datum → Datum → Datum → Action Datum) : Operation :=
  ofSignature { parameters := [a, b, c] } fun
    | ⟨[x, y, z], _, _⟩ => run x y z
    | _ => wrongCount

def of4 (a b c d : Parameter) (run : Datum → Datum → Datum → Datum → Action Datum) : Operation :=
  ofSignature { parameters := [a, b, c, d] } fun
    | ⟨[w, x, y, z], _, _⟩ => run w x y z
    | _ => wrongCount

/-- A call with any number of arguments. -/
def ofMany (run : List Datum → Action Datum) : Operation :=
  ofSignature { many := true } fun a => run a.rest

end Operation

end SqlAst.Interface
