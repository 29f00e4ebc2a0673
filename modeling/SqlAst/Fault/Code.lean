/-!
# Codes of faults
-/
namespace SqlAst

/-- The class of a fault. -/
inductive FaultCode where
  | config
  | flavorNotFound
  | validation
  | noTable
  | unknownType
  | parse
  deriving DecidableEq

namespace FaultCode

def all : List FaultCode := [.config, .flavorNotFound, .validation, .noTable, .unknownType, .parse]

def name : FaultCode → String
  | .config => "CONFIG_ERROR"
  | .flavorNotFound => "FLAVOR_NOT_FOUND"
  | .validation => "VALIDATION_ERROR"
  | .noTable => "NO_TABLE_DEFINED"
  | .unknownType => "UNKNOWN_NODE_TYPE"
  | .parse => "PARSE_ERROR"

def value : FaultCode → String
  | .config => "CONFIG_001"
  | .flavorNotFound => "CONFIG_002"
  | .validation => "VALIDATION_001"
  | .noTable => "STRUCTURE_001"
  | .unknownType => "SERIALIZATION_001"
  | .parse => "SERIALIZATION_002"

def ofName? (n : String) : Option FaultCode := all.find? (·.name = n)

end FaultCode

end SqlAst
