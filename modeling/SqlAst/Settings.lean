import SqlAst.Text.Alphanumeric
import SqlAst.Text.Blank

/-!
# Settings

The settings of a session and the rules that their texts obey.
-/
namespace SqlAst

structure Settings where
  appEnv : String := "dev"
  logLevel : String := "INFO"
  defaultFlavor : String := "mysql"
  subqueryAlias : String := "t"
  deriving DecidableEq, Inhabited

namespace Settings

def logLevels : List String := ["DEBUG", "INFO", "WARNING", "ERROR", "CRITICAL"]

/-- The log level that a text names, if any, `validate_log_level`; blanks around it and case do not matter. -/
def logLevel? (s : String) : Option String :=
  let level := String.ofList ((Text.trimBoth Text.isBlank s.toList).map Text.upperLatin)
  if level ∈ logLevels then some level else none

/-- Whether a text may be the alias of a statement's result, `validate_subquery_alias`: letters, digits and
underscores, among them a letter or a digit, and no digit in front. -/
def isPlainAlias (s : String) : Bool :=
  let cs := s.toList
  let kept := cs.filter (· ≠ '_')
  kept ≠ [] && kept.all Text.isAlphanumeric && !cs.head?.any Text.isDigit

end Settings

end SqlAst
