import SqlAst.Interface.Errors
import SqlAst.Interface.Fragments
import SqlAst.Interface.Methods
import SqlAst.Interface.Sessions
import SqlAst.Interface.Statements
import SqlAst.Proofs.Agreement
import SqlAst.Proofs.Aliases
import SqlAst.Proofs.Bounds
import SqlAst.Proofs.ClauseRuns
import SqlAst.Proofs.Configuring
import SqlAst.Proofs.ContextRuns
import SqlAst.Proofs.DataRoundTrip
import SqlAst.Proofs.DayFragments
import SqlAst.Proofs.DefaultFlavor
import SqlAst.Proofs.DeleteTargets
import SqlAst.Proofs.DerivedNames
import SqlAst.Proofs.DerivedTables
import SqlAst.Proofs.EscapedNames
import SqlAst.Proofs.Filters
import SqlAst.Proofs.InsertRuns
import SqlAst.Proofs.InsertedRows
import SqlAst.Proofs.JsonText
import SqlAst.Proofs.LiteralValues
import SqlAst.Proofs.LogLines
import SqlAst.Proofs.Mistags
import SqlAst.Proofs.NestedTags
import SqlAst.Proofs.Predicates
import SqlAst.Proofs.QuotedNames
import SqlAst.Proofs.Refusals
import SqlAst.Proofs.Replacing
import SqlAst.Proofs.Respelling
import SqlAst.Proofs.Scopes
import SqlAst.Proofs.Spans
import SqlAst.Proofs.Spelling
import SqlAst.Proofs.StoredText
import SqlAst.Proofs.TableNames
import SqlAst.Proofs.TableReferences
import SqlAst.Proofs.TextClasses
import SqlAst.Proofs.TextRoundTrip
import SqlAst.Proofs.Transparency
import SqlAst.Proofs.UpdateRuns
import SqlAst.Session.Tracing
