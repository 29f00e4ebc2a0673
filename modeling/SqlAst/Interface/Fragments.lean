import SqlAst.Fragment
import SqlAst.Interface.Signature

/-!
# Calls that make fragments
-/
namespace SqlAst.Interface.Fragments

open Operation

def giving (s : String) : Action Datum := pure (.text s)

/-- A function of one column. -/
def function (name : String) : Operation :=
  of1 (needed "column") fun column => giving (Fragment.call name column.phrase)

/-- The count of a column, or of all rows. -/
def count : Operation :=
  of1 ⟨"column", some (.text "*")⟩ fun column => giving (Fragment.call "COUNT" column.phrase)

def dateDifference : Operation :=
  of3 (needed "interval") (needed "date1") (needed "date2") fun unit first second =>
    giving (Fragment.dateDifference (.ofText (unit.asText?.getD "")) first.phrase second.phrase)

/-- The day of a day, of a time, or of a text that spells one. -/
def dayOf (d : Datum) : Outcome Date :=
  match d with
  | .date day => .ok day
  | .dateTime t => .ok t.date
  | d =>
    match d.asText?.bind Iso.dateTime? with
    | some t => .ok t.date
    | none => .error (.fault (.notADay d))

def day : Operation :=
  of1 (needed "value") fun value => do giving (Fragment.day (← Action.ofOutcome (dayOf value)))

def bare : Operation := of1 (needed "value") fun value => giving (Fragment.bare value.phrase)

def concat : Operation :=
  ofMany fun values =>
    match values.mapM Datum.asText? with
    | some texts => giving (Fragment.concat texts)
    | none => Action.misuse .wrongType

def sumBetween : Operation :=
  of4 (needed "date_column") (needed "value_column") (needed "start") (needed "end")
    fun dateColumn valueColumn first last => do
      let first ← Action.ofOutcome (dayOf first)
      let last ← Action.ofOutcome (dayOf last)
      giving (Fragment.sumBetween dateColumn.phrase valueColumn.phrase first last)

def relativeChange : Operation :=
  of2 (needed "this_year_column") (needed "last_year_column") fun thisYear lastYear =>
    giving (Fragment.relativeChange thisYear.phrase lastYear.phrase)

end SqlAst.Interface.Fragments
