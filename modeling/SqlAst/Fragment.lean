import SqlAst.Calendar.Iso

/-!
# Fragments

Calls of SQL functions as text. The arguments are inserted as they are.
-/
namespace SqlAst.Fragment

/-- `NAME(argument)`. -/
def call (name argument : String) : String := name ++ "(" ++ argument ++ ")"

/-- A text between apostrophes, as it is. -/
def bare (text : String) : String := "'" ++ text ++ "'"

def concat (values : List String) : String := call "CONCAT" (",".intercalate values)

/-- The units that differences of dates are counted in. -/
inductive Interval where
  | year
  | month
  | day

/-- Any word but two stands for years. -/
def Interval.ofText (s : String) : Interval :=
  if s = "month" then .month else if s = "day" then .day else .year

/-- The difference of two dates in whole units. -/
def dateDifference (unit : Interval) (first second : String) : String :=
  match unit with
  | .month => "TIMESTAMPDIFF(MONTH," ++ first ++ ", " ++ second ++ ")"
  | .day => "DATEDIFF(" ++ first ++ ", " ++ second ++ ")"
  | .year => "YEAR(" ++ first ++ ") - YEAR(" ++ second ++ ")"

/-- A day as a literal. -/
def day (d : Date) : String := bare d.text

/-- The sum of a column over the rows between two days. -/
def sumBetween (dateColumn valueColumn : String) (first last : Date) : String :=
  "SUM(IF(" ++ dateColumn ++ " BETWEEN " ++ day first ++ " AND " ++ day last ++ "," ++ valueColumn ++
    ",0))"

/-- The relative change from last year's value to this year's: 0 if both are zero, NULL if only last
year's is, -1 if only this year's is. -/
def relativeChange (thisYear lastYear : String) : String :=
  "CASE WHEN " ++ thisYear ++ " = 0 AND " ++ lastYear ++ " = 0 THEN 0 WHEN " ++ lastYear ++
    " = 0 THEN null WHEN " ++ thisYear ++ " = 0 THEN -1 ELSE (" ++ thisYear ++ " - " ++ lastYear ++
    ") / " ++ lastYear ++ " END"

end SqlAst.Fragment
