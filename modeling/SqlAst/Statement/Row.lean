import SqlAst.Entries
import SqlAst.Scalar

/-!
# Rows

A row gives distinct columns a value each, in an order: the assignments of an update, or one row of an
insert.
-/
namespace SqlAst

structure Row where
  entries : List (String × Scalar)
  distinct : (Entries.keys entries).Nodup
  deriving DecidableEq

namespace Row

def empty : Row := ⟨[], by simp [Entries.keys]⟩

instance : Inhabited Row := ⟨empty⟩

/-- Assigns values from left to right. A column keeps the place of its first assignment and takes the
value of its last. -/
def merge (r : Row) (entries : List (String × Scalar)) : Row :=
  ⟨Entries.merge r.entries entries, Entries.nodup_merge r.distinct⟩

def ofEntries (entries : List (String × Scalar)) : Row := empty.merge entries

def columns (r : Row) : List String := Entries.keys r.entries

/-- The value of a column; a missing one has NULL. -/
def value (r : Row) (column : String) : Scalar := (r.entries.lookup column).getD .null

end Row

end SqlAst
