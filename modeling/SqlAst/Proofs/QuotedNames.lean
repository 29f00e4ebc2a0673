import SqlAst.Proofs.EscapedNames

/-!
# Quoted names are read back

A name is written part by part between marks, which are doubled inside, and a star stays bare. The reader here
knows nothing of names: from the front of a text it takes identifiers with points between them as far as they go,
and gives what stands between the marks. It works for any mark that is neither a point nor a star.

* `Sql.identifier?_escapePart`: one part is read back.
* `Sql.dotted?_intercalate`: parts with points between them are read back.
* `Flavor.escapeName_reads`: a name is read back as its parts, so that two names are never written the same.
-/
namespace SqlAst

namespace Sql

/-! ## The reader -/

/-- What stands in front of the mark that ends a quotation, with doubled marks undone, and what follows. -/
def quotation? (q : Char) : List Char → Option (List Char × List Char)
  | [] => none
  | c :: r =>
    if c = q then
      match r with
      | [] => some ([], [])
      | d :: s => if d = q then (quotation? q s).map (Prod.map (q :: ·) id) else some ([], d :: s)
    else (quotation? q r).map (Prod.map (c :: ·) id)

/-- A quoted identifier or a bare star, and what follows. -/
def identifier? (q : Char) : List Char → Option (List Char × List Char)
  | [] => none
  | c :: r => if c = q then quotation? q r else if c = '*' then some (['*'], r) else none

variable {q : Char} {cs part rest : List Char}

theorem quotation?_of_ne {c : Char} (h : c ≠ q) (r : List Char) :
    quotation? q (c :: r) = (quotation? q r).map (Prod.map (c :: ·) id) := by
  cases r <;> simp [quotation?, h]

theorem quotation?_double (s : List Char) :
    quotation? q (q :: q :: s) = (quotation? q s).map (Prod.map (q :: ·) id) := by
  simp [quotation?]

theorem quotation?_end (h : rest.head? ≠ some q) : quotation? q (q :: rest) = some ([], rest) := by
  cases rest with
  | nil => simp [quotation?]
  | cons d s =>
    have hd : d ≠ q := fun hd => h (congrArg some hd)
    simp [quotation?, hd]

theorem quotation?_length (h : quotation? q cs = some (part, rest)) : rest.length < cs.length := by
  induction cs using quotation?.induct q generalizing part rest with
  | case1 => cases h
  | case2 =>
    rw [quotation?_end (by simp)] at h
    obtain ⟨-, rfl⟩ := Prod.mk.inj (Option.some.inj h)
    exact Nat.succ_pos _
  | case3 s ih =>
    rw [quotation?_double, Option.map_eq_some_iff] at h
    obtain ⟨⟨p, r⟩, hread, heq⟩ := h
    obtain ⟨-, rfl⟩ := Prod.mk.inj heq
    exact Nat.lt_succ_of_lt (Nat.lt_succ_of_lt (ih hread))
  | case4 d s hd =>
    rw [quotation?_end (by simpa using hd)] at h
    obtain ⟨-, rfl⟩ := Prod.mk.inj (Option.some.inj h)
    exact Nat.lt_succ_self _
  | case5 c s hc ih =>
    rw [quotation?_of_ne hc, Option.map_eq_some_iff] at h
    obtain ⟨⟨p, r⟩, hread, heq⟩ := h
    obtain ⟨-, rfl⟩ := Prod.mk.inj heq
    exact Nat.lt_succ_of_lt (ih hread)

theorem identifier?_length (h : identifier? q cs = some (part, rest)) : rest.length < cs.length := by
  cases cs with
  | nil => cases h
  | cons c r =>
    simp only [identifier?] at h
    split at h
    · exact Nat.lt_succ_of_lt (quotation?_length h)
    · split at h
      · obtain ⟨-, rfl⟩ := Prod.mk.inj (Option.some.inj h)
        exact Nat.lt_succ_self _
      · cases h

/-- Identifiers with points between them, and what follows. -/
def dotted? (q : Char) (cs : List Char) : Option (List (List Char) × List Char) :=
  match h : identifier? q cs with
  | none => none
  | some (part, rest) =>
    have : rest.length - 1 < cs.length := Nat.lt_of_le_of_lt (Nat.sub_le _ _) (identifier?_length h)
    if rest.head? = some '.' then (dotted? q rest.tail).map (Prod.map (part :: ·) id) else some ([part], rest)
  termination_by cs.length

theorem dotted?_some (h : identifier? q cs = some (part, rest)) :
    dotted? q cs =
      if rest.head? = some '.' then (dotted? q rest.tail).map (Prod.map (part :: ·) id) else some ([part], rest) := by
  rw [dotted?]
  split
  · rename_i hread
    cases h.symm.trans hread
  · rename_i hread
    cases h.symm.trans hread
    rfl

theorem dotted?_point (h : identifier? q cs = some (part, '.' :: rest)) :
    dotted? q cs = (dotted? q rest).map (Prod.map (part :: ·) id) :=
  (dotted?_some h).trans (if_pos rfl)

theorem dotted?_last (h : identifier? q cs = some (part, rest)) (hr : rest.head? ≠ some '.') :
    dotted? q cs = some ([part], rest) :=
  (dotted?_some h).trans (if_neg hr)

/-! ## What was written -/

/-- Doubled marks are undone, and the single one ends the quotation. -/
theorem quotation?_doubled (part : List Char) (hr : rest.head? ≠ some q) :
    quotation? q (Text.doubled [q] part ++ q :: rest) = some (part, rest) := by
  rw [Text.doubled_singleton]
  induction part with
  | nil => exact quotation?_end hr
  | cons c r ih =>
    by_cases hc : c = q
    · simp [hc, quotation?_double, ih]
    · simp [hc, quotation?_of_ne hc, ih]

section

variable {f : Flavor} (hquote : f.quote.toList = [q]) (hstar : q ≠ '*')

include hquote hstar

theorem identifier?_escapePart (part : List Char) (hr : rest.head? ≠ some q) :
    identifier? q (f.escapePart part ++ rest) = some (part, rest) := by
  by_cases hpart : part = ['*']
  · simp [hpart, Flavor.escapePart, identifier?, Ne.symm hstar]
  · simp [hpart, Flavor.escapePart, Flavor.quotePart, hquote, identifier?, quotation?_doubled part hr]

theorem dotted?_intercalate (hpoint : q ≠ '.') {parts : List (List Char)} (hne : parts ≠ [])
    (hr : rest.head? ≠ some q) (hend : rest.head? ≠ some '.') :
    dotted? q (['.'].intercalate (parts.map f.escapePart) ++ rest) = some (parts, rest) := by
  induction parts with
  | nil => exact absurd rfl hne
  | cons part more ih =>
    cases more with
    | nil =>
      rw [List.map_singleton, List.intercalate_singleton]
      exact dotted?_last (identifier?_escapePart hquote hstar part hr) hend
    | cons next more =>
      have hmore := ih (List.cons_ne_nil _ _)
      rw [List.map_cons, List.map_cons, List.intercalate_cons_cons, List.append_assoc, List.append_assoc,
        ← List.map_cons, List.singleton_append]
      rw [dotted?_point (identifier?_escapePart hquote hstar part fun h => hpoint (Option.some.inj h).symm), hmore]
      rfl

end

end Sql

/-! ## Names -/

section

variable {f : Flavor} {q : Char} (hquote : f.quote.toList = [q]) (hpoint : q ≠ '.') (hstar : q ≠ '*')

include hquote hpoint hstar

theorem Flavor.dotted?_escapeName {n : String} (hn : f.isExpression n = false) {rest : List Char}
    (hr : rest.head? ≠ some q) (hend : rest.head? ≠ some '.') :
    Sql.dotted? q ((f.escapeName n).toList ++ rest) = some (nameParts n, rest) := by
  rw [f.toList_escapeName hn]
  exact Sql.dotted?_intercalate hquote hstar hpoint (nameParts_ne_nil n) hr hend

/-- A name that is no expression is read back from what is written: its parts are those between the points, and
nothing of what follows is taken. So two names are never written the same. -/
theorem Flavor.escapeName_reads :
    (∀ n, f.isExpression n = false →
      ∃ parts, parts ≠ [] ∧ (∀ part ∈ parts, '.' ∉ part) ∧ ['.'].intercalate parts = n.toList ∧
        ∀ rest : List Char, rest.head? ≠ some q → rest.head? ≠ some '.' →
          Sql.dotted? q ((f.escapeName n).toList ++ rest) = some (parts, rest)) ∧
      ∀ m n, f.isExpression m = false → f.isExpression n = false → f.escapeName m = f.escapeName n → m = n := by
  have hreads {n : String} (hn : f.isExpression n = false) (rest : List Char) (hr : rest.head? ≠ some q)
      (hend : rest.head? ≠ some '.') :=
    f.dotted?_escapeName hquote hpoint hstar hn hr hend
  refine ⟨fun n hn => ⟨nameParts n, nameParts_ne_nil n, ?_, Text.intercalate_splitOn '.' n.toList,
    hreads hn⟩, fun m n hm hn hsame => ?_⟩
  · intro part hpart hmem
    exact (Text.mem_of_mem_splitOn hpart hmem).2 rfl
  · have hm' := hreads hm [] (by simp) (by simp)
    rw [hsame, hreads hn [] (by simp) (by simp)] at hm'
    have hparts : nameParts n = nameParts m := (Prod.mk.inj (Option.some.inj hm')).1
    have hjoined := congrArg (['.'].intercalate) hparts
    rw [nameParts, nameParts, Text.intercalate_splitOn, Text.intercalate_splitOn] at hjoined
    exact (String.toList_inj.mp hjoined).symm

end

/-- A flavor with a mark of its own; the name begins with this mark and has an empty part, a star and a blank. -/
theorem Flavor.escapeName_reads_piped :
    (Flavor.custom "piped" "|" 1).isExpression "|a..*.b " = false ∧
      (Flavor.custom "piped" "|" 1).escapeName "|a..*.b " = "|||a|.||.*.|b |" ∧
      Sql.dotted? '|' "|||a|.||.*.|b |, c".toList =
        some (["|a".toList, [], ['*'], "b ".toList], ", c".toList) := by
  have hplain : (Flavor.custom "piped" "|" 1).isExpression "|a..*.b " = false := by decide
  obtain ⟨parts, hne, hpoints, hjoined, hread⟩ :=
    ((Flavor.custom "piped" "|" 1).escapeName_reads (q := '|') rfl (by decide) (by decide)).1 "|a..*.b " hplain
  have hparts : parts = ["|a".toList, [], ['*'], "b ".toList] := by
    rw [← Text.splitOn_intercalate hne hpoints, hjoined]
    decide
  rw [hparts] at hread
  exact ⟨hplain, by decide, hread ", c".toList (by decide) (by decide)⟩

end SqlAst
