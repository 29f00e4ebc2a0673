import SqlAst.Proofs.Filters
import SqlAst.Proofs.Aliases

/-!
# Escaped names

What already stands between quotation marks is taken for an expression and written as it is, so that most names
do not change when they are escaped once more. The test looks at the two ends only: where a star leaves an end
bare, the marks of the other parts are taken for characters of these parts, and doubled.

* `Text.splitOn_intercalate`: parts without the separator are found again where they are joined.
* `isPlain_escapeName_iff`: the escaped names that are taken for expressions.
* `Sql.Dialect.escapeName_twice_iff`: the names that are escaped twice as they are escaped once.
-/
namespace SqlAst

/-! ## Parts that are joined -/

namespace Text

variable {sep c : Char} {cs part : List Char}

theorem splitOn_append (h : sep ∉ part) (rest : List Char) :
    splitOn sep (part ++ sep :: rest) = part :: splitOn sep rest := by
  induction part with
  | nil => simp [splitOn]
  | cons c r ih =>
    rw [List.mem_cons, not_or] at h
    rw [List.cons_append, splitOn, if_neg (Ne.symm h.1), ih h.2]

theorem splitOn_intercalate {parts : List (List Char)} (hne : parts ≠ [])
    (h : ∀ part ∈ parts, sep ∉ part) : splitOn sep ([sep].intercalate parts) = parts := by
  induction parts with
  | nil => exact absurd rfl hne
  | cons part more ih =>
    have hpart := h part List.mem_cons_self
    cases more with
    | nil =>
      rw [List.intercalate_singleton]
      exact Sql.splitOn_of_notMem hpart
    | cons next more =>
      rw [List.intercalate_cons_cons, List.append_assoc, List.singleton_append, splitOn_append hpart,
        ih (List.cons_ne_nil _ _) fun p hp => h p (List.mem_cons_of_mem _ hp)]

/-- The parts hold the characters of the text but for the separators. -/
theorem mem_of_mem_splitOn (h : part ∈ splitOn sep cs) (hc : c ∈ part) : c ∈ cs ∧ c ≠ sep := by
  induction cs generalizing part with
  | nil =>
    rw [List.mem_singleton.1 h] at hc
    cases hc
  | cons x r ih =>
    have hrest {p : List Char} (hp : p ∈ splitOn sep r) (hcp : c ∈ p) : c ∈ x :: r ∧ c ≠ sep :=
      (ih hp hcp).imp_left (List.mem_cons_of_mem x)
    rw [splitOn] at h
    split at h
    · rcases List.mem_cons.1 h with rfl | h
      · cases hc
      · exact hrest h hc
    · rename_i hx
      cases hparts : splitOn sep r with
      | nil => exact absurd hparts (splitOn_ne_nil sep r)
      | cons first more =>
        rw [hparts] at h hrest
        rcases List.mem_cons.1 h with rfl | h
        · rcases List.mem_cons.1 hc with rfl | hc
          · exact ⟨List.mem_cons_self, hx⟩
          · exact hrest List.mem_cons_self hc
        · exact hrest (List.mem_cons_of_mem _ h) hc

end Text

/-! ## The ends of joined texts -/

section

variable {α : Type} {sep : List α} {parts : List (List α)}

theorem prefix_intercalate (sep first : List α) (more : List (List α)) :
    first <+: sep.intercalate (first :: more) := by
  cases more with
  | nil => exact ⟨[], by rw [List.append_nil, List.intercalate_singleton]⟩
  | cons next more =>
    rw [List.intercalate_cons_cons, List.append_assoc]
    exact List.prefix_append _ _

theorem head?_intercalate (sep : List α) {first : List α} (h : first ≠ []) (more : List (List α)) :
    (sep.intercalate (first :: more)).head? = first.head? := by
  obtain ⟨rest, hrest⟩ := prefix_intercalate sep first more
  rw [← hrest, List.head?_append_of_ne_nil _ h]

theorem getLast?_intercalate (h : ∀ part ∈ parts, part ≠ []) :
    (sep.intercalate parts).getLast? = parts.getLast?.bind List.getLast? := by
  induction parts with
  | nil => rfl
  | cons part more ih =>
    have hmore := ih fun p hp => h p (List.mem_cons_of_mem _ hp)
    cases more with
    | nil => rw [List.intercalate_singleton, List.getLast?_singleton, Option.bind_some]
    | cons next more =>
      have hlast : (sep.intercalate (next :: more)) ≠ [] := by
        intro hnil
        have hhead := head?_intercalate sep (h next (by simp)) more
        rw [hnil, List.head?_nil, eq_comm, List.head?_eq_none_iff] at hhead
        exact h next (by simp) hhead
      rw [List.intercalate_cons_cons, List.getLast?_append_of_ne_nil _ hlast, hmore,
        List.getLast?_cons_cons]

end

open Sql

/-! ## Escaped parts -/

/-- The dotted parts of a name. -/
def nameParts (s : String) : List (List Char) := Text.splitOn '.' s.toList

/-- A name of several parts, not all of them stars, with a star at an end. -/
structure LeavesEndBare (s : String) : Prop where
  several : 2 ≤ (nameParts s).length
  quoted : ∃ part ∈ nameParts s, part ≠ ['*']
  bare : (nameParts s).head? = some ['*'] ∨ (nameParts s).getLast? = some ['*']

theorem mem_doubled_iff {m c : Char} {cs : List Char} : c ∈ Text.doubled [m] cs ↔ c ∈ cs := by
  rw [Text.doubled_singleton, List.mem_flatMap]
  constructor
  · rintro ⟨x, hx, hc⟩
    by_cases hm : x = m
    · simp only [hm, if_true, List.mem_cons, List.not_mem_nil, or_false, or_self] at hc
      rw [hc, ← hm]
      exact hx
    · rw [if_neg hm, List.mem_singleton] at hc
      rw [hc]
      exact hx
  · intro hc
    refine ⟨c, hc, ?_⟩
    by_cases hm : c = m <;> simp [hm]

theorem length_le_doubled (m : Char) (cs : List Char) : cs.length ≤ (Text.doubled [m] cs).length := by
  rw [Text.doubled_singleton]
  induction cs with
  | nil => exact Nat.le_refl 0
  | cons c r ih =>
    rw [List.flatMap_cons, List.length_append, List.length_cons]
    by_cases hm : c = m
    · rw [if_pos hm, List.length_cons, List.length_singleton]
      omega
    · rw [if_neg hm, List.length_singleton]
      omega

section

variable (d : Dialect)

theorem mark_ne_star : d.mark ≠ '*' := by cases d <;> decide

theorem quotePart_eq (part : List Char) :
    d.flavor.quotePart part = d.mark :: (Text.doubled [d.mark] part ++ [d.mark]) := by
  rw [Flavor.quotePart, quote_toList]
  rfl

theorem escapePart_of_ne {part : List Char} (h : part ≠ ['*']) :
    d.flavor.escapePart part = d.mark :: (Text.doubled [d.mark] part ++ [d.mark]) := by
  rw [Flavor.escapePart, if_neg h, quotePart_eq]

theorem escapePart_star : d.flavor.escapePart ['*'] = ['*'] := if_pos rfl

theorem escapePart_ne_nil (part : List Char) : d.flavor.escapePart part ≠ [] := by
  by_cases h : part = ['*']
  · rw [h, escapePart_star]
    exact List.cons_ne_nil _ _
  · rw [escapePart_of_ne d h]
    exact List.cons_ne_nil _ _

theorem mem_escapePart {d : Dialect} {part : List Char} {c : Char} (h : c ∈ d.flavor.escapePart part) :
    c = d.mark ∨ c ∈ part := by
  by_cases hstar : part = ['*']
  · rw [hstar, escapePart_star] at h
    rw [hstar]
    exact .inr h
  · rw [escapePart_of_ne d hstar, List.mem_cons, List.mem_append, mem_doubled_iff, List.mem_singleton] at h
    rcases h with h | h | h
    · exact .inl h
    · exact .inr h
    · exact .inl h

/-- A star is bare at both ends, and any other part has marks there. -/
theorem ends_escapePart (part : List Char) :
    let c := if part = ['*'] then '*' else d.mark
    (d.flavor.escapePart part).head? = some c ∧ (d.flavor.escapePart part).getLast? = some c := by
  by_cases h : part = ['*']
  · rw [h, escapePart_star]
    exact ⟨rfl, rfl⟩
  · rw [escapePart_of_ne d h, if_neg h, ← List.cons_append]
    exact ⟨rfl, List.getLast?_concat⟩

/-- Marks are doubled each time. -/
theorem escapePart_escapePart_iff (part : List Char) :
    d.flavor.escapePart (d.flavor.escapePart part) = d.flavor.escapePart part ↔ part = ['*'] := by
  constructor
  · intro h
    by_contra hpart
    have hquoted : d.flavor.escapePart part ≠ ['*'] := by
      rw [escapePart_of_ne d hpart]
      intro hstar
      exact mark_ne_star d (List.cons.inj hstar).1
    have hlength := congrArg List.length h
    have hdoubled := length_le_doubled d.mark (d.flavor.escapePart part)
    rw [escapePart_of_ne d hquoted, List.length_cons, List.length_append] at hlength
    omega
  · rintro rfl
    rw [escapePart_star, escapePart_star]

end

/-! ## Escaped names -/

section

variable {d : Dialect} {s : String}

theorem nameParts_ne_nil (s : String) : nameParts s ≠ [] := Text.splitOn_ne_nil _ _

theorem Flavor.toList_escapeName (f : Flavor) (h : f.isExpression s = false) :
    (f.escapeName s).toList = ['.'].intercalate ((nameParts s).map f.escapePart) := by
  by_cases hstar : s = "*"
  · rw [hstar, Flavor.escapeName, if_pos (.inl rfl)]
    rfl
  · have hplain : ¬ (s = "*" ∨ f.isExpression s = true) := not_or.mpr ⟨hstar, Bool.eq_false_iff.mp h⟩
    rw [Flavor.escapeName, if_neg hplain, String.toList_ofList]
    rfl

theorem nameParts_escapeName (h : d.IsPlain s) :
    nameParts (d.flavor.escapeName s) = (nameParts s).map d.flavor.escapePart := by
  rw [nameParts, d.flavor.toList_escapeName h]
  refine Text.splitOn_intercalate (mt List.map_eq_nil_iff.mp (nameParts_ne_nil s)) fun part hpart => ?_
  obtain ⟨p, hp, rfl⟩ := List.mem_map.mp hpart
  intro hpoint
  rcases mem_escapePart hpoint with hmark | hmem
  · cases d <;> cases hmark
  · exact (Text.mem_of_mem_splitOn hp hmem).2 rfl

/-- Escaping adds only marks, and a mark or a star comes first. -/
theorem not_looksComputed_escapeName (h : d.IsPlain s) : ¬ LooksComputed (d.flavor.escapeName s) := by
  have hplain := ((isPlain_iff d s).mp h).1
  have hchars {c : Char} (hc : c ∈ (d.flavor.escapeName s).toList) :
      c = '.' ∨ c = d.mark ∨ c ∈ s.toList := by
    rw [d.flavor.toList_escapeName h] at hc
    rcases Text.mem_intercalate hc with hpoint | ⟨part, hpart, hmem⟩
    · exact .inl (List.mem_singleton.mp hpoint)
    · obtain ⟨p, hp, rfl⟩ := List.mem_map.mp hpart
      exact .inr ((mem_escapePart hmem).imp_right fun hc => (Text.mem_of_mem_splitOn hp hc).1)
  have hhead : (d.flavor.escapeName s).toList.head? ≠ some '\'' := by
    obtain ⟨first, more, hparts⟩ := List.exists_cons_of_ne_nil (nameParts_ne_nil s)
    rw [d.flavor.toList_escapeName h, hparts, List.map_cons, head?_intercalate ['.'] (escapePart_ne_nil d first),
      (ends_escapePart d first).1]
    by_cases hstar : first = ['*'] <;> cases d <;> simp [hstar, Dialect.mark]
  rintro (hc | hc | hc)
  · rcases hchars hc with hpoint | hmark | hmem
    · cases hpoint
    · cases d <;> cases hmark
    · exact hplain (.inl hmem)
  · rcases hchars hc with hpoint | hmark | hmem
    · cases hpoint
    · cases d <;> cases hmark
    · exact hplain (.inr (.inl hmem))
  · exact hhead hc

/-- An escaped name stands between marks if neither end is a bare star. -/
theorem wraps_escapeName_iff (h : d.IsPlain s) :
    d.Wraps (d.flavor.escapeName s) ↔
      (nameParts s).head? ≠ some ['*'] ∧ (nameParts s).getLast? ≠ some ['*'] := by
  have hparts : ∀ part ∈ (nameParts s).map d.flavor.escapePart, part ≠ [] := by
    intro part hpart
    obtain ⟨p, -, rfl⟩ := List.mem_map.mp hpart
    exact escapePart_ne_nil d p
  obtain ⟨first, more, hfirst⟩ := List.exists_cons_of_ne_nil (nameParts_ne_nil s)
  obtain ⟨last, hlast⟩ : ∃ last, (nameParts s).getLast? = some last :=
    ⟨_, List.getLast?_eq_some_getLast (nameParts_ne_nil s)⟩
  have hstart : (d.flavor.escapeName s).toList.head? = some (if first = ['*'] then '*' else d.mark) := by
    rw [d.flavor.toList_escapeName h, hfirst, List.map_cons, head?_intercalate ['.'] (escapePart_ne_nil d first),
      (ends_escapePart d first).1]
  have hend : (d.flavor.escapeName s).toList.getLast? = some (if last = ['*'] then '*' else d.mark) := by
    rw [d.flavor.toList_escapeName h, getLast?_intercalate hparts, List.getLast?_map, hlast]
    exact (ends_escapePart d last).2
  have hopen (part : List Char) :
      some (if part = ['*'] then '*' else d.mark) = some d.mark ↔ part ≠ ['*'] := by
    by_cases hpart : part = ['*']
    · simp [hpart, Ne.symm (mark_ne_star d)]
    · simp [hpart]
  rw [Dialect.Wraps, List.singleton_prefix_iff_head?_eq_some, List.singleton_suffix_iff_getLast?_eq_some,
    hstart, hend, hopen, hopen, hfirst, List.head?_cons, ← hfirst, hlast, Option.some_inj.ne, Option.some_inj.ne]
  refine and_iff_right_of_imp fun hends => ?_
  have hroom := (prefix_intercalate ['.'] (d.flavor.escapePart first)
    (more.map d.flavor.escapePart)).length_le
  rw [d.flavor.toList_escapeName h, hfirst, List.map_cons]
  rw [escapePart_of_ne d hends.1, List.length_cons, List.length_append, List.length_singleton] at hroom
  rw [escapePart_of_ne d hends.1]
  omega

/-- The escaped names that are taken for expressions are those that stand between marks. -/
theorem isPlain_escapeName_iff (h : d.IsPlain s) :
    d.IsPlain (d.flavor.escapeName s) ↔
      (nameParts s).head? = some ['*'] ∨ (nameParts s).getLast? = some ['*'] := by
  rw [isPlain_iff, and_iff_right (not_looksComputed_escapeName h), wraps_escapeName_iff h, not_and_or,
    not_not, not_not]

/-- What is taken for a name once more is escaped part by part once more. -/
theorem escapeName_escapeName_iff (h : d.IsPlain s) (hagain : d.IsPlain (d.flavor.escapeName s)) :
    d.flavor.escapeName (d.flavor.escapeName s) = d.flavor.escapeName s ↔
      ∀ part ∈ nameParts s, part = ['*'] := by
  have hparts : nameParts (d.flavor.escapeName (d.flavor.escapeName s)) =
      (nameParts s).map (d.flavor.escapePart ∘ d.flavor.escapePart) := by
    rw [nameParts_escapeName hagain, nameParts_escapeName h, List.map_map]
  have hjoined (t : String) : t.toList = ['.'].intercalate (nameParts t) :=
    (Text.intercalate_splitOn '.' t.toList).symm
  have heq : d.flavor.escapeName (d.flavor.escapeName s) = d.flavor.escapeName s ↔
      (nameParts s).map (d.flavor.escapePart ∘ d.flavor.escapePart) =
        (nameParts s).map d.flavor.escapePart := by
    rw [← hparts, ← nameParts_escapeName h]
    refine ⟨congrArg nameParts, fun hsame => String.toList_inj.mp ?_⟩
    rw [hjoined (d.flavor.escapeName s), ← hsame, ← hjoined]
  rw [heq, List.map_inj_left]
  exact forall₂_congr fun part _ => escapePart_escapePart_iff d part

/-- Escaping a name twice is escaping it once, unless the name is no expression and has several parts, not all
of them stars, of which the first or the last is a star; then the second escape differs from the first. -/
theorem Sql.Dialect.escapeName_twice_iff (d : Dialect) (s : String) :
    (d.flavor.escapeName (d.flavor.escapeName s) = d.flavor.escapeName s ↔
        ¬ (d.IsPlain s ∧ LeavesEndBare s)) ∧
      (['*'] ∉ nameParts s → d.flavor.escapeName (d.flavor.escapeName s) = d.flavor.escapeName s) := by
  have hiff : d.flavor.escapeName (d.flavor.escapeName s) = d.flavor.escapeName s ↔
      ¬ (d.IsPlain s ∧ LeavesEndBare s) := by
    by_cases hplain : d.IsPlain s
    · by_cases hagain : d.IsPlain (d.flavor.escapeName s)
      · have hbare := (isPlain_escapeName_iff hplain).mp hagain
        rw [escapeName_escapeName_iff hplain hagain, and_iff_right hplain]
        constructor
        · rintro hstars ⟨-, ⟨part, hpart, hne⟩, -⟩
          exact hne (hstars part hpart)
        · intro hnot part hpart
          by_contra hne
          refine hnot ⟨?_, ⟨part, hpart, hne⟩, hbare⟩
          -- A part that is no star is not the only one, for one at an end is a star.
          match hparts : nameParts s with
          | [] => exact absurd hparts (nameParts_ne_nil s)
          | [only] =>
            rw [hparts] at hbare hpart
            rw [List.mem_singleton.mp hpart] at hne
            rcases hbare with hbare | hbare <;> exact absurd (Option.some.inj hbare) hne
          | _ :: _ :: _ => exact Nat.le_add_left 2 _
      · have hexpression : d.flavor.isExpression (d.flavor.escapeName s) = true :=
          Bool.not_eq_false _ ▸ hagain
        refine iff_of_true (Flavor.escapeName_of_isExpression hexpression) ?_
        rintro ⟨-, hopen⟩
        exact hagain ((isPlain_escapeName_iff hplain).mpr hopen.bare)
    · have hsame : d.flavor.escapeName s = s :=
        Flavor.escapeName_of_isExpression (Bool.not_eq_false _ ▸ hplain)
      rw [hsame]
      exact iff_of_true hsame fun h => hplain h.1
  refine ⟨hiff, fun hstar => hiff.mpr ?_⟩
  rintro ⟨-, -, -, hfirst | hlast⟩
  · exact hstar (List.mem_of_head? hfirst)
  · exact hstar (List.mem_of_getLast? hlast)

/-- The star at the end leaves the marks of the schema open to be doubled. -/
example : Dialect.mysql.flavor.escapeName "s.*" = "\x60s\x60.*" ∧
    Dialect.mysql.flavor.escapeName "\x60s\x60.*" = "\x60\x60\x60s\x60\x60\x60.*" := by decide

end

end SqlAst
