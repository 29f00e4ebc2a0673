import Mathlib.Data.List.TakeWhile
import SqlAst.Number.Whole
import SqlAst.Proofs.Numerals

/-!
# Loose spellings are cleaned

Cleaning takes a spelled number down to a sign and its digits. Each step is described from both sides: what it
makes of a spelled number, and what a text was like that a number is left of.

* `Numeral.Spelled.stripped`, `Numeral.Stripped.spelled`: blanks, signs and padding.
* `Numeral.Stripped.cleaned`, `exists_withoutUnderscores`, `exists_withoutFraction`: underscores and fractions.
* `Denotes.unique`: no text denotes two numbers.
-/
namespace SqlAst.Text

/-! ## Blanks at both ends -/

theorem trimBoth_append {blank : Char → Bool} {before cs after : List Char}
    (hbefore : ∀ c ∈ before, blank c = true) (hcs : ∀ c ∈ cs, blank c = false)
    (hafter : ∀ c ∈ after, blank c = true) : trimBoth blank (before ++ cs ++ after) = cs := by
  have hkeep {ds : List Char} (hd : ∀ c ∈ ds, blank c = false) (hne : ds ≠ []) (rest : List Char) :
      (ds ++ rest).dropWhile blank = ds ++ rest := by
    obtain ⟨d, r, rfl⟩ := List.exists_cons_of_ne_nil hne
    simp [hd d List.mem_cons_self]
  have hdrop : (after.reverse ++ cs.reverse).dropWhile blank = cs.reverse := by
    rw [List.dropWhile_append_of_pos fun c hc => hafter c (List.mem_reverse.1 hc)]
    by_cases hne : cs = []
    · simp [hne]
    · simpa using hkeep (fun c hc => hcs c (List.mem_reverse.1 hc)) (by simpa using hne) []
  unfold trimBoth
  rw [List.append_assoc, List.dropWhile_append_of_pos hbefore]
  by_cases hne : cs = []
  · have hall : after.dropWhile blank = [] := List.dropWhile_eq_nil_iff.2 hafter
    rw [hne, List.nil_append, hall]
    rfl
  · rw [hkeep hcs hne _, List.reverse_append, hdrop, List.reverse_reverse]

theorem exists_trimBoth (blank : Char → Bool) (cs : List Char) :
    ∃ before after, cs = before ++ trimBoth blank cs ++ after ∧ (∀ c ∈ before, blank c = true) ∧
      ∀ c ∈ after, blank c = true := by
  refine ⟨cs.takeWhile blank, ((cs.dropWhile blank).reverse.takeWhile blank).reverse, ?_, ?_, ?_⟩
  · unfold trimBoth
    rw [List.append_assoc, ← List.reverse_append, List.takeWhile_append_dropWhile, List.reverse_reverse,
      List.takeWhile_append_dropWhile]
  · exact fun c hc => List.mem_takeWhile_imp hc
  · exact fun c hc => List.mem_takeWhile_imp (List.mem_reverse.1 hc)

end SqlAst.Text

namespace SqlAst.Whole

open Json (IsWhole signText signed fractionText)

/-! ## Padding -/

theorem isStart_of_isDigit {c : Char} (h : c.isDigit = true) (hc : c ≠ '0') : isStart c = true := by
  have hpos := Json.digitValue_pos h hc
  simp only [Char.isDigit, Bool.and_eq_true, decide_eq_true_eq] at h
  have hupper : c.toNat ≤ 57 := h.2
  have hlower : 49 ≤ c.toNat := by
    have hsub : 1 ≤ c.toNat - 48 := hpos
    omega
  have hrange : '1' ≤ c ∧ c ≤ '9' := ⟨hlower, hupper⟩
  simp [isStart, hrange]

/-- What zeros are not taken off: a minus sign, or digits without a superfluous zero. -/
structure Settled (cs : List Char) : Prop where
  fromFirstDigit : fromFirstDigit cs = some cs
  withoutZeros (last : Char) : withoutZeros last cs = some cs

theorem settled_minus (r : List Char) : Settled ('-' :: r) where
  fromFirstDigit := rfl
  withoutZeros _ := rfl

theorem settled_digits {whole digits : List Char} (h : Grouped whole digits) (hw : IsWhole digits)
    (fraction : List Char) : Settled (whole ++ fractionText fraction) := by
  rcases hw with rfl | ⟨c, r, rfl, hc, hd⟩
  · obtain rfl := h.zero
    have hlast : withoutZeros '0' (fractionText fraction) = some ('0' :: fractionText fraction) := by
      unfold fractionText
      split <;> rfl
    exact ⟨hlast, fun _ => hlast⟩
  · obtain ⟨d, s, r', rfl, hcons, hdigit⟩ := h.exists_cons
    obtain ⟨rfl, rfl⟩ := List.cons.inj hcons
    have hstart := isStart_of_isDigit hdigit hc
    have hne : ¬ (c = '0' ∨ c = '_') := not_or.2 ⟨hc, ne_of_isDigit hdigit (by decide)⟩
    refine ⟨?_, fun last => ?_⟩
    · rw [List.cons_append, fromFirstDigit, if_neg hc, if_pos hstart]
    · rw [List.cons_append, withoutZeros, if_neg hne, if_pos hstart]

theorem withoutZeros_append {r cs : List Char} (hr : ∀ c ∈ r, c = '0' ∨ c = '_') (h : Settled cs)
    (last : Char) : withoutZeros last (r ++ cs) = some cs := by
  induction r generalizing last with
  | nil => exact h.withoutZeros last
  | cons c r ih =>
    obtain ⟨hc, hr⟩ := List.forall_mem_cons.1 hr
    rw [List.cons_append, withoutZeros, if_pos hc]
    exact ih hr c

theorem fromFirstDigit_append {padding cs : List Char} (hpadding : Padding padding) (h : Settled cs) :
    fromFirstDigit (padding ++ cs) = some cs := by
  rcases hpadding with rfl | ⟨r, rfl, hr⟩
  · exact h.fromFirstDigit
  · exact withoutZeros_append hr h '0'

/-- Padding, and zeros and underscores in any order, are taken off; of underscores only the last stays if no
digit follows it. -/
theorem exists_withoutZeros {last : Char} {cs u : List Char} (h : withoutZeros last cs = some u) :
    ∃ r, last :: cs = r ++ u ∧ (∀ c ∈ r, c = last ∨ c = '0' ∨ c = '_') ∧
      ∀ d s, u = '_' :: d :: s → d = '.' := by
  induction cs generalizing last with
  | nil =>
    obtain rfl := Option.some.inj h
    exact ⟨[], rfl, List.forall_mem_nil _, fun d s hd => absurd (List.cons.inj hd).2 nofun⟩
  | cons c cs ih =>
    rw [withoutZeros] at h
    split at h
    · rename_i hc
      obtain ⟨r, hr, hmem, hlast⟩ := ih h
      refine ⟨last :: r, by rw [hr]; rfl, List.forall_mem_cons.2 ⟨.inl rfl, fun d hd => ?_⟩, hlast⟩
      rcases hmem d hd with rfl | hd
      · exact .inr hc
      · exact .inr hd
    · rename_i hc
      split at h
      · obtain rfl := Option.some.inj h
        refine ⟨[last], rfl, by simp, fun d s hd => ?_⟩
        exact absurd (.inr (List.cons.inj hd).1) hc
      · split at h
        · rename_i hpoint
          obtain rfl := Option.some.inj h
          refine ⟨[], rfl, List.forall_mem_nil _, fun d s hd => ?_⟩
          rw [← (List.cons.inj (List.cons.inj hd).2).1, hpoint]
        · cases h

theorem exists_fromFirstDigit {cs u : List Char} (h : fromFirstDigit cs = some u) :
    ∃ padding, Padding padding ∧ cs = padding ++ u ∧ ∀ d s, u = '_' :: d :: s → d = '.' := by
  cases cs with
  | nil => cases h
  | cons c r =>
    rw [fromFirstDigit] at h
    split at h
    · rename_i hc
      subst hc
      obtain ⟨z, hz, hmem, hlast⟩ := exists_withoutZeros h
      refine ⟨z, ?_, hz, hlast⟩
      cases z with
      | nil => exact .inl rfl
      | cons d z =>
        obtain rfl := (List.cons.inj hz).1
        refine .inr ⟨z, rfl, fun e he => ?_⟩
        rcases hmem e (List.mem_cons_of_mem _ he) with rfl | he
        · exact .inl rfl
        · exact he
    · split at h
      · rename_i hstart
        obtain rfl := Option.some.inj h
        refine ⟨[], .inl rfl, rfl, fun d s hd => ?_⟩
        rw [(List.cons.inj hd).1] at hstart
        exact absurd hstart (by decide)
      · cases h

/-! ## Signs -/

theorem withoutPlus_of_isDigit {c : Char} (h : c.isDigit = true) (r : List Char) :
    withoutPlus (c :: r) = some (c :: r) := by
  rw [withoutPlus.eq_3]
  · rintro s hs
    exact absurd (List.cons.inj hs).1 (ne_of_isDigit h (by decide))
  · rintro s hs
    exact absurd (List.cons.inj hs).1 (ne_of_isDigit h (by decide))

theorem withoutPlus_plus {c : Char} (h : c ≠ '-') (r : List Char) :
    withoutPlus ('+' :: c :: r) = some (c :: r) := by
  rw [withoutPlus.eq_2]
  rintro s hs
  exact absurd (List.cons.inj hs).1 h

theorem fromSign_of_ne {c : Char} (h : c ≠ '-') (r : List Char) :
    fromSign (c :: r) = fromFirstDigit (c :: r) := by
  rw [fromSign.eq_2]
  rintro s hs
  exact absurd (List.cons.inj hs).1 h

/-- A sign in front of a digit is taken off, and put back if it is the minus sign. -/
theorem Sign.fromSign {sign : List Char} {negative : Bool} (h : Sign sign negative) {c : Char}
    (hc : c.isDigit = true) (r : List Char) :
    (withoutPlus (sign ++ c :: r)).bind fromSign =
      (fromFirstDigit (c :: r)).map (signText negative ++ ·) := by
  have hminus := ne_of_isDigit hc (d := '-') (by decide)
  cases h with
  | none =>
    rw [List.nil_append, withoutPlus_of_isDigit hc, Option.bind_some, fromSign_of_ne hminus]
    exact Option.map_id'.symm
  | plus =>
    rw [List.singleton_append, withoutPlus_plus hminus, Option.bind_some, fromSign_of_ne hminus]
    exact Option.map_id'.symm
  | minus => rfl

theorem Front.fromSign {front : List Char} {negative : Bool} (h : Front front negative) {cs : List Char}
    (hcs : Settled cs) {d : Char} {s : List Char} (hfirst : cs = d :: s) (hd : d.isDigit = true) :
    ∃ gap, (gap = [] ∨ gap = ['_'] ∧ negative = true) ∧
      (withoutPlus (front ++ cs)).bind fromSign = some (signText negative ++ (gap ++ cs)) := by
  cases h with
  | @early sign padding _ hsign hpadding =>
    refine ⟨[], .inl rfl, ?_⟩
    obtain ⟨c, r, hcons, hc⟩ : ∃ c r, padding ++ cs = c :: r ∧ c.isDigit = true := by
      rcases hpadding with rfl | ⟨r, rfl, -⟩
      · exact ⟨d, s, hfirst, hd⟩
      · exact ⟨'0', _, rfl, by decide⟩
    rw [List.append_assoc, hcons, hsign.fromSign hc, ← hcons, fromFirstDigit_append hpadding hcs]
    rfl
  | @late sign padding gap hsign hpadding hne hgap =>
    refine ⟨gap, hgap.imp_right fun h => ⟨h, rfl⟩, ?_⟩
    have hassoc : sign ++ (padding ++ '-' :: gap) ++ cs = sign ++ (padding ++ '-' :: (gap ++ cs)) := by simp
    obtain ⟨r, hcons⟩ : ∃ r, padding ++ '-' :: (gap ++ cs) = '0' :: r := by
      rcases hpadding with rfl | ⟨r, rfl, -⟩
      · exact absurd rfl hne
      · exact ⟨_, rfl⟩
    rw [hassoc, hcons, hsign.fromSign (by decide), ← hcons,
      fromFirstDigit_append hpadding (settled_minus _)]
    rfl

theorem exists_withoutPlus {cs t : List Char} (h : withoutPlus cs = some t) :
    ∃ sign, Sign sign false ∧ cs = sign ++ t ∧ (sign = [] ∨ t.head? ≠ some '-') := by
  unfold withoutPlus at h
  split at h
  · cases h
  · rename_i r hminus
    obtain rfl := Option.some.inj h
    refine ⟨['+'], .plus, rfl, .inr fun hhead => ?_⟩
    cases r with
    | nil => cases hhead
    | cons c r => exact hminus r (congrArg (· :: r) (Option.some.inj hhead))
  · obtain rfl := Option.some.inj h
    exact ⟨[], .none, rfl, .inl rfl⟩

/-! ## What stands in front of digits -/

/-- A number without padding in front and blanks around it; an underscore may stand behind the minus sign. -/
inductive Numeral.Stripped (m : Numeral) : List Char → Prop where
  | mk {gap whole : List Char} (hgap : gap = [] ∨ gap = ['_'] ∧ m.negative = true)
    (hwhole : Grouped whole m.whole) (hfraction : ∀ c ∈ m.fraction, c.isDigit = true) :
    Stripped m (signText m.negative ++ (gap ++ (whole ++ fractionText m.fraction)))

/-- Everything in front of the digits is taken off. -/
def stripped? (cs : List Char) : Option (List Char) :=
  (withoutPlus (Text.trimBoth Text.isWhiteSpace cs)).bind fromSign

theorem isWhiteSpace_of_mem_padding {padding : List Char} (h : Padding padding) :
    ∀ c ∈ padding, Text.isWhiteSpace c = false := by
  rcases h with rfl | ⟨r, rfl, hr⟩
  · exact List.forall_mem_nil _
  · refine List.forall_mem_cons.2 ⟨by decide, fun c hc => ?_⟩
    rcases hr c hc with rfl | rfl <;> decide

theorem Front.isWhiteSpace {front : List Char} {negative : Bool} (h : Front front negative) :
    ∀ c ∈ front, Text.isWhiteSpace c = false := by
  have hsigns {sign : List Char} {negative : Bool} (h : Sign sign negative) :
      ∀ c ∈ sign, Text.isWhiteSpace c = false := by
    cases h with
    | none => exact List.forall_mem_nil _
    | plus | minus => exact List.forall_mem_singleton.2 (by decide)
  cases h with
  | early hsign hpadding =>
    exact List.forall_mem_append.2 ⟨hsigns hsign, isWhiteSpace_of_mem_padding hpadding⟩
  | late hsign hpadding hne hgap =>
    refine List.forall_mem_append.2 ⟨hsigns hsign,
      List.forall_mem_append.2 ⟨isWhiteSpace_of_mem_padding hpadding,
        List.forall_mem_cons.2 ⟨by decide, ?_⟩⟩⟩
    rcases hgap with rfl | rfl
    · exact List.forall_mem_nil _
    · exact List.forall_mem_singleton.2 (by decide)

theorem isWhiteSpace_fractionText {fraction : List Char} (h : ∀ c ∈ fraction, c.isDigit = true) :
    ∀ c ∈ fractionText fraction, Text.isWhiteSpace c = false := by
  intro c hc
  rcases mem_fractionText h c hc with hc | rfl
  · exact isWhiteSpace_of_isDigit hc
  · decide

theorem Grouped.isWhiteSpace {text digits : List Char} (h : Grouped text digits) :
    ∀ c ∈ text, Text.isWhiteSpace c = false := by
  intro c hc
  rcases h.mem c hc with hc | rfl
  · exact isWhiteSpace_of_isDigit hc
  · decide

theorem Numeral.Spelled.stripped {m : Numeral} {cs : List Char} (h : m.Spelled Front cs)
    (hw : IsWhole m.whole) : ∃ u, stripped? cs = some u ∧ m.Stripped u := by
  obtain ⟨hbefore, hlead, hwhole, hfraction, hafter⟩ := h
  rename_i before lead whole after
  have hsolid : ∀ c ∈ lead ++ (whole ++ fractionText m.fraction), Text.isWhiteSpace c = false :=
    List.forall_mem_append.2 ⟨hlead.isWhiteSpace,
      List.forall_mem_append.2 ⟨hwhole.isWhiteSpace, isWhiteSpace_fractionText hfraction⟩⟩
  obtain ⟨d, s, r, hcons, -, hd⟩ := hwhole.exists_cons
  obtain ⟨gap, hgap, hsign⟩ := hlead.fromSign (settled_digits hwhole hw m.fraction)
    (show _ = d :: (s ++ fractionText m.fraction) by rw [hcons]; rfl) hd
  refine ⟨_, ?_, .mk hgap hwhole hfraction⟩
  unfold stripped?
  rw [Text.trimBoth_append hbefore hsolid hafter, hsign]

/-- What a sign and padding are taken off has them in front. -/
theorem Numeral.Stripped.exists_front {m : Numeral} {sign t u : List Char} (h : m.Stripped u)
    (hsign : Sign sign false) (hminus : sign = [] ∨ t.head? ≠ some '-') (ht : fromSign t = some u) :
    ∃ lead whole, Front lead m.negative ∧ Grouped whole m.whole ∧
      sign ++ t = lead ++ (whole ++ fractionText m.fraction) := by
  obtain ⟨hgap, hwhole, -⟩ := h
  rename_i gap whole
  obtain ⟨c, r, -, hcons, -, hc⟩ := hwhole.exists_cons
  unfold fromSign at ht
  split at ht
  · -- The minus sign in front is the sign, so what padding is taken off begins with a digit.
    obtain ⟨u', hu', hu⟩ := Option.map_eq_some_iff.1 ht
    obtain ⟨padding, hpadding, rfl, hpoint⟩ := exists_fromFirstDigit hu'
    obtain rfl : sign = [] := hminus.resolve_right fun h => h rfl
    cases hnegative : m.negative with
    | false =>
      rw [hnegative] at hgap hu
      obtain rfl : gap = [] := hgap.resolve_right fun h => absurd h.2 (by decide)
      rw [hcons] at hu
      exact absurd (List.cons.inj hu).1.symm (ne_of_isDigit hc (by decide))
    | true =>
      rw [hnegative] at hu
      obtain rfl := (List.cons.inj hu).2
      rcases hgap with rfl | ⟨rfl, -⟩
      · exact ⟨['-'] ++ padding, whole, .early .minus hpadding, hwhole, rfl⟩
      · rw [hcons] at hpoint
        exact absurd (hpoint c _ rfl) (ne_of_isDigit hc (by decide))
  · rename_i hne
    obtain ⟨padding, hpadding, rfl, -⟩ := exists_fromFirstDigit ht
    cases hnegative : m.negative with
    | false =>
      rw [hnegative] at hgap
      obtain rfl : gap = [] := hgap.resolve_right fun h => absurd h.2 (by decide)
      exact ⟨sign ++ padding, whole, .early hsign hpadding, hwhole, (List.append_assoc ..).symm⟩
    | true =>
      rw [hnegative] at hne
      have hpad : padding ≠ [] := by
        rintro rfl
        exact hne _ rfl
      refine ⟨sign ++ (padding ++ '-' :: gap), whole,
        .late hsign hpadding hpad (hgap.imp_right fun h => h.1), hwhole, ?_⟩
      simp [signText]

theorem Numeral.Stripped.spelled {m : Numeral} {cs u : List Char} (h : m.Stripped u)
    (hcs : stripped? cs = some u) : m.Spelled Front cs := by
  obtain ⟨before, after, htrim, hbefore, hafter⟩ := Text.exists_trimBoth Text.isWhiteSpace cs
  obtain ⟨t, hplus, hsign⟩ := Option.bind_eq_some_iff.1 hcs
  obtain ⟨sign, hsign', ht, hminus⟩ := exists_withoutPlus hplus
  obtain ⟨lead, whole, hlead, hwhole, heq⟩ := h.exists_front hsign' hminus hsign
  obtain ⟨-, -, hfraction⟩ := h
  rw [htrim, ht, heq]
  exact .mk hbefore hlead hwhole hfraction hafter

/-! ## Fractions and underscores -/

theorem hasDoubleUnderscore_cons {c : Char} (hc : c ≠ '_') (r : List Char) :
    hasDoubleUnderscore (c :: r) = hasDoubleUnderscore r := by
  rw [hasDoubleUnderscore.eq_2]
  rintro s hs
  exact absurd hs hc

/-- One underscore in front of digits. -/
theorem Grouped.hasDoubleUnderscore_gap {text digits : List Char} (h : Grouped text digits) :
    hasDoubleUnderscore ('_' :: text) = hasDoubleUnderscore text := by
  obtain ⟨c, r, s, rfl, -, hc⟩ := h.exists_cons
  rw [hasDoubleUnderscore.eq_2]
  intro s _ hs
  exact absurd (List.cons.inj hs).1 (ne_of_isDigit hc (by decide))

theorem Grouped.hasDoubleUnderscore {text digits : List Char} (h : Grouped text digits) :
    hasDoubleUnderscore text = false := by
  induction h with
  | digit hc => rw [hasDoubleUnderscore_cons (ne_of_isDigit hc (by decide))]; rfl
  | next hc _ ih => rw [hasDoubleUnderscore_cons (ne_of_isDigit hc (by decide)), ih]
  | apart hc rest ih =>
    rw [hasDoubleUnderscore_cons (ne_of_isDigit hc (by decide)), rest.hasDoubleUnderscore_gap, ih]

/-- Underscores are taken out of grouped digits, and from between them and the minus sign. -/
theorem withoutUnderscores_signed {negative : Bool} {gap whole digits : List Char}
    (hgap : gap = [] ∨ gap = ['_'] ∧ negative = true) (h : Grouped whole digits) :
    withoutUnderscores (signText negative ++ (gap ++ whole)) = signText negative ++ digits := by
  obtain ⟨c, r, s, hcons, -, hc⟩ := h.exists_cons
  have hgapped : hasDoubleUnderscore (gap ++ whole) = false := by
    rcases hgap with rfl | ⟨rfl, -⟩
    · exact h.hasDoubleUnderscore
    · exact h.hasDoubleUnderscore_gap.trans h.hasDoubleUnderscore
  have hhead : (signText negative ++ (gap ++ whole)).head? ≠ some '_' := by
    rcases hgap with rfl | ⟨rfl, rfl⟩
    · cases negative with
      | true => simp [signText]
      | false => simpa [signText, hcons] using ne_of_isDigit hc (by decide)
    · simp [signText]
  have hlast : (signText negative ++ (gap ++ whole)).getLast? ≠ some '_' := by
    have hne : whole.getLast? ≠ none := by simp [hcons]
    obtain ⟨d, hd⟩ := Option.ne_none_iff_exists'.1 hne
    rw [List.getLast?_append, List.getLast?_append, hd]
    exact fun hline => h.getLast?_ne (hd.trans hline)
  have hdouble : hasDoubleUnderscore (signText negative ++ (gap ++ whole)) = false := by
    cases negative with
    | true => exact (hasDoubleUnderscore_cons (by decide) _).trans hgapped
    | false => exact hgapped
  have hsign : (signText negative).filter (· ≠ '_') = signText negative := by
    cases negative <;> rfl
  have hfilter : gap.filter (· ≠ '_') = [] := by
    rcases hgap with rfl | ⟨rfl, -⟩ <;> rfl
  unfold withoutUnderscores
  rw [if_neg (not_or.2 ⟨hhead, not_or.2 ⟨hlast, by rw [hdouble]; decide⟩⟩), List.filter_append,
    List.filter_append, hsign, hfilter, h.filter, List.nil_append]

namespace Numeral

variable {m : Numeral} {u : List Char}

/-- The digits without a superfluous zero, behind the minus sign. -/
def plain (m : Numeral) : List Char := signText m.negative ++ m.whole

theorem Stripped.split (h : m.Stripped u) :
    ∃ body, u = body ++ fractionText m.fraction ∧ (∀ c ∈ body, c ≠ '.') ∧
      withoutUnderscores body = m.plain := by
  obtain ⟨hgap, hwhole, -⟩ := h
  rename_i gap whole
  refine ⟨signText m.negative ++ (gap ++ whole), by simp, ?_, withoutUnderscores_signed hgap hwhole⟩
  refine List.forall_mem_append.2 ⟨?_, List.forall_mem_append.2 ⟨?_, fun c hc => ?_⟩⟩
  · cases m.negative <;> simp [signText]
  · rcases hgap with rfl | ⟨rfl, -⟩ <;> simp
  · rcases hwhole.mem c hc with hc | rfl
    · exact ne_of_isDigit hc (by decide)
    · decide

/-- The point ends the part in front of it. -/
theorem takeWhile_point {body : List Char} (h : ∀ c ∈ body, c ≠ '.') (fraction : List Char) :
    (body ++ fractionText fraction).takeWhile (· ≠ '.') = body ∧
      (body ++ fractionText fraction).dropWhile (· ≠ '.') = fractionText fraction := by
  have hbody : ∀ c ∈ body, decide (c ≠ '.') = true := by simpa using h
  rw [List.takeWhile_append_of_pos hbody, List.dropWhile_append_of_pos hbody]
  unfold fractionText
  split <;> simp

theorem signText_append_inj {negative negative' : Bool} {c c' : Char} {r r' : List Char}
    (h : signText negative ++ c :: r = signText negative' ++ c' :: r') (hc : c ≠ '-') (hc' : c' ≠ '-') :
    negative = negative' ∧ c :: r = c' :: r' := by
  cases negative with
  | true =>
    cases negative' with
    | true => exact ⟨rfl, (List.cons.inj h).2⟩
    | false => exact absurd (List.cons.inj h).1.symm hc'
  | false =>
    cases negative' with
    | true => exact absurd (List.cons.inj h).1 hc
    | false => exact ⟨rfl, h⟩

theorem Stripped.exists_cons (h : m.Stripped u) : ∃ c r, m.whole = c :: r ∧ c ≠ '-' := by
  obtain ⟨-, hwhole, -⟩ := h
  obtain ⟨c, -, s, -, hcons, hc⟩ := hwhole.exists_cons
  exact ⟨c, s, hcons, ne_of_isDigit hc (by decide)⟩

theorem Stripped.isDigit_fraction (h : m.Stripped u) : ∀ c ∈ m.fraction, c.isDigit = true := by
  obtain ⟨-, -, hfraction⟩ := h
  exact hfraction

/-- A text has one number at most behind its signs and padding. -/
theorem Stripped.unique {m' : Numeral} (h : m.Stripped u) (h' : m'.Stripped u) : m = m' := by
  obtain ⟨body, hu, hpoint, hplain⟩ := h.split
  obtain ⟨body', hu', hpoint', hplain'⟩ := h'.split
  obtain ⟨htake, hdrop⟩ := takeWhile_point hpoint m.fraction
  obtain ⟨htake', hdrop'⟩ := takeWhile_point hpoint' m'.fraction
  rw [← hu] at htake hdrop
  rw [← hu'] at htake' hdrop'
  have hfraction : m.fraction = m'.fraction := by
    have hsame := hdrop.symm.trans hdrop'
    unfold fractionText at hsame
    split at hsame <;> split at hsame <;> simp_all
  have hsame : m.plain = m'.plain := by
    rw [← hplain, ← hplain', htake.symm.trans htake']
  obtain ⟨c, r, hcons, hc⟩ := h.exists_cons
  obtain ⟨c', r', hcons', hc'⟩ := h'.exists_cons
  rw [plain, plain, hcons, hcons'] at hsame
  obtain ⟨hnegative, hwhole⟩ := signText_append_inj hsame hc hc'
  rw [← hcons, ← hcons'] at hwhole
  cases m
  cases m'
  simp_all

theorem mem_withoutUnderscores {cs : List Char} (h : '.' ∈ cs) : '.' ∈ withoutUnderscores cs := by
  unfold withoutUnderscores
  split
  · exact h
  · exact List.mem_filter.2 ⟨h, by decide⟩

/-- A fraction is taken off if it consists of zeros, and stays otherwise. -/
theorem Stripped.cleaned (h : m.Stripped u) :
    withoutUnderscores (withoutFraction u) = m.plain ∧ (∀ c ∈ m.fraction, c = '0') ∨
      '.' ∈ withoutUnderscores (withoutFraction u) ∧ ¬ ∀ c ∈ m.fraction, c = '0' := by
  obtain ⟨body, hu, hpoint, hplain⟩ := h.split
  obtain ⟨htake, hdrop⟩ := takeWhile_point hpoint m.fraction
  rw [← hu] at htake hdrop
  unfold withoutFraction
  rw [hdrop]
  by_cases hnil : m.fraction = []
  · have hbody : u = body := by rw [hu, hnil]; exact List.append_nil body
    refine .inl ⟨?_, by simp [hnil]⟩
    rw [hnil, ← hplain, hbody]
    rfl
  · rw [fractionText, if_neg hnil]
    dsimp only
    by_cases hzeros : ∀ c ∈ m.fraction, c = '0'
    · rw [if_pos ⟨hnil, by simpa using hzeros⟩, htake]
      exact .inl ⟨hplain, hzeros⟩
    · rw [if_neg fun h => hzeros (by simpa using h.2)]
      refine .inr ⟨mem_withoutUnderscores ?_, hzeros⟩
      rw [hu, fractionText, if_neg hnil]
      simp

end Numeral

/-- No two underscores side by side, and none at the end. -/
structure Spaced (cs : List Char) : Prop where
  last : cs.getLast? ≠ some '_'
  double : hasDoubleUnderscore cs = false

theorem Spaced.tail {c : Char} {r : List Char} (h : Spaced (c :: r)) (hne : r ≠ []) : Spaced r where
  last := by
    obtain ⟨d, s, rfl⟩ := List.exists_cons_of_ne_nil hne
    exact h.last
  double := by
    by_cases hdouble : ∃ s, c = '_' ∧ r = '_' :: s
    · obtain ⟨s, rfl, rfl⟩ := hdouble
      exact absurd h.double (by simp [hasDoubleUnderscore])
    · rw [← hasDoubleUnderscore.eq_2 c r fun s hc hr => hdouble ⟨s, hc, hr⟩]
      exact h.double

/-- Something else follows an underscore. -/
theorem Spaced.behind {r : List Char} (h : Spaced ('_' :: r)) : r ≠ [] ∧ r.head? ≠ some '_' := by
  refine ⟨fun hr => h.last (by rw [hr]; rfl), fun hhead => ?_⟩
  cases r with
  | nil => cases hhead
  | cons c r =>
    obtain rfl := Option.some.inj hhead
    exact absurd h.double (by simp [hasDoubleUnderscore])

/-- Digits with underscores that stand alone and inside. -/
theorem grouped_filter {cs : List Char} (hne : cs ≠ []) (hmem : ∀ c ∈ cs, c.isDigit = true ∨ c = '_')
    (hhead : cs.head? ≠ some '_') (h : Spaced cs) : Grouped cs (cs.filter (· ≠ '_')) := by
  match cs with
  | [] => exact absurd rfl hne
  | c :: r =>
    obtain ⟨hfirst, hrest⟩ := List.forall_mem_cons.1 hmem
    have hc : c ≠ '_' := fun h => hhead (congrArg some h)
    have hdigit : c.isDigit = true := hfirst.resolve_right hc
    rw [List.filter_cons_of_pos (by simpa using hc)]
    match r with
    | [] => exact .digit hdigit
    | d :: s =>
      have hr : Spaced (d :: s) := h.tail (List.cons_ne_nil d s)
      by_cases hd : d = '_'
      · subst hd
        obtain ⟨hs, hshead⟩ := hr.behind
        rw [List.filter_cons_of_neg (by decide)]
        exact .apart hdigit (grouped_filter hs (List.forall_mem_cons.1 hrest).2 hshead (hr.tail hs))
      · exact .next hdigit
          (grouped_filter (List.cons_ne_nil d s) hrest (fun h => hd (Option.some.inj h)) hr)

theorem grouped_of_filter {cs ds : List Char} (hw : IsWhole ds) (hfilter : cs.filter (· ≠ '_') = ds)
    (hhead : cs.head? ≠ some '_') (h : Spaced cs) : Grouped cs ds := by
  have hne : cs ≠ [] := by
    rintro rfl
    exact hw.ne_nil hfilter.symm
  have hmem : ∀ c ∈ cs, c.isDigit = true ∨ c = '_' := by
    intro c hc
    by_cases hline : c = '_'
    · exact .inr hline
    · refine .inl (hw.isDigit c ?_)
      rw [← hfilter]
      exact List.mem_filter.2 ⟨hc, by simpa using hline⟩
  rw [← hfilter]
  exact grouped_filter hne hmem hhead h

/-- What the underscores are taken out of, if digits are left. -/
theorem exists_withoutUnderscores {cs ds : List Char} {negative : Bool}
    (h : withoutUnderscores cs = signText negative ++ ds) (hw : IsWhole ds) :
    ∃ gap whole, cs = signText negative ++ (gap ++ whole) ∧ (gap = [] ∨ gap = ['_'] ∧ negative = true) ∧
      Grouped whole ds := by
  unfold withoutUnderscores at h
  split at h
  · exact ⟨[], ds, h, .inl rfl, grouped_self hw.ne_nil hw.isDigit⟩
  · rename_i hneat
    obtain ⟨hhead, hneat⟩ := not_or.1 hneat
    obtain ⟨hlast, hdouble⟩ := not_or.1 hneat
    have hspaced : Spaced cs := ⟨hlast, Bool.eq_false_iff.2 hdouble⟩
    cases negative with
    | false => exact ⟨[], cs, rfl, .inl rfl, grouped_of_filter hw h hhead hspaced⟩
    | true =>
      obtain ⟨c, r, rfl⟩ : ∃ c r, cs = c :: r := by
        apply List.exists_cons_of_ne_nil
        rintro rfl
        cases h
      have hc : c ≠ '_' := fun hc => hhead (congrArg some hc)
      rw [List.filter_cons_of_pos (by simpa using hc)] at h
      obtain ⟨rfl, hfilter⟩ := List.cons.inj h
      have hne : r ≠ [] := by
        rintro rfl
        exact hw.ne_nil hfilter.symm
      have hr : Spaced r := hspaced.tail hne
      by_cases hgap : r.head? = some '_'
      · obtain ⟨d, s, rfl⟩ := List.exists_cons_of_ne_nil hne
        obtain rfl := Option.some.inj hgap
        obtain ⟨hs, hshead⟩ := hr.behind
        rw [List.filter_cons_of_neg (by decide)] at hfilter
        exact ⟨['_'], s, rfl, .inr ⟨rfl, rfl⟩, grouped_of_filter hw hfilter hshead (hr.tail hs)⟩
      · exact ⟨[], r, rfl, .inl rfl, grouped_of_filter hw hfilter hgap hr⟩

theorem exists_withoutFraction {cs : List Char} (h : '.' ∉ withoutFraction cs) :
    ∃ fraction, cs = withoutFraction cs ++ fractionText fraction ∧ ∀ c ∈ fraction, c = '0' := by
  have hsplit := List.takeWhile_append_dropWhile (p := (· ≠ '.')) (l := cs)
  unfold withoutFraction at h ⊢
  split
  · rename_i d zeros hdrop
    rw [hdrop] at h hsplit
    dsimp only at h
    obtain rfl : d = '.' := by
      have hhead := List.head?_dropWhile_not (· ≠ '.') cs
      rw [hdrop] at hhead
      simpa using hhead
    split at h
    · rename_i hzeros
      refine ⟨zeros, ?_, by simpa using hzeros.2⟩
      rw [if_pos hzeros, fractionText, if_neg hzeros.1]
      exact hsplit.symm
    · refine absurd ?_ h
      rw [← hsplit]
      simp
  · exact ⟨[], (List.append_nil cs).symm, List.forall_mem_nil _⟩

/-- A text denotes one number at most. -/
theorem Denotes.unique {cs : List Char} {q q' : ℚ} (h : Denotes cs q) (h' : Denotes cs q') : q = q' := by
  obtain ⟨m, hm, hw, rfl⟩ := h
  obtain ⟨m', hm', hw', rfl⟩ := h'
  obtain ⟨u, hu, hstripped⟩ := hm.stripped hw
  obtain ⟨u', hu', hstripped'⟩ := hm'.stripped hw'
  rw [hu] at hu'
  obtain rfl := Option.some.inj hu'
  rw [hstripped.unique hstripped']

end SqlAst.Whole
