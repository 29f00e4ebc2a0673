import SqlAst.Proofs.Cleaning

/-!
# Texts of whole numbers

Which texts are read as whole numbers. Only a text that is already plain may be refused for its length, and the
number that it would have been is as long.

* `digits?_of_isWhole`, `digits?_ok`, `plain?_ok`: plain integers.
* `Numeral.Spelled.length_of_tooLong`: what is refused for its length is too long.
* `read_ok_iff`: the reader gives the whole number that a text denotes, up to a limit, and nothing else.
-/
namespace SqlAst.Whole

open Json (IsWhole signText signed fractionText)

/-! ## Plain integers -/

theorem digits?_of_isWhole {ds : List Char} (h : IsWhole ds) :
    digits? ds = if digitLimit < ds.length then .error .tooLong else .ok (Nat.ofDigitChars 10 ds 0) := by
  rcases h with rfl | ⟨c, r, rfl, hc, hd⟩
  · rfl
  · have hdecimal : ∀ d ∈ c :: r, Text.isDecimalDigit d = true :=
      fun d hd' => Json.isDecimalDigit_of_isDigit (hd d hd')
    have htake : (c :: r).takeWhile Text.isDecimalDigit = c :: r := List.takeWhile_eq_self_iff.2 hdecimal
    have hhead : (c :: r).head? ≠ some '0' := fun h => hc (Option.some.inj h)
    have hall : c :: r ≠ [] ∧ (c :: r).all Text.isDecimalDigit = true :=
      ⟨List.cons_ne_nil c r, List.all_eq_true.2 hdecimal⟩
    unfold digits?
    rw [if_neg (fun h => hc (List.cons.inj h).1), if_neg hhead, htake, if_pos hall]

theorem digits?_ok {cs : List Char} {n : Nat} (h : digits? cs = .ok n) :
    IsWhole cs ∧ cs.length ≤ digitLimit ∧ Nat.ofDigitChars 10 cs 0 = n := by
  have hw : IsWhole cs := by
    unfold digits? at h
    split at h
    · rename_i hzero
      exact .inl hzero
    · split at h
      · cases h
      · rename_i hhead
        split at h
        · cases h
        · split at h
          · rename_i hall
            obtain ⟨c, r, rfl⟩ := List.exists_cons_of_ne_nil hall.1
            refine .inr ⟨c, r, rfl, fun hc => hhead (congrArg some hc), fun d hd => ?_⟩
            exact isDigit_of_isDecimalDigit (List.all_eq_true.1 hall.2 d hd)
          · cases h
  rw [digits?_of_isWhole hw] at h
  split at h
  · cases h
  · rename_i hlength
    exact ⟨hw, Nat.not_lt.1 hlength, Except.ok.inj h⟩

theorem digits?_tooLong {cs : List Char} (h : digits? cs = .error .tooLong) :
    cs.head? ≠ some '0' ∧ digitLimit < (cs.takeWhile Text.isDecimalDigit).length := by
  unfold digits? at h
  split at h
  · cases h
  · split at h
    · cases h
    · rename_i hhead
      split at h
      · rename_i hlength
        exact ⟨hhead, hlength⟩
      · split at h <;> cases h

theorem plain?_signText (negative : Bool) {cs : List Char} (h : cs.head? ≠ some '-') :
    plain? (signText negative ++ cs) = (digits? cs).map (signed negative) := by
  cases negative with
  | true =>
    show plain? ('-' :: cs) = _
    rw [plain?.eq_1]
    cases digits? cs <;> rfl
  | false =>
    show plain? cs = _
    rw [plain?.eq_2]
    · cases digits? cs <;> rfl
    · rintro r rfl
      exact h rfl

/-- Every text is a sign and the rest. -/
theorem exists_signText (cs : List Char) :
    ∃ negative rest, cs = signText negative ++ rest ∧ plain? cs = (digits? rest).map (signed negative) := by
  by_cases h : cs.head? = some '-'
  · cases cs with
    | nil => cases h
    | cons c r =>
      obtain rfl := Option.some.inj h
      refine ⟨true, r, rfl, ?_⟩
      rw [plain?.eq_1]
      cases digits? r <;> rfl
  · exact ⟨false, cs, rfl, plain?_signText false h⟩

theorem plain?_ok {cs : List Char} {i : Int} (h : plain? cs = .ok i) :
    ∃ negative ds, cs = signText negative ++ ds ∧ IsWhole ds ∧ ds.length ≤ digitLimit ∧
      signed negative (Nat.ofDigitChars 10 ds 0) = i := by
  obtain ⟨negative, ds, hcs, hplain⟩ := exists_signText cs
  rw [h] at hplain
  cases hdigits : digits? ds with
  | error e =>
    rw [hdigits] at hplain
    cases hplain
  | ok n =>
    rw [hdigits] at hplain
    obtain ⟨hw, hlength, rfl⟩ := digits?_ok hdigits
    exact ⟨negative, ds, hcs, hw, hlength, (Except.ok.inj hplain).symm⟩

/-! ## What is read is spelled -/

theorem Denotes.of_plain {cs : List Char} {i : Int} (h : plain? cs = .ok i) : Denotes cs i := by
  obtain ⟨negative, ds, rfl, hw, -, hvalue⟩ := plain?_ok h
  have hsign : Sign (signText negative) negative := by
    cases negative
    · exact .none
    · exact .minus
  have hspelled : (Numeral.mk negative ds []).Spelled Front
      ([] ++ (signText negative ++ [] ++ (ds ++ fractionText [])) ++ []) :=
    .mk (List.forall_mem_nil _) (.early hsign (.inl rfl)) (grouped_self hw.ne_nil hw.isDigit)
      (List.forall_mem_nil _) (List.forall_mem_nil _)
  refine ⟨⟨negative, ds, []⟩, by simpa [fractionText] using hspelled, hw, ?_⟩
  exact (Numeral.value_eq_intCast_iff _ (List.forall_mem_nil _) i).2 ⟨List.forall_mem_nil _, hvalue⟩

theorem not_mem_point {negative : Bool} {ds : List Char} (hw : IsWhole ds) :
    '.' ∉ signText negative ++ ds := by
  intro hmem
  rcases List.mem_append.1 hmem with hmem | hmem
  · cases negative <;> simp [signText] at hmem
  · exact absurd (hw.isDigit _ hmem) (by decide)

theorem cleaned?_eq (cs : List Char) :
    cleaned? cs = (stripped? cs).map fun u => withoutUnderscores (withoutFraction u) := by
  unfold cleaned? stripped?
  cases withoutPlus (Text.trimBoth Text.isWhiteSpace cs) with
  | none => rfl
  | some t =>
    show (fromSign t).bind _ = (fromSign t).map _
    cases fromSign t <;> rfl

theorem Denotes.of_cleaned {cs p : List Char} {i : Int} (hp : cleaned? cs = some p) (h : plain? p = .ok i) :
    Denotes cs i := by
  rw [cleaned?_eq] at hp
  obtain ⟨u, hu, rfl⟩ := Option.map_eq_some_iff.1 hp
  obtain ⟨negative, ds, hplain, hw, -, hvalue⟩ := plain?_ok h
  obtain ⟨gap, whole, hbody, hgap, hwhole⟩ := exists_withoutUnderscores hplain hw
  have hpoint : '.' ∉ withoutFraction u := fun h =>
    not_mem_point hw (hplain ▸ Numeral.mem_withoutUnderscores h)
  obtain ⟨fraction, hfraction, hzeros⟩ := exists_withoutFraction hpoint
  have hdigits : ∀ c ∈ fraction, c.isDigit = true := fun c hc => by rw [hzeros c hc]; decide
  have hstripped : (Numeral.mk negative ds fraction).Stripped u := by
    rw [hfraction, hbody]
    simpa using Numeral.Stripped.mk (m := ⟨negative, ds, fraction⟩) hgap hwhole hdigits
  refine ⟨⟨negative, ds, fraction⟩, hstripped.spelled hu, hw, ?_⟩
  exact (Numeral.value_eq_intCast_iff _ hdigits i).2 ⟨hzeros, hvalue⟩

/-! ## Long numbers -/

/-- The digits in front of the first underscore or of the end are no more than all of them. -/
theorem Grouped.length_takeWhile_le {text digits : List Char} (h : Grouped text digits) {rest : List Char}
    (hrest : ∀ c ∈ rest.head?, Text.isDecimalDigit c = false) :
    ((text ++ rest).takeWhile Text.isDecimalDigit).length ≤ digits.length := by
  induction h with
  | @digit c hc =>
    have hsingle : ∀ d ∈ [c], d.isDigit = true := by simpa using hc
    rw [Json.takeWhile_digits hsingle hrest]
  | next hc _ ih =>
    rw [List.cons_append, List.takeWhile_cons_of_pos (Json.isDecimalDigit_of_isDigit hc)]
    exact Nat.succ_le_succ ih
  | apart hc _ _ =>
    rw [List.cons_append, List.takeWhile_cons_of_pos (Json.isDecimalDigit_of_isDigit hc), List.cons_append,
      List.takeWhile_cons_of_neg (by decide)]
    exact Nat.succ_le_succ (Nat.zero_le _)

/-- In front of a digit that is not zero there is only a minus sign, if digits go on behind. -/
theorem Front.eq_signText {lead : List Char} {negative : Bool} (h : Front lead negative) {c d : Char}
    {r s : List Char} {minus : Bool} (heq : lead ++ d :: s = signText minus ++ c :: r)
    (hc : c.isDigit = true) (hzero : c ≠ '0') (hd : d.isDigit = true) : lead = signText minus := by
  have hminus := (ne_of_isDigit hc (d := '-') (by decide)).symm
  have hplus := (ne_of_isDigit hc (d := '+') (by decide)).symm
  have hfirst := ne_of_isDigit hd (d := '-') (by decide)
  have hzero := hzero.symm
  cases h with
  | early hsign hpadding =>
    cases hsign <;> rcases hpadding with rfl | ⟨z, rfl, -⟩ <;> cases minus <;>
      simp_all [signText]
  | late hsign hpadding hne hgap =>
    rcases hpadding with rfl | ⟨z, rfl, -⟩
    · exact absurd rfl hne
    · cases hsign <;> cases minus <;> simp_all [signText]

theorem head?_fraction_append {fraction after : List Char}
    (hafter : ∀ c ∈ after, Text.isWhiteSpace c = true) :
    ∀ c ∈ (fractionText fraction ++ after).head?, Text.isDecimalDigit c = false := by
  intro c hc
  unfold fractionText at hc
  split at hc
  · have hblank := hafter c (List.mem_of_mem_head? hc)
    refine Bool.eq_false_iff.2 fun hdigit => ?_
    rw [isWhiteSpace_of_isDigit (isDigit_of_isDecimalDigit hdigit)] at hblank
    cases hblank
  · obtain rfl := Option.some.inj hc
    decide

/-- What is refused for its length begins with too many digits, behind a minus sign if any. -/
theorem exists_run_of_tooLong {cs : List Char} (h : plain? cs = .error .tooLong) :
    ∃ minus c r, cs = signText minus ++ c :: r ∧ c.isDigit = true ∧ c ≠ '0' ∧
      digitLimit < ((c :: r).takeWhile Text.isDecimalDigit).length := by
  obtain ⟨minus, rest, hcs, hplain⟩ := exists_signText cs
  have hdigits : digits? rest = .error .tooLong := by
    rw [h] at hplain
    cases hrest : digits? rest with
    | ok n =>
      rw [hrest] at hplain
      cases hplain
    | error e =>
      rw [hrest] at hplain
      exact congrArg Except.error (Except.error.inj hplain).symm
  obtain ⟨hhead, hrun⟩ := digits?_tooLong hdigits
  cases rest with
  | nil => exact absurd hrun (by simp)
  | cons c r =>
    refine ⟨minus, c, r, hcs, ?_, fun hzero => hhead (congrArg some hzero), hrun⟩
    by_contra hdigit
    have hdecimal : ¬ Text.isDecimalDigit c = true := fun h => hdigit (isDigit_of_isDecimalDigit h)
    rw [List.takeWhile_cons_of_neg hdecimal] at hrun
    exact absurd hrun (by simp)

/-- In front of a minus sign or a digit there are no blanks. -/
theorem eq_nil_of_blank {before text r : List Char} {c : Char} {minus : Bool}
    (hbefore : ∀ c ∈ before, Text.isWhiteSpace c = true) (hc : c.isDigit = true)
    (h : before ++ text = signText minus ++ c :: r) : before = [] := by
  cases before with
  | nil => rfl
  | cons b before =>
    have hblank := hbefore b List.mem_cons_self
    cases minus with
    | true =>
      rw [(List.cons.inj h).1] at hblank
      exact absurd hblank (by decide)
    | false =>
      rw [(List.cons.inj h).1, isWhiteSpace_of_isDigit hc] at hblank
      cases hblank

theorem Numeral.Spelled.length_of_tooLong {m : Numeral} {cs : List Char} (h : m.Spelled Front cs)
    (hlong : plain? cs = .error .tooLong) : digitLimit < m.whole.length := by
  obtain ⟨minus, c, r, hcs, hc, hzero, hrun⟩ := exists_run_of_tooLong hlong
  obtain ⟨hbefore, hlead, hwhole, -, hafter⟩ := h
  rename_i before lead whole after
  obtain ⟨d, s, t, hcons, -, hd⟩ := hwhole.exists_cons
  rw [List.append_assoc] at hcs
  obtain rfl := eq_nil_of_blank hbefore hc hcs
  have heq : lead ++ (whole ++ (fractionText m.fraction ++ after)) = signText minus ++ c :: r := by
    rw [← hcs]
    simp
  have hsign : lead = signText minus := by
    rw [hcons] at heq
    exact hlead.eq_signText heq hc hzero hd
  rw [hsign] at heq
  rw [← List.append_cancel_left heq] at hrun
  exact hrun.trans_le (hwhole.length_takeWhile_le (head?_fraction_append hafter))

/-! ## The reader -/

theorem read_eq (s : String) : read s =
    match plain? s.toList with
    | .error .malformed =>
      match (cleaned? s.toList).map plain? with
      | some (.ok n) => .ok n
      | _ => .error .malformed
    | result => result := rfl

theorem natAbs_signed (negative : Bool) (n : Nat) : (signed negative n).natAbs = n := by
  cases negative
  · rfl
  · exact Int.natAbs_neg n

theorem natAbs_lt_of_plain {cs : List Char} {i : Int} (h : plain? cs = .ok i) :
    i.natAbs < 10 ^ digitLimit := by
  obtain ⟨negative, ds, -, hw, hlength, rfl⟩ := plain?_ok h
  rw [natAbs_signed]
  exact (hw.length_le_iff (by decide)).1 hlength

/-- What is read is denoted, and it is not too long. -/
theorem read_ok {s : String} {i : Int} (h : read s = .ok i) :
    Denotes s.toList i ∧ i.natAbs < 10 ^ digitLimit := by
  rw [read_eq] at h
  cases hplain : plain? s.toList with
  | ok n =>
    rw [hplain] at h
    obtain rfl := Except.ok.inj h
    exact ⟨.of_plain hplain, natAbs_lt_of_plain hplain⟩
  | error e =>
    rw [hplain] at h
    cases e with
    | tooLong => cases h
    | malformed =>
      dsimp only at h
      split at h
      · rename_i n hn
        obtain rfl := Except.ok.inj h
        obtain ⟨p, hp, hread⟩ := Option.map_eq_some_iff.1 hn
        exact ⟨.of_cleaned hp hread, natAbs_lt_of_plain hread⟩
      · cases h

/-- A text is read as a whole number exactly if it denotes this number, and the number is not too long. -/
theorem read_ok_iff (s : String) (i : Int) :
    read s = .ok i ↔ Denotes s.toList i ∧ i.natAbs < 10 ^ digitLimit := by
  refine ⟨read_ok, fun ⟨hdenotes, hshort⟩ => ?_⟩
  obtain ⟨m, hspelled, hw, hvalue⟩ := id hdenotes
  obtain ⟨u, hu, hstripped⟩ := hspelled.stripped hw
  obtain ⟨hzeros, hi⟩ := (m.value_eq_intCast_iff hstripped.isDigit_fraction i).1 hvalue
  have hlength : m.whole.length ≤ digitLimit := by
    rw [← hi, natAbs_signed] at hshort
    exact (hw.length_le_iff (by decide)).2 hshort
  rw [read_eq]
  cases hplain : plain? s.toList with
  | ok j =>
    have hsame : (j : ℚ) = i := (Denotes.of_plain hplain).unique hdenotes
    exact congrArg Except.ok (Int.cast_injective hsame)
  | error e =>
    cases e with
    | tooLong => exact absurd (hspelled.length_of_tooLong hplain) (Nat.not_lt.2 hlength)
    | malformed =>
      have hcleaned : cleaned? s.toList = some m.plain := by
        rw [cleaned?_eq, hu, Option.map_some]
        rcases hstripped.cleaned with ⟨h, -⟩ | ⟨-, h⟩
        · exact congrArg some h
        · exact absurd hzeros h
      have hread : plain? m.plain = .ok i := by
        rw [Numeral.plain, plain?_signText _ (by simpa using hw.head_ne []), digits?_of_isWhole hw,
          if_neg (Nat.not_lt.2 hlength), ← hi]
        rfl
      rw [hcleaned, Option.map_some, hread]

end SqlAst.Whole
