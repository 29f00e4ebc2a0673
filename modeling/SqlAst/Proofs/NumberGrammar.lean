import SqlAst.Proofs.JsonGrammar

/-!
# What is read as a number

The reader takes the longest beginning of a text that is a number of the grammar, and nothing else: sign,
digits, fraction and exponent are found one behind the other.

* `exists_parts`: the parts that the reader finds make up a number of the grammar.
* `number?_eq`: the token for these parts is the one of this number.
* `exists_numeral`: what is read as a number is a number of the grammar.
-/
namespace SqlAst.Json

/-! ## Parts -/

theorem isDigit_of_mem_takeWhile {cs : List Char} {c : Char} (h : c ∈ cs.takeWhile Text.isDecimalDigit) :
    c.isDigit = true := by
  have hdigit := List.all_eq_true.1 List.all_takeWhile c h
  simp only [Text.isDecimalDigit, Bool.and_eq_true, decide_eq_true_eq] at hdigit
  simp only [Char.isDigit, Bool.and_eq_true, decide_eq_true_eq]
  exact hdigit

/-- A sign, if there is one. -/
def signChars : Option Sign → List Char
  | none => []
  | some .plus => ['+']
  | some .minus => ['-']

theorem isWhole_wholeDigits {cs : List Char} (h : wholeDigits cs ≠ []) :
    IsWhole (wholeDigits cs) ∧ wholeDigits cs <+: cs := by
  unfold wholeDigits at h ⊢
  split at h
  · exact ⟨.inl rfl, ⟨_, rfl⟩⟩
  · rename_i hzero
    have hprefix := List.takeWhile_prefix (l := cs) Text.isDecimalDigit
    obtain ⟨c, r, hdigits⟩ := List.exists_cons_of_ne_nil h
    refine ⟨.inr ⟨c, r, hdigits, ?_, fun x hx => isDigit_of_mem_takeWhile hx⟩, hprefix⟩
    rintro rfl
    rw [hdigits] at hprefix
    obtain ⟨rest, rfl⟩ := hprefix
    exact hzero _ rfl

theorem fractionText_prefix (cs : List Char) :
    (∀ c ∈ fractionDigits cs, c.isDigit = true) ∧ fractionText (fractionDigits cs) <+: cs := by
  unfold fractionDigits
  split
  · rename_i r
    refine ⟨fun c hc => isDigit_of_mem_takeWhile hc, ?_⟩
    unfold fractionText
    split
    · exact List.nil_prefix
    · exact List.cons_prefix_cons.2 ⟨rfl, List.takeWhile_prefix _⟩
  · exact ⟨fun c hc => (nomatch hc), List.nil_prefix⟩

/-- An exponent whose sign, if it has one, is known. -/
theorem exponent?_cons (e : Char) (x : Option Sign) (rest : List Char)
    (h : x = none → ∀ c ∈ rest.head?, ¬ (c = '+' ∨ c = '-')) :
    exponent? (e :: (signChars x ++ rest)) =
      if e = 'e' ∨ e = 'E' then
        if rest.takeWhile Text.isDecimalDigit = [] then none
        else some (signed (x = some .minus) (Nat.ofDigitChars 10 (rest.takeWhile Text.isDecimalDigit) 0),
          1 + (signChars x).length + (rest.takeWhile Text.isDecimalDigit).length)
      else none := by
  cases x with
  | some sign => cases sign <;> rfl
  | none =>
    cases rest with
    | nil => rfl
    | cons c rest =>
      have hsign : ¬ (c = '+' ∨ c = '-') := h rfl c rfl
      simp only [exponent?, signChars, List.nil_append, if_neg hsign]
      rfl

theorem exists_signChars (r : List Char) :
    ∃ x rest, r = signChars x ++ rest ∧ (x = none → ∀ c ∈ rest.head?, ¬ (c = '+' ∨ c = '-')) := by
  cases r with
  | nil => exact ⟨none, [], rfl, fun _ c hc => (nomatch hc)⟩
  | cons c rest =>
    by_cases hplus : c = '+'
    · exact ⟨some .plus, rest, by rw [hplus]; rfl, nofun⟩
    by_cases hminus : c = '-'
    · exact ⟨some .minus, rest, by rw [hminus]; rfl, nofun⟩
    · exact ⟨none, c :: rest, rfl, fun _ d hd => by simp [← Option.some.inj hd, hplus, hminus]⟩

theorem exists_exponent {cs : List Char} {v : Int} {k : Nat} (h : exponent? cs = some (v, k)) :
    ∃ x : Exponent, x.value = v ∧ x.text.length = k ∧ x.text <+: cs := by
  cases cs with
  | nil => cases h
  | cons e r =>
    obtain ⟨sign, rest, rfl, hnone⟩ := exists_signChars r
    rw [exponent?_cons e sign rest hnone] at h
    split at h
    · rename_i he
      split at h
      · cases h
      · rename_i hne
        obtain ⟨hvalue, hlength⟩ := Prod.mk.inj (Option.some.inj h)
        let x : Exponent := ⟨decide (e = 'E'), sign, _, hne, fun c hc => isDigit_of_mem_takeWhile hc⟩
        have hmark : (if x.upper then 'E' else 'e') = e := by
          rcases he with rfl | rfl <;> rfl
        have hsign : x.signChars = signChars sign := by
          cases sign with
          | none => rfl
          | some sign => cases sign <;> rfl
        refine ⟨x, hvalue, ?_, ?_⟩
        · rw [← hlength, Exponent.text, hsign, List.length_cons, List.length_append, Nat.add_comm, Nat.add_assoc]
        · rw [Exponent.text, hsign, hmark]
          exact List.cons_prefix_cons.2 ⟨rfl, (List.prefix_append_right_inj _).2 (List.takeWhile_prefix _)⟩
    · cases h

/-! ## Whole numbers -/

/-- The parts that the reader finds make up a number of the grammar. -/
theorem exists_parts {body : List Char} (negative : Bool) (h : wholeDigits body ≠ []) :
    ∃ n : Numeral, n.negative = negative ∧ n.whole = wholeDigits body ∧
      n.fraction = fractionDigits (body.drop n.whole.length) ∧
      (n.exponent.map fun x => (x.value, x.text.length)) =
        exponent? ((body.drop n.whole.length).drop (fractionText n.fraction).length) ∧
      n.text <+: signText negative ++ body := by
  obtain ⟨hwhole, r, hbody⟩ := isWhole_wholeDigits h
  obtain ⟨hdigits, rest, hr⟩ := fractionText_prefix r
  have hafter : body.drop (wholeDigits body).length = r :=
    (congrArg (List.drop (wholeDigits body).length) hbody).symm.trans List.drop_left
  have hrest : r.drop (fractionText (fractionDigits r)).length = rest :=
    (congrArg (List.drop (fractionText (fractionDigits r)).length) hr).symm.trans List.drop_left
  obtain ⟨x, hx, hprefix⟩ : ∃ x : Option Exponent, (x.map fun x => (x.value, x.text.length)) = exponent? rest ∧
      (x.map Exponent.text).getD [] <+: rest := by
    cases hexponent : exponent? rest with
    | none => exact ⟨none, rfl, List.nil_prefix⟩
    | some p =>
      obtain ⟨x, hvalue, hlength, hprefix⟩ := exists_exponent hexponent
      exact ⟨some x, by rw [Option.map_some, hvalue, hlength], hprefix⟩
  refine ⟨⟨negative, wholeDigits body, fractionDigits r, x, hwhole, hdigits⟩, rfl, rfl, ?_, ?_, ?_⟩
  · rw [hafter]
  · rw [hafter, hrest]
    exact hx
  · rw [Numeral.text, List.prefix_append_right_inj]
    conv_rhs => rw [← hbody]
    rw [List.prefix_append_right_inj]
    conv_rhs => rw [← hr]
    rw [List.prefix_append_right_inj]
    exact hprefix

/-- The token for a number with these parts. -/
theorem number?_eq {body : List Char} {n : Numeral} (hne : wholeDigits body ≠ [])
    (hwhole : n.whole = wholeDigits body) (hfraction : n.fraction = fractionDigits (body.drop n.whole.length))
    (hexponent : (n.exponent.map fun x => (x.value, x.text.length)) =
      exponent? ((body.drop n.whole.length).drop (fractionText n.fraction).length)) :
    number? (signText n.negative ++ body) = some (n.token, n.text.length) := by
  obtain ⟨hw, r, hbody⟩ := isWhole_wholeDigits hne
  have hhead : body.head? ≠ some '-' := hbody ▸ hw.head_ne r
  have hne' : n.whole ≠ [] := hwhole ▸ hne
  have hread : number? (signText n.negative ++ body) =
      if n.fraction = [] ∧ (n.exponent.map fun x => (x.value, x.text.length)) = none then
        some (if digitLimit < n.whole.length then .oversized
          else .atom (.int (signed n.negative (Nat.ofDigitChars 10 n.whole 0)))
            (.ofDigits n.negative n.whole.length),
          (signText n.negative).length + n.whole.length)
      else
        some (.atom (.float (.nearest n.negative (Nat.ofDigitChars 10 (n.whole ++ n.fraction) 0)
          (((n.exponent.map fun x => (x.value, x.text.length)).getD (0, 0)).1 - n.fraction.length)))
          (.ofDigits n.negative n.whole.length),
          (signText n.negative).length + n.whole.length + (fractionText n.fraction).length +
            ((n.exponent.map fun x => (x.value, x.text.length)).getD (0, 0)).2) := by
    cases n.negative with
    | true =>
      show number? ('-' :: body) = _
      simp only [number?, List.head?_cons, if_true, List.drop_succ_cons, List.drop_zero, ← hwhole, ← hfraction,
        ← length_fractionText, ← hexponent, hne', if_false, decide_true]
      rfl
    | false =>
      show number? body = _
      simp only [number?, hhead, if_false, ← hwhole, ← hfraction,
        ← length_fractionText, ← hexponent, hne', decide_false]
      rfl
  rw [hread, Numeral.token, Numeral.text, Numeral.value, Numeral.isInteger, Numeral.exponentText]
  cases hx : n.exponent with
  | none =>
    by_cases hf : n.fraction = []
    · simp [hf, fractionText]
    · simp [hf, Nat.add_assoc]
  | some x => simp [Nat.add_assoc]

/-- What is read as a number is a number of the grammar. -/
theorem exists_numeral {cs : List Char} {token : Token} {k : Nat} (h : number? cs = some (token, k)) :
    ∃ n : Numeral, n.text = cs.take k ∧ n.token = token := by
  obtain ⟨negative, body, rfl, hne⟩ : ∃ negative body, cs = signText negative ++ body ∧
      wholeDigits body ≠ [] := by
    by_cases hhead : cs.head? = some '-'
    · obtain ⟨body, rfl⟩ := List.head?_eq_some_iff.1 hhead
      refine ⟨true, body, rfl, fun hempty => ?_⟩
      simp [number?, hempty] at h
    · refine ⟨false, cs, rfl, fun hempty => ?_⟩
      simp [number?, hhead, hempty] at h
  obtain ⟨n, rfl, hwhole, hfraction, hexponent, hprefix⟩ := exists_parts negative hne
  rw [number?_eq hne hwhole hfraction hexponent] at h
  obtain ⟨htoken, hlength⟩ := Prod.mk.inj (Option.some.inj h)
  exact ⟨n, by rw [← hlength]; exact List.prefix_iff_eq_take.1 hprefix, htoken⟩

end SqlAst.Json
