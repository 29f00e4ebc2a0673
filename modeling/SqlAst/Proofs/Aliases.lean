import SqlAst.Proofs.TokenStream

/-!
# Aliases

An alias is written behind AS by the rules for any name, and these read more than letters: what holds a
parenthesis or starts with an apostrophe is taken for a computed column, a point parts a name, and the star
stays bare. An alias with none of these is one quoted identifier, whatever else it holds.

* `Sql.weight_scan_le`: a text is at least as long as the names that are read from it, with their marks.
* `Sql.tokens_ne_name`: so what is written as it is never reads as a name of all its characters.
* `Sql.nameTrees_eq_single_iff`: the names of one part.
* `Labelled.reads_alias`: what is read of an alias, wherever it stands.
-/
namespace SqlAst

/-! ## The room that names take -/

namespace Sql

variable {d : Dialect}

/-- How much of a text a name takes at the least: its characters and two marks. -/
def Token.weight : Token → Nat
  | .atom (.name part) => part.length + 2
  | _ => 0

/-- How much of a text was taken for the name at hand. -/
def Mode.weight : Mode → Nat
  | .name done => done.length + 1
  | .nameMark done => done.length + 2
  | _ => 0

def weight (ts : List Token) : Nat := (ts.map Token.weight).sum

@[simp] theorem weight_append (ts us : List Token) : weight (ts ++ us) = weight ts + weight us := by
  simp [weight]

theorem weight_close_le (m : Mode) : weight m.close ≤ m.weight := by
  cases m with
  | run kind done => cases kind <;> simp [weight, Mode.close, Token.weight, Run.atom]
  | _ => simp [weight, Mode.close, Token.weight, Mode.weight]

theorem weight_start_le (c : Char) : weight (d.start c).1 + (d.start c).2.weight ≤ 1 := by
  simp only [Dialect.start, apply_ite Prod.fst, apply_ite Prod.snd, apply_ite weight, apply_ite Mode.weight]
  simp only [weight, Token.weight, Mode.weight, List.map_nil, List.map_cons, List.sum_nil, List.sum_cons]
  split_ifs <;> simp

theorem weight_restart_le (m : Mode) (c : Char) :
    weight (d.restart m c).1 + (d.restart m c).2.weight ≤ m.weight + 1 := by
  have hclose := weight_close_le m
  have hstart := weight_start_le (d := d) c
  rw [Dialect.restart]
  dsimp only
  rw [weight_append]
  omega

/-- A character adds no more than one to what names have taken. -/
theorem weight_step_le (m : Mode) (c : Char) :
    weight (d.step m c).1 + (d.step m c).2.weight ≤ m.weight + 1 := by
  have hrestart := weight_restart_le (d := d) m c
  cases m with
  | between => exact (weight_start_le c).trans (Nat.le_add_left 1 _)
  | run kind done =>
    rw [Dialect.step]
    split
    · simp [weight, Mode.weight]
    · exact hrestart
  | name done =>
    rw [Dialect.step]
    split <;> simp [weight, Mode.weight]
  | nameMark done =>
    rw [Dialect.step]
    split
    · simp [weight, Mode.weight]
    · exact hrestart
  | text done =>
    rw [Dialect.step]
    split
    · simp [weight, Mode.weight]
    · split <;> simp [weight, Mode.weight]
  | textMark done =>
    rw [Dialect.step]
    split
    · simp [weight, Mode.weight]
    · exact hrestart
  | textEscape done => simp [Dialect.step, weight, Mode.weight]

/-- A text is at least as long as the names that are read from it, with their marks. -/
theorem weight_scan_le (m : Mode) (cs : List Char) : weight (d.scan m cs) ≤ m.weight + cs.length := by
  induction cs generalizing m with
  | nil => exact weight_close_le m
  | cons c r ih =>
    have hstep := weight_step_le (d := d) m c
    have hrest := ih (d.step m c).2
    rw [Dialect.scan, weight_append, List.length_cons]
    omega

/-- No text is read as the name of all its characters: there is no room for the marks. -/
theorem tokens_ne_name (d : Dialect) (s : String) : d.tokens s ≠ [.atom (.name s.toList)] := by
  intro h
  have hroom := weight_scan_le (d := d) .between s.toList
  rw [← Dialect.tokens, h] at hroom
  simp only [weight, Token.weight, Mode.weight, List.map_cons, List.map_nil, List.sum_cons, List.sum_nil] at hroom
  omega

/-! ## Names of one part -/

theorem length_splitOn (sep : Char) (cs : List Char) :
    (Text.splitOn sep cs).length = cs.count sep + 1 := by
  induction cs with
  | nil => rfl
  | cons c r ih =>
    by_cases hc : c = sep
    · simp [Text.splitOn, hc, ih]
    · rw [Text.splitOn, if_neg hc, List.count_cons_of_ne hc, ← ih]
      cases hr : Text.splitOn sep r with
      | nil => exact absurd hr (Text.splitOn_ne_nil sep r)
      | cons part parts => rfl

theorem splitOn_of_notMem {sep : Char} {cs : List Char} (h : sep ∉ cs) : Text.splitOn sep cs = [cs] := by
  have hlength := length_splitOn sep cs
  rw [List.count_eq_zero.mpr h] at hlength
  obtain ⟨part, hpart⟩ := List.length_eq_one_iff.mp hlength
  have hjoined := Text.intercalate_splitOn sep cs
  rw [hpart, List.intercalate_singleton] at hjoined
  rw [hpart, hjoined]

theorem nameTrees_eq_single_iff (s : String) :
    nameTrees s = [.leaf (.name s.toList)] ↔ '.' ∉ s.toList ∧ s ≠ "*" := by
  have hstar : s.toList = ['*'] ↔ s = "*" := by
    rw [← String.toList_inj]
    rfl
  constructor
  · intro h
    have hpoint : '.' ∉ s.toList := by
      intro hmem
      have hcount := length_splitOn '.' s.toList
      have hpos := List.count_pos_iff.mpr hmem
      rw [nameTrees] at h
      match hparts : Text.splitOn '.' s.toList with
      | [] => exact Text.splitOn_ne_nil _ _ hparts
      | [part] =>
        rw [hparts, List.length_singleton] at hcount
        omega
      | first :: second :: more =>
        rw [hparts, List.map_cons, List.map_cons, List.intercalate_cons_cons] at h
        simp at h
    refine ⟨hpoint, fun hs => ?_⟩
    rw [nameTrees, splitOn_of_notMem hpoint, hstar.mpr hs] at h
    simp [partTree] at h
  · rintro ⟨hpoint, hs⟩
    rw [nameTrees, splitOn_of_notMem hpoint]
    simp [partTree, mt hstar.mp hs]

end Sql

open Sql

/-! ## What an alias is taken for -/

/-- A text that is taken for a computed column: it holds a parenthesis or starts with an apostrophe. -/
def LooksComputed (s : String) : Prop := '(' ∈ s.toList ∨ ')' ∈ s.toList ∨ s.toList.head? = some '\''

instance (s : String) : Decidable (LooksComputed s) :=
  inferInstanceAs (Decidable ('(' ∈ s.toList ∨ ')' ∈ s.toList ∨ s.toList.head? = some '\''))

/-- A text that stands between quotation marks already. -/
def Sql.Dialect.Wraps (d : Dialect) (s : String) : Prop :=
  2 ≤ s.toList.length ∧ [d.mark] <+: s.toList ∧ [d.mark] <:+ s.toList

instance (d : Dialect) (s : String) : Decidable (d.Wraps s) :=
  inferInstanceAs (Decidable (2 ≤ s.toList.length ∧ [d.mark] <+: s.toList ∧ [d.mark] <:+ s.toList))

/-- A name of one part. -/
def IsOnePart (s : String) : Prop := ¬ LooksComputed s ∧ '.' ∉ s.toList ∧ s ≠ "*"

instance (s : String) : Decidable (IsOnePart s) :=
  inferInstanceAs (Decidable (¬ LooksComputed s ∧ '.' ∉ s.toList ∧ s ≠ "*"))

/-- Behind a quotation mark a text has as much to count as it has characters, as far as this matters. -/
theorem Sql.Dialect.two_le_length_points (d : Dialect) {cs : List Char} (h : [d.mark] <+: cs) :
    2 ≤ (Text.points cs).length ↔ 2 ≤ cs.length := by
  obtain ⟨rest, rfl⟩ := h
  have hmark : d.mark ≠ Text.halfMark := by cases d <;> decide
  rw [List.singleton_append, Text.points_cons hmark]
  cases rest with
  | nil => exact Iff.rfl
  | cons c rest =>
    have hne : Text.points (c :: rest) ≠ [] := mt Text.points_eq_nil_iff.mp (List.cons_ne_nil c rest)
    have hpos := List.length_pos_iff.mpr hne
    simp only [List.length_cons]
    omega

theorem isPlain_iff (d : Dialect) (s : String) : d.IsPlain s ↔ ¬ LooksComputed s ∧ ¬ d.Wraps s := by
  rw [Dialect.IsPlain, Flavor.isExpression, quote_toList, ← Bool.not_eq_true, ← not_or]
  refine not_congr ?_
  simp only [LooksComputed, Dialect.Wraps, Bool.or_eq_true, Bool.and_eq_true, List.any_eq_true,
    decide_eq_true_eq, List.isPrefixOf_iff_prefix, List.isSuffixOf_iff_suffix]
  constructor
  · rintro ((⟨c, hc, rfl | rfl⟩ | happ) | ⟨⟨hlength, hpre⟩, hsuf⟩)
    · exact .inl (.inl hc)
    · exact .inl (.inr (.inl hc))
    · exact .inl (.inr (.inr happ))
    · exact .inr ⟨(d.two_le_length_points hpre).mp hlength, hpre, hsuf⟩
  · rintro ((hc | hc | happ) | ⟨hlength, hpre, hsuf⟩)
    · exact .inl (.inl ⟨_, hc, .inl rfl⟩)
    · exact .inl (.inl ⟨_, hc, .inr rfl⟩)
    · exact .inl (.inr happ)
    · exact .inr ⟨⟨(d.two_le_length_points hpre).mpr hlength, hpre⟩, hsuf⟩

theorem Flavor.escapeName_of_isExpression {f : Flavor} {s : String} (h : f.isExpression s = true) :
    f.escapeName s = s := if_pos (.inr h)

/-! ## Where aliases stand -/

/-- What an alias can be given to: a field of a select list, a named table, or the result of a statement. -/
inductive Labelled where
  | field (name : String)
  | named (name : String)
  | nested (query : Select)

namespace Labelled

/-- It is written with an alias. -/
def render (f : Flavor) (fallback label : String) : Labelled → String
  | field name => SelectField.render f ⟨name, some label⟩
  | named name => Table.render f fallback ⟨.name name, some label⟩
  | nested query => Table.render f fallback ⟨.query query, some label⟩

/-- What stands in front of AS. -/
def bare (f : Flavor) (fallback : String) : Labelled → String
  | field name | named name => f.escapeName name
  | nested query => parenthesised (query.render f fallback)

variable {label : String}

theorem render_eq (site : Labelled) (f : Flavor) (fallback : String) (h : label ≠ "") :
    site.render f fallback label = site.bare f fallback ++ " AS " ++ f.escapeName label := by
  cases site with
  | field name => exact if_neg h
  | named name =>
    rw [render, Table.render]
    exact if_neg h
  | nested query =>
    rw [render, Table.render, Option.getD_some, if_neg h]
    exact if_neg h

/-- Behind AS stands the alias as any name is written. It is read as one identifier of all its characters
exactly if it has no point, is not the star and does not look computed, and then wherever it stands. A computed
one is written as it is, and any other is read as its dotted parts, of which stars are bare. -/
theorem reads_alias (site : Labelled) (d : Dialect) (fallback : String) (hne : label ≠ "")
    (hopen : ¬ d.Wraps label) :
    site.render d.flavor fallback label =
        site.bare d.flavor fallback ++ " AS " ++ d.flavor.escapeName label ∧
      (d.tokens (d.flavor.escapeName label) = [.atom (.name label.toList)] ↔ IsOnePart label) ∧
      (Spells d (d.flavor.escapeName label).toList [.leaf (.name label.toList)] ↔ IsOnePart label) ∧
      (LooksComputed label → d.flavor.escapeName label = label) ∧
      (¬ LooksComputed label → Spells d (d.flavor.escapeName label).toList (nameTrees label)) := by
  have hcomputed : LooksComputed label → d.flavor.escapeName label = label := by
    intro h
    refine Flavor.escapeName_of_isExpression ?_
    rw [← Bool.not_eq_false]
    exact fun hplain => ((isPlain_iff d label).mp hplain).1 h
  have hparts : ¬ LooksComputed label → Spells d (d.flavor.escapeName label).toList (nameTrees label) :=
    fun h => spells_name ((isPlain_iff d label).mpr ⟨h, hopen⟩)
  have hone : IsOnePart label →
      Spells d (d.flavor.escapeName label).toList [.leaf (.name label.toList)] := by
    rintro ⟨hplain, hsingle⟩
    rw [← (nameTrees_eq_single_iff label).mpr hsingle]
    exact hparts hplain
  have halone {ts : List Tree} (h : Spells d (d.flavor.escapeName label).toList ts) :
      d.tokens (d.flavor.escapeName label) = tokensOf ts := by
    have hend := h [] ends_nil
    rwa [List.append_nil, ← Dialect.tokens, Dialect.scan, Mode.close, List.append_nil] at hend
  have honly : d.tokens (d.flavor.escapeName label) = [.atom (.name label.toList)] →
      IsOnePart label := by
    intro h
    have hplain : ¬ LooksComputed label := by
      intro hlooks
      rw [hcomputed hlooks] at h
      exact tokens_ne_name d label h
    have htrees := congrArg nest ((halone (hparts hplain)).symm.trans h)
    rw [nest_tokens] at htrees
    exact ⟨hplain, (nameTrees_eq_single_iff label).mp (Option.some.inj htrees)⟩
  exact ⟨site.render_eq d.flavor fallback hne, ⟨honly, fun h => halone (hone h)⟩,
    ⟨fun h => honly (halone h), hone⟩, hcomputed, hparts⟩

/-- A nested statement with an alias that holds a mark, a blank and a comma. -/
def markedLabel : String := "o\x60clock, sharp's"

theorem reads_markedLabel :
    let site : Labelled := .nested { tables := [⟨.name "a", none⟩] }
    let text := "\x60o\x60\x60clock, sharp's\x60"
    markedLabel ≠ "" ∧ ¬ Dialect.mysql.Wraps markedLabel ∧
      site.render .mysql "t" markedLabel = "(SELECT * FROM \x60a\x60) AS " ++ text ∧
      Dialect.mysql.tokens text = [.atom (.name markedLabel.toList)] := by
  intro site text
  have hne : markedLabel ≠ "" := by decide
  have hopen : ¬ Dialect.mysql.Wraps markedLabel := by decide
  have hbare : site.bare .mysql "t" ++ " AS " = "(SELECT * FROM \x60a\x60) AS " := rfl
  have htext : Flavor.mysql.escapeName markedLabel = text := by decide
  obtain ⟨hrender, hone, -⟩ := site.reads_alias .mysql "t" hne hopen
  have hsingle : IsOnePart markedLabel := by decide
  rw [← htext, ← hbare]
  exact ⟨hne, hopen, hrender, hone.mpr hsingle⟩

/-- A point in an alias makes two identifiers of it. -/
theorem dottedAlias_splits :
    "a.b" ≠ "" ∧ ¬ Dialect.mysql.Wraps "a.b" ∧
      (Labelled.field "price").render .mysql "t" "a.b" = "\x60price\x60 AS \x60a\x60.\x60b\x60" ∧
      ¬ ∃ text, (Labelled.field "price").render .mysql "t" "a.b" =
          (Labelled.field "price").bare .mysql "t" ++ " AS " ++ text ∧
        Dialect.mysql.tokens text = [.atom (.name "a.b".toList)] := by
  refine ⟨by decide, by decide, rfl, ?_⟩
  rintro ⟨text, hrender, htokens⟩
  have hchars : "\x60price\x60 AS ".toList ++ "\x60a\x60.\x60b\x60".toList =
      "\x60price\x60 AS ".toList ++ text.toList := by
    rw [← String.toList_append, ← String.toList_append]
    exact congrArg String.toList hrender
  have htext : "\x60a\x60.\x60b\x60" = text := String.toList_inj.mp (List.append_cancel_left hchars)
  subst htext
  revert htokens
  decide

end Labelled

end SqlAst
