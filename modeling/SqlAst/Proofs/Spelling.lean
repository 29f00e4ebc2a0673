import Mathlib.Data.List.Forall2
import SqlAst.Proofs.DoubleText
import SqlAst.Proofs.Tokens

/-!
# Spelled tokens

`Spells d cs ts`: wherever the characters `cs` stand between tokens and a blank, a comma, a closing
parenthesis or nothing follows, they are read as the trees `ts`. Pieces of text that are spelled are put
together by `Spells.append`, `Closed.append`, `Gap.follows` and `spells_intercalate`.

* `spells_name`: a name that is no expression is read as its dotted parts, whatever characters these hold.
* `spells_text`: a text literal is read as one token that denotes the text.
* `spells_literal`: every literal value is read as one token.
-/
namespace SqlAst.Sql

/-! ## Pieces of text -/

/-- The characters that end any token but a quoted one. -/
def isEnd (c : Char) : Prop := c = ' ' ∨ c = ',' ∨ c = ')'

/-- What may follow a token. -/
def Ends (cs : List Char) : Prop := ∀ c ∈ cs.head?, isEnd c

def Spells (d : Dialect) (cs : List Char) (ts : List Tree) : Prop :=
  ∀ rest, Ends rest → d.scan .between (cs ++ rest) = tokensOf ts ++ d.scan .between rest

/-- The characters are read as the trees, and no token is left open behind them. -/
def Closed (d : Dialect) (cs : List Char) (ts : List Tree) : Prop :=
  d.runFrom .between cs = (tokensOf ts, .between)

/-- A piece that may follow a spelled one. -/
def Follows (d : Dialect) (cs : List Char) (ts : List Tree) : Prop := Ends cs ∧ Spells d cs ts

/-- A closed piece that ends the token before it. -/
def Gap (d : Dialect) (cs : List Char) (ts : List Tree) : Prop :=
  (∃ c ∈ cs.head?, isEnd c) ∧ Closed d cs ts

/-- Texts that are spelled one by one. -/
def EachSpells (d : Dialect) : List String → List (List Tree) → Prop :=
  List.Forall₂ fun s ts => Spells d s.toList ts

variable {d : Dialect} {a b : List Char} {ts us : List Tree}

theorem ends_nil : Ends [] := by simp [Ends]

theorem ends_cons {c : Char} {r : List Char} (h : isEnd c) : Ends (c :: r) := by simpa [Ends] using h

theorem Ends.append (ha : Ends a) (hb : Ends b) : Ends (a ++ b) := by
  cases a with
  | nil => exact hb
  | cons c r => exact ha

theorem spells_nil : Spells d [] [] := fun _ _ => rfl

theorem follows_nil : Follows d [] [] := ⟨ends_nil, spells_nil⟩

/-- A text on its own is read as what it spells. -/
theorem Spells.tokens_eq {s : String} (h : Spells d s.toList ts) : d.tokens s = tokensOf ts := by
  have hend := h [] ends_nil
  rw [List.append_nil] at hend
  rw [Dialect.tokens, hend]
  simp [Dialect.scan, Mode.close]

theorem Spells.append (ha : Spells d a ts) (hb : Follows d b us) : Spells d (a ++ b) (ts ++ us) := by
  intro rest hr
  rw [List.append_assoc, ha _ (hb.1.append hr), hb.2 rest hr, tokensOf_append, List.append_assoc]

theorem Closed.append (ha : Closed d a ts) (hb : Spells d b us) : Spells d (a ++ b) (ts ++ us) := by
  intro rest hr
  rw [List.append_assoc, scan_append, ha, hb rest hr, tokensOf_append, List.append_assoc]

theorem Closed.spells (ha : Closed d a ts) : Spells d a ts := by
  intro rest _
  rw [scan_append, ha]

/-- Between parentheses, spelled trees are one group. -/
theorem Spells.parenthesised (ha : Spells d a ts) : Spells d ('(' :: a ++ [')']) [.group ts] := by
  intro rest _
  have ho : d.step .between '(' = ([.opening], .between) := by cases d <;> rfl
  have hc : d.step .between ')' = ([.closing], .between) := by cases d <;> rfl
  rw [List.cons_append, List.cons_append, List.append_assoc, List.singleton_append, Dialect.scan, ho,
    ha _ (ends_cons (.inr (.inr rfl))), Dialect.scan, hc]
  simp [tokensOf, Tree.tokens]

/-- A closed piece that starts with a blank. -/
theorem Closed.gap (ha : Closed d a ts) (hblank : a.head? = some ' ') : Gap d a ts :=
  ⟨⟨' ', hblank, .inl rfl⟩, ha⟩

theorem Gap.follows (ha : Gap d a ts) (hb : Spells d b us) : Follows d (a ++ b) (ts ++ us) := by
  obtain ⟨⟨c, hc, hend⟩, hclosed⟩ := ha
  refine ⟨?_, hclosed.append hb⟩
  cases a with
  | nil => cases hc
  | cons x r =>
    cases hc
    exact ends_cons hend

/-- Spelled texts with a gap between any two. -/
theorem spells_intercalate {sep : String} {seps : List Tree} (hs : Gap d sep.toList seps)
    {texts : List String} {phrases : List (List Tree)} (h : EachSpells d texts phrases) :
    Spells d (sep.intercalate texts).toList (seps.intercalate phrases) := by
  rw [String.toList_intercalate]
  induction h with
  | nil => exact spells_nil
  | cons hx hrest ih =>
    cases hrest with
    | nil => simpa using hx
    | cons hy hmore =>
      rw [List.map_cons, List.map_cons, List.intercalate_cons_cons, List.intercalate_cons_cons,
        List.append_assoc, List.append_assoc]
      exact hx.append (hs.follows ih)

theorem eachSpells_map {α : Type} {items : List α} {text : α → String} {phrase : α → List Tree}
    (h : ∀ x ∈ items, Spells d (text x).toList (phrase x)) :
    EachSpells d (items.map text) (items.map phrase) := by
  unfold EachSpells
  rw [List.forall₂_map_left_iff, List.forall₂_map_right_iff, List.forall₂_same]
  exact h

/-! ## The end of a token -/

/-- The modes in which a token is at hand that an end character ends. -/
def Mode.isOpen : Mode → Bool
  | .run _ _ | .nameMark _ | .textMark _ => true
  | _ => false

theorem step_end {m : Mode} (hm : m.isOpen = true) {c : Char} (hc : isEnd c) :
    d.step m c = d.restart m c := by
  rcases hc with rfl | rfl | rfl <;> cases m with
  | run kind done => cases kind <;> rfl
  | nameMark done => cases d <;> rfl
  | textMark done => rfl
  | _ => simp [Mode.isOpen] at hm

theorem scan_end {m : Mode} (hm : m.isOpen = true) {rest : List Char} (hr : Ends rest) :
    d.scan m rest = m.close ++ d.scan .between rest := by
  cases rest with
  | nil => simp [Dialect.scan, Mode.close]
  | cons c r =>
    exact scan_restart (step_end hm (hr c rfl)) r

/-- The characters are those of one token, which is still open behind them. -/
def Opens (d : Dialect) (cs : List Char) (t : Atom) : Prop :=
  ∃ m : Mode, m.isOpen = true ∧ m.close = [.atom t] ∧ d.runFrom .between cs = ([], m)

/-- A text that leaves one token open spells it. -/
theorem Opens.spells {t : Atom} (h : Opens d a t) : Spells d a [.leaf t] := by
  obtain ⟨m, hm, hc, hrun⟩ := h
  intro rest hr
  rw [scan_append, hrun, scan_end hm hr, hc]
  rfl

theorem runFrom_append (m : Mode) (a b : List Char) :
    d.runFrom m (a ++ b) =
      ((d.runFrom m a).1 ++ (d.runFrom (d.runFrom m a).2 b).1, (d.runFrom (d.runFrom m a).2 b).2) := by
  induction a generalizing m with
  | nil => rfl
  | cons c r ih => simp [Dialect.runFrom, ih]

/-! ## Names -/

theorem quote_toList : d.flavor.quote.toList = [d.mark] := by cases d <;> rfl

/-- Doubled marks stay inside the name. -/
theorem runFrom_doubled (part done : List Char) :
    d.runFrom (.name done) (Text.doubled [d.mark] part) = ([], .name (part.reverse ++ done)) := by
  rw [Text.doubled_singleton]
  induction part generalizing done with
  | nil => rfl
  | cons c r ih =>
    by_cases hc : c = d.mark
    · simp [hc, Dialect.runFrom, ih]
    · simp [hc, Dialect.runFrom, step_name hc, ih]

/-- The token of a part of a dotted name. -/
def partTree (part : List Char) : Tree := if part = ['*'] then .leaf (.mark '*') else .leaf (.name part)

/-- The tokens of a name: its parts with points between them. -/
def nameTrees (n : String) : List Tree :=
  [Tree.leaf (.mark '.')].intercalate ((Text.splitOn '.' n.toList).map fun part => [partTree part])

/-- Behind a part may stand what ends a token, or the point before the next part. -/
theorem scan_escapePart (part : List Char) {rest : List Char} (hr : Ends rest ∨ rest.head? = some '.') :
    d.scan .between (d.flavor.escapePart part ++ rest) =
      (partTree part).tokens ++ d.scan .between rest := by
  by_cases hp : part = ['*']
  · subst hp
    cases d <;> rfl
  · have hopen : d.runFrom .between (d.flavor.quotePart part) = ([], .nameMark part.reverse) := by
      simp [Flavor.quotePart, quote_toList, runFrom_append, runFrom_doubled, Dialect.runFrom]
    rw [Flavor.escapePart, if_neg hp, scan_append, hopen, partTree, if_neg hp, List.nil_append]
    rcases hr with hr | hr
    · rw [scan_end rfl hr]
      simp [Mode.close, Tree.tokens]
    · obtain ⟨r, rfl⟩ : ∃ r, rest = '.' :: r := by
        cases rest with
        | nil => simp at hr
        | cons c r => exact ⟨r, by simpa using hr⟩
      have hs : d.step (.nameMark part.reverse) '.' = d.restart (.nameMark part.reverse) '.' := by
        cases d <;> rfl
      rw [scan_restart hs]
      simp [Mode.close, Tree.tokens]

theorem scan_parts (parts : List (List Char)) {rest : List Char} (hr : Ends rest) :
    d.scan .between (['.'].intercalate (parts.map d.flavor.escapePart) ++ rest) =
      tokensOf ([Tree.leaf (.mark '.')].intercalate (parts.map fun part => [partTree part])) ++
        d.scan .between rest := by
  have hdot (r : List Char) :
      d.scan .between ('.' :: r) = (Token.atom (.mark '.')) :: d.scan .between r := by
    cases d <;> rfl
  induction parts with
  | nil => rfl
  | cons part more ih =>
    cases more with
    | nil => simpa [tokensOf] using scan_escapePart part (.inl hr)
    | cons next more =>
      simp only [List.map_cons, List.intercalate_cons_cons, List.append_assoc, List.cons_append,
        List.nil_append] at ih ⊢
      rw [scan_escapePart part (.inr rfl), hdot, ih]
      simp [tokensOf, Tree.tokens]

/-- A name that is no expression is read as its parts. -/
theorem spells_name {n : String} (h : d.flavor.isExpression n = false) :
    Spells d (d.flavor.escapeName n).toList (nameTrees n) := by
  intro rest hr
  by_cases hs : n = "*"
  · subst hs
    cases d <;> rfl
  · rw [Flavor.escapeName, if_neg (by simp [hs, h]), String.toList_ofList, scan_parts _ hr]
    rfl

/-! ## Text literals -/

theorem runFrom_literal (cs done : List Char) :
    d.runFrom (.text done)
        (Text.doubled ['\''] (if d.flavor.doublesBackslash then Text.doubled ['\\'] cs else cs)) =
      ([], .text (cs.reverse ++ done)) := by
  simp only [Text.doubled_singleton]
  induction cs generalizing done with
  | nil => cases d <;> rfl
  | cons c r ih =>
    cases d with
    | mysql =>
      simp only [Dialect.flavor, Flavor.mysql, if_true] at ih ⊢
      by_cases hq : c = '\''
      · simp [hq, Dialect.runFrom, Dialect.step, ih]
      · by_cases hb : c = '\\'
        · simp [hb, Dialect.runFrom, Dialect.step, Dialect.escapes, unescaped, ih]
        · simp [hq, hb, Dialect.runFrom, Dialect.step, ih]
    | timestream =>
      simp only [Dialect.flavor, Flavor.timestream, Bool.false_eq_true, if_false] at ih ⊢
      by_cases hq : c = '\''
      · simp [hq, Dialect.runFrom, Dialect.step, ih]
      · simp [hq, Dialect.runFrom, Dialect.step, Dialect.escapes, ih]

/-- A text literal is one token, whatever the text holds. -/
theorem opens_text (s : String) : Opens d (d.flavor.quoteText s).toList (.text s.toList) := by
  refine ⟨.textMark s.toList.reverse, rfl, by simp [Mode.close], ?_⟩
  have hs : d.step .between '\'' = ([], .text []) := by cases d <;> rfl
  simp only [Flavor.quoteText, String.toList_ofList, List.cons_append, Dialect.runFrom, hs,
    runFrom_append, runFrom_literal]
  simp [Dialect.step]

theorem spells_text (s : String) : Spells d (d.flavor.quoteText s).toList [.leaf (.text s.toList)] :=
  (opens_text s).spells

/-! ## Words and numbers -/

/-- A spelling of one run. -/
theorem runFrom_run {kind : Run} {cs : List Char} (h : ∀ c ∈ cs, kind.holds c = true)
    (done : List Char) :
    d.runFrom (.run kind done) cs = ([], .run kind (cs.reverse ++ done)) := by
  induction cs generalizing done with
  | nil => rfl
  | cons c r ih =>
    have hc := h c (by simp)
    have hr := ih (fun x hx => h x (by simp [hx])) (c :: done)
    simp [Dialect.runFrom, Dialect.step, hc, hr]

theorem opens_run (kind : Run) {c : Char} {cs : List Char} (hc : d.start c = ([], .run kind [c]))
    (h : ∀ x ∈ cs, kind.holds x = true) : Opens d (c :: cs) (kind.atom (c :: cs)) := by
  refine ⟨.run kind (cs.reverse ++ [c]), rfl, by simp [Mode.close], ?_⟩
  simp [Dialect.runFrom, Dialect.step, hc, runFrom_run h]

theorem spells_run (kind : Run) {c : Char} {cs : List Char} (hc : d.start c = ([], .run kind [c]))
    (h : ∀ x ∈ cs, kind.holds x = true) : Spells d (c :: cs) [.leaf (kind.atom (c :: cs))] :=
  (opens_run kind hc h).spells

theorem mem_digits {c : Char} (h : c.isDigit = true) :
    c ∈ ['0', '1', '2', '3', '4', '5', '6', '7', '8', '9'] := by
  have hcode : 48 ≤ c.toNat ∧ c.toNat ≤ 57 := by
    simpa [Char.isDigit, UInt32.le_iff_toNat_le] using h
  have hrange : c.toNat ∈ List.range' 48 10 := by
    rw [List.mem_range'_1]
    omega
  have hall : ∀ n ∈ List.range' 48 10,
      Char.ofNat n ∈ ['0', '1', '2', '3', '4', '5', '6', '7', '8', '9'] := by decide
  simpa using hall _ hrange

/-- A digit or a minus sign begins a number. -/
theorem start_number {c : Char} (h : c.isDigit = true ∨ c = '-') :
    d.start c = ([], .run .number [c]) := by
  rcases h with h | rfl
  · have hm := mem_digits h
    simp only [List.mem_cons, List.not_mem_nil, or_false] at hm
    rcases hm with rfl | rfl | rfl | rfl | rfl | rfl | rfl | rfl | rfl | rfl <;> cases d <;> rfl
  · cases d <;> rfl

theorem number_holds {c : Char} (h : Layout.isNumeral c) : Run.number.holds c = true := by
  rcases h with h | rfl | rfl | rfl | rfl
  · have hm := mem_digits h
    simp only [List.mem_cons, List.not_mem_nil, or_false] at hm
    rcases hm with rfl | rfl | rfl | rfl | rfl | rfl | rfl | rfl | rfl | rfl <;> rfl
  all_goals rfl

theorem opens_magnitude {cs : List Char} (h : Layout.IsMagnitude cs) (negative : Bool) :
    Opens d ((if negative then ['-'] else []) ++ cs) (.number ((if negative then ['-'] else []) ++ cs)) := by
  obtain ⟨c, r, rfl, hc, hr⟩ := h
  cases negative with
  | false => exact opens_run .number (start_number (.inl hc)) fun x hx => number_holds (hr x hx)
  | true =>
    refine opens_run .number (start_number (.inr rfl)) fun x hx => ?_
    rcases List.mem_cons.1 hx with rfl | hx
    · exact number_holds (.inl hc)
    · exact number_holds (hr x hx)

theorem isMagnitude_toDigits (n : Nat) : Layout.IsMagnitude (Nat.toDigits 10 n) := by
  have hd (c : Char) (h : c ∈ Nat.toDigits 10 n) : c.isDigit = true :=
    Nat.isDigit_of_mem_toDigits (by decide) (by decide) h
  simpa using Layout.isMagnitude_append Nat.toDigits_ne_nil hd (b := []) (by simp)

theorem spells_nat (n : Nat) : Spells d (Nat.toDigits 10 n) [.leaf (.number (Nat.toDigits 10 n))] :=
  (opens_magnitude (isMagnitude_toDigits n) false).spells

theorem opens_int (i : Int) : Opens d (Text.intText i) (.number (Text.intText i)) := by
  cases i with
  | ofNat n => exact opens_magnitude (isMagnitude_toDigits n) false
  | negSucc n => exact opens_magnitude (isMagnitude_toDigits (n + 1)) true

theorem opens_double (x : FiniteBinary64) : Opens d x.1.text.toList (.number x.1.text.toList) := by
  rw [Binary64.text, if_pos x.2, String.toList_ofList, Layout.finiteText_eq]
  exact opens_magnitude (Layout.isMagnitude_magnitudeText _ x.2) _

/-! ## Literals -/

/-- The token of a literal value. -/
def literalAtom (d : Dialect) : Scalar → Atom
  | .null => .word "NULL".toList
  | .bool b => .word (d.flavor.boolWord b).toList
  | .int i => .number (Text.intText i)
  | .float x => .number x.1.text.toList
  | .text s => .text s.toList

/-- Every literal is one token. -/
theorem opens_literal (v : Scalar) : Opens d (d.flavor.literal v).toList (literalAtom d v) := by
  cases v with
  | null => cases d <;> exact opens_run .word rfl (List.all_eq_true.1 rfl)
  | bool b => cases d <;> cases b <;> exact opens_run .word rfl (List.all_eq_true.1 rfl)
  | int i =>
    rw [Flavor.literal, String.toList_ofList]
    exact opens_int i
  | float x => exact opens_double x
  | text s => exact opens_text s

theorem spells_literal (v : Scalar) :
    Spells d (d.flavor.literal v).toList [.leaf (literalAtom d v)] :=
  (opens_literal v).spells

end SqlAst.Sql
