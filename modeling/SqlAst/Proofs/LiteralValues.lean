import SqlAst.Proofs.Numerals
import SqlAst.Proofs.Refusals
import SqlAst.Proofs.Spelling

/-!
# Literals are read back

A database reads a literal as one token and takes its value: a quoted text stands for what it denotes, a number
with a point or an exponent for a double, any other number for an integer, and three words for null and the truth
values. What is written for a value is read back as this value with its kind, whatever end of a token follows, and
the values of a list are read back one after the other.

* `Sql.Opens.firstAtom?_append`: the machine that cuts a text into tokens takes exactly the token that is written.
* `Sql.literal?_append`: a literal is read back.
* `Sql.literalList_literals`: a list of literals is read back.
* `Sql.Dialect.literals_read`: both, for the calls that write literals.
-/
namespace SqlAst

namespace Sql

/-! ## The first token -/

/-- The token that is complete, if the machine is at the end of one. -/
def Mode.atom? : Mode → Option Atom
  | .run kind done => some (kind.atom done.reverse)
  | .nameMark done => some (.name done.reverse)
  | .textMark done => some (.text done.reverse)
  | _ => none

/-- Takes characters until one of them ends a token: this token, and the text from that character on. -/
def Dialect.firstAtom? (d : Dialect) (m : Mode) : List Char → Option (Atom × List Char)
  | [] => m.atom?.map (·, [])
  | c :: r => if (d.step m c).1 = [] then d.firstAtom? (d.step m c).2 r else m.atom?.map (·, c :: r)

variable {d : Dialect} {m : Mode} {a : Atom} {cs rest : List Char}

theorem Mode.atom?_of_close (h : m.isOpen = true) (hc : m.close = [.atom a]) : m.atom? = some a := by
  cases m <;> simp_all [Mode.isOpen, Mode.close, Mode.atom?]

/-- At the end of a token, what may follow ends it. -/
theorem firstAtom?_ends (h : m.isOpen = true) (hc : m.close = [.atom a]) (hr : Ends rest) :
    d.firstAtom? m rest = some (a, rest) := by
  have hatom := Mode.atom?_of_close h hc
  cases rest with
  | nil => rw [Dialect.firstAtom?, hatom]; rfl
  | cons c r =>
    have hstep : (d.step m c).1 ≠ [] := by
      rw [step_end h (hr c rfl), Dialect.restart, hc]
      exact List.cons_ne_nil _ _
    rw [Dialect.firstAtom?, if_neg hstep, hatom]
    rfl

/-- The characters of a token are taken, and nothing of what follows. -/
theorem firstAtom?_append {m' : Mode} (hrun : d.runFrom m cs = ([], m')) :
    d.firstAtom? m (cs ++ rest) = d.firstAtom? m' rest := by
  induction cs generalizing m with
  | nil => rw [(Prod.mk.inj hrun).2]; rfl
  | cons c r ih =>
    obtain ⟨hnone, hmode⟩ := Prod.mk.inj hrun
    obtain ⟨hstep, hrest⟩ := List.append_eq_nil_iff.mp hnone
    rw [List.cons_append, Dialect.firstAtom?, if_pos hstep]
    exact ih (Prod.ext hrest hmode)

theorem Opens.firstAtom?_append (h : Opens d cs a) (hr : Ends rest) :
    d.firstAtom? .between (cs ++ rest) = some (a, rest) := by
  obtain ⟨m, hopen, hclose, hrun⟩ := h
  rw [Sql.firstAtom?_append hrun, firstAtom?_ends hopen hclose hr]

theorem firstAtom?_length {r : List Char} (h : d.firstAtom? m cs = some (a, r)) : r.length ≤ cs.length := by
  induction cs generalizing m with
  | nil =>
    obtain ⟨_, -, heq⟩ := Option.map_eq_some_iff.mp h
    rw [← (Prod.mk.inj heq).2]
  | cons c s ih =>
    rw [Dialect.firstAtom?] at h
    split at h
    · exact Nat.le_succ_of_le (ih h)
    · obtain ⟨_, -, heq⟩ := Option.map_eq_some_iff.mp h
      rw [← (Prod.mk.inj heq).2]

/-! ## The reader -/

/-- An integer of any size. -/
def integer? (cs : List Char) : Option Int :=
  let negative := cs.head? = some '-'
  let ds := if negative then cs.drop 1 else cs
  if ds ≠ [] ∧ ds.all Char.isDigit then some (Json.signed negative (Nat.ofDigitChars 10 ds 0)) else none

/-- A double that takes up a whole text. -/
def double? (cs : List Char) : Option FiniteBinary64 :=
  match Json.number? cs with
  | some (.atom (.float x) _, n) => if h : x.isFinite = true ∧ n = cs.length then some ⟨x, h.1⟩ else none
  | _ => none

/-- A number with a point or an exponent is a double. -/
def isDouble (cs : List Char) : Bool := cs.any fun c => c = '.' || c = 'e' || c = 'E'

/-- The words for values, in capital or small letters. -/
def wordValue? (letters : List Char) : Option Scalar :=
  let capitals := letters.map Char.toUpper
  if capitals = "NULL".toList then some .null
  else if capitals = "TRUE".toList then some (.bool true)
  else if capitals = "FALSE".toList then some (.bool false)
  else none

/-- The value of a token, if it is a literal. -/
def Atom.value? : Atom → Option Scalar
  | .word letters => wordValue? letters
  | .number spelling => if isDouble spelling then (double? spelling).map .float else (integer? spelling).map .int
  | .text value => some (.text (String.ofList value))
  | _ => none

/-- The value of the literal that a text begins with, and what follows. -/
def Dialect.literal? (d : Dialect) (cs : List Char) : Option (Scalar × List Char) :=
  (d.firstAtom? .between cs).bind fun (a, rest) => a.value?.map (·, rest)

theorem literal?_length {v : Scalar} (h : d.literal? cs = some (v, rest)) : rest.length ≤ cs.length := by
  obtain ⟨⟨a, r⟩, hatom, hvalue⟩ := Option.bind_eq_some_iff.mp h
  obtain ⟨_, -, heq⟩ := Option.map_eq_some_iff.mp hvalue
  obtain ⟨-, rfl⟩ := Prod.mk.inj heq
  exact firstAtom?_length hatom

/-- The values of the literals that a text begins with, with commas between them, and what follows. -/
def Dialect.literalList (d : Dialect) (cs : List Char) : List Scalar × List Char :=
  match h : d.literal? cs with
  | none => ([], cs)
  | some (v, rest) =>
    if hcomma : rest.head? = some ',' then
      have : rest.length - 1 < cs.length := by
        obtain ⟨r, rfl⟩ := List.head?_eq_some_iff.mp hcomma
        exact literal?_length h
      (d.literalList rest.tail).map (v :: ·) id
    else ([v], rest)
  termination_by cs.length

theorem literalList_none (h : d.literal? cs = none) : d.literalList cs = ([], cs) := by
  rw [Dialect.literalList]
  split
  · rfl
  · rename_i hread
    cases h.symm.trans hread

theorem literalList_some {v : Scalar} (h : d.literal? cs = some (v, rest)) :
    d.literalList cs =
      if rest.head? = some ',' then (d.literalList rest.tail).map (v :: ·) id else ([v], rest) := by
  rw [Dialect.literalList]
  split
  · rename_i hread
    cases h.symm.trans hread
  · rename_i hread
    cases h.symm.trans hread
    rfl

theorem literalList_comma {v : Scalar} (h : d.literal? cs = some (v, ',' :: rest)) :
    d.literalList cs = (d.literalList rest).map (v :: ·) id :=
  (literalList_some h).trans (if_pos rfl)

theorem literalList_last {v : Scalar} (h : d.literal? cs = some (v, rest)) (hr : rest.head? ≠ some ',') :
    d.literalList cs = ([v], rest) :=
  (literalList_some h).trans (if_neg hr)

/-! ## Values -/

theorem integer?_intText (i : Int) : integer? (Text.intText i) = some i := by
  have hdigits (n : Nat) : (Nat.toDigits 10 n).all Char.isDigit = true :=
    List.all_eq_true.mpr fun c hc => Nat.isDigit_of_mem_toDigits (by decide) (by decide) hc
  cases i with
  | ofNat n =>
    have hhead : ¬ (Nat.toDigits 10 n).head? = some '-' := by
      have := (Json.isWhole_toDigits n).head_ne []
      rwa [List.append_nil] at this
    simp [integer?, Text.intText, hhead, hdigits, Nat.toDigits_ne_nil, Nat.ofDigitChars_ten_toDigits, Json.signed]
  | negSucc n =>
    have hvalue : -((n + 1 : Nat) : Int) = Int.negSucc n := rfl
    simpa [integer?, Text.intText, hdigits, Nat.toDigits_ne_nil, Nat.ofDigitChars_ten_toDigits, Json.signed]
      using hvalue

theorem isDouble_intText (i : Int) : isDouble (Text.intText i) = false := by
  have hdigits (n : Nat) : isDouble (Nat.toDigits 10 n) = false := by
    refine List.any_eq_false.mpr fun c hc => ?_
    have hdigit : c.isDigit = true := Nat.isDigit_of_mem_toDigits (by decide) (by decide) hc
    simp only [Bool.or_eq_true, decide_eq_true_eq, not_or]
    exact ⟨⟨Whole.ne_of_isDigit hdigit rfl, Whole.ne_of_isDigit hdigit rfl⟩, Whole.ne_of_isDigit hdigit rfl⟩
  cases i with
  | ofNat n => exact hdigits n
  | negSucc n => exact hdigits (n + 1)

theorem isDouble_arrange (l : Layout) (digits : List Char) (power : Int) :
    isDouble (l.arrange digits power) = true := by
  unfold Layout.arrange
  split
  · split <;> simp [isDouble]
  · simp [isDouble]

theorem isDouble_finiteText (l : Layout) (x : Binary64) : isDouble (l.finiteText x) = true := by
  have hmagnitude : isDouble (l.magnitudeText x) = true := by
    unfold Layout.magnitudeText
    split
    · exact isDouble_arrange l _ _
    · rfl
  rw [Layout.finiteText_eq, isDouble, List.any_append, Bool.or_eq_true]
  exact .inr hmagnitude

theorem text_toList (x : FiniteBinary64) : x.1.text.toList = Layout.statement.finiteText x.1 := by
  rw [Binary64.text, if_pos x.2, String.toList_ofList]

theorem double?_text (x : FiniteBinary64) : double? x.1.text.toList = some x := by
  have hread := Json.number?_finiteText (l := Layout.statement) (by decide) x.2 Json.endsNumber_nil
  rw [List.append_nil] at hread
  rw [text_toList, double?, hread]
  exact dif_pos ⟨x.2, rfl⟩

/-- The token of a literal has its value. -/
theorem value?_literalAtom (v : Scalar) : (literalAtom d v).value? = some v := by
  cases v with
  | null => rfl
  | bool b => cases d <;> cases b <;> rfl
  | int i => simp [literalAtom, Atom.value?, isDouble_intText, integer?_intText]
  | float x =>
    have hdouble : isDouble x.1.text.toList = true := by
      rw [text_toList]
      exact isDouble_finiteText _ _
    simp [literalAtom, Atom.value?, hdouble, double?_text]
  | text s => simp [literalAtom, Atom.value?]

/-! ## What was written -/

theorem literal?_append (v : Scalar) (hr : Ends rest) :
    d.literal? ((d.flavor.literal v).toList ++ rest) = some (v, rest) := by
  rw [Dialect.literal?, (opens_literal v).firstAtom?_append hr, Option.bind_some]
  dsimp only
  rw [value?_literalAtom]
  rfl

/-- A blank in front of a literal is skipped. -/
theorem literal?_blank (cs : List Char) : d.literal? (' ' :: cs) = d.literal? cs := by
  have hstep : d.step .between ' ' = ([], .between) := by cases d <;> rfl
  rw [Dialect.literal?, Dialect.firstAtom?, hstep, if_pos rfl]
  rfl

/-- A blank in front of a list of literals is skipped. -/
theorem literalList_blank {v : Scalar} (h : d.literal? cs = some (v, rest)) :
    d.literalList (' ' :: cs) = d.literalList cs := by
  rw [literalList_some h, literalList_some ((literal?_blank cs).trans h)]

/-- The literals of a list behind the first, each with a comma and a blank in front. -/
def moreChars (d : Dialect) (vs : List Scalar) : List Char :=
  vs.flatMap fun v => ',' :: ' ' :: (d.flavor.literal v).toList

theorem toList_literals (v : Scalar) (vs : List Scalar) :
    (d.flavor.literals (v :: vs)).toList = (d.flavor.literal v).toList ++ moreChars d vs := by
  rw [Flavor.literals, String.toList_intercalate]
  induction vs generalizing v with
  | nil => simp [moreChars]
  | cons w vs ih =>
    have hmore := ih w
    rw [List.map_cons, List.map_cons] at hmore ⊢
    rw [List.map_cons, List.map_cons, List.intercalate_cons_cons, hmore, List.append_assoc]
    rfl

theorem ends_moreChars (vs : List Scalar) (hr : Ends rest) : Ends (moreChars d vs ++ rest) := by
  cases vs with
  | nil => exact hr
  | cons v vs => exact ends_cons (.inr (.inl rfl))

/-- A list of literals is read back up to its end. -/
theorem literalList_append (v : Scalar) (vs : List Scalar) (hr : Ends rest) (hend : rest.head? ≠ some ',') :
    d.literalList ((d.flavor.literal v).toList ++ (moreChars d vs ++ rest)) = (v :: vs, rest) := by
  induction vs generalizing v with
  | nil => exact literalList_last (literal?_append v hr) hend
  | cons w vs ih =>
    have hfirst : d.literal? ((d.flavor.literal v).toList ++ (moreChars d (w :: vs) ++ rest)) =
        some (v, ',' :: ' ' :: ((d.flavor.literal w).toList ++ (moreChars d vs ++ rest))) := by
      rw [literal?_append v (ends_moreChars _ hr)]
      simp [moreChars]
    rw [literalList_comma hfirst, literalList_blank (literal?_append w (ends_moreChars vs hr)), ih]
    rfl

/-- The texts behind which a list of literals is at its end. -/
def EndsList (rest : List Char) : Prop := rest = [] ∨ rest.head? = some ')'

theorem literalList_literals (vs : List Scalar) (hr : EndsList rest) :
    d.literalList ((d.flavor.literals vs).toList ++ rest) = (vs, rest) := by
  cases vs with
  | nil =>
    refine literalList_none ?_
    rcases hr with rfl | h
    · rfl
    · obtain ⟨r, rfl⟩ := List.head?_eq_some_iff.mp h
      cases d <;> rfl
  | cons v vs =>
    rw [toList_literals, List.append_assoc]
    rcases hr with rfl | h
    · exact literalList_append v vs ends_nil (by simp)
    · obtain ⟨r, rfl⟩ := List.head?_eq_some_iff.mp h
      exact literalList_append v vs (ends_cons (.inr (.inr rfl))) (by simp)

end Sql

/-! ## The calls -/

namespace Action

/-- The values of a list are all written, unless one of them is an integer with too many digits. -/
theorem mapM_literal_ofScalar (f : Flavor) (vs : List Scalar) :
    ((∀ v ∈ vs, ¬ v.IsLong) ∧ (vs.map Datum.ofScalar).mapM (literal f) = .ok (vs.map f.literal)) ∨
      (∃ v ∈ vs, v.IsLong) ∧ (vs.map Datum.ofScalar).mapM (literal f) = Outcome.misuse .wrongValue := by
  induction vs with
  | nil => exact .inl ⟨nofun, rfl⟩
  | cons v vs ih =>
    rw [List.map_cons, List.mapM_cons]
    rcases literal_ofScalar f v with ⟨hv, hliteral⟩ | ⟨hv, hliteral⟩
    · rcases ih with ⟨hvs, hrest⟩ | ⟨hvs, hrest⟩
      · rw [hliteral, hrest]
        exact .inl ⟨List.forall_mem_cons.mpr ⟨hv, hvs⟩, rfl⟩
      · rw [hliteral, hrest]
        exact .inr ⟨List.exists_mem_cons_of_exists hvs, rfl⟩
    · rw [hliteral]
      exact .inr ⟨⟨v, List.mem_cons_self, hv⟩, rfl⟩

theorem literals_ofScalar (f : Flavor) (vs : List Scalar) :
    ((∀ v ∈ vs, ¬ v.IsLong) ∧ literals f (.list (vs.map .ofScalar)) = .ok (f.literals vs)) ∨
      (∃ v ∈ vs, v.IsLong) ∧ literals f (.list (vs.map .ofScalar)) = .error (.misuse .wrongValue) := by
  have hliterals : literals f (.list (vs.map .ofScalar)) =
      (do pure (", ".intercalate (← (vs.map Datum.ofScalar).mapM (literal f)))) := rfl
  rw [hliterals]
  rcases mapM_literal_ofScalar f vs with ⟨hshort, hmap⟩ | ⟨hlong, hmap⟩
  · rw [hmap]
    exact .inl ⟨hshort, rfl⟩
  · rw [hmap]
    exact .inr ⟨hlong, rfl⟩

/-- The only literal that is given for a value is the one that the flavor has for it. -/
theorem literal_eq_ok {f : Flavor} {v : Scalar} {text : String} (h : literal f (.ofScalar v) = .ok text) :
    text = f.literal v := by
  rcases literal_ofScalar f v with ⟨-, hliteral⟩ | ⟨-, hliteral⟩
  · exact Except.ok.inj (h.symm.trans hliteral)
  · cases h.symm.trans hliteral

end Action

/-- A value is written as a literal unless it is an integer of more than `Text.digitLimit` digits, for which the call
fails. A reader of the dialect's literals takes from the front of a text exactly the literal that was written for a
value, in front of any text that is empty or begins with a comma, a closing parenthesis or a blank, and gives back
this value with its kind. So two values are never written the same, and the values of a list, which is at its end
in front of nothing or a closing parenthesis, are all read back. -/
theorem Sql.Dialect.literals_read (d : Sql.Dialect) :
    (∀ v : Scalar,
      (¬ v.IsLong ∧ ∃ text, Action.literal d.flavor (.ofScalar v) = .ok text ∧
        ∀ rest, Sql.Ends rest → d.literal? (text.toList ++ rest) = some (v, rest)) ∨
      v.IsLong ∧ Action.literal d.flavor (.ofScalar v) = .error (.misuse .wrongValue)) ∧
    (∀ (v w : Scalar) (text : String), Action.literal d.flavor (.ofScalar v) = .ok text →
      Action.literal d.flavor (.ofScalar w) = .ok text → v = w) ∧
    ∀ vs : List Scalar,
      ((∀ v ∈ vs, ¬ v.IsLong) ∧ ∃ text, Action.literals d.flavor (.list (vs.map .ofScalar)) = .ok text ∧
        ∀ rest, Sql.EndsList rest → d.literalList (text.toList ++ rest) = (vs, rest)) ∨
      (∃ v ∈ vs, v.IsLong) ∧
        Action.literals d.flavor (.list (vs.map .ofScalar)) = .error (.misuse .wrongValue) := by
  refine ⟨fun v => ?_, fun v w text hv hw => ?_, fun vs => ?_⟩
  · exact (Action.literal_ofScalar d.flavor v).imp_left fun ⟨hshort, hliteral⟩ =>
      ⟨hshort, _, hliteral, fun rest => Sql.literal?_append v⟩
  · have htext : d.flavor.literal v = d.flavor.literal w :=
      (Action.literal_eq_ok hv).symm.trans (Action.literal_eq_ok hw)
    have hread := Sql.literal?_append (d := d) v Sql.ends_nil
    rw [htext, Sql.literal?_append w Sql.ends_nil] at hread
    exact (Prod.mk.inj (Option.some.inj hread)).1.symm
  · exact (Action.literals_ofScalar d.flavor vs).imp_left fun ⟨hshort, hliterals⟩ =>
      ⟨hshort, _, hliterals, fun rest => Sql.literalList_literals vs⟩

/-- In MySQL: a text that ends in a backslash and an apostrophe, in front of another text; and a list with a text
that is a backslash alone. -/
theorem Sql.Dialect.literals_read_escaped :
    (∃ text, Action.literal .mysql (.text "it's \\'") = .ok text ∧ text = "'it''s \\\\'''" ∧
      Sql.Dialect.mysql.literal? (text.toList ++ ", ''".toList) = some (.text "it's \\'", ", ''".toList)) ∧
    ∃ text, Action.literals .mysql (.list [.text "\\", .int (-1), .bool true]) = .ok text ∧
      text = "'\\\\', -1, TRUE" ∧
      Sql.Dialect.mysql.literalList (text.toList ++ [')']) = ([.text "\\", .int (-1), .bool true], [')']) := by
  obtain ⟨hone, -, hmany⟩ := Sql.Dialect.literals_read .mysql
  have hshort : ∀ v ∈ [Scalar.text "\\", .int (-1), .bool true], ¬ v.IsLong := by
    rintro v hv ⟨i, rfl, hlong⟩
    have hi : i = -1 := by simpa using hv
    subst hi
    exact absurd hlong (Nat.not_le.mpr (Nat.one_lt_pow (by decide) (by decide)))
  obtain ⟨-, text, htext, hread⟩ | ⟨⟨i, hi, -⟩, -⟩ := hone (.text "it's \\'")
  · obtain ⟨-, texts, htexts, hreads⟩ | ⟨⟨v, hv, hlong⟩, -⟩ := hmany [.text "\\", .int (-1), .bool true]
    · refine ⟨⟨text, htext, ?_, hread _ (Sql.ends_cons (.inr (.inl rfl)))⟩, texts, htexts, ?_, hreads _ (.inr rfl)⟩
      · rw [← Except.ok.inj htext]
        decide
      · rw [← Except.ok.inj htexts]
        decide
    · exact absurd hlong (hshort v hv)
  · cases hi

end SqlAst
