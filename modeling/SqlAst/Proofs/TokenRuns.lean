import SqlAst.Json.Reader
import SqlAst.Proofs.NumberReading

/-!
# Runs of tokens

A text is cut into tokens from the front, and tokens take the reader from state to state. A spelling of a
value is a text whose tokens lead, from any place for a value, to behind the value; what follows may be
anything that does not continue a number. Spellings of lists and objects are made from those of their items
and entries, with blanks where JSON allows some.

* `tokens_blanks`, `tokens_mark`, `tokens_number`, `tokens_spelled`: the front of a text.
* `Collection.spelled_isRead`: the common part of lists and objects.
* `Spelled.list_isRead`, `Spelled.object_isRead`: spellings from spellings.
* `Spelled.IsRead.read_eq`, `Spelled.IsRead.readStrictly?_eq`: what both readers make of a spelling.
-/
namespace SqlAst.Json

/-! ## The front of a text -/

theorem tokens_plain {c : Char} {r : List Char} {token : Token} {n : Nat} (hspace : isSpace c = false)
    (hquote : c ≠ '"') (h : plainToken c r = (token, n)) :
    tokens (c :: r) = (c :: r, token) :: tokens (r.drop (n - 1)) := by
  rw [tokens, if_neg (by simp [hspace]), if_neg hquote, h]

/-- The marks of JSON. -/
def marks : List Char := ['[', ']', '\x7b', '\x7d', ',', ':']

theorem tokens_mark {c : Char} (h : c ∈ marks) (rest : List Char) :
    tokens (c :: rest) = (c :: rest, .mark c) :: tokens rest := by
  have hplain : isSpace c = false ∧ c ≠ '"' ∧ plainToken c rest = (.mark c, 1) := by
    simp only [marks, List.mem_cons, List.not_mem_nil, or_false] at h
    rcases h with rfl | rfl | rfl | rfl | rfl | rfl <;> exact ⟨rfl, by decide, rfl⟩
  exact tokens_plain hplain.1 hplain.2.1 hplain.2.2

theorem tokens_mark_append {c : Char} (hc : c ∈ marks) {tail rest : List Char}
    {ts : List (List Char × Token)} (h : tokens tail = ts ++ tokens rest) :
    tokens (c :: tail) = ((c :: tail, .mark c) :: ts) ++ tokens rest := by
  rw [tokens_mark hc, h]
  rfl

/-- Blanks are between the tokens. -/
def IsBlank (cs : List Char) : Prop := ∀ c ∈ cs, isSpace c = true

theorem isBlank_nil : IsBlank [] := fun _ h => absurd h List.not_mem_nil

theorem tokens_blanks {cs : List Char} (h : IsBlank cs) (rest : List Char) :
    tokens (cs ++ rest) = tokens rest := by
  induction cs with
  | nil => rfl
  | cons c r ih =>
    rw [List.cons_append, tokens, if_pos (h c List.mem_cons_self)]
    exact ih fun d hd => h d (List.mem_cons_of_mem c hd)

/-- A sign and digits behind it, or digits: how a number begins. -/
def StartsNumber (cs : List Char) : Prop :=
  ∃ negative c r, cs = signText negative ++ c :: r ∧ c.isDigit = true

/-- No word begins like a number. -/
theorem word?_number {c : Char} (h : c.isDigit = true) (negative : Bool) (r : List Char) :
    word? (signText negative ++ c :: r) = none := by
  have hletters : ['n', 't', 'f', 'N', 'I', '-'].all (!Char.isDigit ·) = true := rfl
  have hne : ∀ d ∈ ['n', 't', 'f', 'N', 'I', '-'], d ≠ c := by
    rintro d hd rfl
    exact absurd (List.all_eq_true.1 hletters d hd) (by simp [h])
  simp only [List.forall_mem_cons, ne_eq] at hne
  obtain ⟨hn, ht, hf, hN, hI, hminus, -⟩ := hne
  have hwords : ∀ w ∈ words, w.1.isPrefixOf (signText negative ++ c :: r) = false := by
    intro w hw
    simp only [words, List.mem_cons, List.not_mem_nil, or_false] at hw
    cases negative with
    | false =>
      rcases hw with rfl | rfl | rfl | rfl | rfl | rfl <;>
        simp [signText, List.isPrefixOf, hn, ht, hf, hN, hI, hminus]
    | true => rcases hw with rfl | rfl | rfl | rfl | rfl | rfl <;> simp [signText, List.isPrefixOf, hI]
  rw [word?, List.find?_eq_none.2 fun w hw => by simp [hwords w hw]]
  rfl

/-- What is read as a number is one token. -/
theorem tokens_number {text rest : List Char} {token : Token} (hs : StartsNumber text)
    (h : number? (text ++ rest) = some (token, text.length)) :
    tokens (text ++ rest) = (text ++ rest, token) :: tokens rest := by
  obtain ⟨negative, c, r, rfl, hc⟩ := hs
  have hword : word? (signText negative ++ c :: r ++ rest) = none := by
    rw [List.append_assoc]
    exact word?_number hc negative (r ++ rest)
  have hstart : ∀ d : Char, d.isDigit = true → isSpace d = false ∧ d ≠ '"' := by
    intro d hd
    refine ⟨?_, ?_⟩
    · simp only [isSpace, Bool.or_eq_false_iff, decide_eq_false_iff_not]
      refine ⟨⟨⟨?_, ?_⟩, ?_⟩, ?_⟩ <;> (rintro rfl; exact absurd hd (by decide))
    · rintro rfl
      exact absurd hd (by decide)
  cases negative with
  | false =>
    have hplain : plainToken c (r ++ rest) = (token, (c :: r).length) := by
      show ((word? (c :: (r ++ rest))).or (number? (c :: (r ++ rest)))).getD _ = _
      rw [show word? (c :: (r ++ rest)) = none from hword, show number? (c :: (r ++ rest)) = _ from h]
      rfl
    refine (tokens_plain (hstart c hc).1 (hstart c hc).2 hplain).trans ?_
    rw [List.length_cons, Nat.add_sub_cancel, List.drop_left]
    rfl
  | true =>
    have hplain : plainToken '-' (c :: r ++ rest) = (token, ('-' :: c :: r).length) := by
      show ((word? ('-' :: c :: (r ++ rest))).or (number? ('-' :: c :: (r ++ rest)))).getD _ = _
      rw [show word? ('-' :: c :: (r ++ rest)) = none from hword,
        show number? ('-' :: c :: (r ++ rest)) = _ from h]
      rfl
    refine (tokens_plain rfl (by decide) hplain).trans ?_
    rw [List.length_cons, Nat.add_sub_cancel, List.drop_left]
    rfl

theorem endsNumber_mark {c : Char} (h : c ∈ marks) (rest : List Char) : EndsNumber (c :: rest) := by
  intro d hd
  rw [← Option.some.inj hd]
  simp only [marks, List.mem_cons, List.not_mem_nil, or_false] at h
  rcases h with rfl | rfl | rfl | rfl | rfl | rfl <;> exact ⟨rfl, by decide, by decide, by decide⟩

theorem endsNumber_blanks {cs rest : List Char} (h : IsBlank cs) (hr : EndsNumber rest) :
    EndsNumber (cs ++ rest) := by
  cases cs with
  | nil => exact hr
  | cons c r =>
    intro d hd
    obtain rfl := Option.some.inj hd
    have hspace := h c List.mem_cons_self
    simp only [isSpace, Bool.or_eq_true, decide_eq_true_eq] at hspace
    rcases hspace with ((rfl | rfl) | rfl) | rfl <;> exact ⟨rfl, by decide, by decide, by decide⟩

/-! ## Quoted texts -/

/-- A character by its number. -/
theorem escape_code {r : List Char} {n : Nat} (hread : unit? r = some n)
    (hwhole : Text.isHalfCode n = false) (start : List Char) :
    escape start ('u' :: r) = .ok (.char (Char.ofNat n), 5) := by
  have hrange : ¬ (0xd800 ≤ n ∧ n < 0xe000) := by
    simpa only [Text.isHalfCode, Bool.and_eq_false_iff, decide_eq_false_iff_not, not_and_or] using hwhole
  simp only [escape, Char.reduceEq, or_self, ↓reduceIte, hread]
  rw [if_neg fun h => hrange ⟨h.1, by omega⟩, Text.Point.ofUnit, dif_neg (by simp [hwhole])]

/-- A character by the numbers of its pair; something has to follow. -/
theorem escape_pair {r : List Char} {high low : Nat} (hread : unit? r = some high)
    (hhigh : 0xd800 ≤ high ∧ high < 0xdc00) {r' : List Char} (hnext : r.drop 4 = '\\' :: 'u' :: r')
    (hread' : unit? r' = some low) (hlow : 0xdc00 ≤ low ∧ low < 0xe000) (hrest : r'.drop 4 ≠ [])
    (start : List Char) :
    escape start ('u' :: r) =
      .ok (.char (Char.ofNat (0x10000 + (high - 0xd800) * 0x400 + (low - 0xdc00))), 11) := by
  simp only [escape, Char.reduceEq, or_self, ↓reduceIte, hread, hnext]
  rw [if_pos ⟨hhigh.1, hhigh.2, hrest, rfl⟩]
  simp only [List.drop_succ_cons, List.drop_zero, hread']
  rw [if_pos hlow]

/-- A point spelled by an escape. -/
theorem quotedTokens_escape {start done r tail : List Char} {p : Text.Point} {n : Nat}
    (h : escape start r = .ok (p, n)) (htail : r.drop n = tail) :
    quotedTokens start done ('\\' :: r) = quotedTokens start (p.held.reverse ++ done) tail := by
  rw [quotedTokens, if_neg (by decide), if_pos rfl, h, ← htail]

/-- A character that stands for itself. -/
theorem quotedTokens_raw {c : Char} (hquote : c ≠ '"') (hslash : c ≠ '\\') (hcontrol : ¬ c.toNat < 0x20)
    (start done tail : List Char) :
    quotedTokens start done (c :: tail) = quotedTokens start (c :: done) tail := by
  rw [quotedTokens, if_neg hquote, if_neg hslash, if_neg hcontrol]

section

variable {α : Type} {spell value : α → List Char}
  (h : ∀ a start done tail, tail ≠ [] →
    quotedTokens start done (spell a ++ tail) = quotedTokens start ((value a).reverse ++ done) tail)

include h

/-- Parts spelled one after the other, up to the closing mark. -/
theorem quotedTokens_spelled (start : List Char) (as : List α) (rest done : List Char) :
    quotedTokens start done (as.flatMap spell ++ '"' :: rest) =
      (start, .text (String.ofList (done.reverse ++ as.flatMap value))) :: tokens rest := by
  induction as generalizing done with
  | nil => rw [List.flatMap_nil, List.nil_append, quotedTokens, if_pos rfl, List.flatMap_nil, List.append_nil]
  | cons a as ih =>
    rw [List.flatMap_cons, List.append_assoc, h a start done _ (by simp), ih, List.reverse_append,
      List.reverse_reverse, List.append_assoc, List.flatMap_cons]

/-- A quoted text is one token. -/
theorem tokens_spelled (as : List α) (rest : List Char) :
    ∃ place, tokens ('"' :: (as.flatMap spell ++ '"' :: rest)) =
      (place, .text (String.ofList (as.flatMap value))) :: tokens rest := by
  refine ⟨'"' :: (as.flatMap spell ++ '"' :: rest), ?_⟩
  rw [tokens, if_neg (by decide), if_pos rfl, quotedTokens_spelled h, List.reverse_nil, List.nil_append]

end

/-! ## The reader on tokens -/

/-- A place where a value may begin. -/
def Wanted.IsValue (w : Wanted) : Prop := w = .value ∨ w = .valueOrEnd

/-- A place where a name may begin. -/
def Wanted.IsName (w : Wanted) : Prop := w = .name ∨ w = .nameOrEnd

theorem step_value {w : Wanted} (hw : w.IsValue) (frames : List Frame) (place : List Char)
    {token : Token}
    (h : ∀ c, token ≠ .mark c) :
    State.step ⟨frames, w⟩ (place, token) = State.takeValue ⟨frames, w⟩ place token := by
  rcases hw with rfl | rfl
  · cases token <;> rfl
  · cases token with
    | mark c => exact absurd rfl (h c)
    | _ => rfl

theorem step_open {w : Wanted} (hw : w.IsValue) (frames : List Frame) (place : List Char) :
    State.step ⟨frames, w⟩ (place, .mark '[') = .ok ⟨.list [] :: frames, .valueOrEnd⟩ ∧
      State.step ⟨frames, w⟩ (place, .mark '\x7b') = .ok ⟨.object [] :: frames, .nameOrEnd⟩ := by
  rcases hw with rfl | rfl
  · exact ⟨rfl, rfl⟩
  · exact ⟨rfl, rfl⟩

theorem step_name {w : Wanted} (hw : w.IsName) (frames : List Frame) (done : List (String × Json))
    (place : List Char) (name : String) :
    State.step ⟨.object done :: frames, w⟩ (place, .text name) =
      .ok ⟨.entry done name :: frames, .colon⟩ := by
  rcases hw with rfl | rfl
  · rfl
  · rfl

/-- What a run of tokens leads to: a state, unless an integer among them is too long. -/
def reached (fits : Bool) (s : State) : Except ReadError State :=
  if fits then .ok s else .error .oversized

section

variable [StrictReader]

/-- Tokens that lead from one state to another. `strict` says whether the strict reader takes all of them, and
`fits` whether no integer among them is too long. -/
structure Leads (strict fits : Bool) (ts : List (List Char × Token)) (s t : State) : Prop where
  strict_eq : ts.all (·.2.isStrict) = strict
  run : ts.foldlM State.step s = reached fits t

theorem Leads.nil (s : State) : Leads true true [] s s := ⟨rfl, rfl⟩

theorem Leads.cons {strict fits : Bool} {place : List Char} {token : Token}
    {ts : List (List Char × Token)} {s t u : State} (hs : token.isStrict = true)
    (h : State.step s (place, token) = .ok t) (h' : Leads strict fits ts t u) :
    Leads strict fits ((place, token) :: ts) s u where
  strict_eq := by rw [List.all_cons, hs, h'.strict_eq]; rfl
  run := by rw [List.foldlM_cons, h]; exact h'.run

theorem Leads.single {place : List Char} {token : Token} {s t : State}
    (h : State.step s (place, token) = .ok t) : Leads token.isStrict true [(place, token)] s t where
  strict_eq := Bool.and_true _
  run := by rw [List.foldlM_cons, h]; rfl

theorem Leads.append {strict strict' fits fits' : Bool} {ts us : List (List Char × Token)}
    {s t u : State} (h : Leads strict fits ts s t) (h' : Leads strict' fits' us t u) :
    Leads (strict && strict') (fits && fits') (ts ++ us) s u where
  strict_eq := by rw [List.all_append, h.strict_eq, h'.strict_eq]
  run := by
    rw [List.foldlM_append, h.run]
    cases fits with
    | true => exact h'.run
    | false => rfl

end

/-! ## Spellings -/

/-- A text with the value that it is read as, whether a strict reader takes it, and whether its integers are
short enough to be read. -/
structure Spelled where
  text : List Char
  value : Json
  strict : StrictReader → Bool := fun _ => true
  fits : Bool := true

/-- The tokens of a spelling lead from a place for a value to behind the value. -/
def Spelled.IsRead (p : Spelled) : Prop :=
  ∀ rest, EndsNumber rest → ∃ ts, tokens (p.text ++ rest) = ts ++ tokens rest ∧
    ∀ [r : StrictReader] (frames : List Frame) (w : Wanted), w.IsValue →
      Leads (p.strict r) p.fits ts ⟨frames, w⟩ (.accept frames p.value)

/-- A name as it stands in an object, with its quotation marks. -/
structure SpelledName where
  text : List Char
  name : String

def SpelledName.IsRead (n : SpelledName) : Prop :=
  Text.isWhole n.name = true ∧ ∀ rest, ∃ place, tokens (n.text ++ rest) = (place, .text n.name) :: tokens rest

namespace Spelled

/-- A spelling that is a single token. -/
theorem isRead_of_token {p : Spelled} (token : Token) (hmark : ∀ c, token ≠ .mark c)
    (hstrict : ∀ [r : StrictReader], token.isStrict = p.strict r)
    (htokens : ∀ rest, EndsNumber rest → ∃ place, tokens (p.text ++ rest) = (place, token) :: tokens rest)
    (htake : ∀ frames w place, State.takeValue ⟨frames, w⟩ place token =
      reached p.fits (.accept frames p.value)) : p.IsRead := by
  intro rest hr
  obtain ⟨place, hplace⟩ := htokens rest hr
  refine ⟨[(place, token)], hplace, fun frames w hw => ⟨?_, ?_⟩⟩
  · rw [List.all_cons, hstrict, List.all_nil, Bool.and_true]
  · rw [List.foldlM_cons, step_value hw frames place hmark, htake]
    cases p.fits <;> rfl

/-- A spelling between blanks. -/
def between (before after : List Char) (p : Spelled) : Spelled :=
  { p with text := before ++ (p.text ++ after) }

theorem between_isRead {before after : List Char} (hb : IsBlank before) (ha : IsBlank after)
    {p : Spelled} (h : p.IsRead) : (between before after p).IsRead := by
  intro rest hr
  obtain ⟨ts, htokens, hleads⟩ := h (after ++ rest) (endsNumber_blanks ha hr)
  refine ⟨ts, ?_, hleads⟩
  rw [between, List.append_assoc, List.append_assoc, tokens_blanks hb, htokens, tokens_blanks ha]

/-! ### Lists and objects -/

end Spelled

/-- A kind of collection, by what the reader keeps of the items so far and what it waits for. -/
structure Collection (β : Type) where
  opening : Char
  closing : Char
  frame : List β → Frame
  value : List β → Json
  /-- What is wanted in a collection that has just begun. -/
  first : Wanted
  /-- What is wanted behind a comma. -/
  next : Wanted
  opening_mem : opening ∈ marks
  closing_mem : closing ∈ marks
  opens : ∀ {w : Wanted}, w.IsValue → ∀ frames place,
    State.step ⟨frames, w⟩ (place, .mark opening) = .ok ⟨frame [] :: frames, first⟩
  closes_empty : ∀ frames place,
    State.step ⟨frame [] :: frames, first⟩ (place, .mark closing) = .ok (.accept frames (value []))
  closes : ∀ frames done place, State.step ⟨frame done :: frames, .comma⟩ (place, .mark closing) =
    .ok (.accept frames (value done.reverse))
  continues : ∀ frames done place,
    State.step ⟨frame done :: frames, .comma⟩ (place, .mark ',') = .ok ⟨frame done :: frames, next⟩

namespace Collection

def lists : Collection Json where
  opening := '['
  closing := ']'
  frame := .list
  value := .list
  first := .valueOrEnd
  next := .value
  opening_mem := by decide
  closing_mem := by decide
  opens hw frames place := (step_open hw frames place).1
  closes_empty _ _ := rfl
  closes _ _ _ := rfl
  continues _ _ _ := rfl

def objects : Collection (String × Json) where
  opening := '\x7b'
  closing := '\x7d'
  frame := .object
  value := .object
  first := .nameOrEnd
  next := .name
  opening_mem := by decide
  closing_mem := by decide
  opens hw frames place := (step_open hw frames place).2
  closes_empty _ _ := rfl
  closes _ _ _ := rfl
  continues _ _ _ := rfl

variable {P β : Type} (k : Collection β) (text : P → List Char) (item : P → β) (strict : P → StrictReader → Bool)
  (fits : P → Bool)

/-- The tokens of a part lead from a place for an item to behind it. -/
def IsRead (p : P) : Prop :=
  ∀ rest, EndsNumber rest → ∃ ts, tokens (text p ++ rest) = ts ++ tokens rest ∧
    ∀ [r : StrictReader] (frames done w), w = k.next ∨ w = k.first →
      Leads (strict p r) (fits p) ts ⟨k.frame done :: frames, w⟩
        ⟨k.frame (item p :: done) :: frames, .comma⟩

variable {text item strict fits}

/-- The parts of a collection, up to its end. Only a collection that has just begun may have none. -/
theorem exists_tokens (parts : List P) (h : ∀ p ∈ parts, k.IsRead text item strict fits p)
    (rest : List Char) :
    ∃ ts, tokens ([','].intercalate (parts.map text) ++ k.closing :: rest) = ts ++ tokens rest ∧
      ∀ [r : StrictReader] (frames done w), w = k.next ∨ w = k.first → (parts = [] → done = [] ∧ w = k.first) →
        Leads (parts.all (strict · r)) (parts.all fits) ts ⟨k.frame done :: frames, w⟩
          (.accept frames (k.value (done.reverse ++ parts.map item))) := by
  induction parts with
  | nil =>
    refine ⟨[(k.closing :: rest, .mark k.closing)], tokens_mark k.closing_mem rest,
      fun frames done w _ hstart => ?_⟩
    obtain ⟨rfl, rfl⟩ := hstart rfl
    exact .cons rfl (k.closes_empty frames _) (.nil _)
  | cons p more ih =>
    have hp := h p List.mem_cons_self
    cases more with
    | nil =>
      obtain ⟨ts, htokens, hleads⟩ := hp (k.closing :: rest) (endsNumber_mark k.closing_mem rest)
      refine ⟨ts ++ [(k.closing :: rest, .mark k.closing)], ?_, fun frames done w hw _ => ?_⟩
      · rw [List.map_singleton, List.intercalate_singleton, htokens, tokens_mark k.closing_mem,
          List.append_assoc]
        rfl
      · -- the end is all that is left
        have hclose := k.closes frames (item p :: done) (k.closing :: rest)
        rw [List.reverse_cons] at hclose
        exact (hleads frames done w hw).append (.cons rfl hclose (.nil _))
    | cons next more =>
      obtain ⟨us, hmore, hmoreLeads⟩ := ih fun q hq => h q (List.mem_cons_of_mem p hq)
      obtain ⟨ts, htokens, hleads⟩ := hp
        (',' :: ([','].intercalate ((next :: more).map text) ++ k.closing :: rest))
        (endsNumber_mark (by decide) _)
      have htext : [','].intercalate ((p :: next :: more).map text) ++ k.closing :: rest =
          text p ++ ',' :: ([','].intercalate ((next :: more).map text) ++ k.closing :: rest) := by
        simp only [List.map_cons, List.intercalate_cons_cons, List.append_assoc, List.singleton_append]
        rfl
      rw [htext, htokens, tokens_mark_append (by decide) hmore, ← List.append_assoc]
      refine ⟨_, rfl, fun frames done w hw _ => ?_⟩
      have hcomma := hmoreLeads frames (item p :: done) k.next (.inl rfl) (by simp)
      rw [List.reverse_cons, List.append_assoc] at hcomma
      exact (hleads frames done w hw).append (.cons rfl (k.continues frames _ _) hcomma)

/-- A collection of parts with blanks in front of the first. -/
def spelled (text : P → List Char) (item : P → β) (strict : P → StrictReader → Bool) (fits : P → Bool)
    (lead : List Char) (parts : List P) : Spelled where
  text := k.opening :: (lead ++ ([','].intercalate (parts.map text) ++ [k.closing]))
  value := k.value (parts.map item)
  strict r := parts.all (strict · r)
  fits := parts.all fits

theorem spelled_isRead {lead : List Char} (hlead : IsBlank lead) {parts : List P}
    (h : ∀ p ∈ parts, k.IsRead text item strict fits p) :
    (k.spelled text item strict fits lead parts).IsRead := by
  intro rest _
  obtain ⟨ts, htokens, hleads⟩ := k.exists_tokens parts h rest
  have htext : (k.spelled text item strict fits lead parts).text ++ rest =
      k.opening :: (lead ++ ([','].intercalate (parts.map text) ++ k.closing :: rest)) := by
    rw [spelled, List.cons_append, List.append_assoc, List.append_assoc]
    rfl
  rw [htext]
  exact ⟨_, tokens_mark_append k.opening_mem ((tokens_blanks hlead _).trans htokens), fun frames w hw =>
    .cons rfl (k.opens hw frames _) (hleads frames [] k.first (.inr rfl) fun _ => ⟨rfl, rfl⟩)⟩

end Collection

namespace Spelled

/-- A list of items. -/
def list (lead : List Char) (items : List Spelled) : Spelled :=
  Collection.lists.spelled text value strict fits lead items

theorem list_isRead {lead : List Char} (hlead : IsBlank lead) {items : List Spelled}
    (h : ∀ p ∈ items, p.IsRead) : (list lead items).IsRead := by
  refine Collection.lists.spelled_isRead hlead fun p hp rest hr => ?_
  obtain ⟨ts, htokens, hleads⟩ := h p hp rest hr
  exact ⟨ts, htokens, fun frames done w hw => hleads _ w hw⟩

/-- An entry: a name, a colon and a value. -/
def entryText (e : SpelledName × Spelled) : List Char := e.1.text ++ ':' :: e.2.text

/-- An object of entries. -/
def object (lead : List Char) (entries : List (SpelledName × Spelled)) : Spelled :=
  Collection.objects.spelled entryText (fun e => (e.1.name, e.2.value)) (fun e => e.2.strict)
    (fun e => e.2.fits) lead entries

theorem object_isRead {lead : List Char} (hlead : IsBlank lead)
    {entries : List (SpelledName × Spelled)} (h : ∀ e ∈ entries, e.1.IsRead ∧ e.2.IsRead) :
    (object lead entries).IsRead := by
  refine Collection.objects.spelled_isRead hlead fun e he rest hr => ?_
  obtain ⟨⟨hwhole, hname⟩, hvalue⟩ := h e he
  obtain ⟨ts, htokens, hleads⟩ := hvalue rest hr
  obtain ⟨place, hplace⟩ := hname (':' :: (e.2.text ++ rest))
  have htext : entryText e ++ rest = e.1.text ++ ':' :: (e.2.text ++ rest) := List.append_assoc _ _ _
  rw [htext, hplace, tokens_mark_append (by decide) htokens, ← List.cons_append]
  exact ⟨_, rfl, fun frames done w hw => .cons hwhole (step_name hw frames done place e.1.name)
    (.cons rfl rfl (hleads _ .value (.inl rfl)))⟩

/-! ### Whole texts -/

/-- The tokens of a spelling, and what they are read as. -/
theorem IsRead.ofTokens {p : Spelled} (h : p.IsRead) [r : StrictReader] :
    (tokens p.text).all (·.2.isStrict) = p.strict r ∧
      ofTokens (tokens p.text) = if p.fits then .ok p.value else .error .oversized := by
  obtain ⟨ts, htokens, hleads⟩ := h [] endsNumber_nil
  rw [List.append_nil, show tokens [] = [] by rw [tokens], List.append_nil] at htokens
  obtain ⟨hstrict, hrun⟩ := hleads [] .value (.inl rfl)
  rw [htokens]
  refine ⟨hstrict, ?_⟩
  unfold Json.ofTokens State.start
  rw [hrun]
  cases p.fits with
  | true => rfl
  | false => rfl

/-- What is read does not begin with a byte order mark. -/
theorem IsRead.head_ne {p : Spelled} (h : p.IsRead) : p.text.head? ≠ some '\ufeff' := by
  intro hhead
  obtain ⟨r, hr⟩ : ∃ r, p.text = '\ufeff' :: r := List.head?_eq_some_iff.mp hhead
  have hmisread : Json.ofTokens (tokens p.text) = .error (.malformed .noValue p.text.length) := by
    have htokens : tokens ('\ufeff' :: r) = ('\ufeff' :: r, .mark '\ufeff') :: tokens r :=
      tokens_plain rfl (by decide) rfl
    rw [hr, htokens]
    rfl
  rw [h.ofTokens.2] at hmisread
  split at hmisread <;> cases hmisread

theorem IsRead.read_eq {p : Spelled} (h : p.IsRead) :
    read (String.ofList p.text) = if p.fits then .ok p.value else .error .oversized := by
  rw [read, String.toList_ofList, readChars, if_neg h.head_ne]
  exact h.ofTokens.2

theorem IsRead.readStrictly?_eq {p : Spelled} (h : p.IsRead) [r : StrictReader] :
    readStrictly? (String.ofList p.text) = if p.strict r && p.fits then some p.value else none := by
  rw [readStrictly?, String.toList_ofList, h.ofTokens.1, h.ofTokens.2]
  cases p.strict r <;> cases p.fits <;> rfl

end Spelled

end SqlAst.Json
