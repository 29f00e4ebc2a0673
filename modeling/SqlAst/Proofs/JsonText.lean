import SqlAst.Proofs.EscapedText

/-!
# Written JSON is read back

What was written in a style with at most blanks behind its marks is a spelling of a value: it is cut into
exactly the tokens that it was made of. Integers of any size are written, but not read from the limit of
digits on. In the compact form nothing else is lost; where all but ASCII is escaped, halves of surrogate pairs
that stand together come back as the character of the pair.

* `isReadable_compact`, `isReadable_spaced`: the two styles are such.
* `spelled_isRead`: a written value is a spelling.
* `read_write`, `readStrictly?_write`: both readers give a value from its compact form, unless an integer in it
  is too long.
* `read_write_spaced`: the same of the other form, with halves joined.
-/
namespace SqlAst.Json

/-! ## Leaves -/

mutual

/-- The values inside a value that are no lists and no objects. -/
def leaves : Json → List Json
  | .list items => itemLeaves items
  | .object entries => entryLeaves entries
  | j => [j]

def itemLeaves : List Json → List Json
  | [] => []
  | j :: rest => leaves j ++ itemLeaves rest

def entryLeaves : List (String × Json) → List Json
  | [] => []
  | (_, j) :: rest => leaves j ++ entryLeaves rest

end

/-- Whether a leaf is within the limit of digits. -/
def fits : Json → Bool
  | .int i => (Nat.toDigits 10 i.natAbs).length ≤ digitLimit
  | _ => true

/-- Whether a leaf can be spelled in JSON: infinities and NaN cannot. -/
def isSpellable : Json → Bool
  | .float d => d.isFinite
  | _ => true

/-- Whether a value is within the limit of digits, as readers take it. -/
def isShort (j : Json) : Bool := j.leaves.all fits

/-- What can be written such that it is JSON. -/
def Spellable (j : Json) : Prop := ∀ l ∈ j.leaves, isSpellable l = true

/-- Whether a leaf is within the limit of digits, as the strict reader counts. -/
def fitsStrictly [StrictReader] : Json → Bool
  | .int i => (Nat.toDigits 10 i.natAbs).length + signDigits (i < 0) ≤ digitLimit
  | _ => true

/-- Whether a value is within the limit of digits, as the strict reader takes it. -/
def isShorter [StrictReader] (j : Json) : Bool := j.leaves.all fitsStrictly

theorem fits_of_fitsStrictly [StrictReader] {l : Json} (h : fitsStrictly l = true) : fits l = true := by
  cases l with
  | int i => exact decide_eq_true (Nat.le_trans (Nat.le_add_right _ _) (of_decide_eq_true h))
  | _ => rfl

/-- What the strict reader takes is short. -/
theorem isShort_of_isShorter [StrictReader] {j : Json} (h : j.isShorter = true) : j.isShort = true :=
  List.all_eq_true.mpr fun l hl => fits_of_fitsStrictly (List.all_eq_true.mp h l hl)

/-! ## Texts and names -/

mutual

/-- The texts in a value, names of entries included. -/
def strings : Json → List String
  | .text s => [s]
  | .list items => itemStrings items
  | .object entries => entryStrings entries
  | _ => []

def itemStrings : List Json → List String
  | [] => []
  | j :: rest => strings j ++ itemStrings rest

def entryStrings : List (String × Json) → List String
  | [] => []
  | (k, j) :: rest => k :: (strings j ++ entryStrings rest)

end

mutual

/-- A value with another text for each text in it, names of entries included. -/
def mapStrings (f : String → String) : Json → Json
  | .text s => .text (f s)
  | .list items => .list (mapItemStrings f items)
  | .object entries => .object (mapEntryStrings f entries)
  | j => j

def mapItemStrings (f : String → String) : List Json → List Json
  | [] => []
  | j :: rest => mapStrings f j :: mapItemStrings f rest

def mapEntryStrings (f : String → String) : List (String × Json) → List (String × Json)
  | [] => []
  | (k, j) :: rest => (f k, mapStrings f j) :: mapEntryStrings f rest

end

theorem mapItemStrings_eq_map (f : String → String) (items : List Json) :
    mapItemStrings f items = items.map (mapStrings f) := by
  induction items with
  | nil => rfl
  | cons j rest ih => rw [mapItemStrings, ih, List.map_cons]

theorem mapEntryStrings_eq_map (f : String → String) (es : List (String × Json)) :
    mapEntryStrings f es = es.map fun e => (f e.1, e.2.mapStrings f) := by
  induction es with
  | nil => rfl
  | cons e rest ih => rw [mapEntryStrings, ih, List.map_cons]

theorem all_itemStrings (p : String → Bool) (items : List Json) :
    (itemStrings items).all p = items.all fun j => j.strings.all p := by
  induction items with
  | nil => rfl
  | cons j rest ih => rw [itemStrings, List.all_append, ih, List.all_cons]

theorem all_entryStrings (p : String → Bool) (es : List (String × Json)) :
    (entryStrings es).all p = es.all fun e => p e.1 && e.2.strings.all p := by
  induction es with
  | nil => rfl
  | cons e rest ih => rw [entryStrings, List.all_cons, List.all_append, ih, List.all_cons, Bool.and_assoc]

section

variable {f : String → String}

mutual

/-- Texts that stay the same make up the same value. -/
theorem mapStrings_eq_self (j : Json) (h : ∀ s ∈ j.strings, f s = s) : j.mapStrings f = j := by
  match j with
  | .null => rfl
  | .bool _ => rfl
  | .int _ => rfl
  | .float _ => rfl
  | .text s => exact congrArg Json.text (h s (List.mem_singleton.2 rfl))
  | .list items => exact congrArg Json.list (mapItemStrings_eq_self items h)
  | .object es => exact congrArg Json.object (mapEntryStrings_eq_self es h)

theorem mapItemStrings_eq_self (items : List Json) (h : ∀ s ∈ itemStrings items, f s = s) :
    mapItemStrings f items = items := by
  match items with
  | [] => rfl
  | j :: rest =>
    rw [mapItemStrings, mapStrings_eq_self j fun s hs => h s (List.mem_append_left _ hs),
      mapItemStrings_eq_self rest fun s hs => h s (List.mem_append_right _ hs)]

theorem mapEntryStrings_eq_self (es : List (String × Json)) (h : ∀ s ∈ entryStrings es, f s = s) :
    mapEntryStrings f es = es := by
  match es with
  | [] => rfl
  | (k, j) :: rest =>
    rw [mapEntryStrings, h k List.mem_cons_self,
      mapStrings_eq_self j fun s hs => h s (List.mem_cons_of_mem k (List.mem_append_left _ hs)),
      mapEntryStrings_eq_self rest fun s hs => h s (List.mem_cons_of_mem k (List.mem_append_right _ hs))]

end

end

/-! ## Styles -/

namespace Style

/-- What stands behind a comma. -/
def itemGap (s : Style) : List Char := s.itemMark.toList.tail

/-- What stands behind a colon. -/
def entryGap (s : Style) : List Char := s.entryMark.toList.tail

/-- A comma and a colon with at most blanks behind them, and doubles set out such that they are read back. -/
structure IsReadable (s : Style) : Prop where
  itemMark_eq : s.itemMark.toList = ',' :: s.itemGap
  entryMark_eq : s.entryMark.toList = ':' :: s.entryGap
  isBlank_itemGap : IsBlank s.itemGap
  isBlank_entryGap : IsBlank s.entryGap
  endPlain_le : s.layout.endPlain ≤ 16

end Style

theorem isReadable_compact : compact.IsReadable where
  itemMark_eq := rfl
  entryMark_eq := rfl
  isBlank_itemGap := by simp [IsBlank, Style.itemGap, compact]
  isBlank_entryGap := by simp [IsBlank, Style.entryGap, compact]
  endPlain_le := by decide

section

variable {α β : Type}

/-- Parts with blanks in front of all but the first. -/
def gapped (gap : List Char) : List α → List (List Char × α)
  | [] => []
  | a :: rest => ([], a) :: rest.map (gap, ·)

theorem map_gapped (gap : List Char) (f : α → β) (as : List α) :
    ((gapped gap as).map fun p => f p.2) = as.map f := by
  cases as with
  | nil => rfl
  | cons a rest => simp [gapped, Function.comp_def]

theorem all_gapped (gap : List Char) (f : α → Bool) (as : List α) :
    ((gapped gap as).all fun p => f p.2) = as.all f := by
  cases as with
  | nil => rfl
  | cons a rest => simp [gapped, Function.comp_def]

theorem mem_gapped {gap : List Char} (hgap : IsBlank gap) {as : List α} {p : List Char × α}
    (h : p ∈ gapped gap as) : IsBlank p.1 ∧ p.2 ∈ as := by
  cases as with
  | nil => cases h
  | cons a rest =>
    rcases List.mem_cons.1 h with rfl | h
    · exact ⟨fun _ hc => (nomatch hc), List.mem_cons_self⟩
    · obtain ⟨b, hb, rfl⟩ := List.mem_map.1 h
      exact ⟨hgap, List.mem_cons_of_mem a hb⟩

theorem append_intercalate (gap mark : List Char) (t : List Char) (ts : List (List Char)) :
    gap ++ mark.intercalate (t :: ts) = mark.intercalate ((gap ++ t) :: ts) := by
  cases ts with
  | nil => simp
  | cons t' ts => simp [List.intercalate_cons_cons]

/-- Blanks behind a comma are blanks in front of the next part. -/
theorem intercalate_gapped (gap : List Char) (text : α → List Char) (as : List α) :
    (',' :: gap).intercalate (as.map text) =
      [','].intercalate ((gapped gap as).map fun p => p.1 ++ text p.2) := by
  cases as with
  | nil => rfl
  | cons a rest =>
    induction rest generalizing a with
    | nil => rfl
    | cons b rest ih =>
      have hrest := ih b
      simp only [gapped, List.map_cons, List.map_map, Function.comp_def, List.nil_append] at hrest ⊢
      rw [List.intercalate_cons_cons, hrest, List.intercalate_cons_cons, ← append_intercalate]
      simp

end

/-! ## Numbers -/

theorem startsNumber_intText (i : Int) : StartsNumber (Text.intText i) := by
  have hdigits (n : Nat) : ∃ c r, Nat.toDigits 10 n = c :: r ∧ c.isDigit = true := by
    cases h : Nat.toDigits 10 n with
    | nil => exact absurd h Nat.toDigits_ne_nil
    | cons c r =>
      exact ⟨c, r, rfl, Nat.isDigit_of_mem_toDigits (by decide) (by decide) (h ▸ List.mem_cons_self)⟩
  cases i with
  | ofNat n =>
    obtain ⟨c, r, h, hc⟩ := hdigits n
    exact ⟨false, c, r, h, hc⟩
  | negSucc n =>
    obtain ⟨c, r, h, hc⟩ := hdigits (n + 1)
    exact ⟨true, c, r, congrArg (List.cons '-') h, hc⟩

theorem startsNumber_finiteText (l : Layout) {d : Binary64} (h : d.isFinite = true) :
    StartsNumber (l.finiteText d) := by
  obtain ⟨c, r, hm, hc, -⟩ := Layout.isMagnitude_magnitudeText l h
  refine ⟨d.isNegative, c, r, ?_, hc⟩
  rw [Layout.finiteText_eq, hm]
  rfl

/-! ## Values -/

variable {s : Style}

/-- Whether a text that was written is read as one of characters only. -/
def comesWhole (plain : Bool) (t : String) : Bool := Text.isWhole (rejoined plain t)

/-- A value as it is written. -/
def spelled (s : Style) (j : Json) : Spelled where
  text := chars s j
  value := j.mapStrings (rejoined s.plain)
  strict _ := j.strings.all (comesWhole s.plain) && j.isShorter
  fits := j.isShort

/-- An entry as it is written. -/
def entryText (s : Style) (e : String × Json) : List Char :=
  quoted s.plain e.1 ++ s.entryMark.toList ++ chars s e.2

theorem itemTexts_eq_map (s : Style) (items : List Json) : itemTexts s items = items.map (chars s) := by
  induction items with
  | nil => rfl
  | cons j rest ih => rw [itemTexts, ih, List.map_cons]

theorem entryTexts_eq_map (s : Style) (es : List (String × Json)) :
    entryTexts s es = es.map (entryText s) := by
  induction es with
  | nil => rfl
  | cons e rest ih =>
    rw [entryTexts, ih, List.map_cons]
    rfl

theorem all_itemLeaves (p : Json → Bool) (items : List Json) :
    (itemLeaves items).all p = items.all fun j => j.leaves.all p := by
  induction items with
  | nil => rfl
  | cons j rest ih => rw [itemLeaves, List.all_append, ih, List.all_cons]

theorem all_entryLeaves (p : Json → Bool) (es : List (String × Json)) :
    (entryLeaves es).all p = es.all fun e => e.2.leaves.all p := by
  induction es with
  | nil => rfl
  | cons e rest ih => rw [entryLeaves, List.all_append, ih, List.all_cons]

theorem isShort_list (items : List Json) : (Json.list items).isShort = items.all isShort :=
  all_itemLeaves fits items

theorem isShort_object (es : List (String × Json)) :
    (Json.object es).isShort = es.all fun e => e.2.isShort :=
  all_entryLeaves fits es

theorem all_and_all {α : Type} (p q : α → Bool) (l : List α) :
    (l.all p && l.all q) = l.all fun x => p x && q x := by
  induction l with
  | nil => rfl
  | cons x rest ih =>
    rw [List.all_cons, List.all_cons, List.all_cons, ← ih]
    ac_rfl

/-! ### Collections -/

theorem spelled_list (hs : s.IsReadable) (items : List Json) :
    (Json.list items).spelled s = Collection.lists.spelled (fun p => p.1 ++ (p.2.spelled s).text)
      (fun p => (p.2.spelled s).value) (fun p => (p.2.spelled s).strict) (fun p => (p.2.spelled s).fits) []
      (gapped s.itemGap items) := by
  rw [spelled, chars, itemTexts_eq_map, hs.itemMark_eq, intercalate_gapped, isShort_list, strings,
    all_itemStrings, mapStrings, mapItemStrings_eq_map]
  have hvalue := map_gapped s.itemGap (fun j : Json => (j.spelled s).value) items
  have hstrict (r : StrictReader) := all_gapped s.itemGap (fun j : Json => (j.spelled s).strict r) items
  have hfits := all_gapped s.itemGap (fun j : Json => (j.spelled s).fits) items
  have hboth (r : StrictReader) : (items.all fun j => (j.spelled s).strict r) =
      ((items.all fun j => j.strings.all (comesWhole s.plain)) && (Json.list items).isShorter) := by
    rw [isShorter, leaves, all_itemLeaves, all_and_all]
    rfl
  simp only [Collection.spelled, hvalue, hstrict, hfits, hboth]
  rfl

theorem list_isRead (hs : s.IsReadable) {items : List Json} (h : ∀ j ∈ items, (j.spelled s).IsRead) :
    ((Json.list items).spelled s).IsRead := by
  rw [spelled_list hs]
  refine Collection.lists.spelled_isRead isBlank_nil fun p hp rest hr => ?_
  obtain ⟨hblank, hmem⟩ := mem_gapped hs.isBlank_itemGap hp
  obtain ⟨ts, htokens, hleads⟩ := h p.2 hmem rest hr
  refine ⟨ts, ?_, fun frames done w hw => hleads _ w hw⟩
  rw [List.append_assoc, tokens_blanks hblank, htokens]

theorem spelled_object (hs : s.IsReadable) (es : List (String × Json)) :
    (Json.object es).spelled s = Collection.objects.spelled (fun p => p.1 ++ entryText s p.2)
      (fun p => (rejoined s.plain p.2.1, (p.2.2.spelled s).value))
      (fun p r => comesWhole s.plain p.2.1 && (p.2.2.spelled s).strict r) (fun p => (p.2.2.spelled s).fits) []
      (gapped s.itemGap es) := by
  rw [spelled, chars, entryTexts_eq_map, hs.itemMark_eq, intercalate_gapped, isShort_object, strings,
    all_entryStrings, mapStrings, mapEntryStrings_eq_map]
  have hvalue := map_gapped s.itemGap
    (fun e : String × Json => (rejoined s.plain e.1, (e.2.spelled s).value)) es
  have hstrict (r : StrictReader) := all_gapped s.itemGap
    (fun e : String × Json => comesWhole s.plain e.1 && (e.2.spelled s).strict r) es
  have hfits := all_gapped s.itemGap (fun e : String × Json => (e.2.spelled s).fits) es
  have hboth (r : StrictReader) : (es.all fun e => comesWhole s.plain e.1 && (e.2.spelled s).strict r) =
      ((es.all fun e => comesWhole s.plain e.1 && e.2.strings.all (comesWhole s.plain)) &&
        (Json.object es).isShorter) := by
    rw [isShorter, leaves, all_entryLeaves, all_and_all]
    simp only [spelled, isShorter, Bool.and_assoc]
  simp only [Collection.spelled, hvalue, hstrict, hfits, hboth]
  rfl

theorem object_isRead (hs : s.IsReadable) {es : List (String × Json)}
    (h : ∀ e ∈ es, (e.2.spelled s).IsRead) : ((Json.object es).spelled s).IsRead := by
  rw [spelled_object hs]
  refine Collection.objects.spelled_isRead isBlank_nil fun p hp rest hr => ?_
  obtain ⟨hblank, hmem⟩ := mem_gapped hs.isBlank_itemGap hp
  obtain ⟨ts, htokens, hleads⟩ := h p.2 hmem rest hr
  obtain ⟨place, hplace⟩ := tokens_quoted s.plain p.2.1 (':' :: (s.entryGap ++ (chars s p.2.2 ++ rest)))
  have hvalue : tokens (s.entryGap ++ (chars s p.2.2 ++ rest)) = ts ++ tokens rest :=
    (tokens_blanks hs.isBlank_entryGap _).trans htokens
  have htext : p.1 ++ entryText s p.2 ++ rest =
      p.1 ++ (quoted s.plain p.2.1 ++ ':' :: (s.entryGap ++ (chars s p.2.2 ++ rest))) := by
    simp only [entryText, hs.entryMark_eq, List.append_assoc, List.cons_append]
  rw [htext, tokens_blanks hblank, hplace, tokens_mark_append (by decide) hvalue, ← List.cons_append]
  exact ⟨_, rfl, fun frames done w hw => (Leads.single (step_name hw frames done place _)).append
    (.cons rfl rfl (hleads _ .value (.inl rfl)))⟩

/-! ### Leaves -/

/-- A leaf that is a single token. -/
theorem isRead_atom {j : Json} (hvalue : j.mapStrings (rejoined s.plain) = j) (hstrings : j.strings = [])
    (hshort : j.isShort = true) (strict : Strictness) (hstrict : ∀ [StrictReader], strict.holds = j.isShorter)
    (h : ∀ rest, EndsNumber rest →
      tokens (chars s j ++ rest) = (chars s j ++ rest, .atom j strict) :: tokens rest) :
    (j.spelled s).IsRead := by
  refine Spelled.isRead_of_token (.atom j strict) (by simp) ?_ (fun rest hr => ⟨_, h rest hr⟩)
    fun frames w place => ?_
  · rw [spelled, hstrings]
    exact hstrict
  · rw [spelled, hshort, hvalue]
    rfl

theorem isRead_int (i : Int) : ((Json.int i).spelled s).IsRead := by
  have hshort : (Json.int i).isShort = decide ((Nat.toDigits 10 i.natAbs).length ≤ digitLimit) := by
    simp [isShort, leaves, fits]
  have htokens (rest : List Char) (hr : EndsNumber rest) :=
    tokens_number (startsNumber_intText i) (number?_intText i hr)
  by_cases hlong : digitLimit < (Nat.toDigits 10 i.natAbs).length
  · simp only [if_pos hlong] at htokens
    refine Spelled.isRead_of_token .oversized (by simp) ?_ (fun rest hr => ⟨_, htokens rest hr⟩)
      fun frames w place => ?_
    · intro r
      have hshorter : (Json.int i).isShorter = false := by
        rw [Bool.eq_false_iff]
        intro h
        rw [isShort_of_isShorter h] at hshort
        exact Nat.not_le.2 hlong (of_decide_eq_true hshort.symm)
      simp only [Token.isStrict, spelled, hshorter, Bool.and_false]
    · rw [spelled, hshort, decide_eq_false (Nat.not_le.2 hlong)]
      rfl
  · simp only [if_neg hlong] at htokens
    refine isRead_atom rfl rfl (hshort.trans (decide_eq_true (Nat.not_lt.1 hlong))) _ ?_ htokens
    intro r
    rw [Strictness.holds_ofDigits]
    simp [isShorter, leaves, fitsStrictly]

theorem isRead_float (hs : s.IsReadable) {d : Binary64} (hd : d.isFinite = true) :
    ((Json.float d).spelled s).IsRead := by
  have htext : chars s (.float d) = s.layout.finiteText d := by rw [chars, floatChars, if_pos hd]
  refine isRead_atom rfl rfl rfl .always rfl fun rest hr => ?_
  rw [htext]
  exact tokens_number (startsNumber_finiteText _ hd) (number?_finiteText hs.endPlain_le hd hr)

theorem isRead_text (t : String) : ((Json.text t).spelled s).IsRead :=
  Spelled.isRead_of_token (.text (rejoined s.plain t)) (by simp)
    (by simp [spelled, strings, comesWhole, isShorter, leaves, fitsStrictly, Token.isStrict])
    (fun rest _ => tokens_quoted s.plain t rest) fun _ _ _ => rfl

mutual

/-- A written value is a spelling. -/
theorem spelled_isRead (hs : s.IsReadable) (j : Json) (h : j.Spellable) : (j.spelled s).IsRead := by
  match j with
  | .null => exact isRead_atom rfl rfl rfl .always rfl fun rest _ => tokens_plain rfl (by decide) rfl
  | .bool true => exact isRead_atom rfl rfl rfl .always rfl fun rest _ => tokens_plain rfl (by decide) rfl
  | .bool false => exact isRead_atom rfl rfl rfl .always rfl fun rest _ => tokens_plain rfl (by decide) rfl
  | .int i => exact isRead_int i
  | .float d => exact isRead_float hs (h (.float d) (List.mem_singleton.2 rfl))
  | .text t => exact isRead_text t
  | .list items => exact list_isRead hs (spelledItems_isRead hs items h)
  | .object es => exact object_isRead hs (spelledEntries_isRead hs es h)

theorem spelledItems_isRead (hs : s.IsReadable) (items : List Json)
    (h : ∀ l ∈ itemLeaves items, isSpellable l = true) : ∀ j ∈ items, (j.spelled s).IsRead := by
  match items with
  | [] => simp
  | j :: rest =>
    rw [List.forall_mem_cons]
    exact ⟨spelled_isRead hs j fun l hl => h l (List.mem_append_left _ hl),
      spelledItems_isRead hs rest fun l hl => h l (List.mem_append_right _ hl)⟩

theorem spelledEntries_isRead (hs : s.IsReadable) (es : List (String × Json))
    (h : ∀ l ∈ entryLeaves es, isSpellable l = true) : ∀ e ∈ es, (e.2.spelled s).IsRead := by
  match es with
  | [] => simp
  | (k, j) :: rest =>
    rw [List.forall_mem_cons]
    exact ⟨spelled_isRead hs j fun l hl => h l (List.mem_append_left _ hl),
      spelledEntries_isRead hs rest fun l hl => h l (List.mem_append_right _ hl)⟩

end

/-! ## Whole texts -/

/-- A written value is read as this value, unless an integer in it is too long. -/
theorem read_write {j : Json} (h : j.Spellable) :
    read (write compact j) = if j.isShort then .ok j else .error .oversized := by
  have hread := (spelled_isRead isReadable_compact j h).read_eq
  have hvalue : (j.spelled compact).value = j := mapStrings_eq_self j fun _ _ => rfl
  rw [hvalue] at hread
  exact hread

/-- The same of the strict reader, as it counts, for texts of characters. -/
theorem readStrictly?_write [r : StrictReader] {j : Json} (h : j.Spellable)
    (hwhole : ∀ t ∈ j.strings, Text.isWhole t = true) :
    readStrictly? (write compact j) = if j.isShorter then some j else none := by
  have hread := (spelled_isRead isReadable_compact j h).readStrictly?_eq
  have hvalue : (j.spelled compact).value = j := mapStrings_eq_self j fun _ _ => rfl
  have htexts : j.strings.all (comesWhole compact.plain) = true := List.all_eq_true.2 hwhole
  have hstrict : ((j.spelled compact).strict r && (j.spelled compact).fits) = j.isShorter := by
    show (j.strings.all (comesWhole compact.plain) && j.isShorter && j.isShort) = j.isShorter
    rw [htexts, Bool.true_and]
    cases hshorter : j.isShorter with
    | true => exact isShort_of_isShorter hshorter
    | false => rfl
  rw [hvalue, hstrict] at hread
  exact hread

/-- A value in which halves that stand together are joined. -/
def joined (j : Json) : Json := j.mapStrings (rejoined true)

end SqlAst.Json
