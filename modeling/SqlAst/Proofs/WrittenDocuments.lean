import SqlAst.Proofs.JsonText
import SqlAst.Proofs.NumberGrammar

/-!
# Written JSON is JSON

What is written of a value is a text of the grammar with this value, integers of any size included, if all
doubles are finite and all texts consist of characters.

* `exists_piece`: each character is written in one of the ways that the grammar has.
* `exists_quotation`, `exists_number`: texts and numbers.
* `exists_doc`: values.
-/
namespace SqlAst.Json

open Text (hexText toNat_valid isHalfCode_toNat held_char)

/-! ## Texts -/

/-- Four digits of a number. -/
def HexUnit.ofNat (n : Nat) (h : n < 0x10000) : HexUnit where
  digits := hexText 4 n
  length_eq := Text.length_hexText (by decide) h
  isHex _ hc := Text.isSome_hexValue? (Text.mem_lowerHexDigits_of_mem_hexText hc)

theorem HexUnit.code_ofNat {n : Nat} (h : n < 0x10000) : (ofNat n h).code = n := Text.hexNumber_hexText 4 n

/-- A character by its number, or by the numbers of its pair. -/
theorem exists_piece_numbered (c : Char) : ∃ p : Piece, p.text = numberedEscape (.char c) ∧ p.char = c := by
  have hvalid := toNat_valid c
  by_cases hsmall : c.toNat < 0x10000
  · refine ⟨.unit (.ofNat c.toNat hsmall) ?_, (if_pos hsmall).symm, ?_⟩
    · rw [HexUnit.code_ofNat]
      exact isHalfCode_toNat c
    · rw [Piece.char, HexUnit.code_ofNat, Char.ofNat_toNat]
  · obtain ⟨high, hhigh⟩ : ∃ high, high = 0xd800 + (c.toNat - 0x10000) / 0x400 := ⟨_, rfl⟩
    obtain ⟨low, hlow⟩ : ∃ low, low = 0xdc00 + (c.toNat - 0x10000) % 0x400 := ⟨_, rfl⟩
    have hnumber : numberedEscape (.char c) = unitEscape high ++ unitEscape low := by
      rw [hhigh, hlow]
      exact if_neg hsmall
    rw [hnumber]
    refine ⟨.pair (.ofNat high (by omega)) (.ofNat low (by omega)) ?_ ?_, rfl, ?_⟩
    · rw [HexUnit.code_ofNat]
      omega
    · rw [HexUnit.code_ofNat]
      omega
    · have hsame : 0x10000 + (high - 0xd800) * 0x400 + (low - 0xdc00) = c.toNat := by omega
      rw [Piece.char, HexUnit.code_ofNat, HexUnit.code_ofNat, hsame, Char.ofNat_toNat]

/-- A character behind a backslash. -/
theorem exists_piece_short {c letter : Char} (h : shortEscape? c = some letter) :
    ∃ p : Piece, p.text = ['\\', letter] ∧ p.char = c := by
  unfold shortEscape? at h
  split at h
  · rename_i hmark
    cases h
    rcases hmark with rfl | rfl
    · exact ⟨.short .quote, rfl, rfl⟩
    · exact ⟨.short .backslash, rfl, rfl⟩
  split at h
  · rename_i hc
    cases h
    exact ⟨.short .newline, rfl, hc.symm⟩
  split at h
  · rename_i hc
    cases h
    exact ⟨.short .carriageReturn, rfl, hc.symm⟩
  split at h
  · rename_i hc
    cases h
    exact ⟨.short .tab, rfl, hc.symm⟩
  split at h
  · rename_i hc
    cases h
    exact ⟨.short .backspace, rfl, (Char.toNat_inj.1 hc).symm⟩
  split at h
  · rename_i hc
    cases h
    exact ⟨.short .formFeed, rfl, (Char.toNat_inj.1 hc).symm⟩
  · cases h

/-- What stands for a character inside quotation marks. -/
def characterText (plain : Bool) (c : Char) : List Char :=
  if plain then escapedPoint (.char c) else (Text.Point.char c).held.flatMap escaped

/-- A character that stands for itself is written as it is held. -/
theorem flatMap_escaped_held {c : Char} (hshort : shortEscape? c = none) (hraw : ¬ c.toNat < 0x20) :
    (Text.Point.char c).held.flatMap escaped = (Text.Point.char c).held := by
  have hself : escaped c = [c] := by rw [escaped, hshort, if_neg hraw]
  rw [Text.Point.held]
  by_cases hmark : c = Text.halfMark
  · rw [if_pos hmark, ← hmark, List.flatMap_cons, List.flatMap_singleton, hself]
    rfl
  · rw [if_neg hmark, List.flatMap_singleton, hself]

/-- A character is written in one of the ways that the grammar has. -/
theorem exists_piece (plain : Bool) (c : Char) : ∃ p : Piece, p.text = characterText plain c ∧ p.char = c := by
  cases hshort : shortEscape? c with
  | some letter =>
    obtain ⟨p, htext, hchar⟩ := exists_piece_short hshort
    obtain ⟨-, -, hsmall, -⟩ := shortEscape?_eq_some hshort
    refine ⟨p, htext.trans ?_, hchar⟩
    cases plain with
    | true => rw [characterText, if_pos rfl, escapedPoint, hshort]
    | false =>
      rw [characterText, if_neg (by decide), held_char (Nat.lt_trans hsmall (by decide)), List.flatMap_singleton,
        escaped, hshort]
  | none =>
    obtain ⟨hquote, hslash⟩ := ne_of_shortEscape? hshort
    have hplain (h : 0x20 ≤ c.toNat) : isPlain c = true := by simp [isPlain, hquote, hslash, h]
    obtain ⟨p, htext, hchar⟩ := exists_piece_numbered c
    cases plain with
    | true =>
      by_cases hraw : 0x20 ≤ c.toNat ∧ c.toNat < 0x7f
      · refine ⟨.raw c (hplain hraw.1), ?_, rfl⟩
        rw [characterText, if_pos rfl, escapedPoint, hshort, if_pos hraw]
        exact held_char (Nat.lt_trans hraw.2 (by decide))
      · exact ⟨p, by rw [htext, characterText, if_pos rfl, escapedPoint, hshort, if_neg hraw], hchar⟩
    | false =>
      by_cases hcontrol : c.toNat < 0x20
      · refine ⟨p, ?_, hchar⟩
        rw [htext, characterText, if_neg (by decide), held_char (Nat.lt_trans hcontrol (by decide)),
          List.flatMap_singleton, escaped, hshort, if_pos hcontrol]
      · exact ⟨.raw c (hplain (Nat.not_lt.mp hcontrol)), (flatMap_escaped_held hshort hcontrol).symm, rfl⟩

/-- A text of characters is written as the grammar has it. -/
theorem exists_quotation (plain : Bool) {s : String} (h : Text.isWhole s = true) :
    ∃ q : Quotation, q.text = quoted plain s ∧ q.value = s := by
  obtain ⟨cs, rfl⟩ := Text.isWhole_iff.mp h
  have hpieces (cs : List Char) :
      ∃ ps : List Piece, ps.flatMap Piece.text = cs.flatMap (characterText plain) ∧ ps.map Piece.char = cs := by
    induction cs with
    | nil => exact ⟨[], rfl, rfl⟩
    | cons c rest ih =>
      obtain ⟨p, htext, hchar⟩ := exists_piece plain c
      obtain ⟨ps, htexts, hchars⟩ := ih
      exact ⟨p :: ps, by rw [List.flatMap_cons, List.flatMap_cons, htext, htexts],
        by rw [List.map_cons, hchar, hchars]⟩
  obtain ⟨ps, htext, hchars⟩ := hpieces cs
  refine ⟨ps, ?_, congrArg Text.ofChars hchars⟩
  have hinside : quoted plain (Text.ofChars cs) = '"' :: (cs.flatMap (characterText plain) ++ ['"']) := by
    unfold characterText
    cases plain with
    | true => simp [quoted, Text.ofChars, Text.points_hold, List.flatMap_map]
    | false => simp [quoted, Text.ofChars, Text.hold, List.flatMap_map, List.flatMap_assoc]
  rw [Quotation.text, htext, hinside]

/-! ## Numbers -/

theorem exists_int (i : Int) : ∃ n : Numeral, n.text = Text.intText i ∧ n.value = .int i := by
  have hnumber (negative : Bool) (m : Nat) : ∃ n : Numeral,
      n.text = signText negative ++ Nat.toDigits 10 m ∧ n.value = .int (signed negative m) := by
    refine ⟨{ negative, whole := Nat.toDigits 10 m, isWhole := isWhole_toDigits m }, ?_, ?_⟩
    · exact congrArg (signText negative ++ ·) (List.append_nil _)
    · show Json.int (signed negative (Nat.ofDigitChars 10 (Nat.toDigits 10 m) 0)) = _
      rw [Nat.ofDigitChars_ten_toDigits]
  cases i with
  | ofNat m => exact hnumber false m
  | negSucc m => exact hnumber true (m + 1)

theorem exists_float {l : Layout} (hl : l.endPlain ≤ 16) {d : Binary64} (hd : d.isFinite = true) :
    ∃ n : Numeral, n.text = l.finiteText d ∧ n.value = .float d := by
  have hread := number?_finiteText hl hd endsNumber_nil
  rw [List.append_nil] at hread
  obtain ⟨n, htext, htoken⟩ := exists_numeral hread
  refine ⟨n, by rw [htext, List.take_length], ?_⟩
  rw [Numeral.token] at htoken
  split at htoken
  · cases htoken
  · exact (Token.atom.inj htoken).1

/-! ## Values -/

namespace Doc

theorem spelledItems_eq_map (ds : List Doc) : spelledItems ds = ds.map spelled := by
  induction ds with
  | nil => rfl
  | cons d rest ih => rw [spelledItems, ih, List.map_cons]

theorem spelledEntries_eq_map (es : List (Name × Doc)) :
    spelledEntries es = es.map fun e => (e.1.spelled, e.2.spelled) := by
  induction es with
  | nil => rfl
  | cons e rest ih => rw [spelledEntries, ih, List.map_cons]

theorem text_between (before after : Blanks) (d : Doc) :
    (between before d after).spelled.text = before.chars ++ (d.spelled.text ++ after.chars) := rfl

theorem value_between (before after : Blanks) (d : Doc) :
    (between before d after).spelled.value = d.spelled.value := rfl

/-- Nothing in between. -/
def adjacent : Blanks := ⟨[], isBlank_nil⟩

/-- Items with blanks in front of all but the first. -/
def apart (gap : Blanks) : List Doc → List Doc
  | [] => []
  | d :: rest => d :: rest.map fun d => .between gap d adjacent

theorem texts_apart (gap : Blanks) (ds : List Doc) :
    (apart gap ds).map (fun d => d.spelled.text) =
      (gapped gap.chars ds).map fun p => p.1 ++ p.2.spelled.text := by
  cases ds with
  | nil => rfl
  | cons d rest => simp [apart, adjacent, gapped, text_between]

theorem values_apart (gap : Blanks) (ds : List Doc) :
    (apart gap ds).map (fun d => d.spelled.value) = ds.map fun d => d.spelled.value := by
  cases ds with
  | nil => rfl
  | cons d rest => simp [apart, value_between]

/-- Entries with blanks in front of all but the first, and behind their colons. -/
def entriesApart (gap inside : Blanks) : List (Quotation × Doc) → List (Name × Doc)
  | [] => []
  | (q, d) :: rest => (⟨adjacent, q, adjacent⟩, .between inside d adjacent) ::
      rest.map fun e => (⟨gap, e.1, adjacent⟩, .between inside e.2 adjacent)

theorem texts_entriesApart (gap inside : Blanks) (es : List (Quotation × Doc)) :
    (entriesApart gap inside es).map (fun e => Spelled.entryText (e.1.spelled, e.2.spelled)) =
      (gapped gap.chars es).map fun p => p.1 ++ (p.2.1.text ++ ':' :: (inside.chars ++ p.2.2.spelled.text)) := by
  cases es with
  | nil => rfl
  | cons e rest => simp [entriesApart, adjacent, gapped, text_between, Spelled.entryText, Name.spelled]

theorem values_entriesApart (gap inside : Blanks) (es : List (Quotation × Doc)) :
    (entriesApart gap inside es).map (fun e => (e.1.spelled.name, e.2.spelled.value)) =
      es.map fun e => (e.1.value, e.2.spelled.value) := by
  cases es with
  | nil => rfl
  | cons e rest => simp [entriesApart, value_between, Name.spelled]

end Doc

variable {s : Style}

/-- What is written of a value is a text of the grammar with this value. -/
def IsDocument (s : Style) (j : Json) : Prop := ∃ d : Doc, d.spelled.text = chars s j ∧ d.spelled.value = j

theorem isDocument_list (hs : s.IsReadable) {items : List Json} {ds : List Doc}
    (htexts : ds.map (fun d => d.spelled.text) = items.map (chars s))
    (hvalues : ds.map (fun d => d.spelled.value) = items) : IsDocument s (.list items) := by
  let gap : Blanks := ⟨s.itemGap, hs.isBlank_itemGap⟩
  refine ⟨.list {} (Doc.apart gap ds), ?_, ?_⟩
  · have hparts : (Doc.spelledItems (Doc.apart gap ds)).map Spelled.text =
        (gapped s.itemGap ds).map fun p => p.1 ++ p.2.spelled.text := by
      rw [Doc.spelledItems_eq_map, List.map_map]
      exact Doc.texts_apart gap ds
    rw [chars, itemTexts_eq_map, ← htexts, hs.itemMark_eq, intercalate_gapped, ← hparts]
    rfl
  · have hparts : (Doc.spelledItems (Doc.apart gap ds)).map Spelled.value = items := by
      rw [Doc.spelledItems_eq_map, List.map_map]
      exact (Doc.values_apart gap ds).trans hvalues
    exact congrArg Json.list hparts

theorem isDocument_object (hs : s.IsReadable) {es : List (String × Json)} {ds : List (Quotation × Doc)}
    (htexts : ds.map (fun d => (d.1.text, d.2.spelled.text)) =
      es.map fun e => (quoted s.plain e.1, chars s e.2))
    (hvalues : ds.map (fun d => (d.1.value, d.2.spelled.value)) = es) : IsDocument s (.object es) := by
  let gap : Blanks := ⟨s.itemGap, hs.isBlank_itemGap⟩
  let inside : Blanks := ⟨s.entryGap, hs.isBlank_entryGap⟩
  refine ⟨.object {} (Doc.entriesApart gap inside ds), ?_, ?_⟩
  · have hentries : es.map (entryText s) =
        ds.map fun d => d.1.text ++ ':' :: (s.entryGap ++ d.2.spelled.text) := by
      have hjoin := congrArg (List.map fun p => p.1 ++ ':' :: (s.entryGap ++ p.2)) htexts
      rw [List.map_map, List.map_map] at hjoin
      refine Eq.trans (List.map_congr_left fun e _ => ?_) hjoin.symm
      rw [entryText, hs.entryMark_eq, List.append_assoc]
      rfl
    have hparts : (Doc.spelledEntries (Doc.entriesApart gap inside ds)).map Spelled.entryText =
        (gapped s.itemGap ds).map fun p => p.1 ++ (p.2.1.text ++ ':' :: (s.entryGap ++ p.2.2.spelled.text)) := by
      rw [Doc.spelledEntries_eq_map, List.map_map]
      exact Doc.texts_entriesApart gap inside ds
    rw [chars, entryTexts_eq_map, hentries, hs.itemMark_eq, intercalate_gapped, ← hparts]
    rfl
  · have hparts : (Doc.spelledEntries (Doc.entriesApart gap inside ds)).map
        (fun e => (e.1.name, e.2.value)) = es := by
      rw [Doc.spelledEntries_eq_map, List.map_map]
      exact (Doc.values_entriesApart gap inside ds).trans hvalues
    exact congrArg Json.object hparts

mutual

/-- What is written of a value is a text of the grammar, if all doubles are finite and all texts whole. -/
theorem isDocument (hs : s.IsReadable) (j : Json) (h : j.Spellable) (hwhole : j.strings.all Text.isWhole = true) :
    IsDocument s j := by
  match j with
  | .null => exact ⟨.null, rfl, rfl⟩
  | .bool true => exact ⟨.bool true, rfl, rfl⟩
  | .bool false => exact ⟨.bool false, rfl, rfl⟩
  | .int i =>
    obtain ⟨n, htext, hvalue⟩ := exists_int i
    exact ⟨.number n, htext, hvalue⟩
  | .float d =>
    have hd : d.isFinite = true := h (.float d) (List.mem_singleton.2 rfl)
    obtain ⟨n, htext, hvalue⟩ := exists_float hs.endPlain_le hd
    have hchars : chars s (.float d) = s.layout.finiteText d := by rw [chars, floatChars, if_pos hd]
    exact ⟨.number n, htext.trans hchars.symm, hvalue⟩
  | .text t =>
    have ht : Text.isWhole t = true := by simpa [strings] using hwhole
    obtain ⟨q, htext, hvalue⟩ := exists_quotation s.plain ht
    exact ⟨.quoted q, htext, congrArg Json.text hvalue⟩
  | .list items =>
    obtain ⟨ds, htexts, hvalues⟩ := exists_items hs items h hwhole
    exact isDocument_list hs htexts hvalues
  | .object es =>
    obtain ⟨ds, htexts, hvalues⟩ := exists_entries hs es h hwhole
    exact isDocument_object hs htexts hvalues

theorem exists_items (hs : s.IsReadable) (items : List Json) (h : ∀ l ∈ itemLeaves items, isSpellable l = true)
    (hwhole : (itemStrings items).all Text.isWhole = true) :
    ∃ ds : List Doc, ds.map (fun d => d.spelled.text) = items.map (chars s) ∧
      ds.map (fun d => d.spelled.value) = items := by
  match items with
  | [] => exact ⟨[], rfl, rfl⟩
  | j :: rest =>
    rw [itemStrings, List.all_append, Bool.and_eq_true] at hwhole
    obtain ⟨d, htext, hvalue⟩ := isDocument hs j (fun l hl => h l (List.mem_append_left _ hl)) hwhole.1
    obtain ⟨ds, htexts, hvalues⟩ :=
      exists_items hs rest (fun l hl => h l (List.mem_append_right _ hl)) hwhole.2
    exact ⟨d :: ds, by rw [List.map_cons, List.map_cons, htext, htexts],
      by rw [List.map_cons, hvalue, hvalues]⟩

theorem exists_entries (hs : s.IsReadable) (es : List (String × Json))
    (h : ∀ l ∈ entryLeaves es, isSpellable l = true)
    (hwhole : (entryStrings es).all Text.isWhole = true) :
    ∃ ds : List (Quotation × Doc), ds.map (fun d => (d.1.text, d.2.spelled.text)) =
        es.map (fun e => (quoted s.plain e.1, chars s e.2)) ∧
      ds.map (fun d => (d.1.value, d.2.spelled.value)) = es := by
  match es with
  | [] => exact ⟨[], rfl, rfl⟩
  | (k, j) :: rest =>
    rw [entryStrings, List.all_cons, List.all_append, Bool.and_eq_true, Bool.and_eq_true] at hwhole
    obtain ⟨q, hname, hnamed⟩ := exists_quotation s.plain hwhole.1
    obtain ⟨d, htext, hvalue⟩ := isDocument hs j (fun l hl => h l (List.mem_append_left _ hl)) hwhole.2.1
    obtain ⟨ds, htexts, hvalues⟩ :=
      exists_entries hs rest (fun l hl => h l (List.mem_append_right _ hl)) hwhole.2.2
    exact ⟨(q, d) :: ds, by rw [List.map_cons, List.map_cons, hname, htext, htexts],
      by rw [List.map_cons, hnamed, hvalue, hvalues]⟩

end

end SqlAst.Json
