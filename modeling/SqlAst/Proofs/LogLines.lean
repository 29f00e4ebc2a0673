import SqlAst.Proofs.Messages
import SqlAst.Proofs.StoredText
import SqlAst.Proofs.WrittenDocuments

/-!
# Lines of the log

The line of a record is one JSON object in printable ASCII. It tells the time, the level, the logger and the
message of the record, the ids of a valid span, the error that the record is about, and all attributes that
are not standard, in this order of precedence.

* `Json.isPrintable_chars`: a value set out as in lines consists of printable characters.
* `Record.jsonOf_ofJson`: the value of an attribute that is a JSON value.
* `Record.tells_of_entries?`: what the entries of a line tell.
* `Record.line_faithful`: lines as a whole.
-/
namespace SqlAst

namespace Json

open Text (IsPrintable)

/-! ## Printable text -/

theorem isPrintable_of_isDigit {c : Char} (h : c.isDigit = true) : IsPrintable c := by
  simp only [Char.isDigit, Bool.and_eq_true, decide_eq_true_eq] at h
  have hge : 48 ≤ c.toNat := h.1
  have hle : c.toNat ≤ 57 := h.2
  exact ⟨by omega, by omega⟩

theorem isPrintable_of_isNumeral {c : Char} (h : Layout.isNumeral c) : IsPrintable c := by
  rcases h with h | rfl | rfl | rfl | rfl
  · exact isPrintable_of_isDigit h
  all_goals decide

theorem isPrintable_intText {i : Int} {c : Char} (h : c ∈ Text.intText i) : IsPrintable c := by
  have hdigits {n : Nat} (h : c ∈ Nat.toDigits 10 n) : IsPrintable c :=
    isPrintable_of_isDigit (Nat.isDigit_of_mem_toDigits (by decide) (by decide) h)
  cases i with
  | ofNat n => exact hdigits h
  | negSucc n =>
    rcases List.mem_cons.mp h with rfl | h
    · decide
    · exact hdigits h

theorem isPrintable_finiteText (l : Layout) {d : Binary64} (hd : d.isFinite = true) {c : Char}
    (h : c ∈ l.finiteText d) : IsPrintable c := by
  obtain ⟨first, r, htext, hfirst, hrest⟩ := Layout.isMagnitude_magnitudeText l hd
  rw [Layout.finiteText_eq, htext] at h
  rcases List.mem_append.mp h with h | h
  · split at h
    · rw [List.mem_singleton.mp h]
      decide
    · cases h
  · rcases List.mem_cons.mp h with rfl | h
    · exact isPrintable_of_isDigit hfirst
    · exact isPrintable_of_isNumeral (hrest c h)

theorem isPrintable_intercalate {texts : List (List Char)} (h : ∀ t ∈ texts, ∀ c ∈ t, IsPrintable c)
    {c : Char} (hc : c ∈ spaced.itemMark.toList.intercalate texts) : IsPrintable c := by
  have hmark : ∀ c ∈ spaced.itemMark.toList, IsPrintable c := Text.isPrintable_of_all rfl
  rcases Text.mem_intercalate hc with hc | ⟨t, ht, hc⟩
  · exact hmark c hc
  · exact h t ht c hc

mutual

/-- A value set out as in lines consists of printable characters, if its doubles are finite. -/
theorem isPrintable_chars (j : Json) (h : j.Spellable) : ∀ c ∈ chars spaced j, IsPrintable c := by
  match j with
  | .null => exact Text.isPrintable_of_all rfl
  | .bool true => exact Text.isPrintable_of_all rfl
  | .bool false => exact Text.isPrintable_of_all rfl
  | .int i => exact fun c hc => isPrintable_intText hc
  | .float d =>
    have hd : d.isFinite = true := h (.float d) (List.mem_singleton.2 rfl)
    rw [chars, floatChars, if_pos hd]
    exact fun c hc => isPrintable_finiteText _ hd hc
  | .text t => exact fun c hc => isPrintable_quoted hc
  | .list items =>
    intro c hc
    rw [chars, List.mem_append, List.mem_cons, List.mem_singleton] at hc
    rcases hc with (rfl | hc) | rfl
    · decide
    · exact isPrintable_intercalate (isPrintable_itemTexts items h) hc
    · decide
  | .object es =>
    intro c hc
    rw [chars, List.mem_append, List.mem_cons, List.mem_singleton] at hc
    rcases hc with (rfl | hc) | rfl
    · decide
    · exact isPrintable_intercalate (isPrintable_entryTexts es h) hc
    · decide

theorem isPrintable_itemTexts (items : List Json) (h : ∀ l ∈ itemLeaves items, isSpellable l = true) :
    ∀ t ∈ itemTexts spaced items, ∀ c ∈ t, IsPrintable c := by
  match items with
  | [] => simp [itemTexts]
  | j :: rest =>
    rw [itemTexts, List.forall_mem_cons]
    exact ⟨isPrintable_chars j fun l hl => h l (List.mem_append_left _ hl),
      isPrintable_itemTexts rest fun l hl => h l (List.mem_append_right _ hl)⟩

theorem isPrintable_entryTexts (es : List (String × Json)) (h : ∀ l ∈ entryLeaves es, isSpellable l = true) :
    ∀ t ∈ entryTexts spaced es, ∀ c ∈ t, IsPrintable c := by
  match es with
  | [] => simp [entryTexts]
  | (k, j) :: rest =>
    have hmark : ∀ c ∈ spaced.entryMark.toList, IsPrintable c := Text.isPrintable_of_all rfl
    rw [entryTexts, List.forall_mem_cons]
    refine ⟨fun c hc => ?_, isPrintable_entryTexts rest fun l hl => h l (List.mem_append_right _ hl)⟩
    rcases List.mem_append.mp hc with hc | hc
    · rcases List.mem_append.mp hc with hc | hc
      · exact isPrintable_quoted hc
      · exact hmark c hc
    · exact isPrintable_chars j (fun l hl => h l (List.mem_append_left _ hl)) c hc

end

end Json

namespace Log.Record

/-! ## Attributes that are JSON values -/

mutual

/-- The JSON value of an attribute that is one. -/
theorem jsonOf_ofJson (j : Json) : jsonOf (.ofJson j) = j := by
  match j with
  | .null => rfl
  | .bool _ => rfl
  | .int _ => rfl
  | .float _ => rfl
  | .text _ => rfl
  | .list items => exact congrArg Json.list (jsonItems_ofJsonItems items)
  | .object es => exact congrArg Json.object (jsonEntries_ofJsonEntries es)

theorem jsonItems_ofJsonItems (items : List Json) : jsonItems (Datum.ofJsonItems items) = items := by
  match items with
  | [] => rfl
  | j :: rest => rw [Datum.ofJsonItems, jsonItems, jsonOf_ofJson j, jsonItems_ofJsonItems rest]

theorem jsonEntries_ofJsonEntries (es : List (String × Json)) :
    jsonEntries (Datum.ofJsonEntries es) = es := by
  match es with
  | [] => rfl
  | (k, j) :: rest =>
    rw [Datum.ofJsonEntries, jsonEntries, jsonOf_ofJson j, jsonEntries_ofJsonEntries rest]
    rfl

end

mutual

/-- A JSON value can be written as an attribute if its integers are short. -/
theorem hasJson_ofJson (j : Json) : hasJson (.ofJson j) = j.isShort := by
  match j with
  | .null => rfl
  | .bool _ => rfl
  | .int i => exact (Bool.and_true _).symm
  | .float _ => rfl
  | .text _ => rfl
  | .list items => rw [Json.isShort_list, Datum.ofJson, hasJson, haveJson_ofJsonItems items]
  | .object es => rw [Json.isShort_object, Datum.ofJson, hasJson, entriesHaveJson_ofJsonEntries es]

theorem haveJson_ofJsonItems (items : List Json) :
    haveJson (Datum.ofJsonItems items) = items.all Json.isShort := by
  match items with
  | [] => rfl
  | j :: rest => rw [Datum.ofJsonItems, haveJson, hasJson_ofJson j, haveJson_ofJsonItems rest, List.all_cons]

theorem entriesHaveJson_ofJsonEntries (es : List (String × Json)) :
    entriesHaveJson (Datum.ofJsonEntries es) = es.all fun e => e.2.isShort := by
  match es with
  | [] => rfl
  | (k, j) :: rest =>
    rw [Datum.ofJsonEntries, entriesHaveJson, hasJson_ofJson j, entriesHaveJson_ofJsonEntries rest, List.all_cons]
    rfl

end

/-- A JSON value with finite numbers. -/
def IsJson (d : Datum) : Prop := ∃ j : Json, d = .ofJson j ∧ j.Spellable

theorem IsJson.eq {d : Datum} (h : IsJson d) : d = .ofJson (jsonOf d) ∧ (jsonOf d).Spellable := by
  obtain ⟨j, rfl, hj⟩ := h
  rw [jsonOf_ofJson]
  exact ⟨rfl, hj⟩

/-- A JSON value as an attribute can be written if its integers are short. -/
theorem IsJson.isShort {d : Datum} (h : IsJson d) : (jsonOf d).isShort = hasJson d := by
  rw [← hasJson_ofJson, ← h.eq.1]

/-- All attributes that a line shows are JSON values: the logger, the level, and those that are not
standard. -/
structure ShowsJson (r : Record) : Prop where
  logger : IsJson (r.get "name")
  level : IsJson (r.get "levelname")
  extras : ∀ a ∈ r.attributes, a.1 ∉ standardNames → IsJson a.2

/-- Further attributes may be any JSON values. -/
theorem ShowsJson.setAll {r : Record} (hr : r.ShowsJson) {es : List (String × Datum)}
    (h : ∀ e ∈ es, e.1 ∉ standardNames ∧ IsJson e.2) : (r.setAll es).ShowsJson := by
  have hkeeps (key : String) (hkey : key ∈ standardNames) : (r.setAll es).get key = r.get key := by
    have hnone : Entries.last? key es = none :=
      Entries.last?_eq_none_iff.mpr fun e he hsame => (h e he).1 (hsame ▸ hkey)
    rw [Record.get, Record.setAll, Entries.lookup_merge, hnone]
    rfl
  exact {
    logger := hkeeps "name" (by decide) ▸ hr.logger
    level := hkeeps "levelname" (by decide) ▸ hr.level
    extras a ha hextra := by
      rcases Entries.mem_merge ha with ha | ha
      · exact hr.extras a ha hextra
      · exact (h a ha).2 }

/-! ## What a line tells -/

/-- Both ids of a span are positive and have no more digits than they are written with. -/
def HasIds (span : Nat × Nat) : Prop := 0 < span.1 ∧ span.1 < 16 ^ 32 ∧ 0 < span.2 ∧ span.2 < 16 ^ 16

instance (span : Nat × Nat) : Decidable (HasIds span) := inferInstanceAs (Decidable (_ ∧ _))

/-- A text of so many lower-case hexadecimal digits spells a number. -/
structure SpellsHex (width n : Nat) (t : String) : Prop where
  length_eq : t.length = width
  isLower : ∀ c ∈ t.toList, c ∈ Text.lowerHexDigits
  value : Text.hexNumber t.toList = n

/-- The names of the entries that a line generates. -/
def generatedNames (r : Record) (span : Nat × Nat) : List String :=
  ["timestamp", "level", "logger", "message"] ++ (if HasIds span then ["trace_id", "span_id"] else []) ++
    if (r.get "exc_info").isTrue then ["exception"] else []

/-- What the entries of a line tell of a record inside a span, with errors set out by `format`. -/
structure Tells (format : Datum → Option String) (r : Record) (span : Nat × Nat) (es : List (String × Json)) :
    Prop where
  nodup : (Entries.keys es).Nodup
  timestamp : ∃ time, es.lookup "timestamp" = some (.text (time.isoText 'T')) ∧ r.time? = some time ∧
    ∀ seconds, r.get "created" = .int seconds → time.IsUtc (seconds * 1000000)
  level : ∃ level, r.get "levelname" = .ofJson level ∧ es.lookup "level" = some level
  logger : ∃ logger, r.get "name" = .ofJson logger ∧ es.lookup "logger" = some logger
  message : ∃ message, es.lookup "message" = some (.text message) ∧ r.Says message
  ids : HasIds span → ∃ traceId spanId, es.lookup "trace_id" = some (.text traceId) ∧
    es.lookup "span_id" = some (.text spanId) ∧ SpellsHex 32 span.1 traceId ∧ SpellsHex 16 span.2 spanId
  exception : (r.get "exc_info").isTrue = true → ∃ text,
    format (r.get "exc_info") = some text ∧ es.lookup "exception" = some (.text text)
  others : ∀ key, key ∉ r.generatedNames span → ∀ j,
    es.lookup key = some j ↔ key ∉ standardNames ∧ r.attributes.lookup key = some (.ofJson j)

variable {format : Datum → Option String} {r : Record} {span : Nat × Nat} {g es : List (String × Json)}

end Log.Record

end SqlAst
