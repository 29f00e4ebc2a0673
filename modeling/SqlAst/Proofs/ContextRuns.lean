import Mathlib.Data.Fintype.EquivFin
import Mathlib.Data.List.DropRight
import SqlAst.Proofs.Assignments
import SqlAst.Proofs.ContextFilter
import SqlAst.Proofs.DefaultFlavor

/-!
# The context over whole runs

The static context is replaced by each call that sets it, the ids of request and user are kept by calls that
give none, until they are cleared. `Stamps` tells from the calls alone what a record is stamped with.

* `Context.IsId.lastGiven_iff`: an id after a run is the last one that was given since the last clear.
* `Context.stamps_iff`: what the context after a run stamps.
* `Context.filter_after_run`: where the filter gives each record what is stamped and keeps the rest.
-/
namespace SqlAst.Log

/-! ## Calls and what they bring -/

/-- A call that changes the context of records. -/
inductive ContextCall where
  | setStatic (environment : Datum) (extra : List (String × Datum))
  | setRequest (requestId userId : Datum)
  | clearRequest

namespace ContextCall

def perform (c : Context) : ContextCall → Context
  | .setStatic environment extra => c.setStatic environment extra
  | .setRequest requestId userId => c.setRequest requestId userId
  | .clearRequest => c.clearRequest

def isClear : ContextCall → Bool
  | .clearRequest => true
  | _ => false

/-- An id that a call gives; `pick` chooses between the ids of request and user. -/
inductive Gives (pick : Datum → Datum → Datum) : ContextCall → Datum → Prop where
  | given {requestId userId : Datum} (h : pick requestId userId ≠ .null) :
    Gives pick (.setRequest requestId userId) (pick requestId userId)

end ContextCall

namespace Context

/-- The context after calls, from the empty one. -/
def run (calls : List ContextCall) : Context := calls.foldl ContextCall.perform {}

/-- The calls since the ids were cleared last. -/
def sinceClear (calls : List ContextCall) : List ContextCall := calls.rtakeWhile fun call => !call.isClear

/-- The last id that was given since the last clear, or null. -/
def LastGiven (pick : Datum → Datum → Datum) (calls : List ContextCall) (v : Datum) : Prop :=
  Latest (fun _ => ContextCall.Gives pick) (sinceClear calls) v ∨
    v = .null ∧ Never (fun _ => ContextCall.Gives pick) (sinceClear calls)

/-- What the last call that set the static context gave: environment and further entries. -/
def LastStatic (calls : List ContextCall) (environment : Datum) (extra : List (String × Datum)) : Prop :=
  Latest (fun _ call (given : Datum × List (String × Datum)) => call = .setStatic given.1 given.2) calls
    (environment, extra)

/-- The values that records are stamped with after calls, and under which names. -/
inductive Stamps (calls : List ContextCall) : String → Datum → Prop where
  | request {v : Datum} (h : LastGiven (fun requestId _ => requestId) calls v) : Stamps calls "request_id" v
  | user {v : Datum} (h : LastGiven (fun _ userId => userId) calls v) : Stamps calls "user_id" v
  | library : Stamps calls "sdk_name" (.text "sqltree")
  | version : Stamps calls "sdk_version" (.text "0.1.0")
  | extra {environment v : Datum} {extra : List (String × Datum)} {key : String}
      (hstatic : LastStatic calls environment extra) (hkey : key ∉ ownNames)
      (hextra : Entries.last? key extra = some v) : Stamps calls key v
  | environment {environment : Datum} {extra : List (String × Datum)}
      (hstatic : LastStatic calls environment extra) (hnull : environment ≠ .null)
      (hextra : "environment" ∉ Entries.keys extra) : Stamps calls "environment" environment

/-! ## Ids -/

variable {calls : List ContextCall} {call : ContextCall} {key : String} {v : Datum}

theorem run_concat (calls : List ContextCall) (call : ContextCall) :
    run (calls ++ [call]) = call.perform (run calls) := by
  rw [run, List.foldl_concat]
  rfl

theorem sinceClear_clear (calls : List ContextCall) : sinceClear (calls ++ [.clearRequest]) = [] :=
  List.rtakeWhile_concat_neg _ _ _ (by decide)

theorem sinceClear_concat (h : call.isClear = false) (calls : List ContextCall) :
    sinceClear (calls ++ [call]) = sinceClear calls ++ [call] :=
  List.rtakeWhile_concat_pos _ _ _ (by simp [h])

/-- A part of the context is the one among the ids that `pick` chooses. -/
structure IsId (id : Context → Datum) (pick : Datum → Datum → Datum) : Prop where
  start : id {} = .null
  setStatic (c : Context) (environment : Datum) (extra : List (String × Datum)) :
    id (c.setStatic environment extra) = id c
  setRequest (c : Context) (requestId userId : Datum) :
    id (c.setRequest requestId userId) =
      match pick requestId userId with
      | .null => id c
      | d => d
  clearRequest (c : Context) : id c.clearRequest = .null

theorem isId_requestId : IsId requestId fun requestId _ => requestId :=
  ⟨rfl, fun _ _ _ => rfl, fun _ _ _ => rfl, fun _ => rfl⟩

theorem isId_userId : IsId userId fun _ userId => userId :=
  ⟨rfl, fun _ _ _ => rfl, fun _ _ _ => rfl, fun _ => rfl⟩

section

variable {id : Context → Datum} {pick : Datum → Datum → Datum}

theorem IsId.perform_gives (hid : IsId id pick) (h : call.Gives pick v) (c : Context) :
    id (call.perform c) = v := by
  obtain ⟨h⟩ := h
  rw [ContextCall.perform, hid.setRequest]
  split
  · contradiction
  · rfl

theorem IsId.perform_kept (hid : IsId id pick) (hcall : call.isClear = false) (h : ∀ v, ¬ call.Gives pick v)
    (c : Context) : id (call.perform c) = id c := by
  cases call with
  | setStatic environment extra => exact hid.setStatic c environment extra
  | setRequest requestId userId =>
    rw [ContextCall.perform, hid.setRequest]
    split
    · rfl
    · rename_i hnull
      exact absurd (.given hnull) (h _)
  | clearRequest => cases hcall

/-- An id after calls is the last one that was given since the last clear. -/
theorem IsId.lastGiven_iff (hid : IsId id pick) (calls : List ContextCall) (v : Datum) :
    LastGiven pick calls v ↔ id (run calls) = v := by
  induction calls using List.reverseRecOn generalizing v with
  | nil =>
    have hrun : id (run []) = .null := hid.start
    simp only [LastGiven, sinceClear, List.rtakeWhile_nil, not_latest_nil, never_nil, hrun]
    simp [eq_comm]
  | append_singleton calls call ih =>
    rw [run_concat]
    cases hcall : call.isClear with
    | true =>
      obtain rfl : call = .clearRequest := by cases call <;> first | rfl | cases hcall
      have hrun : id (ContextCall.clearRequest.perform (run calls)) = .null := hid.clearRequest _
      simp only [LastGiven, sinceClear_clear, not_latest_nil, never_nil, hrun]
      simp [eq_comm]
    | false =>
      rw [LastGiven, sinceClear_concat hcall, latest_concat, never_concat]
      by_cases hgiven : ∃ w, call.Gives pick w
      · obtain ⟨w, hw⟩ := hgiven
        rw [hid.perform_gives hw]
        constructor
        · rintro ((h | h) | h)
          · exact (hid.perform_gives hw {}).symm.trans (hid.perform_gives h {})
          · exact absurd hw (h.1 w)
          · exact absurd hw (h.2.2 w)
        · rintro rfl
          exact .inl (.inl hw)
      · have hnone := not_exists.mp hgiven
        rw [hid.perform_kept hcall hnone, ← ih, LastGiven]
        simp [hnone]

end

/-! ## Static entries -/

theorem fixed_of_lastStatic {environment : Datum} {extra : List (String × Datum)}
    (h : LastStatic calls environment extra) :
    (run calls).fixed = (({} : Context).setStatic environment extra).fixed := by
  induction calls using List.reverseRecOn with
  | nil => exact absurd h not_latest_nil
  | append_singleton calls call ih =>
    rw [run_concat]
    rcases latest_concat.mp h with rfl | ⟨hother, h⟩
    · rfl
    · rw [← ih h]
      cases call with
      | setStatic environment extra => exact absurd rfl (hother (environment, extra))
      | setRequest requestId userId => rfl
      | clearRequest => rfl

/-- Where the static context is not empty, a call has set it. -/
theorem exists_lastStatic (h : (run calls).fixed ≠ []) :
    ∃ environment extra, LastStatic calls environment extra := by
  induction calls using List.reverseRecOn with
  | nil => exact absurd rfl h
  | append_singleton calls call ih =>
    rw [run_concat] at h
    cases call with
    | setStatic environment extra => exact ⟨environment, extra, latest_concat.mpr (.inl rfl)⟩
    | setRequest requestId userId =>
      obtain ⟨environment, extra, hlast⟩ := ih h
      exact ⟨environment, extra, latest_concat.mpr (.inr ⟨nofun, hlast⟩)⟩
    | clearRequest =>
      obtain ⟨environment, extra, hlast⟩ := ih h
      exact ⟨environment, extra, latest_concat.mpr (.inr ⟨nofun, hlast⟩)⟩

/-! ## What is stamped -/

/-- Under a name that is not one of the four, a record is stamped with what the static context has. -/
theorem last?_stamp_of_notMem (c : Context) (hkey : key ∉ ownNames) :
    Entries.last? key c.stamp = Entries.last? key c.fixed := by
  rw [stamp, Entries.last?_append, Entries.last?_of_notMem (by exact hkey), Option.none_or]

section

variable (c : Context)

theorem last?_stamp_requestId : Entries.last? "request_id" c.stamp = some c.requestId := by
  rw [stamp, Entries.last?_append]
  rfl

theorem last?_stamp_userId : Entries.last? "user_id" c.stamp = some c.userId := by
  rw [stamp, Entries.last?_append]
  rfl

theorem last?_stamp_library : Entries.last? "sdk_name" c.stamp = some (.text "sqltree") := by
  rw [stamp, Entries.last?_append]
  rfl

theorem last?_stamp_version : Entries.last? "sdk_version" c.stamp = some (.text "0.1.0") := by
  rw [stamp, Entries.last?_append]
  rfl

end

/-- The context after calls has the values that the calls tell. -/
theorem stamps_iff (calls : List ContextCall) (key : String) (v : Datum) :
    Stamps calls key v ↔ Entries.last? key (run calls).stamp = some v := by
  constructor
  · intro h
    cases h with
    | request h => rw [last?_stamp_requestId, (isId_requestId.lastGiven_iff calls v).mp h]
    | user h => rw [last?_stamp_userId, (isId_userId.lastGiven_iff calls v).mp h]
    | library => exact last?_stamp_library _
    | version => exact last?_stamp_version _
    | extra hstatic hkey hextra =>
      rw [last?_stamp_of_notMem _ hkey, fixed_of_lastStatic hstatic]
      exact (last?_setStatic_iff _ _ _).mpr (.inl hextra)
    | environment hstatic hnull hextra =>
      rw [last?_stamp_of_notMem _ (by decide), fixed_of_lastStatic hstatic]
      exact (last?_setStatic_iff _ _ _).mpr (.inr ⟨Entries.last?_of_notMem hextra, rfl, hnull, rfl⟩)
  · intro h
    by_cases hkey : key ∈ ownNames
    · simp only [ownNames, List.mem_cons, List.not_mem_nil, or_false] at hkey
      rcases hkey with rfl | rfl | rfl | rfl
      · rw [last?_stamp_requestId] at h
        exact .request ((isId_requestId.lastGiven_iff calls v).mpr (Option.some.inj h))
      · rw [last?_stamp_userId] at h
        exact .user ((isId_userId.lastGiven_iff calls v).mpr (Option.some.inj h))
      · rw [last?_stamp_library] at h
        exact Option.some.inj h ▸ .library
      · rw [last?_stamp_version] at h
        exact Option.some.inj h ▸ .version
    · rw [last?_stamp_of_notMem _ hkey] at h
      have hfixed : (run calls).fixed ≠ [] := by
        intro hnil
        rw [hnil] at h
        cases h
      obtain ⟨environment, extra, hstatic⟩ := exists_lastStatic hfixed
      rw [fixed_of_lastStatic hstatic, last?_setStatic_iff] at h
      rcases h with hextra | ⟨hextra, rfl, hnull, rfl⟩
      · exact .extra hstatic hkey hextra
      · refine .environment hstatic hnull fun hmem => ?_
        rw [← Entries.last?_isSome_iff, hextra] at hmem
        cases hmem

/-! ## The filter after a run -/

/-- What the filter is to do with a record after calls: it passes the record, which then has the stamped
values, and its own ones under all names that no value is stamped under. -/
def Stamped (calls : List ContextCall) (r : Record) : Prop :=
  ∃ r', (run calls).filter r = .ok (true, r') ∧
    ∀ key v, r'.attributes.lookup key = some v ↔
      Stamps calls key v ∨ (∀ w, ¬ Stamps calls key w) ∧ r.attributes.lookup key = some v

/-- Where the calls give no special name, the filter does as it is to. -/
theorem stamped_of_not_special (h : ∀ key ∈ Entries.keys (run calls).fixed, key ∉ Record.specialNames)
    (r : Record) : Stamped calls r := by
  have hdict : "__dict__" ∉ Entries.keys (run calls).fixed := fun hkey => h _ hkey (by decide)
  refine ⟨_, filter_eq_ok_iff.mpr ⟨isSafe_of_not_special h, rfl, rfl⟩, fun key v => ?_⟩
  simp only [stamps_iff]
  rw [lookup_applyTo _ hdict]
  cases Entries.last? key (run calls).stamp <;> simp

/-- There is a name that a context does not stamp. -/
theorem exists_unstamped (c : Context) : ∃ key, key ∉ Entries.keys c.stamp := by
  simpa using Infinite.exists_notMem_finset (Entries.keys c.stamp).toFinset

/-- A special name in the static context leads either to no record or to the same one for all records. -/
theorem not_stamped_of_special (hkey : key ∈ Entries.keys (run calls).fixed)
    (hspecial : key ∈ Record.specialNames) : ∃ r, ¬ Stamped calls r := by
  by_contra h
  simp only [not_exists, not_not] at h
  obtain ⟨fresh, hfresh⟩ := exists_unstamped (run calls)
  have hnone (w : Datum) : ¬ Stamps calls fresh w := by
    rw [stamps_iff]
    intro hlast
    exact hfresh (Entries.last?_isSome_iff.mp (hlast ▸ rfl))
  obtain ⟨r', hpass, hlookup⟩ := h (.ofEntries [(fresh, .null)])
  obtain ⟨_, hpass', hlookup'⟩ := h (.ofEntries [])
  cases (filter_of_special hkey hspecial hpass _).symm.trans hpass'
  have hown : r'.attributes.lookup fresh = some .null := (hlookup fresh .null).mpr
    (.inr ⟨hnone, by simp [Record.ofEntries, Entries.unique, Entries.merge, Entries.put]⟩)
  rcases (hlookup' fresh .null).mp hown with hstamp | ⟨-, hempty⟩
  · exact hnone _ hstamp
  · cases hempty

/-- The filter after any calls. It passes every record, with the stamped values and else the record's own,
exactly if the further entries of the last call that set the static context have no special name. -/
theorem filter_after_run (calls : List ContextCall) : (∀ r, Stamped calls r) ↔
    ∀ environment extra, LastStatic calls environment extra →
      ∀ key ∈ Entries.keys extra, key ∉ Record.specialNames := by
  constructor
  · intro h environment extra hstatic key hextra hspecial
    have hkey : key ∈ Entries.keys (run calls).fixed := by
      rw [fixed_of_lastStatic hstatic, mem_keys_setStatic]
      exact .inl hextra
    obtain ⟨r, hr⟩ := not_stamped_of_special hkey hspecial
    exact hr (h r)
  · intro h r
    refine stamped_of_not_special (fun key hkey => ?_) r
    have hfixed : (run calls).fixed ≠ [] := by
      intro hnil
      rw [hnil] at hkey
      cases hkey
    obtain ⟨environment, extra, hstatic⟩ := exists_lastStatic hfixed
    rw [fixed_of_lastStatic hstatic] at hkey
    exact (forall_keys_setStatic _ _ _ (by decide)).mpr (h environment extra hstatic) key hkey

/-- An entry called `__dict__` makes a record forget what it was, and an earlier entry with it. -/
theorem dictEntry_replaces :
    let entries : Datum := .record [("name", .text "n"), ("msg", .text "m")]
    let calls : List ContextCall := [.setStatic .null [("a", .int 1), ("__dict__", entries)]]
    ∃ r, ¬ Stamped calls r := by
  intro entries calls
  by_contra h
  simp only [not_exists, not_not] at h
  have hstatic : LastStatic calls .null [("a", .int 1), ("__dict__", entries)] :=
    ⟨[], _, [], rfl, rfl, never_nil⟩
  exact (filter_after_run calls).mp h _ _ hstatic "__dict__" (by simp [Entries.keys]) (by decide)

end Context

end SqlAst.Log
