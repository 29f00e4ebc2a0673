import Mathlib.Data.List.Pairwise
import Mathlib.Logic.Relation
import SqlAst.Proofs.Keys

/-!
# Payloads spelled in other ways

The order of the entries, entries under keys that are not read, and the choice between the two names of a key
make no difference to what a payload is read as, at any depth.

* `Fields.Respelled`: one such change in an object.
* `Fields.Respelled.alike`: it leaves alike what is read.
* `Decode.Way.respelled`: the readers make the same node of respelled payloads, or fail with the same code.
-/
namespace SqlAst

/-! ## Changes -/

/-- Whether the key is a name of this one. -/
def Key.IsNamed (key : Key) (k : Datum) : Prop := ∃ name ∈ key.names, k.asText? = some name

/-- No text is the key of two entries. -/
def Fields.Distinct (es : Fields) : Prop := (es.filterMap fun e => e.1.asText?).Nodup

/-- One change of an object that stands at a place. -/
inductive Fields.Respelled : Place → Fields → Fields → Prop where
  /-- Its entries come in another order. -/
  | permuted {place : Place} {es es' : Fields} (hperm : es.Perm es') (hdistinct : es.Distinct) :
    Respelled place es es'
  /-- It has an entry more, under a key that is not read. -/
  | extra {place : Place} {before after : Fields} (k v : Datum)
    (hk : ∀ key ∈ place.keys (before ++ after), ¬ key.IsNamed k) :
    Respelled place (before ++ after) (before ++ (k, v) :: after)
  /-- What is given under the stored name of a key is given under its other name. -/
  | renamed {place : Place} {before after : Fields} {key : Key} (v : Datum)
    (hkey : key ∈ place.keys (before ++ (.text key.field.stored, v) :: after))
    (honly : ∀ e ∈ before ++ after, ¬ key.IsNamed e.1) :
    Respelled place (before ++ (.text key.field.stored, v) :: after)
      (before ++ (.text key.field.name, v) :: after)
  /-- What is given under the stored name, valid or not, is given under the other name as well. -/
  | shadowed {place : Place} {before after : Fields} {key : Key} (v : Datum)
    (hkey : key ∈ place.keys (before ++ after)) (hne : key.field.stored ≠ key.field.name)
    (hstored : (Datum.valueAt? key.field.stored (before ++ after)).isSome) :
    Respelled place (before ++ after) (before ++ (.text key.field.name, v) :: after)
  /-- An object under one of its keys is changed. -/
  | object {place inner : Place} {before after es es' : Fields} {key : Key} {k : Datum}
    (hkey : key ∈ place.keys (before ++ (k, .dict es) :: after)) (hk : key.IsNamed k)
    (hcontent : key.content = .object inner) (hinner : Respelled inner es es') :
    Respelled place (before ++ (k, .dict es) :: after) (before ++ (k, .dict es') :: after)
  /-- An object in a sequence under one of its keys is changed. -/
  | item {place inner : Place} {before after es es' : Fields} {key : Key} {k : Datum}
    {sequence : List Datum → Datum} {left right : List Datum}
    (hsequence : sequence = .list ∨ sequence = .tuple)
    (hkey : key ∈ place.keys (before ++ (k, sequence (left ++ .dict es :: right)) :: after))
    (hk : key.IsNamed k) (hcontent : key.content = .objects inner) (hinner : Respelled inner es es') :
    Respelled place (before ++ (k, sequence (left ++ .dict es :: right)) :: after)
      (before ++ (k, sequence (left ++ .dict es' :: right)) :: after)

/-! ## Look-ups after a change -/

namespace Datum

theorem valueAt?_append (name : String) (es es' : Fields) :
    valueAt? name (es ++ es') = (valueAt? name es').or (valueAt? name es) := by
  induction es with
  | nil => exact (Option.or_none).symm
  | cons e rest ih =>
    obtain ⟨k, v⟩ := e
    simp only [List.cons_append, valueAt?, ih, Option.or_assoc]

theorem valueAt?_eq_none {name : String} {es : Fields} (h : ∀ e ∈ es, e.1.asText? ≠ some name) :
    valueAt? name es = none := by
  induction es with
  | nil => rfl
  | cons e rest ih =>
    obtain ⟨k, v⟩ := e
    obtain ⟨hfirst, hrest⟩ := List.forall_mem_cons.1 h
    rw [valueAt?, ih hrest, if_neg hfirst]
    rfl

variable {name : String} {before after : Fields} {k v v' : Datum}

theorem valueAt?_middle_of_ne (h : k.asText? ≠ some name) :
    valueAt? name (before ++ (k, v) :: after) = valueAt? name (before ++ after) := by
  rw [valueAt?_append, valueAt?_append, valueAt?, if_neg h, Option.or_none]

theorem valueAt?_middle_of_eq (h : k.asText? = some name)
    (hafter : ∀ e ∈ after, e.1.asText? ≠ some name) :
    valueAt? name (before ++ (k, v) :: after) = some v := by
  rw [valueAt?_append, valueAt?, valueAt?_eq_none hafter, if_pos h]
  rfl

theorem valueAt?_middle_rel {R : Datum → Datum → Prop} (hrefl : ∀ d, R d d) (h : R v v') :
    Option.Rel R (valueAt? name (before ++ (k, v) :: after))
      (valueAt? name (before ++ (k, v') :: after)) := by
  rw [valueAt?_append, valueAt?_append, valueAt?, valueAt?]
  cases valueAt? name after with
  | some d => exact .some (hrefl d)
  | none =>
    split
    · exact .some h
    · cases valueAt? name before with
      | some d => exact .some (hrefl d)
      | none => exact .none

theorem valueAt?_perm {es es' : Fields} (h : es.Perm es') (hdistinct : es.Distinct) (name : String) :
    valueAt? name es = valueAt? name es' := by
  induction h with
  | nil => rfl
  | @cons e rest rest' hperm ih =>
    have hrest : Fields.Distinct rest :=
      List.Nodup.sublist ((List.sublist_cons_self e rest).filterMap _) hdistinct
    obtain ⟨k, v⟩ := e
    rw [valueAt?, valueAt?, ih hrest]
  | swap e e' rest =>
    obtain ⟨k, v⟩ := e
    obtain ⟨k', v'⟩ := e'
    simp only [valueAt?, Option.or_assoc]
    by_cases hk : k.asText? = some name
    · by_cases hk' : k'.asText? = some name
      · simp only [Fields.Distinct, List.filterMap_cons, hk, hk'] at hdistinct
        exact absurd List.mem_cons_self (List.nodup_cons.1 hdistinct).1
      · rw [if_neg hk', Option.or_none, Option.none_or]
    · rw [if_neg hk, Option.or_none, Option.none_or]
  | @trans es₁ es₂ es₃ hfirst _ ih ih' =>
    have hdistinct₂ : Fields.Distinct es₂ := (hfirst.filterMap _).nodup_iff.1 hdistinct
    rw [ih hdistinct, ih' hdistinct₂]

end Datum

/-! ## What is given after a change -/

namespace Fields

variable {before after : Fields} {f : FieldName} {key : Key} {k v v' : Datum}

theorem given?_middle_of_not (h : ¬ key.IsNamed k) :
    given? (before ++ (k, v) :: after) key.field = given? (before ++ after) key.field := by
  have hstored : k.asText? ≠ some key.field.stored := fun hk => h ⟨_, by simp [Key.names], hk⟩
  have hname : k.asText? ≠ some key.field.name := fun hk => h ⟨_, by simp [Key.names], hk⟩
  rw [given?, given?, Datum.valueAt?_middle_of_ne hstored, Datum.valueAt?_middle_of_ne hname]

theorem given?_middle_rel {R : Datum → Datum → Prop} (hrefl : ∀ d, R d d) (h : R v v') :
    Option.Rel R (given? (before ++ (k, v) :: after) f) (given? (before ++ (k, v') :: after) f) := by
  have hlook (name : String) : Option.Rel R (Datum.valueAt? name (before ++ (k, v) :: after))
      (Datum.valueAt? name (before ++ (k, v') :: after)) := Datum.valueAt?_middle_rel hrefl h
  have hstored := hlook f.stored
  have hname := hlook f.name
  unfold given?
  generalize Datum.valueAt? f.stored (before ++ (k, v) :: after) = d,
    Datum.valueAt? f.stored (before ++ (k, v') :: after) = d' at hstored
  cases hstored with
  | some hd => exact .some hd
  | none => exact hname

/-- The only entry for a key gives its value, under either name. -/
theorem given?_middle_of_only {name : String} (hname : name ∈ key.names)
    (honly : ∀ e ∈ before ++ after, ¬ key.IsNamed e.1) :
    given? (before ++ (.text name, v) :: after) key.field = some v := by
  have hnone (other : String) (hother : other ∈ key.names) :
      ∀ e ∈ before ++ after, e.1.asText? ≠ some other :=
    fun e he hk => honly e he ⟨other, hother, hk⟩
  have hlook (other : String) (hother : other ∈ key.names) :
      Datum.valueAt? other (before ++ (.text name, v) :: after) = if name = other then some v else none := by
    split
    · rename_i heq
      exact Datum.valueAt?_middle_of_eq (congrArg some heq)
        fun e he => hnone other hother e (List.mem_append_right before he)
    · rename_i hne
      have hk : (Datum.text name).asText? ≠ some other := fun heq => hne (Option.some.inj heq)
      rw [Datum.valueAt?_middle_of_ne hk]
      exact Datum.valueAt?_eq_none (hnone other hother)
  have hnames : key.names = [key.field.stored, key.field.name] := rfl
  rw [given?, hlook key.field.stored (by simp [hnames]), hlook key.field.name (by simp [hnames])]
  by_cases hstored : name = key.field.stored
  · rw [if_pos hstored]
    rfl
  · have hfield : name = key.field.name := by simpa [hnames, hstored] using hname
    rw [if_neg hstored, if_pos hfield]
    rfl

end Fields

/-! ## Names of different keys -/

/-- Keys without a name in common. -/
def Key.Apart (key key' : Key) : Prop := ∀ name ∈ key.names, name ∉ key'.names

instance (key key' : Key) : Decidable (key.Apart key') :=
  inferInstanceAs (Decidable (∀ _ ∈ _, _))

theorem NodeType.keys_apart (t : NodeType) : t.keys.Pairwise Key.Apart := by
  cases t with
  | projection => decide
  | stored kind =>
    cases kind with
    | condition kind =>
      cases kind with
      | compare op => cases op <;> decide
      | like negated => cases negated <;> decide
      | isNull negated => cases negated <;> decide
      | combine connective => cases connective <;> decide
      | _ => decide
    | _ => decide

theorem Place.keys_apart (place : Place) (es : Fields) : (place.keys es).Pairwise Key.Apart := by
  cases place with
  | payload =>
    unfold keys
    cases es.kind? with
    | none => exact List.pairwise_singleton _ _
    | some kind => exact NodeType.keys_apart (.stored kind)
  | node t => exact t.keys_apart
  | selectField => show List.Pairwise _ [_, _]; decide
  | orderSpec => show List.Pairwise _ [_, _]; decide
  | position p =>
    cases p with
    | condition =>
      unfold keys
      cases es.conditionKind? with
      | none => exact List.pairwise_singleton _ _
      | some kind => exact NodeType.keys_apart (.stored (.condition kind))
    | table => exact NodeType.keys_apart (.stored .table)
    | join => exact NodeType.keys_apart (.stored .join)
    | select => exact NodeType.keys_apart (.stored .select)
    | unionPart => show List.Pairwise _ [_, _]; decide

/-- An entry belongs to one key at most. -/
theorem Place.key_unique {place : Place} {es : Fields} {key key' : Key} (hkey : key ∈ place.keys es)
    (hkey' : key' ∈ place.keys es) {k : Datum} (h : key.IsNamed k) (h' : key'.IsNamed k) : key = key' := by
  have hsymm : Std.Symm Key.Apart := ⟨fun a b hab name hb ha => hab name ha hb⟩
  by_contra hne
  obtain ⟨name, hname, hk⟩ := h
  obtain ⟨name', hname', hk'⟩ := h'
  obtain rfl : name = name' := Option.some.inj (hk.symm.trans hk')
  exact (place.keys_apart es).forall hkey hkey' hne name hname hname'

theorem Key.isNamed_text {key : Key} {name : String} (h : name ∈ key.names) : key.IsNamed (.text name) :=
  ⟨name, h, rfl⟩

/-! ## Changes leave alike what is read -/

theorem Content.rel_refl (content : Content) (d : Option Datum) : Option.Rel content.Alike d d := by
  cases d with
  | none => exact .none
  | some d => exact .some (Alike.refl content d)

namespace Fields

theorem alike_of_rel {keys : List Key} {es es' : Fields}
    (h : ∀ key ∈ keys, Option.Rel key.content.Alike (es.given? key.field) (es'.given? key.field)) :
    es.Alike keys es' :=
  List.forall_iff_forall_mem.2 h

theorem alike_of_eq {keys : List Key} {es es' : Fields}
    (h : ∀ key ∈ keys, es.given? key.field = es'.given? key.field) : es.Alike keys es' := by
  refine alike_of_rel fun key hkey => ?_
  rw [h key hkey]
  exact key.content.rel_refl _

variable {place : Place} {before after : Fields} {key : Key}

theorem alike_permuted {es es' : Fields} (hperm : es.Perm es') (hdistinct : es.Distinct)
    (keys : List Key) : es.Alike keys es' := by
  refine alike_of_eq fun key _ => ?_
  rw [given?, given?, Datum.valueAt?_perm hperm hdistinct, Datum.valueAt?_perm hperm hdistinct]

theorem alike_extra {keys : List Key} {k v : Datum} (hk : ∀ key ∈ keys, ¬ key.IsNamed k) :
    Alike keys (before ++ after) (before ++ (k, v) :: after) :=
  alike_of_eq fun key hkey => (given?_middle_of_not (hk key hkey)).symm

theorem alike_renamed {v : Datum}
    (hkey : key ∈ place.keys (before ++ (.text key.field.stored, v) :: after))
    (honly : ∀ e ∈ before ++ after, ¬ key.IsNamed e.1) :
    Alike (place.keys (before ++ (.text key.field.stored, v) :: after))
      (before ++ (.text key.field.stored, v) :: after) (before ++ (.text key.field.name, v) :: after) := by
  have hstored : key.field.stored ∈ key.names := by simp [Key.names]
  have hname : key.field.name ∈ key.names := by simp [Key.names]
  refine alike_of_eq fun other hother => ?_
  by_cases heq : key = other
  · subst heq
    rw [given?_middle_of_only hstored honly, given?_middle_of_only hname honly]
  · have hnot {name : String} (h : name ∈ key.names) : ¬ other.IsNamed (.text name) :=
      fun h' => heq (Place.key_unique hkey hother (Key.isNamed_text h) h')
    rw [given?_middle_of_not (hnot hstored), given?_middle_of_not (hnot hname)]

/-- The stored name counts, so the value under it, whatever it is, hides the one under the other name. -/
theorem alike_shadowed {v : Datum} (hkey : key ∈ place.keys (before ++ after))
    (hne : key.field.stored ≠ key.field.name)
    (hstored : (Datum.valueAt? key.field.stored (before ++ after)).isSome) :
    Alike (place.keys (before ++ after)) (before ++ after)
      (before ++ (.text key.field.name, v) :: after) := by
  have hname : key.field.name ∈ key.names := by simp [Key.names]
  refine alike_of_eq fun other hother => ?_
  by_cases heq : key = other
  · subst heq
    have hk : (Datum.text key.field.name).asText? ≠ some key.field.stored :=
      fun h => hne (Option.some.inj h).symm
    obtain ⟨d, hd⟩ := Option.isSome_iff_exists.1 hstored
    rw [given?, given?, Datum.valueAt?_middle_of_ne hk, hd]
    rfl
  · have hnot : ¬ other.IsNamed (.text key.field.name) :=
      fun h => heq (Place.key_unique hkey hother (Key.isNamed_text hname) h)
    rw [given?_middle_of_not hnot]

/-- Alike data under a key. -/
theorem alike_inside {k v v' : Datum} (hkey : key ∈ place.keys (before ++ (k, v) :: after))
    (hk : key.IsNamed k) (h : key.content.Alike v v') :
    Alike (place.keys (before ++ (k, v) :: after)) (before ++ (k, v) :: after)
      (before ++ (k, v') :: after) := by
  refine alike_of_rel fun other hother => ?_
  by_cases heq : key = other
  · subst heq
    exact given?_middle_rel (Content.Alike.refl _) h
  · have hnot : ¬ other.IsNamed k := fun h => heq (Place.key_unique hkey hother hk h)
    rw [given?_middle_of_not hnot, given?_middle_of_not hnot]
    exact other.content.rel_refl _

theorem Respelled.verdict {es es' : Fields} (h : Respelled place es es') :
    (place.check (.dict es)).verdict = (place.check (.dict es')).verdict := by
  -- By induction on the depth: an object inside has the same verdict before and after the change.
  induction h with
  | permuted hperm hdistinct => exact Place.verdict_of_alike _ (alike_permuted hperm hdistinct _)
  | extra k v hk => exact Place.verdict_of_alike _ (alike_extra hk)
  | renamed v hkey honly => exact Place.verdict_of_alike _ (alike_renamed hkey honly)
  | shadowed v hkey hne hstored => exact Place.verdict_of_alike _ (alike_shadowed hkey hne hstored)
  | @object _ _ _ _ es es' _ _ hkey hk hcontent _ ih =>
    refine Place.verdict_of_alike _ (alike_inside hkey hk ?_)
    rw [hcontent]
    exact .inr ⟨es, es', rfl, rfl, ih⟩
  | @item _ inner _ _ es es' _ _ _ left right hsequence hkey hk hcontent _ ih =>
    refine Place.verdict_of_alike _ (alike_inside hkey hk ?_)
    have hitem : inner.Alike (.dict es) (.dict es') := .inr ⟨es, es', rfl, rfl, ih⟩
    have hrest (items : List Datum) : List.Forall₂ inner.Alike items items :=
      List.forall₂_same.2 fun d _ => .inl rfl
    have hitems : List.Forall₂ inner.Alike (left ++ .dict es :: right) (left ++ .dict es' :: right) :=
      List.rel_append (hrest left) (.cons hitem (hrest right))
    rw [hcontent]
    rcases hsequence with rfl | rfl
    · exact .inr ⟨_, _, hitems, .inl ⟨rfl, rfl⟩⟩
    · exact .inr ⟨_, _, hitems, .inr ⟨rfl, rfl⟩⟩

/-- Any number of changes. -/
theorem verdict_of_respelled {es es' : Fields} (h : Relation.EqvGen (Respelled place) es es') :
    (place.check (.dict es)).verdict = (place.check (.dict es')).verdict := by
  induction h with
  | rel es es' h => exact h.verdict
  | refl es => rfl
  | symm es es' _ ih => exact ih.symm
  | trans es es' es'' _ _ ih ih' => exact ih.trans ih'

end Fields

/-! ## Readers -/

namespace Decode

/-- What an object is read as: any kind of node, by its tag, or a target. -/
inductive Reading where
  | tagged
  | typed (target : Target)

namespace Reading

/-- The place where an object stands that is read. -/
def place : Reading → Place
  | .tagged => .payload
  | .typed (.node t) => .node t
  | .typed .anyCondition => .position .condition

def check (r : Reading) (es : Fields) : Checked Node :=
  match r with
  | .tagged => Place.payload.check (.dict es)
  | .typed t => t.check .data (.dict es)

theorem verdict_respelled (r : Reading) {es es' : Fields}
    (h : Relation.EqvGen (Fields.Respelled r.place) es es') :
    (r.check es).verdict = (r.check es').verdict := by
  have hplace := Fields.verdict_of_respelled h
  match r with
  | .tagged => exact hplace
  | .typed (.node t) => exact hplace
  | .typed .anyCondition => exact Checked.verdict_map_congr hplace

end Reading

/-- The ways to read the entries of an object: from data or from a text, and of any kind of node also in a
session. -/
inductive Way [Json.StrictReader] : Reading → Fields → Outcome Node → Prop where
  | tagged {es : Fields} {o : Outcome Node} (h : Reads es o) : Way .tagged es o
  | data (t : Target) (es : Fields) : Way (.typed t) es (ofData t (.dict es))
  | text (t : Target) {s : String} {j : Json} {es : Fields} (hread : Json.readStrictly? s = some j)
    (hentries : Datum.ofJson j = .dict es) : Way (.typed t) es (ofText t (.text s))

theorem verdict_ofTagged (es : Fields) :
    Outcome.verdict? (ofTagged (.dict es)) = some (Reading.tagged.check es).verdict := by
  unfold Reading.check Place.check
  cases hkind : es.kind? with
  | some kind =>
    simp only [hkind]
    rw [ofTagged_eq_decoded hkind, verdict?_decoded]
    rfl
  | none =>
    simp only [hkind]
    rw [ofTagged_of_no_kind hkind]
    rfl

/-- All ways to read an object as one thing end with the verdict of its check. -/
theorem Way.verdict [Json.StrictReader] {r : Reading} {es : Fields} {o : Outcome Node} (h : Way r es o) :
    Outcome.verdict? o = some (r.check es).verdict := by
  cases h with
  | tagged h => rw [h.eq_ofTagged, verdict_ofTagged]
  | data t es => exact verdict?_decoded _ _ _
  | @text t s j es hread hentries =>
    have htext : ofText t (.text s) = decoded t.title (.text s) (checkText t s) := rfl
    have hcheck : checkText t s = t.check .text (.dict es) := by
      unfold checkText
      rw [hread, ← hentries]
    rw [htext, verdict?_decoded, hcheck, t.verdict_check .text .data]
    rfl

end Decode

/-- Outcomes with the same value, or faults with the same code. -/
def Outcome.SameEnd {α : Type} (o o' : Outcome α) : Prop :=
  (∃ a, o = .ok a ∧ o' = .ok a) ∨
    ∃ f f' : Fault, o = .error (.fault f) ∧ o' = .error (.fault f') ∧ f.code = f'.code

theorem Outcome.ok_of_verdict {α : Type} {o : Outcome α} {a : α} (h : verdict? o = some (.ok a)) :
    o = .ok a := by
  cases o with
  | ok b =>
    cases h
    rfl
  | error e => cases e <;> cases h

theorem Outcome.fault_of_verdict {α : Type} {o : Outcome α} {code : FaultCode}
    (h : verdict? o = some (.error code)) : ∃ f, o = .error (.fault f) ∧ f.code = code := by
  cases o with
  | ok b => cases h
  | error e =>
    cases e with
    | fault f =>
      cases h
      exact ⟨f, rfl, rfl⟩
    | rejected | misuse | given => cases h

/-- Reading looks at nothing but the keys of the objects: payloads that differ by any number of changes in
the order of the entries, in entries under other keys, in the choice between the names of a key, and in what is
given under the second name of a key beside the first, in objects at any depth, make the same node or fail with
the same code. -/
theorem Decode.Way.respelled [Json.StrictReader] {r : Reading} {es es' : Fields}
    (h : Relation.EqvGen (Fields.Respelled r.place) es es') {o o' : Outcome Node} (ho : Way r es o)
    (ho' : Way r es' o') : o.SameEnd o' := by
  have hverdict := ho.verdict
  have hverdict' := ho'.verdict
  rw [← r.verdict_respelled h] at hverdict'
  cases hcheck : (r.check es).verdict with
  | ok n =>
    rw [hcheck] at hverdict hverdict'
    exact .inl ⟨n, Outcome.ok_of_verdict hverdict, Outcome.ok_of_verdict hverdict'⟩
  | error code =>
    rw [hcheck] at hverdict hverdict'
    obtain ⟨f, hf, hcode⟩ := Outcome.fault_of_verdict hverdict
    obtain ⟨f', hf', hcode'⟩ := Outcome.fault_of_verdict hverdict'
    exact .inr ⟨f, f', hf, hf', hcode.trans hcode'.symm⟩

/-- The beginning of a query of one table. -/
def queryOn (table : Fields) : Fields :=
  [(.text "type", .text "SelectQuery"), (.text "tables", .list [.dict table])]

/-- A limit under a name. -/
def limitAs (name : String) : Datum × Datum := (.text name, .int 3)

def bareTable : Fields := [(.text "source", .text "a")]

def notedTable : Fields := bareTable ++ [(.text "note", .text "b")]

theorem keys_queryOn {limit : String} (table : Fields) (h : limit ≠ "type") :
    Place.payload.keys (queryOn table ++ [limitAs limit]) = (NodeType.stored .select).keys := by
  have hkind : Fields.kind? (queryOn table ++ [limitAs limit]) = some .select := by
    rw [Fields.kind?, Datum.valueAt?_append, Datum.valueAt?_eq_none (by simp [limitAs, Datum.asText?, h])]
    rfl
  rw [Place.keys, hkind]
  rfl

/-- The limit gets its other name, the table a note, and the limit comes first. -/
theorem respelled_queryOn :
    Relation.EqvGen (Fields.Respelled .payload) (queryOn bareTable ++ [limitAs "limit"])
      (limitAs "limit_value" :: queryOn notedTable) := by
  have hrenamed : Fields.Respelled .payload (queryOn bareTable ++ [limitAs "limit"])
      (queryOn bareTable ++ [limitAs "limit_value"]) := by
    have hkey : ⟨.limit, .leaf⟩ ∈ Place.payload.keys (queryOn bareTable ++ [limitAs "limit"]) := by
      rw [keys_queryOn bareTable (by decide)]
      simp [NodeType.keys]
    refine .renamed (.int 3) hkey ?_
    simp [queryOn, Key.IsNamed, Key.names, FieldName.limit, Datum.asText?]
  have hnoted : Fields.Respelled .payload (queryOn bareTable ++ [limitAs "limit_value"])
      (queryOn notedTable ++ [limitAs "limit_value"]) := by
    have hkey : .tables ∈ Place.payload.keys (queryOn bareTable ++ [limitAs "limit_value"]) := by
      rw [keys_queryOn bareTable (by decide)]
      simp [NodeType.keys]
    have htable : Fields.Respelled (.position .table) (bareTable ++ []) notedTable := by
      refine .extra _ _ ?_
      simp [Place.keys, NodeType.keys, Key.IsNamed, Key.names, Key.tag, Key.plain, FieldName.plain,
        Datum.asText?]
    have hnamed : Key.tables.IsNamed (.text "tables") :=
      Key.isNamed_text (by simp [Key.names, Key.tables, FieldName.plain])
    show Fields.Respelled .payload
      ([(.text "type", .text "SelectQuery")] ++
        (.text "tables", .list ([] ++ .dict bareTable :: [])) :: [limitAs "limit_value"])
      ([(.text "type", .text "SelectQuery")] ++
        (.text "tables", .list ([] ++ .dict notedTable :: [])) :: [limitAs "limit_value"])
    exact .item (.inl rfl) hkey hnamed rfl htable
  have hpermuted : Fields.Respelled .payload (queryOn notedTable ++ [limitAs "limit_value"])
      (limitAs "limit_value" :: queryOn notedTable) :=
    .permuted List.perm_append_comm (by simp [Fields.Distinct, queryOn, limitAs, Datum.asText?])
  exact .trans _ _ _ (.rel _ _ hrenamed) (.trans _ _ _ (.rel _ _ hnoted) (.rel _ _ hpermuted))

/-- The two are read alike. -/
theorem Decode.Way.respelled_limit :
    (ofTagged (.dict (queryOn bareTable ++ [limitAs "limit"]))).SameEnd
      (ofTagged (.dict (limitAs "limit_value" :: queryOn notedTable))) :=
  Way.respelled (r := .tagged) respelled_queryOn (.tagged .data) (.tagged .data)

end SqlAst
