import SqlAst.Interface.Methods
import SqlAst.Proofs.InsertedRows
import SqlAst.Proofs.Refusals
import SqlAst.Proofs.TableReferences

/-!
# Names of the tables of a statement

A select statement lists the names of its tables and of those of its union members, each name once. The repeats
go at every level of the union; it would be the same to flatten all levels first and then to drop the repeats once.
A table whose source is a statement has the name of that statement's first table, and so on down: `Table.EndsIn`.

* `Table.name_eq_ok_iff`: the name of a table.
* `Select.tableNames_eq`: what is listed, by the flattening.
* `Select.mem_flattening_iff`: what is in the flattening.
* `Select.call_tableNames`: the same of the call by name.
-/
namespace SqlAst

open Interface (Method)

/-! ## Chains of first tables -/

/-- The first tables inside a table, from statement to statement, end in one with a name. -/
inductive Table.EndsIn : Table → String → Prop where
  | here {n : String} {label : Option String} : EndsIn ⟨.name n, label⟩ n
  | inside {q : Select} {t : Table} {rest : List Table} {label : Option String} {n : String} :
    q.tables = t :: rest → EndsIn t n → EndsIn ⟨.query q, label⟩ n

mutual

theorem Table.name_eq_ok_iff (t : Table) {n : String} : t.name = .ok n ↔ t.EndsIn n := by
  match t with
  | ⟨.name m, label⟩ =>
    rw [Table.name]
    constructor
    · intro h
      cases h
      exact .here
    · intro h
      cases h
      rfl
  | ⟨.query q, label⟩ =>
    rw [Table.name, q.sourceName_eq_ok_iff]
    constructor
    · rintro ⟨t, rest, htables, h⟩
      exact .inside htables h
    · intro h
      cases h with
      | inside htables h => exact ⟨_, _, htables, h⟩

theorem Select.sourceName_eq_ok_iff (q : Select) {n : String} :
    q.sourceName = .ok n ↔ ∃ t rest, q.tables = t :: rest ∧ t.EndsIn n := by
  match q with
  | ⟨[], _, _, _, _, _, _, _, _, _⟩ =>
    rw [Select.sourceName]
    simp
  | ⟨t :: rest, _, _, _, _, _, _, _, _, _⟩ =>
    rw [Select.sourceName, t.name_eq_ok_iff]
    simp

end

/-- A table has no name exactly if its sources end in a statement without tables, and then it is that which is
reported. -/
theorem Table.nameless_iff (t : Table) : t.Nameless ↔ ∃ r, t.name = .error (.noTable r) := by
  rcases t.name_cases with ⟨⟨n, hn⟩, hno⟩ | ⟨hname, hyes⟩
  · exact ⟨fun h => absurd h hno, fun ⟨r, hr⟩ => by rw [hn] at hr; cases hr⟩
  · exact ⟨fun _ => hname, fun _ => hyes⟩

/-! ## Flattening -/

mutual

/-- The tables and joined tables of a statement, then those of each member of its union, at any depth. -/
def Select.flattening : Select → List Table
  | ⟨tables, joins, _, _, _, _, _, _, _, unions⟩ => tables ++ joins.map Join.table ++ unionFlattening unions

def unionFlattening : List UnionPart → List Table
  | [] => []
  | ⟨_, q⟩ :: rest => q.flattening ++ unionFlattening rest

end

/-- A statement is the other or a member of its union, at any depth. -/
inductive Select.Reaches : Select → Select → Prop where
  | refl {q : Select} : Reaches q q
  | member {q r : Select} {u : UnionPart} : u ∈ q.unions → Reaches u.query r → Reaches q r

mutual

theorem Select.mem_flattening_iff (q : Select) {t : Table} :
    t ∈ q.flattening ↔ ∃ r, q.Reaches r ∧ t ∈ r.sources := by
  match q with
  | ⟨tables, joins, fields, filters, groupFilters, limit, offset, orderBy, groupBy, unions⟩ =>
    rw [Select.flattening, List.mem_append, mem_unionFlattening_iff]
    constructor
    · rintro (h | ⟨u, hu, r, hr, ht⟩)
      · exact ⟨_, .refl, h⟩
      · exact ⟨r, .member hu hr, ht⟩
    · rintro ⟨r, hr, ht⟩
      cases hr with
      | refl => exact .inl ht
      | member hu hr => exact .inr ⟨_, hu, r, hr, ht⟩

theorem mem_unionFlattening_iff (us : List UnionPart) {t : Table} :
    t ∈ unionFlattening us ↔ ∃ u ∈ us, ∃ r, u.query.Reaches r ∧ t ∈ r.sources := by
  match us with
  | [] => simp [unionFlattening]
  | ⟨kind, q⟩ :: rest =>
    rw [unionFlattening, List.mem_append, q.mem_flattening_iff, mem_unionFlattening_iff rest]
    simp

end

/-! ## Dropping repeats -/

section

variable {ε α β : Type}

/-- A list behind another one, if neither fails to be there. -/
def joinLists (x y : Except ε (List β)) : Except ε (List β) := do
  let xs ← x
  let ys ← y
  pure (xs ++ ys)

theorem mapM_append_eq (g : α → Except ε β) (xs ys : List α) :
    (xs ++ ys).mapM g = joinLists (xs.mapM g) (ys.mapM g) := List.mapM_append

variable [BEq β] [LawfulBEq β]

/-- Repeats in the parts do not matter where those in the whole are dropped. -/
theorem eraseDups_append_of_eq {xs xs' ys ys' : List β} (hxs : xs.eraseDups = xs'.eraseDups)
    (hys : ys.eraseDups = ys'.eraseDups) : (xs ++ ys).eraseDups = (xs' ++ ys').eraseDups := by
  rw [eraseDups_append_congr hxs, ← eraseDups_append_eraseDups, hys, eraseDups_append_eraseDups]

theorem eraseDups_eraseDups (xs : List β) : xs.eraseDups.eraseDups = xs.eraseDups := eraseDups_append_eraseDups [] xs

theorem joinLists_congr {x x' y y' : Except ε (List β)} (hx : x.map List.eraseDups = x'.map List.eraseDups)
    (hy : y.map List.eraseDups = y'.map List.eraseDups) :
    (joinLists x y).map List.eraseDups = (joinLists x' y').map List.eraseDups := by
  cases x with
  | error e =>
    cases x' with
    | error e' =>
      cases hx
      rfl
    | ok xs' => cases hx
  | ok xs =>
    cases x' with
    | error e => cases hx
    | ok xs' =>
      cases y with
      | error e =>
        cases y' with
        | error e' =>
          cases hy
          rfl
        | ok ys' => cases hy
      | ok ys =>
        cases y' with
        | error e => cases hy
        | ok ys' => exact congrArg Except.ok (eraseDups_append_of_eq (Except.ok.inj hx) (Except.ok.inj hy))

end

mutual

/-- Dropping repeats at every level of a union is dropping those of the flattening once. -/
theorem Select.tableNames_eq (q : Select) : q.tableNames = (q.flattening.mapM Table.name).map List.eraseDups := by
  match q with
  | ⟨tables, joins, fields, filters, groupFilters, limit, offset, orderBy, groupBy, unions⟩ =>
    have hlevel : (do
        let own ← namesOf tables joins
        let others ← unionTableNames unions
        pure (own ++ others).eraseDups) =
        (joinLists (namesOf tables joins) (unionTableNames unions)).map List.eraseDups := by
      cases namesOf tables joins with
      | error e => rfl
      | ok own => cases unionTableNames unions <;> rfl
    rw [Select.tableNames, Select.flattening, mapM_append_eq, hlevel]
    exact joinLists_congr rfl (unionTableNames_map unions)

theorem unionTableNames_map (us : List UnionPart) :
    (unionTableNames us).map List.eraseDups = ((unionFlattening us).mapM Table.name).map List.eraseDups := by
  match us with
  | [] => rfl
  | ⟨kind, q⟩ :: rest =>
    have hmember : q.tableNames.map List.eraseDups = (q.flattening.mapM Table.name).map List.eraseDups := by
      rw [q.tableNames_eq]
      cases q.flattening.mapM Table.name with
      | error e => rfl
      | ok all => exact congrArg Except.ok (eraseDups_eraseDups all)
    rw [unionTableNames, unionFlattening, mapM_append_eq]
    exact joinLists_congr hmember (unionTableNames_map rest)

end

/-! ## In a session -/

theorem Select.outcome_tableNames (q : Select) (s : Session) :
    (Method.call Method.tableNames "get_table_names" (.node (.select q)) [] []).outcome s =
      Outcome.ofRefusable (q.tableNames.map fun names => .list (names.map .text)) :=
  Action.outcome_ofOutcome _ _

/-- A table of a statement, or of one that it reaches through its unions, has sources that end in a statement without
tables. -/
def Select.ReachesNameless (q : Select) : Prop := ∃ r, q.Reaches r ∧ ∃ t ∈ r.sources, t.Nameless

/-- Asking a statement for the names of its tables fails exactly if it reaches a table without one, and then always for
the missing table. Otherwise each table of the flattening has a name, and these are listed in the order in which they
are first seen, each once. -/
theorem Select.call_tableNames (q : Select) (s : Session) :
    let names := (Method.call Method.tableNames "get_table_names" (.node (.select q)) [] []).outcome s
    ((∃ failure, names = .error failure) ↔ q.ReachesNameless) ∧
      (∀ failure, names = .error failure → ∃ fault, failure = .fault fault ∧ fault.code = .noTable) ∧
      (q.ReachesNameless ∨ ∃ all, List.Forall₂ Table.EndsIn q.flattening all ∧ FirstSeen all.eraseDups all ∧
        all.eraseDups.Nodup ∧ names = .ok (.list (all.eraseDups.map .text))) := by
  intro names
  have hnames : names = Outcome.ofRefusable (q.tableNames.map fun names => .list (names.map .text)) :=
    q.outcome_tableNames s
  rw [q.tableNames_eq] at hnames
  rcases mapM_cases (g := Table.name) q.flattening with ⟨⟨all, hall⟩, hnamed⟩ | ⟨t, ht, e, he, hfails⟩
  · -- Every table has a name, so none is nameless.
    rw [hall] at hnames
    have hok : names = .ok (.list (all.eraseDups.map .text)) := hnames
    have hends : List.Forall₂ Table.EndsIn q.flattening all :=
      (mapM_eq_ok_iff_forall₂.mp hall).imp fun t n h => t.name_eq_ok_iff.mp h
    refine ⟨⟨?_, ?_⟩, ?_, .inr ⟨all, hends, firstSeen_eraseDups all, (firstSeen_eraseDups all).nodup, hok⟩⟩
    · rintro ⟨failure, h⟩
      rw [hok] at h
      cases h
    · rintro ⟨r, hr, t, ht, hnameless⟩
      obtain ⟨n, hn⟩ := hnamed t (q.mem_flattening_iff.mpr ⟨r, hr, ht⟩)
      obtain ⟨typeName, hmissing⟩ := t.nameless_iff.mp hnameless
      rw [hn] at hmissing
      cases hmissing
    · intro failure h
      rw [hok] at h
      cases h
  · -- The first table that fails is nameless, and its failure is that of the call.
    rcases t.name_cases with ⟨⟨n, hn⟩, -⟩ | ⟨⟨typeName, hmissing⟩, hnameless⟩
    · rw [hn] at he
      cases he
    · rw [hmissing] at he
      cases he
      rw [hfails] at hnames
      have herror : names = .error (.fault (.refused (.noTable typeName))) := hnames
      obtain ⟨r, hr, ht⟩ := q.mem_flattening_iff.mp ht
      have hreaches : q.ReachesNameless := ⟨r, hr, t, ht, hnameless⟩
      refine ⟨⟨fun _ => hreaches, fun _ => ⟨_, herror⟩⟩, ?_, .inl hreaches⟩
      intro failure h
      rw [herror] at h
      cases h
      exact ⟨_, rfl, rfl⟩

/-- The nested statement counts with its first table; the member has one table that was seen before. -/
example :
    let nested : Select := { tables := [⟨.name "b", none⟩, ⟨.name "x", none⟩] }
    let member : Select := { tables := [⟨.name "a", none⟩], joins := [⟨⟨.name "c", none⟩, none, .inner⟩] }
    Select.tableNames { tables := [⟨.name "a", none⟩, ⟨.query nested, none⟩], unions := [⟨.distinct, member⟩] } =
      .ok ["a", "b", "c"] := by rfl

end SqlAst
