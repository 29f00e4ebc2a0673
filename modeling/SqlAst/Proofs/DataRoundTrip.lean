import SqlAst.Decode
import SqlAst.Proofs.StoredFields

/-!
# Nodes come back from their data

The data of a node is its stored form with each name of a column as a text of characters. Every reader of
nodes gives from it the node with replaced columns: reading by type, by tag, and as any condition. So the
node itself comes back exactly if its columns have nothing to replace.

* `Node.ofData_toJson`, `Node.ofTagged_toJson`, `Condition.ofData_toJson`: stored forms are read back.
* `Node.data_round_trip`: what the readers give from the data of a node, and when it is the node.
-/
namespace SqlAst

open Stored

/-! ## Tags -/

theorem NodeKind.ofTag?_tag (kind : NodeKind) : NodeKind.ofTag? kind.tag = some kind := by
  cases kind with
  | condition k =>
    cases k with
    | compare op => cases op <;> decide
    | like negated => cases negated <;> decide
    | isNull negated => cases negated <;> decide
    | combine op => cases op <;> decide
    | between => decide
    | among => decide
    | columnEqual => decide
  | table => decide
  | join => decide
  | select => decide
  | delete => decide
  | update => decide
  | insert => decide

/-- An object with a tag is read by its tag as by its type. -/
theorem Decode.ofTagged_object {kind : NodeKind} {es : List (String × Json)}
    (h : Entries.last? "type" es = some (.text kind.tag)) :
    Decode.ofTagged (.ofJson (.object es)) =
      Decode.ofData (.node (.stored kind)) (.ofJson (.object es)) := by
  have hkind : (Datum.ofOption (Datum.valueAt? "type" (Datum.ofJsonEntries es))).asText?.bind
      NodeKind.ofTag? = some kind := by
    rw [Datum.valueAt?_stored h]
    exact kind.ofTag?_tag
  unfold Decode.ofTagged
  rw [Datum.ofJson]
  dsimp only
  rw [hkind]

namespace Node

/-- A node is stored as an object with the tag of its kind. -/
theorem toJson_tag (n : Node) {kind : NodeKind} (h : n.kind? = some kind) :
    ∃ es, n.toJson = .object es ∧ Entries.last? "type" es = some (.text kind.tag) := by
  cases n with
  | projection p => cases h
  | table t =>
    cases h
    obtain ⟨source, label⟩ := t
    refine ⟨_, rfl, ?_⟩
    cases label <;> rfl
  | join j =>
    cases h
    obtain ⟨table, condition, kind⟩ := j
    refine ⟨_, rfl, ?_⟩
    cases condition <;> rfl
  | select q =>
    cases h
    obtain ⟨tables, joins, fields, filters, groupFilters, limit, offset, orderBy, groupBy, unions⟩ := q
    refine ⟨_, rfl, ?_⟩
    cases limit <;> cases offset <;> rfl
  | condition c =>
    cases h
    exact c.toJson_tag
  | delete m =>
    cases h
    exact ⟨_, rfl, rfl⟩
  | update m =>
    cases h
    exact ⟨_, rfl, rfl⟩
  | insert m =>
    cases h
    obtain ⟨table, columnNames, rows, source⟩ := m
    refine ⟨_, rfl, ?_⟩
    cases columnNames <;> cases source <;> rfl

theorem kind?_replaced (n : Node) : n.replaced.kind? = n.kind? := by cases n <;> rfl

/-! ## Stored forms are read back -/

theorem ofData_toJson (n : Node) {kind : NodeKind} (h : n.kind? = some kind) :
    Decode.ofData (.node (.stored kind)) (.ofJson n.toJson) = .ok n := by
  unfold Decode.ofData
  show Decode.decoded _ _ ((NodeType.stored kind).check .data (.ofJson n.toJson)) = _
  rw [n.check_stored .data h]
  rfl

theorem ofTagged_toJson (n : Node) {kind : NodeKind} (h : n.kind? = some kind) :
    Decode.ofTagged (.ofJson n.toJson) = .ok n := by
  obtain ⟨es, hes, htag⟩ := n.toJson_tag h
  have hread := n.ofData_toJson h
  rw [hes] at hread ⊢
  rw [Decode.ofTagged_object htag, hread]

/-- The data that the writer gives are those of the node with replaced columns. -/
theorem ofTagged_settled (n : Node) {kind : NodeKind} (h : n.kind? = some kind) :
    Decode.ofTagged (.ofJson n.toJson.withWholeNames.unique) = .ok n.replaced := by
  have hdata : n.toJson.withWholeNames.unique = n.replaced.toJson := n.settled_toJson
  rw [hdata]
  exact n.replaced.ofTagged_toJson (n.kind?_replaced.trans h)

end Node

/-- A stored condition is read back as any condition, from data or from the value of a text. -/
theorem Condition.check_anyCondition (form : Form) (c : Condition) :
    Decode.Target.check .anyCondition form (.ofJson c.toJson) = .ok (.condition c) := by
  show Checked.map Node.condition (checkPart form .condition (.ofJson c.toJson)) = _
  rw [c.check_stored form]
  rfl

/-! ## The round trip -/

/-- Whether the names of columns in all rows of a node consist of characters. -/
def Node.HasWholeColumns (n : Node) : Prop := ∀ r ∈ n.rows, ∀ c ∈ r.columns, Text.isWhole c = true

/-- From the data of a node each reader gives the node with replaced columns, which is the node itself
exactly if its columns are whole; a condition always comes back. -/
theorem Node.data_round_trip (n : Node) {kind : NodeKind} (h : n.kind? = some kind) :
    let data := Datum.ofJson n.toJson.withWholeNames.unique
    Decode.ofData (.node (.stored kind)) data = .ok n.replaced ∧
      Decode.ofTagged data = .ok n.replaced ∧
      (∀ c, n = .condition c → Decode.ofData .anyCondition data = .ok n) ∧
      (n.replaced = n ↔ n.HasWholeColumns) := by
  have hdata : n.toJson.withWholeNames.unique = n.replaced.toJson := n.settled_toJson
  have hkind : n.replaced.kind? = some kind := n.kind?_replaced.trans h
  have htagged := n.ofTagged_settled h
  dsimp only
  rw [hdata] at htagged ⊢
  refine ⟨n.replaced.ofData_toJson hkind, htagged, ?_, n.replaced_eq_self_iff⟩
  rintro c rfl
  unfold Decode.ofData
  show Decode.decoded _ _ (Decode.Target.check .anyCondition .data (.ofJson c.toJson)) = _
  rw [c.check_anyCondition .data]
  rfl

/-- An update of a column whose name is the first half of a pair. -/
def halfColumnUpdate : Update :=
  { tables := [], joins := [], filters := [],
    assignments := Row.ofEntries [(String.ofList (Text.hold [.half 0xd800 rfl]), .int 1)] }

/-- The column comes back as three replacement characters. -/
theorem halfColumnUpdate_changes :
    (Node.update halfColumnUpdate).kind? = some .update ∧
      Decode.ofTagged (.ofJson (Node.update halfColumnUpdate).toJson.withWholeNames.unique) =
        .ok (.update
          { halfColumnUpdate with assignments := Row.ofEntries [("\ufffd\ufffd\ufffd", .int 1)] }) ∧
      Decode.ofTagged (.ofJson (Node.update halfColumnUpdate).toJson.withWholeNames.unique) ≠
        .ok (.update halfColumnUpdate) := by
  obtain ⟨-, htagged, -, hiff⟩ := (Node.update halfColumnUpdate).data_round_trip rfl
  refine ⟨rfl, htagged, fun hsame => ?_⟩
  have hwhole := hiff.1 (Except.ok.inj (htagged.symm.trans hsame))
  exact absurd (hwhole _ (List.mem_singleton.2 rfl)) (by decide)

end SqlAst
