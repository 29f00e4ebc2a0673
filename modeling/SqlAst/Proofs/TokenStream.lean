import SqlAst.Proofs.Phrase
import SqlAst.Proofs.WrittenIntegers
import SqlAst.Settings

/-!
# The tokens of rendered SQL

Rendered SQL is read as what the node says: names and literals are one token each, whatever characters
they hold, as long as no name is an expression.

* `Condition.spells`, `Select.spells`: predicates and statements are spelled, wherever they stand.
* `Node.tokens_of_render`: the tokens of a rendered node are those of its phrase, whose parentheses balance
  and in which all that is nested is a group of its own.
-/
namespace SqlAst

open Sql

variable {d : Dialect} {fallback : String}

/-- A name that is not written as it is. -/
def Sql.Dialect.IsPlain (d : Dialect) (name : String) : Prop := d.flavor.isExpression name = false

instance (d : Dialect) (name : String) : Decidable (d.IsPlain name) :=
  inferInstanceAs (Decidable (d.flavor.isExpression name = false))

/-! ## Clauses -/

theorem spells_parenthesised {s : String} {ts : List Tree} (h : Spells d s.toList ts) :
    Spells d (parenthesised s).toList [.group ts] := by
  simpa [parenthesised] using h.parenthesised

theorem eachSpells_parenthesised {texts : List String} {phrases : List (List Tree)}
    (h : EachSpells d texts phrases) :
    EachSpells d (texts.map parenthesised) (phrases.map fun ts => [.group ts]) := by
  unfold EachSpells at h ⊢
  rw [List.forall₂_map_left_iff, List.forall₂_map_right_iff]
  exact h.imp fun s ts hs => spells_parenthesised hs

theorem follows_clause {lead sep : String} {leads seps : List Tree} (hl : Gap d lead.toList leads)
    (hs : Gap d sep.toList seps) {texts : List String} {phrases : List (List Tree)}
    (h : EachSpells d texts phrases) :
    Follows d (clause lead sep texts).toList (clauseTrees leads seps phrases) := by
  have hjoined := spells_intercalate hs h
  cases h with
  | nil => exact follows_nil
  | cons hx hrest =>
    rw [clause, if_neg (by simp), String.toList_append, clauseTrees]
    exact hl.follows hjoined

theorem follows_label {label : String} (h : d.IsPlain label) :
    Follows d (if label = "" then "" else " AS " ++ d.flavor.escapeName label).toList
      (labelTrees label) := by
  unfold labelTrees
  split
  · exact follows_nil
  · have hgap : Gap d " AS ".toList (words ["AS"]) := Closed.gap (by cases d <;> rfl) rfl
    rw [String.toList_append]
    exact hgap.follows (spells_name h)

theorem spells_labelled {sql label : String} {ts : List Tree} (h : Spells d sql.toList ts)
    (hl : d.IsPlain label) :
    Spells d (d.flavor.labelled sql label).toList (ts ++ labelTrees label) := by
  have hsplit : d.flavor.labelled sql label =
      sql ++ if label = "" then "" else " AS " ++ d.flavor.escapeName label := by
    unfold Flavor.labelled
    split
    · simp
    · rw [String.append_assoc]
  rw [hsplit, String.toList_append]
  exact h.append (follows_label hl)

/-! ## Separators -/

theorem gap_comma : Gap d ", ".toList comma := ⟨⟨',', rfl, .inr (.inl rfl)⟩, by cases d <;> rfl⟩

theorem gap_blank : Gap d " ".toList [] := Closed.gap (by cases d <;> rfl) rfl

theorem gap_and : Gap d " AND ".toList (words ["AND"]) := Closed.gap (by cases d <;> rfl) rfl

theorem gap_from : Gap d " FROM ".toList (words ["FROM"]) := Closed.gap (by cases d <;> rfl) rfl

theorem gap_equal : Gap d " = ".toList [.leaf (.sign ['='])] := Closed.gap (by cases d <;> rfl) rfl

/-! ## Predicates -/

theorem spells_literals (values : List Scalar) :
    Spells d (d.flavor.literals values).toList (literalTrees d values) :=
  spells_intercalate gap_comma (eachSpells_map fun v _ => spells_literal v)

theorem spells_choices (values : List Scalar) :
    Spells d (d.flavor.choices values).toList
      (if values = [] then words ["NULL"] else literalTrees d values) := by
  unfold Flavor.choices
  split
  · exact spells_literal .null
  · exact spells_literals values

theorem follows_nullTest (negated : Bool) :
    Follows d (" ".toList ++ (nullTest negated).toList)
      (words (if negated then ["IS", "NOT", "NULL"] else ["IS", "NULL"])) := by
  cases negated with
  | false =>
    have his : Gap d " IS ".toList (words ["IS"]) := Closed.gap (by cases d <;> rfl) rfl
    have hs : " ".toList ++ (nullTest false).toList = " IS ".toList ++ "NULL".toList := rfl
    rw [hs]
    exact his.follows (spells_literal (d := d) .null)
  | true =>
    have his : Gap d " IS NOT ".toList (words ["IS", "NOT"]) :=
      Closed.gap (by cases d <;> rfl) rfl
    have hs : " ".toList ++ (nullTest true).toList = " IS NOT ".toList ++ "NULL".toList := rfl
    rw [hs]
    exact his.follows (spells_literal (d := d) .null)

/-- The comparison of numbers that stands for a combination of no parts. -/
theorem spells_unit (connective : Connective) :
    Spells d connective.unit.toList connective.unitTrees := by
  cases connective with
  | conj =>
    rw [show Connective.conj.unit.toList =
      Nat.toDigits 10 1 ++ (" = ".toList ++ Nat.toDigits 10 1) from rfl]
    exact (spells_nat 1).append (gap_equal.follows (spells_nat 1))
  | disj =>
    rw [show Connective.disj.unit.toList =
      Nat.toDigits 10 1 ++ (" = ".toList ++ Nat.toDigits 10 0) from rfl]
    exact (spells_nat 1).append (gap_equal.follows (spells_nat 0))

mutual

theorem Condition.spells (c : Condition) (hn : ∀ n ∈ c.names, d.IsPlain n) :
    Spells d (c.render d.flavor).toList (c.trees d) := by
  match c with
  | .compare op column value =>
    have hop : Gap d (" ".toList ++ op.sign.toList ++ " ".toList) [.leaf (.sign op.sign.toList)] :=
      Closed.gap (by cases d <;> cases op <;> rfl) rfl
    have h :=
      (spells_name (hn column (by simp [Condition.names]))).append (hop.follows (spells_literal value))
    simpa [Condition.render, Condition.trees, literalTree] using h
  | .between column low high =>
    have hbetween : Gap d " BETWEEN ".toList (words ["BETWEEN"]) :=
      Closed.gap (by cases d <;> rfl) rfl
    have hlow := (spells_name (hn column (by simp [Condition.names]))).append
      (hbetween.follows (spells_literal low))
    have h := hlow.append (gap_and.follows (spells_literal high))
    rw [Condition.render, Condition.trees]
    simp only [String.toList_append, List.append_assoc] at h ⊢
    exact h
  | .among column values =>
    have hin : Gap d " IN ".toList (words ["IN"]) := Closed.gap (by cases d <;> rfl) rfl
    have h := (spells_name (hn column (by simp [Condition.names]))).append
      (hin.follows (spells_parenthesised (spells_choices values)))
    rw [Condition.render, Condition.trees]
    simp only [String.toList_append, List.append_assoc] at h ⊢
    exact h
  | .like negated column pattern =>
    have hlike : Gap d (" ".toList ++ (patternWord negated).toList ++ " ".toList)
        (words (if negated then ["NOT", "LIKE"] else ["LIKE"])) :=
      Closed.gap (by cases d <;> cases negated <;> rfl) rfl
    have h :=
      (spells_name (hn column (by simp [Condition.names]))).append (hlike.follows (spells_text pattern))
    rw [Condition.render, Condition.trees]
    simp only [String.toList_append, List.append_assoc] at h ⊢
    exact h
  | .isNull negated column =>
    have h := (spells_name (hn column (by simp [Condition.names]))).append
      (follows_nullTest negated)
    rw [Condition.render, Condition.trees]
    simp only [String.toList_append, List.append_assoc] at h ⊢
    exact h
  | .columnEqual left right =>
    have h := (spells_name (hn left (by simp [Condition.names]))).append
      (gap_equal.follows (spells_name (hn right (by simp [Condition.names]))))
    rw [Condition.render, Condition.trees]
    simp only [String.toList_append, List.append_assoc] at h ⊢
    exact h
  | .combine connective [] =>
    exact spells_parenthesised (spells_unit connective)
  | .combine connective (c :: rest) =>
    have hword : Gap d (" " ++ connective.word ++ " ").toList (words [connective.word]) :=
      ⟨⟨' ', by cases connective <;> rfl, .inl rfl⟩, by cases d <;> cases connective <;> rfl⟩
    have hfirst :=
      Condition.spells c fun n hc => hn n (by simp [Condition.names, Condition.namesEach, hc])
    have hrest :=
      Condition.spellsEach rest fun n hc => hn n (by simp [Condition.names, Condition.namesEach, hc])
    rw [Condition.render, Condition.trees]
    exact spells_intercalate hword
      (.cons (spells_parenthesised hfirst) (eachSpells_parenthesised hrest))

theorem Condition.spellsEach (cs : List Condition) (hn : ∀ n ∈ namesEach cs, d.IsPlain n) :
    EachSpells d (renderEach d.flavor cs) (treesEach d cs) := by
  match cs with
  | [] => exact .nil
  | c :: rest =>
    rw [Condition.renderEach, Condition.treesEach]
    refine .cons (Condition.spells c fun n hc => hn n ?_)
      (Condition.spellsEach rest fun n hc => hn n ?_)
    · exact List.mem_append_left _ hc
    · exact List.mem_append_right _ hc

end

theorem eachSpells_conditions {cs : List Condition}
    (hn : ∀ n ∈ cs.flatMap Condition.names, d.IsPlain n) :
    EachSpells d (cs.map (Condition.render d.flavor)) (cs.map (Condition.trees d)) :=
  eachSpells_map fun c hc => c.spells fun n h => hn n (List.mem_flatMap.2 ⟨c, hc, h⟩)

/-! ## Statements -/

theorem SelectField.spells (field : SelectField) (hn : ∀ n ∈ field.names, d.IsPlain n) :
    Spells d (field.render d.flavor).toList field.trees := by
  obtain ⟨name, label⟩ := field
  refine spells_labelled (spells_name (hn name (by simp [SelectField.names]))) ?_
  cases label with
  | none => cases d <;> rfl
  | some label => exact hn label (by simp [SelectField.names])

theorem OrderSpec.spells (o : OrderSpec) (hn : d.IsPlain o.field) :
    Spells d (o.render d.flavor).toList o.trees := by
  obtain ⟨field, direction⟩ := o
  have hword : Follows d (" ".toList ++ direction.word.toList) (words [direction.word]) := by
    have hw : Spells d direction.word.toList (words [direction.word]) := by
      cases d <;> cases direction <;> exact spells_run .word rfl (List.all_eq_true.1 rfl)
    exact gap_blank.follows hw
  have h := (spells_name hn).append hword
  rw [OrderSpec.render, OrderSpec.trees]
  simp only [String.toList_append, List.append_assoc] at h ⊢
  exact h

theorem spells_fields {fields : List SelectField}
    (hn : ∀ n ∈ fields.flatMap SelectField.names, d.IsPlain n) :
    Spells d (renderFields d.flavor fields).toList (fieldTrees fields) := by
  unfold renderFields fieldTrees
  split
  · refine Closed.spells ?_
    cases d <;> rfl
  · exact spells_intercalate gap_comma
      (eachSpells_map fun f hf => f.spells fun n h => hn n (List.mem_flatMap.2 ⟨f, hf, h⟩))

theorem follows_where {filters : List Condition}
    (hn : ∀ n ∈ filters.flatMap Condition.names, d.IsPlain n) :
    Follows d (whereClause d.flavor filters).toList (whereTrees d filters) := by
  have hwhere : Gap d " WHERE ".toList (words ["WHERE"]) := Closed.gap (by cases d <;> rfl) rfl
  exact follows_clause hwhere gap_and (eachSpells_conditions hn)

theorem follows_count {lead word : String} (hl : Gap d lead.toList (words [word])) (n : Option Nat) :
    Follows d (countClause lead n).toList (countTrees word n) := by
  cases n with
  | none => exact follows_nil
  | some n =>
    rw [countClause, countTrees, String.toList_append, String.toList_ofList]
    exact hl.follows (spells_nat n)

/-- The members of a union, each with its words. -/
def MembersSpell (d : Dialect) : List (String × String) → List (List Tree × List Tree) → Prop :=
  List.Forall₂ fun m t => Gap d (" " ++ m.1 ++ " ").toList t.1 ∧ Spells d m.2.toList t.2

theorem spells_wrapUnions {members : List (String × String)} {phrases : List (List Tree × List Tree)}
    (hm : MembersSpell d members phrases) {sql : String} {ts : List Tree} (h : Spells d sql.toList ts) :
    Spells d (wrapUnions sql members).toList (wrapTrees ts phrases) := by
  unfold wrapUnions wrapTrees
  induction hm generalizing sql ts with
  | nil => exact h
  | cons hx hrest ih =>
    apply ih
    have hw := (spells_parenthesised h).append (hx.1.follows (spells_parenthesised hx.2))
    simp only [String.toList_append, List.append_assoc] at hw ⊢
    exact hw

/-- The clauses of a statement without its union. -/
theorem Select.spells_own (q : Select) {tables joins : List String}
    {tablePhrases joinPhrases : List (List Tree)}
    (htables : EachSpells d tables tablePhrases) (hjoins : EachSpells d joins joinPhrases)
    (hfields : ∀ n ∈ q.fields.flatMap SelectField.names, d.IsPlain n)
    (hfilters : ∀ n ∈ q.filters.flatMap Condition.names, d.IsPlain n)
    (hgroups : ∀ n ∈ q.groupFilters.flatMap Condition.names, d.IsPlain n)
    (horder : ∀ n ∈ q.orderBy.map OrderSpec.field, d.IsPlain n)
    (hgroupBy : ∀ n ∈ q.groupBy, d.IsPlain n) :
    Spells d
      ("SELECT " ++ renderFields d.flavor q.fields ++ clause " FROM " ", " tables ++
        clause " " " " joins ++ clause " WHERE " " AND " (q.filters.map (Condition.render d.flavor)) ++
        clause " GROUP BY " ", " (q.groupBy.map d.flavor.escapeName) ++
        clause " HAVING " " AND " (q.groupFilters.map (Condition.render d.flavor)) ++
        clause " ORDER BY " ", " (q.orderBy.map (OrderSpec.render d.flavor)) ++
        countClause " LIMIT " q.limit ++ countClause " OFFSET " q.offset).toList
      (q.ownTrees d tablePhrases joinPhrases) := by
  have hselect : Closed d "SELECT ".toList (words ["SELECT"]) := by cases d <;> rfl
  have hfrom := follows_clause gap_from gap_comma htables
  have hjoin := follows_clause gap_blank gap_blank hjoins
  have hwhere := follows_where hfilters
  have hgroupLead : Gap d " GROUP BY ".toList (words ["GROUP", "BY"]) :=
    Closed.gap (by cases d <;> rfl) rfl
  have hgroup := follows_clause hgroupLead gap_comma
    (eachSpells_map fun n hn => spells_name (hgroupBy n hn))
  have hhavingLead : Gap d " HAVING ".toList (words ["HAVING"]) := Closed.gap (by cases d <;> rfl) rfl
  have hhaving := follows_clause hhavingLead gap_and (eachSpells_conditions hgroups)
  have horderLead : Gap d " ORDER BY ".toList (words ["ORDER", "BY"]) :=
    Closed.gap (by cases d <;> rfl) rfl
  have horders := follows_clause horderLead gap_comma
    (eachSpells_map fun o ho => OrderSpec.spells o (horder o.field (List.mem_map_of_mem ho)))
  have hlimitLead : Gap d " LIMIT ".toList (words ["LIMIT"]) := Closed.gap (by cases d <;> rfl) rfl
  have hlimit := follows_count hlimitLead q.limit
  have hoffsetLead : Gap d " OFFSET ".toList (words ["OFFSET"]) := Closed.gap (by cases d <;> rfl) rfl
  have hoffset := follows_count hoffsetLead q.offset
  simp only [String.toList_append]
  exact (((((((hselect.append (spells_fields hfields)).append hfrom).append hjoin).append hwhere).append
    hgroup).append hhaving).append horders).append hlimit |>.append hoffset

mutual

theorem Table.spells (t : Table) (hf : d.IsPlain fallback) (hn : ∀ n ∈ t.names, d.IsPlain n) :
    Spells d (t.render d.flavor fallback).toList (t.trees d fallback) := by
  have hempty : d.IsPlain "" := by cases d <;> rfl
  match t with
  | ⟨.name name, label⟩ =>
    rw [Table.render, Table.trees]
    refine spells_labelled (spells_name (hn name (by simp [Table.names]))) ?_
    cases label with
    | none => exact hempty
    | some label => exact hn label (by simp [Table.names])
  | ⟨.query q, label⟩ =>
    have hq := q.spells hf fun n h => hn n (by simp [Table.names, h])
    rw [Table.render, Table.trees]
    refine spells_labelled (spells_parenthesised hq) ?_
    split
    · exact hf
    · cases label with
      | none => exact hempty
      | some label => exact hn label (by simp [Table.names])

theorem Join.spells (j : Join) (hf : d.IsPlain fallback) (hn : ∀ n ∈ j.names, d.IsPlain n) :
    Spells d (j.render d.flavor fallback).toList (j.trees d fallback) := by
  match j with
  | ⟨table, condition, kind⟩ =>
    have hkind : Closed d (kind.word ++ " JOIN ").toList (words [kind.word, "JOIN"]) := by
      cases d <;> cases kind <;> rfl
    have htable := table.spells hf fun n h => hn n (by simp [Join.names, h])
    have hon : Follows d ((condition.map fun c => " ON " ++ c.render d.flavor).getD "").toList
        ((condition.map fun c => words ["ON"] ++ c.trees d).getD []) := by
      cases condition with
      | none => exact follows_nil
      | some c =>
        have hgap : Gap d " ON ".toList (words ["ON"]) := Closed.gap (by cases d <;> rfl) rfl
        simp only [Option.map_some, Option.getD_some, String.toList_append]
        exact hgap.follows (c.spells fun n h => hn n (by simp [Join.names, h]))
    rw [Join.render, Join.trees, String.toList_append, String.toList_append]
    exact (hkind.append htable).append hon

theorem Select.spells (q : Select) (hf : d.IsPlain fallback) (hn : ∀ n ∈ q.names, d.IsPlain n) :
    Spells d (q.render d.flavor fallback).toList (q.trees d fallback) := by
  match q with
  | ⟨tables, joins, fields, filters, groupFilters, limit, offset, orderBy, groupBy, unions⟩ =>
    simp only [Select.names, List.mem_append, or_imp, forall_and] at hn
    obtain ⟨⟨⟨⟨⟨⟨⟨htables, hjoins⟩, hfields⟩, hfilters⟩, hgroups⟩, horder⟩, hgroupBy⟩, hunions⟩ := hn
    have hown := Select.spells_own
      ⟨tables, joins, fields, filters, groupFilters, limit, offset, orderBy, groupBy, unions⟩
      (eachSpells_tables tables hf htables)
        (eachSpells_joins joins hf hjoins) hfields hfilters hgroups horder
      hgroupBy
    rw [Select.render, Select.trees]
    exact spells_wrapUnions (membersSpell unions hf hunions) hown

theorem eachSpells_tables (ts : List Table) (hf : d.IsPlain fallback)
    (hn : ∀ n ∈ namesOfTables ts, d.IsPlain n) :
    EachSpells d (renderTables d.flavor fallback ts) (tableTrees d fallback ts) := by
  match ts with
  | [] => exact .nil
  | t :: rest =>
    simp only [namesOfTables, List.mem_append, or_imp, forall_and] at hn
    exact .cons (t.spells hf hn.1) (eachSpells_tables rest hf hn.2)

theorem eachSpells_joins (js : List Join) (hf : d.IsPlain fallback)
    (hn : ∀ n ∈ namesOfJoins js, d.IsPlain n) :
    EachSpells d (renderJoins d.flavor fallback js) (joinTrees d fallback js) := by
  match js with
  | [] => exact .nil
  | j :: rest =>
    simp only [namesOfJoins, List.mem_append, or_imp, forall_and] at hn
    exact .cons (j.spells hf hn.1) (eachSpells_joins rest hf hn.2)

theorem membersSpell (us : List UnionPart) (hf : d.IsPlain fallback)
    (hn : ∀ n ∈ namesOfUnions us, d.IsPlain n) :
    MembersSpell d (renderUnions d.flavor fallback us) (unionTrees d fallback us) := by
  match us with
  | [] => exact .nil
  | ⟨kind, q⟩ :: rest =>
    simp only [namesOfUnions, List.mem_append, or_imp, forall_and] at hn
    have hkind : Gap d (" " ++ kind.word ++ " ").toList kind.trees :=
      ⟨⟨' ', by cases kind <;> rfl, .inl rfl⟩, by cases d <;> cases kind <;> rfl⟩
    exact .cons ⟨hkind, q.spells hf hn.1⟩ (membersSpell rest hf hn.2)

end

/-! ## Statements that change rows -/

mutual

theorem Table.name_mem (t : Table) {n : String} (h : t.name = .ok n) : n ∈ t.names := by
  match t with
  | ⟨.name m, label⟩ =>
    rw [Table.name] at h
    cases h
    simp [Table.names]
  | ⟨.query q, label⟩ =>
    rw [Table.name] at h
    simp [Table.names, q.sourceName_mem h]

theorem Select.sourceName_mem (q : Select) {n : String} (h : q.sourceName = .ok n) : n ∈ q.names := by
  match q with
  | ⟨[], _, _, _, _, _, _, _, _, _⟩ =>
    rw [Select.sourceName] at h
    cases h
  | ⟨t :: _, _, _, _, _, _, _, _, _, _⟩ =>
    rw [Select.sourceName] at h
    simp [Select.names, namesOfTables, t.name_mem h]

end

theorem Table.target_title {t : Table} {f : Flavor} {s : String} (h : t.target f = .ok s) :
    s = f.escapeName t.title ∧ t.title ∈ t.names := by
  unfold Table.target at h
  unfold Table.title
  by_cases hl : t.label.getD "" = ""
  · simp only [hl, if_true] at h ⊢
    cases hname : t.name with
    | error e =>
      rw [hname] at h
      cases h
    | ok n =>
      rw [hname] at h
      cases h
      exact ⟨rfl, t.name_mem hname⟩
  · simp only [hl, if_false] at h ⊢
    cases h
    refine ⟨rfl, ?_⟩
    obtain ⟨source, label⟩ := t
    cases label with
    | none => exact absurd rfl hl
    | some label => cases source <;> simp [Table.names]

theorem follows_joins {joins : List Join} (hf : d.IsPlain fallback)
    (hn : ∀ n ∈ namesOfJoins joins, d.IsPlain n) :
    Follows d (joinClauses d.flavor fallback joins).toList
      (clauseTrees [] [] (joins.map (Join.trees d fallback))) := by
  have h := eachSpells_joins joins hf hn
  rw [renderJoins_eq_map, joinTrees_eq_map] at h
  exact follows_clause gap_blank gap_blank h

theorem Delete.spells (m : Delete) (hf : d.IsPlain fallback)
    (hn : ∀ n ∈ (Node.delete m).names, d.IsPlain n)
    {sql : String} (h : m.render d.flavor fallback = .ok sql) :
    Spells d sql.toList (m.trees d fallback) := by
  obtain ⟨tables, joins, filters⟩ := m
  cases tables with
  | nil => cases h
  | cons t more =>
    simp only [Node.names, namesOfTables, List.mem_append, or_imp, forall_and] at hn
    obtain ⟨⟨⟨htable, -⟩, hjoins⟩, hfilters⟩ := hn
    have hdelete : Spells d "DELETE".toList (words ["DELETE"]) := by
      cases d <;> exact spells_run .word rfl (List.all_eq_true.1 rfl)
    obtain ⟨target, htarget, rfl⟩ : ∃ target,
        Follows d target.toList (if joins = [] then [] else nameTrees t.title) ∧
        sql = "DELETE" ++ target ++ " FROM " ++ t.render d.flavor fallback ++
          joinClauses d.flavor fallback joins ++ whereClause d.flavor filters := by
      by_cases hj : joins = []
      · subst hj
        cases h
        exact ⟨"", follows_nil, rfl⟩
      · simp only [Delete.render, hj, if_false] at h ⊢
        cases hs : t.target d.flavor with
        | error e =>
          rw [hs] at h
          cases h
        | ok s =>
          rw [hs] at h
          cases h
          obtain ⟨rfl, hmem⟩ := Table.target_title hs
          refine ⟨" " ++ d.flavor.escapeName t.title, ?_, rfl⟩
          rw [String.toList_append]
          exact gap_blank.follows (spells_name (htable _ hmem))
    have hbody := (hdelete.append htarget).append (gap_from.follows (t.spells hf htable))
    have hall := (hbody.append (follows_joins hf hjoins)).append (follows_where hfilters)
    simp only [Delete.trees, String.toList_append, List.append_assoc] at hall ⊢
    exact hall

theorem spells_assignment (entry : String × Scalar) (hn : d.IsPlain entry.1) :
    Spells d (assignment d.flavor entry).toList (assignmentTrees d entry) := by
  have h := (spells_name hn).append (gap_equal.follows (spells_literal entry.2))
  rw [assignment, assignmentTrees]
  simp only [String.toList_append, List.append_assoc] at h ⊢
  exact h

theorem Update.spells (m : Update) (hf : d.IsPlain fallback)
    (hn : ∀ n ∈ (Node.update m).names, d.IsPlain n)
    {sql : String} (h : m.render d.flavor fallback = .ok sql) :
    Spells d sql.toList (m.trees d fallback) := by
  obtain ⟨tables, joins, filters, assignments⟩ := m
  cases tables with
  | nil => cases h
  | cons t more =>
    simp only [Node.names, namesOfTables, List.mem_append, or_imp, forall_and] at hn
    obtain ⟨⟨⟨⟨htable, -⟩, hjoins⟩, hfilters⟩, hcolumns⟩ := hn
    by_cases ha : assignments.entries = []
    · simp only [Update.render, ha, if_true] at h
      cases hname : t.name <;> rw [hname] at h <;> cases h
    · simp only [Update.render, ha, if_false] at h
      cases h
      have hupdate : Closed d "UPDATE ".toList (words ["UPDATE"]) := by cases d <;> rfl
      have hset : Gap d " SET ".toList (words ["SET"]) := Closed.gap (by cases d <;> rfl) rfl
      have hlist : Spells d (", ".intercalate (assignments.entries.map (assignment d.flavor))).toList
          (listed (assignments.entries.map (assignmentTrees d))) :=
        spells_intercalate gap_comma
          (eachSpells_map fun e he => spells_assignment e (hcolumns e.1 (List.mem_map_of_mem he)))
      have hbody := (hupdate.append (t.spells hf htable)).append (follows_joins hf hjoins)
      have hall := (hbody.append (hset.follows hlist)).append (follows_where hfilters)
      simp only [Update.trees, String.toList_append, List.append_assoc] at hall ⊢
      exact hall

theorem follows_columnList {columns : List String} (hn : ∀ n ∈ columns, d.IsPlain n) :
    Follows d (columnList d.flavor columns).toList [columnTree columns] := by
  have hlist : Spells d (", ".intercalate (columns.map d.flavor.escapeName)).toList
      (listed (columns.map nameTrees)) :=
    spells_intercalate gap_comma (eachSpells_map fun n h => spells_name (hn n h))
  rw [columnList, String.toList_append]
  exact gap_blank.follows (spells_parenthesised hlist)

theorem Insert.mem_names_of_mem_columns {m : Insert} {n : String} (h : n ∈ m.columns) :
    n ∈ (Node.insert m).names := by
  obtain ⟨table, columnNames, rows, source⟩ := m
  simp only [Node.names, List.mem_cons, List.mem_append]
  unfold Insert.columns at h
  split at h
  · rename_i c cs hc
    dsimp only at hc
    rw [hc]
    exact .inl (.inl (.inr h))
  · rw [List.mem_eraseDups] at h
    exact .inl (.inr h)

theorem Insert.spells (m : Insert) (hf : d.IsPlain fallback)
    (hn : ∀ n ∈ (Node.insert m).names, d.IsPlain n)
    {sql : String} (h : m.render d.flavor fallback = .ok sql) :
    Spells d sql.toList (m.trees d fallback) := by
  have hinsert : Closed d "INSERT INTO ".toList (words ["INSERT", "INTO"]) := by cases d <;> rfl
  have hlead := hinsert.append (spells_name (hn m.table (by simp [Node.names])))
  have hcolumns : ∀ n ∈ m.columns, d.IsPlain n := fun n hc => hn n (Insert.mem_names_of_mem_columns hc)
  unfold Insert.render at h
  unfold Insert.trees
  cases hsource : m.source with
  | some q =>
    simp only [hsource] at h ⊢
    cases h
    have hlist : Follows d
        (if m.columnNames.getD [] = [] then "" else columnList d.flavor (m.columnNames.getD [])).toList
        (if m.columnNames.getD [] = [] then [] else [columnTree (m.columnNames.getD [])]) := by
      split
      · exact follows_nil
      · exact follows_columnList fun n hc => hn n (by simp [Node.names, hc])
    have hquery := q.spells hf fun n hq => hn n (by simp [Node.names, hsource, hq])
    have hall := (hlead.append hlist).append (gap_blank.follows hquery)
    simp only [String.toList_append, List.append_assoc] at hall ⊢
    exact hall
  | none =>
    simp only [hsource] at h ⊢
    split at h
    · cases h
    · cases h
      have hvalues : Gap d " VALUES ".toList (words ["VALUES"]) :=
        Closed.gap (by cases d <;> rfl) rfl
      have hrows : Spells d (", ".intercalate (m.rows.map (valueList d.flavor m.columns))).toList
          (listed (m.rows.map fun row => [.group (literalTrees d (m.columns.map row.value))])) :=
        spells_intercalate gap_comma
          (eachSpells_map fun row _ => spells_parenthesised (spells_literals _))
      have hall := (hlead.append (follows_columnList hcolumns)).append (hvalues.follows hrows)
      simp only [String.toList_append, List.append_assoc, List.singleton_append] at hall ⊢
      exact hall

/-! ## Nodes -/

theorem Projection.spells (p : Projection) (hf : d.IsPlain fallback)
    (hn : ∀ n ∈ (Node.projection p).names, d.IsPlain n) :
    Spells d (p.render d.flavor fallback).toList (p.trees d fallback) := by
  simp only [Node.names, List.mem_append, or_imp, forall_and] at hn
  obtain ⟨⟨htables, -⟩, hfields⟩ := hn
  have hselect : Closed d "SELECT ".toList (words ["SELECT"]) := by cases d <;> rfl
  have heach := eachSpells_tables p.tables hf htables
  rw [renderTables_eq_map, tableTrees_eq_map] at heach
  rw [Projection.render, Projection.trees, String.toList_append, String.toList_append]
  exact (hselect.append (spells_fields hfields)).append (follows_clause gap_from gap_comma heach)

theorem Node.spells (n : Node) (hf : d.IsPlain fallback) (hn : ∀ s ∈ n.names, d.IsPlain s)
    {sql : String}
    (h : n.sql d.flavor fallback = .ok sql) : Spells d sql.toList (n.trees d fallback) := by
  cases n with
  | table t =>
    cases h
    exact t.spells hf hn
  | join j =>
    cases h
    exact j.spells hf hn
  | select q =>
    cases h
    exact q.spells hf hn
  | projection p =>
    cases h
    exact p.spells hf hn
  | condition c =>
    cases h
    exact c.spells hn
  | delete m => exact m.spells hf hn h
  | update m => exact m.spells hf hn h
  | insert m => exact m.spells hf hn h

/-- An alias that the settings accept holds letters, digits and underscores only. -/
theorem notMem_of_isPlainAlias {s : String} (h : Settings.isPlainAlias s = true) {c : Char}
    (hc : Text.isAlphanumeric c = false) (hu : c ≠ '_') : c ∉ s.toList := by
  intro hmem
  simp only [Settings.isPlainAlias, Bool.and_eq_true, List.all_eq_true, List.mem_filter] at h
  rw [h.1.2 c ⟨hmem, by simpa using hu⟩] at hc
  cases hc

theorem mark_notMem_of_isPlainAlias {s : String} (h : Settings.isPlainAlias s = true) : d.mark ∉ s.toList :=
  notMem_of_isPlainAlias h (by cases d <;> decide) (by cases d <;> decide)

theorem ne_empty_of_isPlainAlias {s : String} (h : Settings.isPlainAlias s = true) : s ≠ "" := by
  rintro rfl
  cases h

/-- An alias that the settings accept is no expression. -/
theorem isPlain_of_isPlainAlias {s : String} (h : Settings.isPlainAlias s = true) : d.IsPlain s := by
  have hopen : '(' ∉ s.toList := notMem_of_isPlainAlias h (by decide) (by decide)
  have hclose : ')' ∉ s.toList := notMem_of_isPlainAlias h (by decide) (by decide)
  have hquote : '\'' ∉ s.toList := notMem_of_isPlainAlias h (by decide) (by decide)
  have hany : s.toList.any (fun c => c = '(' || c = ')') = false := by
    rw [List.any_eq_false]
    intro c hc
    have ho : c ≠ '(' := fun e => hopen (e ▸ hc)
    have hp : c ≠ ')' := fun e => hclose (e ▸ hc)
    simp [ho, hp]
  have hhead : s.toList.head? ≠ some '\'' := fun e => hquote (List.mem_of_head? e)
  have hprefix : [d.mark].isPrefixOf s.toList = false := by
    rw [Bool.eq_false_iff]
    intro e
    exact mark_notMem_of_isPlainAlias (d := d) h ((List.isPrefixOf_iff_prefix.1 e).subset (by simp))
  simp [Dialect.IsPlain, Flavor.isExpression, quote_toList, hany, hhead, hprefix]

/-- The tokens of the text of a node are those of its phrase. -/
theorem Node.tokens_of_sql (n : Node) (hn : ∀ s ∈ n.names, d.IsPlain s)
    (hf : Settings.isPlainAlias fallback = true) {sql : String} (h : n.sql d.flavor fallback = .ok sql) :
    d.tokens sql = tokensOf (n.trees d fallback) := by
  have hs := n.spells (isPlain_of_isPlainAlias hf) hn h [] ends_nil
  rw [List.append_nil] at hs
  rw [Dialect.tokens, hs]
  simp [Dialect.scan, Mode.close]

/-- So their parentheses balance, and nesting them gives the phrase. -/
theorem Node.nest_of_sql (n : Node) (hn : ∀ s ∈ n.names, d.IsPlain s)
    (hf : Settings.isPlainAlias fallback = true) {sql : String} (h : n.sql d.flavor fallback = .ok sql) :
    nest (d.tokens sql) = some (n.trees d fallback) := by
  rw [n.tokens_of_sql hn hf h]
  exact nest_tokens _

/-- Rendered SQL is read as what the node says. The parentheses balance, and every nested statement,
operand of a union and part of a combination stands in a group of its own. -/
theorem Node.tokens_of_render (n : Node) (hn : ∀ s ∈ n.names, d.IsPlain s)
    (hf : Settings.isPlainAlias fallback = true) {sql : String}
    (h : n.render d.flavor fallback = .ok sql) :
    d.tokens sql = tokensOf (n.trees d fallback) ∧ nest (d.tokens sql) = some (n.trees d fallback) ∧
      n.wrapped d fallback ⊆ groupsOf (n.trees d fallback) := by
  have hsql := Node.sql_of_render h
  exact ⟨n.tokens_of_sql hn hf hsql, n.nest_of_sql hn hf hsql, n.wrapped_subset⟩

/-- A delete whose names and text are full of marks. -/
def markedDelete : Node :=
  .delete ⟨[⟨.name "db.a\x60b", none⟩], [],
    [.combine .disj [.compare .equal "c" (.text "\\' OR (1 = 1"), .isNull true "c.*"]]⟩

def markedDeleteSql : String :=
  "DELETE FROM \x60db\x60.\x60a\x60\x60b\x60 " ++
    "WHERE (\x60c\x60 = '\\\\'' OR (1 = 1') OR (\x60c\x60.* IS NOT NULL)"

theorem tokens_of_markedDelete :
    (∀ s ∈ markedDelete.names, Dialect.mysql.IsPlain s) ∧ Settings.isPlainAlias "t" = true ∧
      markedDelete.render Flavor.mysql "t" = .ok markedDeleteSql ∧
      Dialect.mysql.tokens markedDeleteSql = tokensOf (markedDelete.trees .mysql "t") := by
  have hn : ∀ s ∈ markedDelete.names, Dialect.mysql.IsPlain s := by decide
  have hf : Settings.isPlainAlias "t" = true := by decide
  have hr : markedDelete.render Flavor.mysql "t" = .ok markedDeleteSql := by rfl
  exact ⟨hn, hf, hr, (Node.tokens_of_render markedDelete hn hf hr).1⟩

end SqlAst
