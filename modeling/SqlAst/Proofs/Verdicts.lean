import SqlAst.Decode
import SqlAst.Proofs.StoredFields

/-!
# Verdicts

The verdict of a check is the value, or the code of the fault that the issues make. Places and most kinds of
issues do not matter for it, and so it does not depend on where the data comes from.

* `Checked.verdict_seq`, `Checked.verdict_under`: the verdict of a check from those of its parts.
* `Fields.verdict_parts` and its like: objects whose parts get the same verdicts get the same verdict.
* `checkPart_verdict`, `Target.verdict_check`: data of the program and of texts get the same verdict.
* `Target.verdict_anyCondition`: the choice of all conditions gives the verdict of the type that is chosen.
* `verdict?_decoded`: a reader ends with the verdict of its check.
-/
namespace SqlAst

/-- Whether an issue is about a tag that stands for no type. -/
def Issue.isTag (i : Issue) : Bool :=
  match i.kind with
  | .unknownTag _ | .missingTag => true
  | _ => false

/-- The code of the fault that issues make. -/
def Issue.code (is : List Issue) : FaultCode := if is.any isTag then .unknownType else .parse

theorem Issue.code_append (is js : List Issue) :
    code (is ++ js) = if code is = .unknownType then .unknownType else code js := by
  unfold code
  rw [List.any_append]
  cases is.any isTag <;> simp

namespace Checked

variable {α β γ : Type}

/-! ## Checks side by side -/

/-- The value of a check, or the code of the fault that its issues make. -/
def verdict : Checked α → Except FaultCode α
  | .ok a => .ok a
  | .bad is => .error (Issue.code is)

/-- The verdict of two checks side by side: a tag that stands for no type outweighs all else. -/
def both (f : Except FaultCode (α → β)) (a : Except FaultCode α) : Except FaultCode β :=
  match f, a with
  | .ok f, .ok a => .ok (f a)
  | .ok _, .error c => .error c
  | .error c, .ok _ => .error c
  | .error c, .error d => .error (if c = .unknownType then .unknownType else d)

theorem verdict_map (f : α → β) (a : Checked α) : (map f a).verdict = a.verdict.map f := by
  cases a <;> rfl

theorem verdict_apply (f : Checked (α → β)) (a : Checked α) :
    (apply f a).verdict = both f.verdict a.verdict := by
  cases f <;> cases a
  case bad.bad is js => exact congrArg Except.error (Issue.code_append is js)
  all_goals rfl

theorem verdict_fmap (f : α → β) (a : Checked α) : (f <$> a).verdict = a.verdict.map f :=
  verdict_map f a

theorem verdict_seq (f : Checked (α → β)) (a : Checked α) :
    (f <*> a).verdict = both f.verdict a.verdict :=
  verdict_apply f a

theorem verdict_under (step : Step) (a : Checked α) : (a.under step).verdict = a.verdict := by
  cases a with
  | ok a => rfl
  | bad is =>
    show Except.error (Issue.code (is.map _)) = Except.error (Issue.code is)
    unfold Issue.code
    rw [List.any_map]
    rfl

theorem verdict_eachFrom {check check' : α → Checked β} {items : List α}
    (h : ∀ a ∈ items, (check a).verdict = (check' a).verdict) (index : Nat) :
    (eachFrom check index items).verdict = (eachFrom check' index items).verdict := by
  induction items generalizing index with
  | nil => rfl
  | cons a rest ih =>
    have hrest := ih (fun b hb => h b (List.mem_cons_of_mem a hb)) (index + 1)
    simp only [eachFrom, verdict_apply, verdict_map, verdict_under, h a List.mem_cons_self, hrest]

theorem verdict_each {items : List α} {check check' : (a : α) → a ∈ items → Checked β}
    (h : ∀ a ha, (check a ha).verdict = (check' a ha).verdict) :
    (each items check).verdict = (each items check').verdict :=
  verdict_eachFrom (fun a _ => h a.1 a.2) 0

theorem verdict_items {d : Datum} {check check' : (a : Datum) → sizeOf a < sizeOf d → Checked α}
    (h : ∀ a ha, (check a ha).verdict = (check' a ha).verdict) :
    (items d check).verdict = (items d check').verdict := by
  cases d with
  | list xs => exact verdict_each fun a _ => h a _
  | tuple xs => exact verdict_each fun a _ => h a _
  | node | field | order | part | settings => exact verdict_each fun _ _ => h (.tuple []) _
  | _ => rfl

end Checked

open Checked

/-! ## Objects by their parts -/

/-- Two checks of parts that give the same verdicts. -/
def Inner.Alike {bound : Nat} (inner inner' : Inner bound) : Prop :=
  ∀ p d h, (inner p d h).verdict = (inner' p d h).verdict

namespace Fields

variable {es : Fields} {inner inner' : Inner (sizeOf es)}

theorem verdict_check {α : Type} {f : FieldName} {absent : Checked α}
    {value value' : (d : Datum) → sizeOf d < sizeOf es → Checked α}
    (h : ∀ d hd, (value d hd).verdict = (value' d hd).verdict) :
    (es.check f absent value).verdict = (es.check f absent value').verdict := by
  unfold check
  split
  · simp only [verdict_under, h]
  · split
    · simp only [verdict_under, h]
    · rfl

theorem verdict_parts (h : inner.Alike inner') (f : FieldName) (p : Position) (default : List p.Value) :
    (es.parts f p default inner).verdict = (es.parts f p default inner').verdict :=
  verdict_check fun _ _ => verdict_items fun a _ => h p a _

theorem verdict_nullablePart (h : inner.Alike inner') (f : FieldName) (p : Position)
    (default : Option p.Value) :
    (es.nullablePart f p default inner).verdict = (es.nullablePart f p default inner').verdict := by
  refine verdict_check fun d hd => ?_
  split
  · rfl
  · simp only [verdict_map, h p _ _]

theorem verdict_requiredPart (h : inner.Alike inner') (f : FieldName) (p : Position)
    (base : Option p.Value) :
    (es.requiredPart f p base inner).verdict = (es.requiredPart f p base inner').verdict :=
  verdict_check fun d hd => h p d hd

theorem verdict_source (d : Datum) {query query' : Checked Select} (h : query.verdict = query'.verdict) :
    (source d query).verdict = (source d query').verdict := by
  unfold source
  cases d.asText? with
  | some s => rfl
  | none =>
    cases query with
    | ok q =>
      cases query' with
      | ok q' => exact congrArg (Except.map Source.query) h
      | bad is' => cases h
    | bad is =>
      cases query' with
      | ok q' => cases h
      | bad is' => simp only [verdict_apply, verdict_under, h]

theorem verdict_condition (h : inner.Alike inner') (kind : ConditionKind) (base : Option Condition) :
    (condition kind base es inner).verdict = (condition kind base es inner').verdict := by
  cases kind with
  | combine connective => simp only [condition, verdict_seq, verdict_fmap, verdict_parts h]
  | _ => rfl

theorem verdict_table (h : inner.Alike inner') (base : Option Table) :
    (table base es inner).verdict = (table base es inner').verdict := by
  have hsource : (es.check (.plain "source") (present (.plain "source") (base.map Table.source))
      fun d hd => source d (inner .select d hd)).verdict =
        (es.check (.plain "source") (present (.plain "source") (base.map Table.source))
          fun d hd => source d (inner' .select d hd)).verdict :=
    verdict_check fun d hd => verdict_source d (h .select d hd)
  simp only [table, verdict_seq, verdict_fmap, hsource]

theorem verdict_join (h : inner.Alike inner') (base : Option Join) :
    (join base es inner).verdict = (join base es inner').verdict := by
  simp only [join, verdict_seq, verdict_fmap, verdict_requiredPart h, verdict_nullablePart h]

theorem verdict_unionPart (h : inner.Alike inner') :
    (unionPart es inner).verdict = (unionPart es inner').verdict := by
  simp only [unionPart, verdict_seq, verdict_fmap, verdict_requiredPart h]

theorem verdict_select (h : inner.Alike inner') (base : Select) :
    (select base es inner).verdict = (select base es inner').verdict := by
  simp only [select, verdict_seq, verdict_fmap, verdict_parts h]

theorem verdict_projection (h : inner.Alike inner') (base : Projection) :
    (projection base es inner).verdict = (projection base es inner').verdict := by
  simp only [projection, verdict_seq, verdict_fmap, verdict_parts h]

theorem verdict_delete (h : inner.Alike inner') (base : Delete) :
    (delete base es inner).verdict = (delete base es inner').verdict := by
  simp only [delete, verdict_seq, verdict_fmap, verdict_parts h]

theorem verdict_update (h : inner.Alike inner') (base : Update) :
    (update base es inner).verdict = (update base es inner').verdict := by
  simp only [update, verdict_seq, verdict_fmap, verdict_parts h]

theorem verdict_insert (h : inner.Alike inner') (base : Option Insert) :
    (insert base es inner).verdict = (insert base es inner').verdict := by
  simp only [insert, verdict_seq, verdict_fmap, verdict_nullablePart h]

end Fields

/-! ## Forms of data -/

/-- Where the data comes from decides only how what is no object at all is reported. -/
theorem Position.verdict_condition (form form' : Form) (d : Datum) {inner inner' : Inner (sizeOf d)}
    (h : inner.Alike inner') :
    (Position.condition.check form d inner).verdict = (Position.condition.check form' d inner').verdict := by
  cases d with
  | dict es =>
    have hform : (Datum.dict es).conditionShape form' = (Datum.dict es).conditionShape form := rfl
    cases hs : (Datum.dict es).conditionShape form with
    | given c => rw [Position.check.eq_1 _ _ _ _ hs, Position.check.eq_1 _ _ _ _ (hform.trans hs)]
    | flawed kind =>
      rw [Position.check.eq_2 _ _ _ _ hs, Position.check.eq_2 _ _ _ _ (hform.trans hs)]
    | tagged kind =>
      rw [Position.check.eq_3 _ _ _ _ hs, Position.check.eq_3 _ _ _ _ (hform.trans hs), verdict_under,
        verdict_under]
      exact Fields.verdict_condition (fun p a ha => h p a _) kind none
  | node n =>
    cases n with
    | condition c => rfl
    | _ => rfl
  | _ => cases form <;> cases form' <;> rfl

theorem Position.verdict_check (p : Position) (form form' : Form) (d : Datum)
    {inner inner' : Inner (sizeOf d)} (h : inner.Alike inner') :
    (p.check form d inner).verdict = (p.check form' d inner').verdict := by
  cases p with
  | condition => exact Position.verdict_condition form form' d h
  | table =>
    cases d with
    | dict es =>
      unfold Position.check
      exact Fields.verdict_table (fun p a ha => h p a _) none
    | node n => cases n <;> rfl
    | _ => rfl
  | join =>
    cases d with
    | dict es =>
      unfold Position.check
      exact Fields.verdict_join (fun p a ha => h p a _) none
    | node n => cases n <;> rfl
    | _ => rfl
  | select =>
    cases d with
    | dict es =>
      unfold Position.check
      exact Fields.verdict_select (fun p a ha => h p a _) {}
    | node n => cases n <;> rfl
    | _ => rfl
  | unionPart =>
    cases d with
    | dict es =>
      unfold Position.check
      exact Fields.verdict_unionPart (fun p a ha => h p a _)
    | _ => rfl

/-- Data at a position gets the same verdict wherever it comes from. -/
theorem checkPart_verdict (form form' : Form) (p : Position) (d : Datum) :
    (checkPart form p d).verdict = (checkPart form' p d).verdict := by
  rw [checkPart, checkPart]
  exact p.verdict_check form form' d fun q a _ => checkPart_verdict form form' q a
termination_by sizeOf d

theorem NodeType.verdict_check (t : NodeType) (form form' : Form) (d : Datum) :
    (t.check form d).verdict = (t.check form' d).verdict := by
  cases d with
  | dict es =>
    have hparts : (checkParts form es).Alike (checkParts form' es) :=
      fun p d _ => checkPart_verdict form form' p d
    show (t.ofFields form es).verdict = (t.ofFields form' es).verdict
    unfold NodeType.ofFields
    split <;> simp only [verdict_map, Fields.verdict_table hparts, Fields.verdict_join hparts,
      Fields.verdict_select hparts, Fields.verdict_condition hparts, Fields.verdict_delete hparts,
      Fields.verdict_update hparts, Fields.verdict_insert hparts, Fields.verdict_projection hparts]
  | _ => rfl

namespace Decode

theorem Target.verdict_check (t : Target) (form form' : Form) (d : Datum) :
    (t.check form d).verdict = (t.check form' d).verdict := by
  cases t with
  | node type => exact type.verdict_check form form' d
  | anyCondition => simp only [Target.check, verdict_map, checkPart_verdict form form' .condition d]

/-- The choice between all conditions only adds the tag to the places. -/
theorem Target.verdict_anyCondition {es : Fields} {kind : ConditionKind}
    (h : Datum.valueAt? "type" es = some (.text kind.tag)) (form : Form) :
    (Target.anyCondition.check form (.dict es)).verdict =
      ((Target.node (.stored (.condition kind))).check form (.dict es)).verdict := by
  have htype : (Target.node (.stored (.condition kind))).check form (.dict es) =
      Checked.map Node.condition (Fields.condition kind none es (checkParts form es)) := rfl
  rw [htype, Target.check, checkPart_condition h, verdict_map, verdict_map, verdict_under]

end Decode

/-! ## Outcomes -/

/-- What a call gives, or the code of its fault; nothing if it ends in another way. -/
def Outcome.verdict? {α : Type} : Outcome α → Option (Except FaultCode α)
  | .ok a => some (.ok a)
  | .error (.fault f) => some (.error f.code)
  | .error _ => none

namespace Decode

/-- The first issue about a tag decides, so there is such a fault if there is such an issue. -/
theorem code_payloadFault (report : Report) (text : Datum) :
    (payloadFault report text).code = Issue.code report.issues := by
  unfold payloadFault Issue.code
  dsimp only
  generalize report.issues = is
  induction is with
  | nil => rfl
  | cons i rest ih =>
    obtain ⟨place, kind⟩ := i
    cases kind
    case unknownTag | missingTag => rfl
    all_goals exact ih

theorem verdict?_decoded {α : Type} (title : String) (text : Datum) (c : Checked α) :
    Outcome.verdict? (decoded title text c) = some c.verdict := by
  cases c with
  | ok a => rfl
  | bad is => exact congrArg (fun code => some (Except.error code)) (code_payloadFault ⟨title, is⟩ text)

end Decode

end SqlAst
