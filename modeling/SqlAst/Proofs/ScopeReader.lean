import SqlAst.Proofs.Phrase

/-!
# Reading scopes

A reader that finds in the tokens of any SQL the names that the sources of each statement expose, at every
depth. Nothing in its definition knows how statements are written; the laws say what phrases of some kinds do
to it.

* `Silent`: phrases without sources, which are passed over.
* `Collected`: phrases that are part of a name where they stand in a source; so are names.
* `exposuresFrom_ends`: what stands behind a source ends it.
* `nameTrees_injective`: names are told apart by their tokens.
-/
namespace SqlAst.Sql

/-! ## The reader -/

/-- The list of all items, unless there are none. -/
def unlessEmpty {α : Type} (items : List α) : List (List α) := if items.isEmpty then [] else [items]

theorem unlessEmpty_map {α β : Type} (g : α → β) (items : List α) :
    unlessEmpty (items.map g) = (unlessEmpty items).map (List.map g) := by
  cases items <;> rfl

/-- Whether a word has a source behind it. -/
def opensSource (word : List Char) : Bool :=
  word = "FROM".toList || word = "JOIN".toList || word = "UPDATE".toList

/-- The names that sources expose from some place in a statement on. A source stands behind a word that opens
one, or behind a comma that follows another source; behind AS stands its alias, and any other word ends it.
`pending` is what was read of the source at hand, if there is one. -/
def exposuresFrom : Option (List Tree) → List Tree → List (List Tree)
  | pending, [] => pending.toList
  | pending, .leaf (.word word) :: rest =>
    if opensSource word then pending.toList ++ exposuresFrom (some []) rest
    else if word = "AS".toList then exposuresFrom (pending.map fun _ => []) rest
    else pending.toList ++ exposuresFrom none rest
  | none, _ :: rest => exposuresFrom none rest
  | some name, .leaf (.mark ',') :: rest => name :: exposuresFrom (some []) rest
  | some name, t :: rest => exposuresFrom (some (name ++ [t])) rest

/-- The names that the sources of a statement expose, but not those of statements inside. -/
def exposures (statement : List Tree) : List (List Tree) := exposuresFrom none statement

mutual

/-- The scopes of the statements in a tree that have any sources, the outer ones first. -/
def Tree.innerScopes : Tree → List (List (List Tree))
  | .leaf _ => []
  | .group inner => unlessEmpty (exposures inner) ++ innerScopes inner

def innerScopes : List Tree → List (List (List Tree))
  | [] => []
  | t :: rest => t.innerScopes ++ innerScopes rest

end

/-- The scopes of a statement and of those inside. -/
def scopesOf (statement : List Tree) : List (List (List Tree)) :=
  unlessEmpty (exposures statement) ++ innerScopes statement

/-- The scopes in a text, at every depth, if its parentheses balance. -/
def Dialect.scopes (d : Dialect) (sql : String) : Option (List (List (List Tree))) :=
  (nest (d.tokens sql)).map scopesOf

@[simp] theorem innerScopes_append (ts us : List Tree) :
    innerScopes (ts ++ us) = innerScopes ts ++ innerScopes us := by
  induction ts with
  | nil => rfl
  | cons t rest ih => simp [innerScopes, ih]

@[simp] theorem innerScopes_group (inner : List Tree) : innerScopes [.group inner] = scopesOf inner := by
  simp [innerScopes, Tree.innerScopes, scopesOf]

/-! ## What a tree does -/

variable {pending : Option (List Tree)} {name rest : List Tree} {word : List Char}

theorem exposuresFrom_opens (h : opensSource word = true) :
    exposuresFrom pending (.leaf (.word word) :: rest) = pending.toList ++ exposuresFrom (some []) rest := by
  rw [exposuresFrom, if_pos h]

theorem exposuresFrom_word (h : opensSource word = false) (has : word ≠ "AS".toList) :
    exposuresFrom pending (.leaf (.word word) :: rest) = pending.toList ++ exposuresFrom none rest := by
  rw [exposuresFrom, h, if_neg (by simp), if_neg has]

theorem exposuresFrom_as :
    exposuresFrom (some name) (.leaf (.word "AS".toList) :: rest) = exposuresFrom (some []) rest := by
  rw [exposuresFrom, if_neg (by decide), if_pos rfl, Option.map_some]

theorem exposuresFrom_comma :
    exposuresFrom (some name) (comma ++ rest) = name :: exposuresFrom (some []) rest := by
  rw [comma, List.singleton_append, exposuresFrom]

/-! ## Trees without sources -/

/-- What holds of phrases and of what stands between them holds of the whole. -/
theorem intercalate_induction {P : List Tree → Prop} (hnil : P [])
    (happend : ∀ {ts us : List Tree}, P ts → P us → P (ts ++ us)) {sep : List Tree} (hsep : P sep)
    {phrases : List (List Tree)} (h : ∀ ts ∈ phrases, P ts) : P (sep.intercalate phrases) := by
  induction phrases with
  | nil => exact hnil
  | cons ts rest ih =>
    have hts := h ts List.mem_cons_self
    have hrest := ih fun us hus => h us (List.mem_cons_of_mem _ hus)
    cases rest with
    | nil => simpa using hts
    | cons us more =>
      rw [List.intercalate_cons_cons]
      exact happend (happend hts hsep) hrest

/-- Outside of a source the trees are passed over, and there are no sources inside. -/
structure Silent (ts : List Tree) : Prop where
  outside : ∀ rest, exposuresFrom none (ts ++ rest) = exposuresFrom none rest
  inside : innerScopes ts = []

theorem silent_nil : Silent [] := ⟨fun _ => rfl, rfl⟩

theorem Silent.append {ts us : List Tree} (hts : Silent ts) (hus : Silent us) : Silent (ts ++ us) where
  outside rest := by rw [List.append_assoc, hts.outside, hus.outside]
  inside := by rw [innerScopes_append, hts.inside, hus.inside, List.append_nil]

theorem Silent.exposures {ts : List Tree} (h : Silent ts) : exposures ts = [] := by
  have hend := h.outside []
  rwa [List.append_nil] at hend

theorem Silent.scopesOf_append {ts : List Tree} (h : Silent ts) (us : List Tree) :
    scopesOf (ts ++ us) = scopesOf us := by
  rw [scopesOf, Sql.exposures, h.outside, innerScopes_append, h.inside]
  rfl

theorem Silent.scopesOf_eq_nil {ts : List Tree} (h : Silent ts) : Sql.scopesOf ts = [] := by
  rw [Sql.scopesOf, h.exposures, h.inside]
  rfl

theorem Silent.group {ts : List Tree} (h : Silent ts) : Silent [.group ts] where
  outside rest := by rw [List.singleton_append, exposuresFrom]; simp
  inside := by rw [innerScopes_group, scopesOf, h.exposures, h.inside]; rfl

theorem silent_leaf {a : Atom} (h : ∀ word, a = .word word → opensSource word = false) :
    Silent [.leaf a] where
  outside rest := by
    cases a with
    | word word =>
      rw [List.singleton_append, exposuresFrom, h word rfl, if_neg (by simp)]
      split <;> rfl
    | _ => rw [List.singleton_append, exposuresFrom]; simp
  inside := rfl

theorem silent_words {ws : List String} (h : ∀ w ∈ ws, opensSource w.toList = false) : Silent (words ws) := by
  induction ws with
  | nil => exact silent_nil
  | cons w rest ih =>
    have hw : Silent [.leaf (.word w.toList)] := silent_leaf fun word hword => by
      cases hword
      exact h w List.mem_cons_self
    exact hw.append (ih fun x hx => h x (List.mem_cons_of_mem _ hx))

theorem silent_comma : Silent comma := silent_leaf (by simp)

theorem silent_sign (spelling : List Char) : Silent [.leaf (.sign spelling)] := silent_leaf (by simp)

theorem silent_intercalate {sep : List Tree} (hsep : Silent sep) {phrases : List (List Tree)}
    (h : ∀ ts ∈ phrases, Silent ts) : Silent (sep.intercalate phrases) :=
  intercalate_induction silent_nil Silent.append hsep h

theorem silent_clauseTrees {lead sep : List Tree} (hlead : Silent lead) (hsep : Silent sep)
    {phrases : List (List Tree)} (h : ∀ ts ∈ phrases, Silent ts) : Silent (clauseTrees lead sep phrases) := by
  cases phrases with
  | nil => exact silent_nil
  | cons ts rest => exact hlead.append (silent_intercalate hsep h)

/-! ## Ends of sources -/

/-- What may stand behind a source: nothing, or a word that ends it. -/
def EndsSource (ts : List Tree) : Prop :=
  ∀ t ∈ ts.head?, ∃ word, t = .leaf (.word word) ∧ word ≠ "AS".toList

theorem exposuresFrom_ends {ts : List Tree} (h : EndsSource ts) (name : List Tree) :
    exposuresFrom (some name) ts = name :: exposuresFrom none ts := by
  cases ts with
  | nil => rfl
  | cons t rest =>
    obtain ⟨word, rfl, has⟩ := h t rfl
    cases hopens : opensSource word with
    | true =>
      rw [exposuresFrom_opens hopens, exposuresFrom_opens hopens]
      rfl
    | false =>
      rw [exposuresFrom_word hopens has, exposuresFrom_word hopens has]
      rfl

theorem endsSource_nil : EndsSource [] := by simp [EndsSource]

theorem endsSource_words {w : String} (h : w.toList ≠ "AS".toList) (ws : List String) (rest : List Tree) :
    EndsSource (words (w :: ws) ++ rest) := by
  intro t ht
  cases ht
  exact ⟨w.toList, rfl, h⟩

theorem EndsSource.append {ts us : List Tree} (hts : EndsSource ts) (hus : EndsSource us) :
    EndsSource (ts ++ us) := by
  cases ts with
  | nil => exact hus
  | cons t rest => exact hts

theorem endsSource_clauseTrees {w : String} (h : w.toList ≠ "AS".toList) (ws : List String) (sep : List Tree)
    (phrases : List (List Tree)) : EndsSource (clauseTrees (words (w :: ws)) sep phrases) := by
  cases phrases with
  | nil => exact endsSource_nil
  | cons ts rest => exact endsSource_words h ws _

theorem endsSource_countTrees {w : String} (h : w.toList ≠ "AS".toList) (n : Option Nat) :
    EndsSource (countTrees w n) := by
  cases n with
  | none => exact endsSource_nil
  | some n => exact endsSource_words h [] _

/-! ## Names -/

/-- Behind the start of a source the trees are part of its name. -/
def Collected (ts : List Tree) : Prop :=
  ∀ name rest, exposuresFrom (some name) (ts ++ rest) = exposuresFrom (some (name ++ ts)) rest

theorem Collected.append {ts us : List Tree} (hts : Collected ts) (hus : Collected us) :
    Collected (ts ++ us) := by
  intro name rest
  rw [List.append_assoc, hts, hus, List.append_assoc]

theorem collected_nil : Collected [] := by
  intro name rest
  rw [List.append_nil, List.nil_append]

theorem collected_tree {t : Tree} (hword : ∀ word, t ≠ .leaf (.word word)) (hcomma : t ≠ .leaf (.mark ',')) :
    Collected [t] := by
  intro name rest
  rw [List.singleton_append, exposuresFrom]
  · exact hword
  · exact hcomma

theorem collected_group (inner : List Tree) : Collected [.group inner] := collected_tree (by simp) (by simp)

theorem collected_partTree (part : List Char) : Collected [partTree part] := by
  unfold partTree
  split
  · exact collected_tree (by simp) (by simp)
  · exact collected_tree (by simp) (by simp)

theorem collected_nameTrees (n : String) : Collected (nameTrees n) := by
  have hpoint : Collected [.leaf (.mark '.')] := collected_tree (by simp) (by simp)
  refine intercalate_induction collected_nil Collected.append hpoint fun ts hts => ?_
  obtain ⟨part, -, rfl⟩ := List.mem_map.mp hts
  exact collected_partTree part

/-- A name has no tokens but parts and the points between them. -/
theorem of_mem_nameTrees {P : Tree → Prop} (hpoint : P (.leaf (.mark '.'))) (hstar : P (.leaf (.mark '*')))
    (hpart : ∀ part, P (.leaf (.name part))) (n : String) : ∀ t ∈ nameTrees n, P t := by
  refine intercalate_induction (P := fun ts => ∀ t ∈ ts, P t) (by simp) ?_ (by simpa using hpoint) ?_
  · intro ts us hts hus t ht
    exact (List.mem_append.mp ht).elim (hts t) (hus t)
  · intro ts hts t ht
    obtain ⟨part, -, rfl⟩ := List.mem_map.mp hts
    rw [List.mem_singleton.mp ht, partTree]
    split
    · exact hstar
    · exact hpart part

theorem silent_partTree (part : List Char) : Silent [partTree part] := by
  unfold partTree
  split
  · exact silent_leaf (by simp)
  · exact silent_leaf (by simp)

theorem silent_nameTrees (n : String) : Silent (nameTrees n) := by
  refine silent_intercalate (silent_leaf (by simp)) fun ts hts => ?_
  obtain ⟨part, -, rfl⟩ := List.mem_map.mp hts
  exact silent_partTree part

theorem partTree_injective {part other : List Char} (h : partTree part = partTree other) : part = other := by
  unfold partTree at h
  split at h <;> split at h
  · simp_all
  · simp at h
  · simp at h
  · simpa using h

/-- Lists of single items with the same item between any two are told apart. -/
theorem intercalate_singletons_injective {α : Type} (sep : α) {items others : List α}
    (h : [sep].intercalate (items.map fun x => [x]) = [sep].intercalate (others.map fun x => [x])) :
    items = others := by
  induction items generalizing others with
  | nil =>
    match others with
    | [] => rfl
    | [y] => simp at h
    | y :: z :: more => simp [List.intercalate_cons_cons] at h
  | cons x rest ih =>
    match rest, others with
    | [], [] => simp at h
    | [], [y] => simpa using h
    | [], y :: z :: more => simp [List.intercalate_cons_cons] at h
    | w :: rest, [] => simp [List.intercalate_cons_cons] at h
    | w :: rest, [y] => simp [List.intercalate_cons_cons] at h
    | w :: rest, y :: z :: more =>
      simp only [List.map_cons, List.intercalate_cons_cons, List.cons_append, List.nil_append,
        List.cons.injEq, true_and] at h
      obtain ⟨rfl, hrest⟩ := h
      have hmore : w :: rest = z :: more := ih (by simpa only [List.map_cons] using hrest)
      rw [hmore]

/-- Names are told apart by their tokens. -/
theorem nameTrees_injective : Function.Injective nameTrees := by
  intro n m h
  have hsplit (s : String) : nameTrees s = [Tree.leaf (.mark '.')].intercalate
      (((Text.splitOn '.' s.toList).map partTree).map fun t => [t]) := by
    rw [nameTrees, List.map_map]
    rfl
  rw [hsplit, hsplit] at h
  have hparts := List.map_injective_iff.mpr (fun _ _ => partTree_injective)
    (intercalate_singletons_injective _ h)
  have hchars := congrArg (['.'].intercalate) hparts
  rw [Text.intercalate_splitOn, Text.intercalate_splitOn] at hchars
  exact String.toList_inj.mp hchars

end SqlAst.Sql
