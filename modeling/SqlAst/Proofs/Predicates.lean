import SqlAst.Proofs.Filters

/-!
# What a predicate means

The text of a predicate on its own is read, by the precedence of SQL, as the tree that it was written from:
each part of a combination stands in parentheses, so that no connective takes more than its own parts, and
what stands in quotation marks is passed over.

* `Condition.readText_render`: the text of a predicate has the value of its tree.
-/
namespace SqlAst

open Sql

/-- A predicate written in a dialect has in SQL the value of its tree: a conjunction or a disjunction that
of its parts, at every depth, where that of none is true or false. -/
theorem Condition.readText_render (V : Valuation) (d : Dialect) (c : Condition)
    (hn : ∀ n ∈ c.names, d.IsPlain n) :
    V.readText d (c.render d.flavor) = some (c.value V d) := by
  have hspells : Spells d (c.render d.flavor).toList (c.trees d) := Condition.spells c hn
  rw [readText_of_spells V hspells]
  exact c.read_trees V d

/-- A conjunction of two disjunctions, with connectives and parentheses in a text literal, a BETWEEN, and
combinations of nothing and of no values. -/
def hiddenConnectives : Condition :=
  .combine .conj
    [.combine .disj [.between "b" (.int 1) (.int 2), .compare .equal "a" (.text "') AND (1 = 0")],
      .combine .disj [.among "c.d" [], .combine .conj []]]

/-- It holds of a row if its comparison of `a` does. -/
theorem hiddenConnectives_holds :
    (∀ n ∈ hiddenConnectives.names, Dialect.mysql.IsPlain n) ∧
      hiddenConnectives.render Flavor.mysql =
        "((\x60b\x60 BETWEEN 1 AND 2) OR (\x60a\x60 = ''') AND (1 = 0')) AND " ++
          "((\x60c\x60.\x60d\x60 IN (NULL)) OR ((1 = 1)))" ∧
      onlyA.readText .mysql (hiddenConnectives.render Flavor.mysql) = some .yes := by
  have hn : ∀ n ∈ hiddenConnectives.names, Dialect.mysql.IsPlain n := by decide
  exact ⟨hn, rfl, hiddenConnectives.readText_render onlyA .mysql hn⟩

end SqlAst
