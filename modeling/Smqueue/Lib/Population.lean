import Mathlib.Logic.Relation

/-!
# Populations

A population is a list of individuals. It evolves by individual changes: every individual that is
there afterwards stems from one that was there before, or from one that has come in, by changes one
after the other. Individuals may disappear.
-/

namespace Population

variable {α : Type*}

/-- The population `l'` stems from `l` and from incoming individuals by changes. -/
def Evolves (change : α → α → Prop) (incoming : α → Prop) (l l' : List α) : Prop :=
  ∀ x' ∈ l', ∃ x, (x ∈ l ∨ incoming x) ∧ Relation.ReflTransGen change x x'

end Population
