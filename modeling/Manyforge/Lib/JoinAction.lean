import Mathlib.Data.Finset.Lattice.Fold

/-!
# Facts that act through a join

Each fact has a weight in a join semilattice, and a state reacts to a weight.
When reacting twice is reacting to the join, the state after any number of facts
depends on the set of them only: neither their order nor their repetition counts.
-/
namespace JoinAction

variable {Fact Weight State : Type*} [DecidableEq Fact] [SemilatticeSup Weight] [OrderBot Weight]

/-- The join of the weights of some facts. -/
def total (weight : Fact → Weight) (facts : List Fact) : Weight := facts.toFinset.sup weight

section Total

variable (weight : Fact → Weight)

theorem total_append (facts more : List Fact) :
    total weight (facts ++ more) = total weight facts ⊔ total weight more := by
  simp [total, Finset.sup_union]

theorem total_concat (facts : List Fact) (fact : Fact) :
    total weight (facts ++ [fact]) = total weight facts ⊔ weight fact := by
  rw [total_append]
  simp [total]

theorem total_congr {facts others : List Fact} (same : ∀ fact, fact ∈ facts ↔ fact ∈ others) :
    total weight facts = total weight others := by
  have : facts.toFinset = others.toFinset := by ext fact; simp [same]
  rw [total, total, this]

theorem le_total {facts : List Fact} {fact : Fact} (member : fact ∈ facts) :
    weight fact ≤ total weight facts :=
  Finset.le_sup (f := weight) (List.mem_toFinset.mpr member)

theorem total_le {facts : List Fact} {bound : Weight}
    (bounded : ∀ fact ∈ facts, weight fact ≤ bound) : total weight facts ≤ bound :=
  Finset.sup_le fun fact member => bounded fact (List.mem_toFinset.mp member)

end Total

/-- The state reacts to weights, and to nothing else. -/
structure Acts (act : Weight → State → State) : Prop where
  bot : ∀ s, act ⊥ s = s
  join : ∀ a b s, act b (act a s) = act (a ⊔ b) s

variable {act : Weight → State → State} {weight : Fact → Weight}

theorem Acts.concat (acts : Acts act) (facts : List Fact) (fact : Fact) (s : State) :
    act (weight fact) (act (total weight facts) s) = act (total weight (facts ++ [fact])) s := by
  rw [acts.join, total_concat]

end JoinAction
