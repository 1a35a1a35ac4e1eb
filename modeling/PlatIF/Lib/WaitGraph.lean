import Mathlib.Logic.Relation
import Mathlib.Order.Basic

/-!
# Cycles of waits

`waits t u` says that `t` cannot go on before `u` has acted.  A cycle is a chain of waits that leads from a party back
to itself; nobody on it ever goes on.

* `not_cycle` — the rank rule: no cycle when every wait is for a party of lower rank;
* `Cycle.of_self`, `Cycle.of_two` — the cycles of length one and two.
-/

namespace PlatIF.WaitGraph

variable {τ α : Type*} {waits : τ → τ → Prop} {t u : τ}

/-- A chain of waits leads from `t` back to `t`. -/
def Cycle (waits : τ → τ → Prop) (t : τ) : Prop := Relation.TransGen waits t t

theorem Cycle.of_self (h : waits t t) : Cycle waits t := .single h

theorem Cycle.of_two (h : waits t u) (h' : waits u t) : Cycle waits t := .tail (.single h) h'

variable [Preorder α] {rank : τ → α}

/-- Along a chain of waits the rank decreases. -/
theorem rank_lt_of_chain (hrank : ∀ t u, waits t u → rank u < rank t) (h : Relation.TransGen waits t u) :
    rank u < rank t := by
  induction h with
  | single h => exact hrank _ _ h
  | tail _ h ih => exact (hrank _ _ h).trans ih

/-- **The rank rule.** -/
theorem not_cycle (hrank : ∀ t u, waits t u → rank u < rank t) : ¬ Cycle waits t :=
  fun h => lt_irrefl _ (rank_lt_of_chain hrank h)

end PlatIF.WaitGraph
