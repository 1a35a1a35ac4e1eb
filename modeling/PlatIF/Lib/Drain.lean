import Mathlib.Algebra.BigOperators.Group.Finset.Piecewise
import Mathlib.Algebra.Order.BigOperators.Group.Finset
import PlatIF.Lib.Runs

/-!
# Work that comes to an end

A system that is left alone goes on with what it has begun.  Its work comes to an end when every step that counts takes
some of it away, and when there is such a step as long as the system is not at rest.

* `Drains` — the two premises, under an invariant;
* `Drains.length_le` — a run is not longer than the work at its start;
* `Drains.exists_rest` — from every state the system can come to rest;
* `sum_le_of_slack` — the work of a pool, of which one member gives up some and another gets some;
* `sum_of_update` — the work of a pool, of which one member changes its work.
-/

namespace PlatIF.Runs

variable {σ ι : Type*} {next : σ → ι → Option σ} {ok : σ → ι → Prop} {I rest : σ → Prop} {work : σ → ℕ} {s s' : σ}

/-- Steps under `ok` take work away, and end nowhere but at rest. -/
structure Drains (next : σ → ι → Option σ) (ok : σ → ι → Prop) (I rest : σ → Prop) (work : σ → ℕ) : Prop where
  step : ∀ s s' a, I s → ok s a → next s a = some s' → I s' ∧ work s' < work s
  go : ∀ s, I s → ¬ rest s → ∃ a s', ok s a ∧ next s a = some s'

theorem Drains.invariant (h : Drains next ok I rest work) (hI : I s) (hr : ReachUnder next ok s s') : I s' :=
  ReachUnder.invariant hI (fun _ _ a _ hI ha hn => (h.step _ _ a hI ha hn).1) hr

/-- **The length of a run.** -/
theorem Drains.length_le [∀ s a, Decidable (ok s a)] (h : Drains next ok I rest work) {as : List ι} (hI : I s)
    (hr : runUnder next ok as s = some s') : as.length + work s' ≤ work s := by
  induction as generalizing s with
  | nil =>
    simp only [runUnder, Option.some.injEq] at hr
    simp [hr]
  | cons a as ih =>
    simp only [runUnder] at hr
    split at hr
    · rename_i ha
      obtain ⟨s₁, hn, hr⟩ := Option.bind_eq_some_iff.mp hr
      obtain ⟨hI₁, hlt⟩ := h.step s s₁ a hI ha hn
      have := ih hI₁ hr
      rw [List.length_cons]
      omega
    · simp at hr

/-- **The end of a run.** -/
theorem Drains.exists_rest (h : Drains next ok I rest work) (hI : I s) : ∃ s', ReachUnder next ok s s' ∧ rest s' := by
  -- induction on the work that is left
  obtain ⟨n, hn⟩ : ∃ n, work s = n := ⟨_, rfl⟩
  induction n using Nat.strong_induction_on generalizing s with
  | _ n ih =>
    by_cases hrest : rest s
    · exact ⟨s, .refl, hrest⟩
    · obtain ⟨a, s₁, ha, hs⟩ := h.go s hI hrest
      obtain ⟨hI₁, hlt⟩ := h.step s s₁ a hI ha hs
      obtain ⟨s', hr, hrest'⟩ := ih (work s₁) (hn ▸ hlt) hI₁ rfl
      exact ⟨s', (ReachUnder.refl.tail a ha hs).trans hr, hrest'⟩

/-! ### Pools -/

/-- One member of a pool changes its work, another gets `c` more at most, and the rest get none. -/
theorem sum_le_of_slack {κ : Type*} [DecidableEq κ] {P : Finset κ} {f g : κ → ℕ} {t v : κ} {c : ℕ} (ht : t ∈ P)
    (hother : ∀ u, u ≠ t → u ≠ v → g u ≤ f u) (hv : v ≠ t → g v ≤ f v + c) :
    (∑ u ∈ P, g u) + f t ≤ (∑ u ∈ P, f u) + g t + c := by
  have hrest : ∑ u ∈ P.erase t, g u ≤ (∑ u ∈ P.erase t, f u) + c := by
    calc ∑ u ∈ P.erase t, g u ≤ ∑ u ∈ P.erase t, (f u + if u = v then c else 0) := by
          refine Finset.sum_le_sum fun u hu => ?_
          have hut := Finset.ne_of_mem_erase hu
          by_cases huv : u = v
          · subst huv
            simpa using hv hut
          · simpa [huv] using hother u hut huv
      _ ≤ (∑ u ∈ P.erase t, f u) + c := by
          rw [Finset.sum_add_distrib, Finset.sum_ite_eq']
          split <;> simp
  rw [← Finset.add_sum_erase P g ht, ← Finset.add_sum_erase P f ht]
  omega

/-- One member changes its work.  The pool may change with it, as long as nobody outside has any. -/
theorem sum_of_update {κ : Type*} [DecidableEq κ] {P P' : Finset κ} {f g : κ → ℕ} {t : κ} (hf : ∀ u, u ∉ P → f u = 0)
    (hg : ∀ u, u ∉ P' → g u = 0) (h : ∀ u, u ≠ t → g u = f u) :
    (∑ u ∈ P', g u) + f t = (∑ u ∈ P, f u) + g t := by
  have hQ : t ∈ insert t (P ∪ P') := Finset.mem_insert_self ..
  have hP : P ⊆ insert t (P ∪ P') := fun u hu => Finset.mem_insert_of_mem (Finset.mem_union_left _ hu)
  have hP' : P' ⊆ insert t (P ∪ P') := fun u hu => Finset.mem_insert_of_mem (Finset.mem_union_right _ hu)
  have hrest : ∑ u ∈ (insert t (P ∪ P')).erase t, g u = ∑ u ∈ (insert t (P ∪ P')).erase t, f u :=
    Finset.sum_congr rfl fun u hu => h u (Finset.ne_of_mem_erase hu)
  rw [Finset.sum_subset hP' fun u _ hu => hg u hu, Finset.sum_subset hP fun u _ hu => hf u hu,
    ← Finset.add_sum_erase _ g hQ, ← Finset.add_sum_erase _ f hQ, hrest]
  omega

end PlatIF.Runs
