import Mathlib.Logic.Relation
import Mathlib.Data.Nat.Init

/-!
# Runs of a guarded transition system

A system is a partial next-state function `next : σ → ι → Option σ`; `none` says that the action is
not enabled.  `ReachUnder next ok s₀ s` says that `s` is reached from `s₀` by enabled actions each of
which meets the side condition `ok` in the state it is taken in.  The side condition is how a property
of runs ("in every run whose steps all meet ...") is stated.

* `ReachUnder.invariant` — the induction rule: what holds initially and is kept by every admitted step
  holds in every reached state;
* `ReachUnder.strengthen` — a run under `ok` is a run under `ok'` when an invariant of the run turns
  every admitted step into one that meets `ok'`;
* `ReachUnder.goal_iff` — the goal rule: when a goal can be reached, by a condition and a measure;
* `runUnder` — the executable form, for runs on concrete inputs.
-/

namespace PlatIF.Runs

variable {σ ι : Type*} (next : σ → ι → Option σ)

/-- States reached from `s₀` by enabled actions that meet `ok` where they are taken. -/
inductive ReachUnder (ok : σ → ι → Prop) (s₀ : σ) : σ → Prop
  | refl : ReachUnder ok s₀ s₀
  | tail {s s' : σ} (a : ι) : ReachUnder ok s₀ s → ok s a → next s a = some s' → ReachUnder ok s₀ s'

variable {next} {ok ok' : σ → ι → Prop} {s₀ s₁ s₂ : σ}

/-- **The invariant rule.**  The step premise may use that the state before the step is reached. -/
theorem ReachUnder.invariant {P : σ → Prop} (h0 : P s₀)
    (hstep : ∀ s s' a, ReachUnder next ok s₀ s → P s → ok s a → next s a = some s' → P s')
    (h : ReachUnder next ok s₀ s₁) : P s₁ := by
  induction h with
  | refl => exact h0
  | tail a hr hok hn ih => exact hstep _ _ a hr ih hok hn

theorem ReachUnder.trans (h₁ : ReachUnder next ok s₀ s₁) (h₂ : ReachUnder next ok s₁ s₂) :
    ReachUnder next ok s₀ s₂ := by
  induction h₂ with
  | refl => exact h₁
  | tail a _ hok hn ih => exact ih.tail a hok hn

theorem ReachUnder.mono (hok : ∀ s a, ok s a → ok' s a) (h : ReachUnder next ok s₀ s₁) :
    ReachUnder next ok' s₀ s₁ := by
  induction h with
  | refl => exact .refl
  | tail a _ ha hn ih => exact ih.tail a (hok _ _ ha) hn

/-- A run under `ok` is a run under `ok'` when some `P`, kept along the run, makes every admitted step
meet `ok'`. -/
theorem ReachUnder.strengthen {P : σ → Prop} (h0 : P s₀)
    (hok : ∀ s a, ReachUnder next ok' s₀ s → P s → ok s a → ok' s a)
    (hstep : ∀ s s' a, ReachUnder next ok' s₀ s → P s → ok s a → next s a = some s' → P s')
    (h : ReachUnder next ok s₀ s₁) : ReachUnder next ok' s₀ s₁ ∧ P s₁ := by
  induction h with
  | refl => exact ⟨.refl, h0⟩
  | tail a _ ha hn ih =>
    obtain ⟨hr, hP⟩ := ih
    exact ⟨hr.tail a (hok _ a hr hP ha) hn, hstep _ _ a hr hP ha hn⟩

/-- **The goal rule.**  `P` says exactly when the goal can be reached, if it holds at the goal, no step leads from
where it fails to where it holds, and short of the goal it lets a step be taken that keeps it and comes closer. -/
theorem ReachUnder.goal_iff {I P goal : σ → Prop} (μ : σ → ℕ)
    (hinv : ∀ s s' a, I s → ok s a → next s a = some s' → I s') (hgoal : ∀ s, goal s → P s)
    (hback : ∀ s s' a, I s → ok s a → next s a = some s' → P s' → P s)
    (hprog : ∀ s, I s → P s → ¬ goal s → ∃ a s', ok s a ∧ next s a = some s' ∧ P s' ∧ μ s' < μ s)
    (h0 : I s₀) : (∃ s, ReachUnder next ok s₀ s ∧ goal s) ↔ P s₀ := by
  constructor
  · rintro ⟨s, hr, hg⟩
    have hpull : I s ∧ (P s → P s₀) :=
      hr.invariant (P := fun s => I s ∧ (P s → P s₀)) ⟨h0, id⟩ fun s s' a _ hI ha hn =>
        ⟨hinv s s' a hI.1 ha hn, fun h => hI.2 (hback s s' a hI.1 ha hn h)⟩
    exact hpull.2 (hgoal s hg)
  · intro hp
    -- induction on the measure
    obtain ⟨n, hn⟩ : ∃ n, μ s₀ = n := ⟨_, rfl⟩
    induction n using Nat.strong_induction_on generalizing s₀ with
    | _ n ih =>
      by_cases hg : goal s₀
      · exact ⟨s₀, .refl, hg⟩
      · obtain ⟨a, s', ha, hs, hp', hlt⟩ := hprog s₀ h0 hp hg
        obtain ⟨s, hr, hg'⟩ := ih (μ s') (hn ▸ hlt) (hinv s₀ s' a h0 ha hs) hp' rfl
        exact ⟨s, (ReachUnder.refl.tail a ha hs).trans hr, hg'⟩

/-! ### Executable runs -/

/-- Perform the actions in order; `none` when one of them is not enabled or does not meet `ok`. -/
def runUnder (next : σ → ι → Option σ) (ok : σ → ι → Prop) [∀ s a, Decidable (ok s a)] :
    List ι → σ → Option σ
  | [], s => some s
  | a :: as, s => if ok s a then (next s a).bind (runUnder next ok as) else none

theorem runUnder_reach [∀ s a, Decidable (ok s a)] {as : List ι}
    (h : runUnder next ok as s₀ = some s₁) : ReachUnder next ok s₀ s₁ := by
  induction as generalizing s₀ with
  | nil =>
    simp only [runUnder, Option.some.injEq] at h
    exact h ▸ .refl
  | cons a as ih =>
    simp only [runUnder] at h
    split at h
    · rename_i hok
      obtain ⟨s', hn, hs'⟩ := Option.bind_eq_some_iff.mp h
      exact (ReachUnder.refl.tail a hok hn).trans (ih hs')
    · simp at h

/-- A property tested at the end of an executable run holds of a reached state. -/
theorem exists_reach_of_runUnder [∀ s a, Decidable (ok s a)] (as : List ι) (p : σ → Bool)
    (h : (runUnder next ok as s₀).any p = true) : ∃ s, ReachUnder next ok s₀ s ∧ p s = true := by
  obtain ⟨s, hs, hp⟩ := (Option.any_eq_true p _).mp h
  exact ⟨s, runUnder_reach hs, hp⟩

end PlatIF.Runs
