import Mathlib.Data.Set.Subsingleton
import PlatIF.Lib.Runs

/-!
# Wake-ups of a condition variable

A condition variable as its users see it: who waits on it, whether the condition holds that they wait for, and who has
made it hold and not signalled since.  A signal wakes one of those who wait, and is lost when nobody does.

* `CondVar.Step` — the steps of a program that tests the condition before it waits, and signals after it has made the
  condition hold;
* `CondVar.NoLostWakeup` — nobody waits while the condition holds, unless a signal is still to come;
* `CondVar.noLostWakeup_reach` — so it is along every run in which never more than one waits.
-/

namespace PlatIF

/-- A condition variable, with the condition that is waited for. -/
structure CondVar (τ : Type*) where
  waiting : Set τ
  holds : Prop
  /-- Those who have made the condition hold and come to signal. -/
  owing : Set τ

namespace CondVar

variable {τ : Type*} {c c' : CondVar τ}

/-- A signal is given: it wakes one of those who wait, if anybody does. -/
structure Signalled (c c' : CondVar τ) : Prop where
  sub : c'.waiting ⊆ c.waiting
  wakes : c.waiting.Nonempty → ∃ u ∈ c.waiting, u ∉ c'.waiting

/-- What a step of the program may do. -/
inductive Step (c c' : CondVar τ) : Prop
  /-- Some may wake up, the condition may cease to hold, and no signal is dropped. -/
  | quiet (hw : c'.waiting ⊆ c.waiting) (hc : c'.holds → c.holds) (ho : c.owing ⊆ c'.owing)
  /-- Some go to sleep on a condition that does not hold. -/
  | tested (hc : ¬ c'.holds)
  /-- Somebody makes the condition hold, and comes to signal. -/
  | raised {t : τ} (ho : t ∈ c'.owing)
  | signalled (h : Signalled c c')

/-- Nobody waits while the condition holds, unless a signal is still to come. -/
def NoLostWakeup (c : CondVar τ) : Prop := c.waiting.Nonempty → c.holds → c.owing.Nonempty

/-- A signal leaves nobody waiting, where never more than one waits. -/
theorem Signalled.waiting_eq_empty (h : Signalled c c') (hone : c.waiting.Subsingleton) : c'.waiting = ∅ := by
  rw [Set.eq_empty_iff_forall_notMem]
  intro u hu
  obtain ⟨v, hv, hv'⟩ := h.wakes ⟨u, h.sub hu⟩
  exact hv' (hone (h.sub hu) hv ▸ hu)

theorem NoLostWakeup.step (h : c.NoLostWakeup) (hone : c.waiting.Subsingleton) (hs : c.Step c') :
    c'.NoLostWakeup := by
  intro hw hc
  cases hs with
  | quiet hsub hholds ho => exact (h (hw.mono hsub) (hholds hc)).mono ho
  | tested hno => exact absurd hc hno
  | raised ho => exact ⟨_, ho⟩
  | signalled hs =>
    rw [hs.waiting_eq_empty hone] at hw
    exact absurd hw Set.not_nonempty_empty

variable {σ ι : Type*} {next : σ → ι → Option σ} {ok : σ → ι → Prop} {s₀ s : σ}

/-- **The wake-up rule.**  A program that starts with nobody waiting, lets never more than one wait, and takes only such
steps loses no wake-up. -/
theorem noLostWakeup_reach (view : σ → CondVar τ) (h0 : (view s₀).waiting = ∅)
    (hone : ∀ s, Runs.ReachUnder next ok s₀ s → (view s).waiting.Subsingleton)
    (hstep : ∀ s s' a, Runs.ReachUnder next ok s₀ s → ok s a → next s a = some s' → (view s).Step (view s'))
    (h : Runs.ReachUnder next ok s₀ s) : (view s).NoLostWakeup := by
  refine h.invariant (P := fun s => (view s).NoLostWakeup) ?_ ?_
  · intro hw
    rw [h0] at hw
    exact absurd hw Set.not_nonempty_empty
  · intro s s' a hr hP hok hn
    exact hP.step (hone s hr) (hstep s s' a hr hok hn)

end CondVar

end PlatIF
