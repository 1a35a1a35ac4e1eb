import PlatIF.Lib.Simulation

/-!
# Runs that show something

A state need not keep a record of all that an observer sees of a run.  `recorded` is the transition system with such a
record beside the state: each step adds what `shows` says of the two states.  The record of a run of a system that is
simulated is one that the abstract system can show (`exec_of_shown`).
-/

namespace PlatIF.Runs

variable {σ τ ι ℓ : Type*} (next : σ → ι → Option σ) (shows : σ → σ → List ℓ)

/-- `next`, with a record. -/
def recorded (x : σ × List ℓ) (a : ι) : Option (σ × List ℓ) := (next x.1 a).map fun s' => (s', x.2 ++ shows x.1 s')

/-- There is a run under `ok` from `s₀` to `s` that shows `os`. -/
def Shown (ok : σ → ι → Prop) (s₀ s : σ) (os : List ℓ) : Prop :=
  ReachUnder (recorded next shows) (fun x a => ok x.1 a) (s₀, []) (s, os)

variable {next shows} {ok : σ → ι → Prop} {s₀ s s' : σ} {os : List ℓ}

/-- The induction rule: a step extends the run, and what it shows the record. -/
theorem Shown.invariant {P : σ → List ℓ → Prop} (h0 : P s₀ [])
    (hstep : ∀ s s' a os, ReachUnder next ok s₀ s → P s os → ok s a → next s a = some s' → P s' (os ++ shows s s'))
    (h : Shown next shows ok s₀ s os) : ReachUnder next ok s₀ s ∧ P s os := by
  have hall : ReachUnder next ok s₀ (s, os).1 ∧ P (s, os).1 (s, os).2 :=
    ReachUnder.invariant (P := fun x : σ × List ℓ => ReachUnder next ok s₀ x.1 ∧ P x.1 x.2) ⟨.refl, h0⟩
      (fun x x' a _ ih hok hn => by
        obtain ⟨hr, hP⟩ := ih
        obtain ⟨s', hs', rfl⟩ := Option.map_eq_some_iff.mp hn
        exact ⟨hr.tail a hok hs', hstep _ _ a _ hr hP hok hs'⟩) h
  exact hall

/-- **Simulation of what is shown.** -/
theorem exec_of_shown {step : τ → ℓ → τ → Prop} {b₀ : τ} (R : σ → τ → Prop) (h0 : R s₀ b₀)
    (hstep : ∀ s s' a b, ReachUnder next ok s₀ s → ok s a → next s a = some s' → R s b →
      ∃ b', Simulation.Exec step b (shows s s') b' ∧ R s' b')
    (h : Shown next shows ok s₀ s os) : ∃ b, Simulation.Exec step b₀ os b ∧ R s b := by
  refine (h.invariant (P := fun s os => ∃ b, Simulation.Exec step b₀ os b ∧ R s b) ⟨b₀, .nil, h0⟩ ?_).2
  rintro s s' a os hr ⟨b, hb, hR⟩ hok hn
  obtain ⟨b', hb', hR'⟩ := hstep s s' a b hr hok hn hR
  exact ⟨b', hb.append hb', hR'⟩

end PlatIF.Runs
