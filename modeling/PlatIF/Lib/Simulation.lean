import PlatIF.Lib.Runs

/-!
# Forward simulation by a labelled system

An abstract system is a relation `step : τ → ℓ → τ → Prop` whose labels are what an observer sees.  `Exec step b₀ os b`
says that it comes from `b₀` to `b` and shows the labels `os` on the way.

A guarded transition system (`Runs`) refines it when every state keeps a record of what was shown, and each of its
admitted steps is matched: the record grows by some labels, no label at all included, and the abstract system shows the
same ones between two related states.  Then the record of every run is one the abstract system can show
(`exec_of_reach`), so what holds of all its executions holds of the records.
-/

namespace PlatIF.Simulation

variable {σ τ ι ℓ : Type*} {step : τ → ℓ → τ → Prop} {b b₀ b₁ b₂ : τ} {o : ℓ} {os os' : List ℓ}

/-- The abstract system comes from `b₀` to `b` and shows `os`. -/
inductive Exec (step : τ → ℓ → τ → Prop) (b₀ : τ) : List ℓ → τ → Prop
  | nil : Exec step b₀ [] b₀
  | snoc {os : List ℓ} {b b' : τ} {o : ℓ} : Exec step b₀ os b → step b o b' → Exec step b₀ (os ++ [o]) b'

namespace Exec

theorem single (h : step b o b₁) : Exec step b [o] b₁ := snoc nil h

theorem append (h : Exec step b₀ os b₁) (h' : Exec step b₁ os' b₂) : Exec step b₀ (os ++ os') b₂ := by
  induction h' with
  | nil => rwa [List.append_nil]
  | snoc _ hs ih =>
    rw [← List.append_assoc]
    exact ih.snoc hs

/-- An execution that shows two lists of labels has a state in between. -/
theorem split (h : Exec step b₀ (os ++ os') b₂) : ∃ b₁, Exec step b₀ os b₁ ∧ Exec step b₁ os' b₂ := by
  generalize hl : os ++ os' = l at h
  induction h generalizing os' with
  | nil =>
    obtain ⟨rfl, rfl⟩ := List.append_eq_nil_iff.mp hl
    exact ⟨b₀, nil, nil⟩
  | @snoc l b b' o h hs ih =>
    -- on the last label of the second list
    rcases List.eq_nil_or_concat os' with rfl | ⟨l', o', rfl⟩
    · rw [List.append_nil] at hl
      exact ⟨b', hl ▸ h.snoc hs, nil⟩
    · rw [List.concat_eq_append, ← List.append_assoc] at hl
      obtain ⟨hl, ho⟩ := List.append_inj' hl rfl
      obtain ⟨b₁, h₁, h₂⟩ := ih hl
      obtain rfl : o' = o := by simpa using ho
      exact ⟨b₁, h₁, by simpa using h₂.snoc hs⟩

/-- An execution that shows one label is one step. -/
theorem step_of_single (h : Exec step b [o] b₁) : step b o b₁ := by
  generalize hl : [o] = l at h
  cases h with
  | nil => simp at hl
  | snoc h hs =>
    obtain ⟨hnil, ho⟩ := List.append_inj' (show [] ++ [o] = _ from hl) rfl
    obtain rfl := List.singleton_inj.mp ho
    subst hnil
    generalize hl' : [] = l at h
    cases h with
    | nil => exact hs
    | snoc => simp at hl'

/-- An execution that shows a label takes the step. -/
theorem split_cons (h : Exec step b₀ (os ++ o :: os') b₂) :
    ∃ b b', Exec step b₀ os b ∧ step b o b' ∧ Exec step b' os' b₂ := by
  rw [List.append_cons] at h
  obtain ⟨b', h₁, h₂⟩ := h.split
  obtain ⟨b, h₁, hs⟩ := h₁.split
  exact ⟨b, b', h₁, hs.step_of_single, h₂⟩

/-- What every step keeps holds at the end. -/
theorem invariant {P : τ → Prop} (hstep : ∀ b o b', P b → step b o b' → P b') (h : Exec step b₀ os b) (h0 : P b₀) :
    P b := by
  induction h with
  | nil => exact h0
  | snoc _ hs ih => exact hstep _ _ _ ih hs

end Exec

/-! ### The simulation rule -/

variable {next : σ → ι → Option σ} {ok : σ → ι → Prop} {s₀ s : σ}

/-- **Forward simulation.**  When every admitted step is matched, the record of every run is one that the abstract
system can show, and it ends in a related state. -/
theorem exec_of_reach (R : σ → τ → Prop) (record : σ → List ℓ) (h0 : R s₀ b₀) (hnil : record s₀ = [])
    (hstep : ∀ s s' a b, Runs.ReachUnder next ok s₀ s → ok s a → next s a = some s' → R s b →
      ∃ os b', record s' = record s ++ os ∧ Exec step b os b' ∧ R s' b')
    (h : Runs.ReachUnder next ok s₀ s) : ∃ b, Exec step b₀ (record s) b ∧ R s b := by
  induction h with
  | refl => exact ⟨b₀, hnil ▸ .nil, h0⟩
  | tail a hr hok hn ih =>
    obtain ⟨b, hb, hR⟩ := ih
    obtain ⟨os, b', hos, hb', hR'⟩ := hstep _ _ a b hr hok hn hR
    exact ⟨b', hos ▸ hb.append hb', hR'⟩

end PlatIF.Simulation
