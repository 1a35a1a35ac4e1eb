import Mathlib.Data.Nat.Basic
import Mathlib.Tactic.Common

/-!
# A recursive mutex

The state of a recursive mutex is `none` when it is free and `some (o, n)` when thread `o` holds it with
recursion depth `n + 1`, so a held mutex of depth `0` cannot be written down.

`held m t` is the depth at which `t` holds `m` (`0` when it does not).  `tryLock` is `none` exactly when
another thread is the owner: the same function gives the result of a trylock and the enabledness of a
blocking lock.
-/

namespace PlatIF

/-- A recursive mutex over thread ids `τ`. -/
abbrev RecMutex (τ : Type*) := Option (τ × ℕ)

namespace RecMutex

variable {τ : Type*} [DecidableEq τ] {m m' : RecMutex τ} {t u : τ}

/-- The depth at which `t` holds the mutex. -/
def held (m : RecMutex τ) (t : τ) : ℕ :=
  match m with
  | none => 0
  | some (o, n) => if o = t then n + 1 else 0

/-- Lock by `t`: `none` when another thread holds the mutex. -/
def tryLock (m : RecMutex τ) (t : τ) : Option (RecMutex τ) :=
  match m with
  | none => some (some (t, 0))
  | some (o, n) => if o = t then some (some (t, n + 1)) else none

/-- Unlock by `t`; a thread that is not the owner changes nothing. -/
def unlock (m : RecMutex τ) (t : τ) : RecMutex τ :=
  match m with
  | none => none
  | some (o, n) => if o = t then (match n with | 0 => none | k + 1 => some (t, k)) else some (o, n)

theorem held_tryLock (h : tryLock m t = some m') : held m' t = held m t + 1 := by
  rcases m with _ | ⟨o, n⟩
  · simp only [tryLock, Option.some.injEq] at h
    subst h
    simp [held]
  · simp only [tryLock] at h
    split at h
    · simp only [Option.some.injEq] at h
      subst h
      simp_all [held]
    · simp at h

theorem held_tryLock_ne (h : tryLock m t = some m') (hne : u ≠ t) : held m' u = held m u := by
  rcases m with _ | ⟨o, n⟩
  · simp only [tryLock, Option.some.injEq] at h
    subst h
    simp [held, hne.symm]
  · simp only [tryLock] at h
    split at h
    · simp only [Option.some.injEq] at h
      subst h
      simp_all [held, hne.symm]
    · simp at h

theorem held_unlock (m : RecMutex τ) (t : τ) : held (unlock m t) t = held m t - 1 := by
  rcases m with _ | ⟨o, n⟩
  · rfl
  · by_cases h : o = t
    · cases n <;> simp [unlock, held, h]
    · simp [unlock, held, h]

theorem held_unlock_ne (m : RecMutex τ) (hne : u ≠ t) : held (unlock m t) u = held m u := by
  rcases m with _ | ⟨o, n⟩
  · rfl
  · by_cases h : o = t
    · subst h
      cases n <;> simp [unlock, held, hne.symm]
    · simp [unlock, h]

/-- **Exclusion.**  Two threads that hold the mutex are the same thread. -/
theorem held_unique (ht : 0 < held m t) (hu : 0 < held m u) : t = u := by
  rcases m with _ | ⟨o, n⟩
  · simp [held] at ht
  · by_cases h₁ : o = t <;> by_cases h₂ : o = u <;> simp_all [held]

theorem tryLock_eq_none : tryLock m t = none ↔ ∃ u, u ≠ t ∧ 0 < held m u := by
  rcases m with _ | ⟨o, n⟩
  · simp [tryLock, held]
  · by_cases h : o = t
    · simp only [tryLock, h, if_true, held, false_iff, reduceCtorEq]
      rintro ⟨u, hne, hpos⟩
      simp [hne.symm] at hpos
    · simp only [tryLock, h, if_false, held, true_iff]
      exact ⟨o, h, by simp⟩

theorem held_of_tryLock_pos (h : tryLock m t = some m') : 0 < held m' t := by
  rw [held_tryLock h]
  exact Nat.succ_pos _

/-- Unlocking what was just locked gives the mutex back. -/
theorem unlock_tryLock (h : tryLock m t = some m') : unlock m' t = m := by
  rcases m with _ | ⟨o, n⟩
  · simp only [tryLock, Option.some.injEq] at h
    subst h
    simp [unlock]
  · simp only [tryLock] at h
    split at h
    · rename_i ho
      simp only [Option.some.injEq] at h
      subst h
      simp [unlock, ho]
    · simp at h

end RecMutex

end PlatIF
