import PlatIF.Ioc.FrameRule
import PlatIF.Lib.Timespec

/-!
# The lock of a timed post

A post with a timeout computes a deadline in `struct timespec` and tries the context mutex until then, with the
`pthread_mutex_timedlock` that the source brings for platforms without one.  `long` and `time_t` are as wide as
`ULONG_T`; the product `TimeoutUS * 1000` is of 32 bits.

* `deadline` — the time handed to `pthread_mutex_timedlock`;
* `pthread_mutex_timedlock` — the loop, over what each `pthread_mutex_trylock` finds and what the clock then reads;
* `timedAcquire` — the lock acquisition of a timed `postEVT`, as steps of the system;
* `timed_post_iff` — it keeps to the timeout exactly when nothing in the deadline overflows.
-/

namespace PlatIF.Ioc

variable {abi : Abi} {t : Tid} {k n : ℕ} {busy : ℕ → Bool}

/-- `struct timespec`. -/
abbrev Time (abi : Abi) := Timespec abi.ulongBits

/-- `AbsTime` of a post that starts at `start`. -/
def deadline (start : Time abi) (timeoutUS : BitVec 32) : Time abi :=
  start.addNs ((timeoutUS * 1000).setWidth abi.ulongBits)

/-- How `pthread_mutex_timedlock` ends, and at which of its turns. -/
inductive LockResult where
  | acquired (turn : ℕ)
  | timedOut (turn : ℕ)
  deriving DecidableEq

/-- `pthread_mutex_timedlock` from turn `k` on, for at most `n` turns: `busy` says which of the `pthread_mutex_trylock`
fail, and `clock` what is read after that. -/
def pthread_mutex_timedlock (busy : ℕ → Bool) (clock : ℕ → Time abi) (abs_timeout : Time abi) :
    ℕ → ℕ → Option LockResult
  | 0, _ => none
  | n + 1, k =>
    if busy k then
      if (clock k).reached abs_timeout then some (.timedOut k)
      else pthread_mutex_timedlock busy clock abs_timeout n (k + 1)
    else some (.acquired k)

variable {clock : ℕ → Time abi} {abs_timeout start : Time abi} {o : Options}

/-- What the last turn of the loop has seen. -/
theorem timedlock_spec {r : LockResult} (h : pthread_mutex_timedlock busy clock abs_timeout n k = some r) :
    (∃ j, r = .acquired j ∧ busy j = false) ∨
      ∃ j, r = .timedOut j ∧ busy j = true ∧ (clock j).reached abs_timeout = true := by
  induction n generalizing k with
  | zero => exact absurd h (by simp [pthread_mutex_timedlock])
  | succ n ih =>
    unfold pthread_mutex_timedlock at h
    split at h
    · split at h
      · exact .inr ⟨k, (Option.some.inj h).symm, ‹_›, ‹_›⟩
      · exact ih h
    · exact .inl ⟨k, (Option.some.inj h).symm, by simpa using ‹¬ busy k = true›⟩

/-- The loop ends when the mutex is free at some turn, or the clock comes to the deadline. -/
theorem timedlock_ends {j : ℕ} (hj : k ≤ j) (h : busy j = false ∨ (clock j).reached abs_timeout = true) :
    ∃ r, pthread_mutex_timedlock busy clock abs_timeout (j - k + 1) k = some r := by
  induction hd : j - k generalizing k with
  | zero =>
    obtain rfl : k = j := by omega
    unfold pthread_mutex_timedlock
    rcases h with h | h
    · exact ⟨_, by rw [h]; rfl⟩
    · cases busy k
      · exact ⟨_, rfl⟩
      · exact ⟨_, by rw [h]; rfl⟩
  | succ d ih =>
    unfold pthread_mutex_timedlock
    split
    · split
      · exact ⟨_, rfl⟩
      · exact ih (by omega) (by omega)
    · exact ⟨_, rfl⟩

/-- The lock acquisition of a timed post of `t`: `hist k` is the state in which its `k`-th `pthread_mutex_trylock`
comes.  The result is the turn that ends it and the state after it. -/
def timedAcquire (hist : ℕ → State abi) (clock : ℕ → Time abi) (abs_timeout : Time abi) (t : Tid) (n : ℕ) :
    Option (ℕ × State abi) :=
  match pthread_mutex_timedlock (fun k => (RecMutex.tryLock (hist k).ctx.mutex t).isNone) clock abs_timeout n 0 with
  | none => none
  | some (.acquired k) => (next (hist k) (t, .go)).map fun s => (k, s)
  | some (.timedOut k) => (next (hist k) (t, .timeout)).map fun s => (k, s)

/-- `t` is about to obtain the context mutex in a `postEVT` with these options. -/
def State.locksFor (s : State abi) (t : Tid) (o : Options) : Prop :=
  ∃ f rest, s.frames t = .post f :: rest ∧ f.pc = .lock ∧ f.pOptions = some o

/-- A post that starts at `start` keeps to its timeout. -/
structure NeverEarly (start : Time abi) (o : Options) : Prop where
  normal : (deadline start o.timeoutUS).Normal
  exact : (deadline start o.timeoutUS).ns = start.ns + 1000 * o.timeoutUS.toNat
  /-- It returns `TOS_RESULT_TIMEOUT` from the lock only when the mutex was not to be had, and the clock was not before
  the end of the timeout. -/
  timeout : ∀ (hist : ℕ → State abi) (clock : ℕ → Time abi) t n k s' f, (∀ k, (hist k).locksFor t o) →
    (∀ k, (clock k).Normal) → timedAcquire hist clock (deadline start o.timeoutUS) t n = some (k, s') →
    Returns (hist k) s' t f .timeout →
      RecMutex.tryLock (hist k).ctx.mutex t = none ∧ start.ns + 1000 * o.timeoutUS.toNat ≤ (clock k).ns

/-- A post that obtains the mutex does not return `TOS_RESULT_TIMEOUT` for it. -/
theorem not_timeout_of_acquired {s s' : State abi} {m : RecMutex Tid} {f : Frame abi} (hl : s.locksFor t o)
    (hm : RecMutex.tryLock s.ctx.mutex t = some m) (hn : next s (t, .go) = some s') :
    ¬ Returns s s' t f .timeout := by
  intro hret
  obtain ⟨p, rest, hf, hp, -⟩ := hl
  cases (next_trans hn).2 with
  | postLock hf₀ =>
    have hlen := congrArg List.length hret.top
    rw [hf₀] at hlen
    simp at hlen
  | postNotFound =>
    have hres := hret.result
    rw [State.retPost_log] at hres
    simp at hres
  | halt => exact absurd hret.top.symm (by simp)
  | _ => simp_all

/-- Where the loop gives up, the call returns `TOS_RESULT_TIMEOUT`. -/
theorem timeout_returns {s : State abi} (hl : s.locksFor t o) (ho : isTimeout (some o) = true) (hh : s.halted = none)
    (hm : RecMutex.tryLock s.ctx.mutex t = none) :
    ∃ s' f, next s (t, .timeout) = some s' ∧ Returns s s' t f .timeout := by
  obtain ⟨f, rest, hf, hp, hopt⟩ := hl
  have hstep : next s (t, .timeout) = some (s.retPost t f rest .timeout) := by
    simp [next, State.step, hh, hf, State.postStep, hp, State.postLock, hm, hopt, ho]
  exact ⟨_, .post f, hstep, by simp [hf], rfl, by simp⟩

/-- **Timed posts.**  A post that starts at a normal time has a normal and exact deadline, and never gives up before it,
exactly when its timeout in nanoseconds fits into 32 bits and neither field of the deadline overflows. -/
theorem timed_post_iff (hs : start.Normal) :
    NeverEarly start o ↔ o.timeoutUS.toNat * 1000 < 2 ^ 32 ∧
      start.nsec.toInt + o.timeoutUS.toNat * 1000 < 2 ^ (abi.ulongBits - 1) ∧
      start.sec.toInt + (start.nsec.toInt + o.timeoutUS.toNat * 1000) / 10 ^ 9 < 2 ^ (abi.ulongBits - 1) := by
  have hw := abi.ulongBits_ge
  have hT := o.timeoutUS.isLt
  have hprod : ((o.timeoutUS * 1000).setWidth abi.ulongBits).toNat = o.timeoutUS.toNat * 1000 % 2 ^ 32 := by
    rw [BitVec.toNat_setWidth, BitVec.toNat_mul]
    exact Nat.mod_eq_of_lt (lt_of_lt_of_le (Nat.mod_lt _ (by decide)) abi.pow_le)
  have hadd := Timespec.addNs_exact_iff hw hs (p := (o.timeoutUS * 1000).setWidth abi.ulongBits)
    (n := o.timeoutUS.toNat * 1000) (by omega)
  rw [hprod] at hadd
  have hmod : o.timeoutUS.toNat * 1000 % 2 ^ 32 = o.timeoutUS.toNat * 1000 ↔ o.timeoutUS.toNat * 1000 < 2 ^ 32 := by
    omega
  rw [hmod] at hadd
  rw [Nat.cast_mul, Nat.cast_ofNat] at hadd
  rw [← hadd]
  constructor
  · intro h
    exact ⟨h.normal, h.exact.trans (by ring)⟩
  · rintro ⟨hnormal, hexact⟩
    refine ⟨hnormal, hexact.trans (by ring), ?_⟩
    intro hist clock t n k s' f hl hclock hpost hret
    unfold timedAcquire at hpost
    split at hpost
    · exact absurd hpost (by simp)
    · rename_i j hj
      obtain ⟨s₁, hn, hk⟩ := Option.map_eq_some_iff.mp hpost
      obtain ⟨rfl, rfl⟩ := Prod.mk.inj hk
      rcases timedlock_spec hj with ⟨i, hi, hfree⟩ | ⟨i, hi, -⟩
      · obtain rfl := LockResult.acquired.inj hi
        obtain ⟨m, hm⟩ := Option.isSome_iff_exists.mp (by simpa using hfree)
        exact absurd hret (not_timeout_of_acquired (hl _) hm hn)
      · exact absurd hi (by simp)
    · rename_i j hj
      obtain ⟨s₁, hn, hk⟩ := Option.map_eq_some_iff.mp hpost
      obtain ⟨rfl, rfl⟩ := Prod.mk.inj hk
      rcases timedlock_spec hj with ⟨i, hi, -⟩ | ⟨i, hi, hbusy, hreached⟩
      · exact absurd hi (by simp)
      · obtain rfl := LockResult.timedOut.inj hi
        refine ⟨by simpa using hbusy, ?_⟩
        have hle := (Timespec.reached_iff (hclock _) hnormal).mp hreached
        calc start.ns + 1000 * (o.timeoutUS.toNat : ℤ) = (deadline start o.timeoutUS).ns := by
              rw [show (deadline start o.timeoutUS).ns = _ from hexact]
              ring
          _ ≤ _ := hle

/-- Client 1 is in the fan-out of a post, and client 0 posts with a timeout of 4294968 microseconds. -/
def timedWhileHeld : List (Tid × Act lp64) :=
  [(0, .call (.subEVT ⟨1, 1, some [7]⟩)), (0, .go), (1, .call (.postEVT (.ofID lp64 7) none)), (1, .go),
    (0, .call (.postEVT (.ofID lp64 7) (some ⟨optIDTimeout, 4294968⟩)))]

/-- The timeout of 4.29 seconds wraps to 704 nanoseconds: a post that starts at zero gives up at the clock reading of
one microsecond. -/
theorem timed_post_gives_up_early :
    ∃ (s s' : State lp64) (f : Frame lp64), Reach (fun _ _ => True) (initMaxSuberNum lp64) 2 s ∧
      s.locksFor 0 ⟨optIDTimeout, 4294968⟩ ∧
      timedAcquire (fun _ => s) (fun _ => ⟨0, 1000⟩) (deadline ⟨0, 0⟩ 4294968) 0 1 = some (0, s') ∧
      Returns s s' 0 f .timeout ∧ ¬ NeverEarly (⟨0, 0⟩ : Time lp64) ⟨optIDTimeout, 4294968⟩ := by
  obtain ⟨s, hr, hs⟩ := reach_of_run (fun _ _ => True) (initMaxSuberNum lp64) 2 timedWhileHeld
    (fun s => s.halted.isNone && (RecMutex.tryLock s.ctx.mutex 0).isNone && (s.onlyPost 0).any
      fun f : PostFrame lp64 => decide (f.pc = .lock ∧ f.pOptions = some ⟨optIDTimeout, 4294968⟩))
    (by decide +kernel)
  simp only [Option.any_eq_true, State.onlyPost_eq_some, Bool.and_eq_true, Option.isNone_iff_eq_none,
    decide_eq_true_eq] at hs
  obtain ⟨⟨hh, hm⟩, f, hf, hp, hopt⟩ := hs
  have hl : s.locksFor 0 ⟨optIDTimeout, 4294968⟩ := ⟨f, [], hf, hp, hopt⟩
  obtain ⟨s', g, hn, hret⟩ := timeout_returns hl (by decide) hh hm
  have hreached : (⟨0, 1000⟩ : Time lp64).reached (deadline ⟨0, 0⟩ 4294968) = true := by decide +kernel
  refine ⟨s, s', g, hr, hl, ?_, hret, fun h => ?_⟩
  · simp only [timedAcquire, pthread_mutex_timedlock, hm, Option.isNone_none, if_true, hreached, hn, Option.map_some]
  · have hexact : (deadline (⟨0, 0⟩ : Time lp64) 4294968).ns = 4294968000 := h.exact
    exact absurd hexact (by decide +kernel)

/-- A timeout of one second. -/
theorem timed_post_iff_second : NeverEarly (⟨0, 0⟩ : Time lp64) ⟨optIDTimeout, 1000000⟩ :=
  (timed_post_iff ⟨by decide, by decide⟩).mpr ⟨by decide, by decide, by decide⟩

end PlatIF.Ioc
