import PlatIF.Evt.Stop
import PlatIF.Lib.CondVar

/-!
# The wake-ups of the processor

The processor tests `CurEvtNum` behind the mutex of its queue before it waits on `Cond`.  A post stores its descriptor
behind the mutex, and signals when it has left it.

* `State.evtCond` — `Cond` of a queue, for the events that are queued;
* `evtCond_step` — every step of every thread is one of a program that tests before it waits and signals after it has
  stored;
* `procer_wakeup` — so a processor that waits with events queued is about to be woken.
-/

namespace PlatIF.Evt

variable {abi : Abi} {s s' : State abi} {t u : Thread} {a : Act abi} {env : Env} {clients q : ℕ}
  {ok : State abi → Thread × Act abi → Prop}

/-- `t` has stored a descriptor in queue `q` and comes to `pthread_cond_signal`. -/
def State.Stored (s : State abi) (t : Thread) (q : ℕ) : Prop :=
  ∃ id arg, s.calls t = some (.postEvtSRT id arg (.signal q))

/-- `Cond` of queue `q`, for `CurEvtNum != 0`. -/
def State.evtCond (s : State abi) (q : ℕ) : CondVar Thread where
  waiting := {t | t = .procer q ∧ s.procer q = .waiting}
  holds := (s.queue q).curEvtNum ≠ 0
  owing := {t | s.Stored t q}

theorem evtCond_waiting_subsingleton (s : State abi) (q : ℕ) : (s.evtCond q).waiting.Subsingleton := by
  rintro t ⟨rfl, -⟩ u ⟨rfl, -⟩
  rfl

/-! ### The steps -/

/-- A processor comes to wait only by finding its queue empty. -/
theorem Trans.waiting_next (h : Trans s t a s') (hw : s'.procer q = .waiting) :
    s.procer q = .waiting ∨ s.calls t = none ∧ (s'.queue q).curEvtNum = 0 := by
  have hupd : ∀ {p : ℕ} {pc : ProcerPc}, pc ≠ .waiting → Function.update s.procer p pc q = .waiting →
      s.procer q = .waiting := by
    intro p pc hpc hu
    by_cases hq : q = p
    · subst hq
      rw [Function.update_self] at hu
      exact absurd hu hpc
    · rwa [Function.update_of_ne hq] at hu
  cases h with
  | @wait p ht hc hp hl hm hn =>
    by_cases hq : q = p
    · subst hq
      exact .inr ⟨hc, hn⟩
    · exact .inl (by simpa [Function.update_of_ne hq] using hw)
  | @signal env id arg p ha hc hl =>
    refine .inl ?_
    simp only [State.ret, State.setCall, State.obs, State.condSignal] at hw
    split at hw
    · exact hupd (by simp) hw
    · exact hw
  | post => exact .inl (by simpa using hw)
  | call | table | cbRead | halt => exact .inl hw
  | life ha hc hl =>
    rcases hl.procer_cases q with hp | ⟨-, hp⟩
    · exact .inl (hp ▸ hw)
    · simp [hp] at hw
  | cancelJoin | take | wake | cancelWait | noTable | rdlock | endDispatch | move | compare | callSuber | cancelCb =>
    exact .inl (hupd (by simp) hw)

/-- A post that its queue accepts comes to signal. -/
theorem Trans.stored_of_accept (h : Trans s t a s') {id : EvtOperID abi} {arg : PostArg abi}
    (hc : s.calls t = some (.postEvtSRT id arg (.lock (some q)))) (hacc : s'.accepted q ≠ s.accepted q) :
    s'.Stored t q := by
  cases h with
  | @post env id' arg' q' d place ha hc' =>
    obtain ⟨rfl, rfl, hq⟩ : id = id' ∧ arg = arg' ∧ some q = some q' := by simpa using hc.symm.trans hc'
    obtain rfl := Option.some.inj hq
    exact ⟨id, arg, by simp⟩
  | table ha hc' htab =>
    refine absurd ((acceptedIn_append ..).trans ?_) hacc
    rw [(htab.log q).1, List.append_nil]
  | halt => exact absurd rfl hacc
  | life ha hc' hl =>
    obtain rfl := Option.some.inj (hc.symm.trans hc')
    cases hl
  | call ha hc' | signal ha hc' => simp [hc] at hc'
  | cancelJoin ha ht hc' | wait ht hc' | take ht hc' | wake ht hc' | cancelWait ha ht hc' | noTable ht hc'
  | rdlock ht hc' | endDispatch ht hc' | move ht hc' | compare ht hc' | callSuber ht hc' | cbRead ht hc'
  | cancelCb ha ht hc' => simp [hc] at hc'

/-- A queue that was empty and is not any more was posted to. -/
theorem Trans.stored_next (hL : LiveInv s) (h : Trans s t a s') (h0 : (s.queue q).curEvtNum = 0)
    (hn : (s'.queue q).curEvtNum ≠ 0) : s'.Stored t q := by
  cases h.queueStep hL q with
  | same hi hq => exact absurd (hq ▸ h0) hn
  | init hi hi' hq => exact absurd (by rw [hq]; rfl) hn
  | take hp hi hi' hne => exact absurd h0 hne
  | post hrun hc hi hi' hfull hq ha | pass hrun hc hi hi' hfull hp hq ha => exact h.stored_of_accept hc (by simp [ha])

/-- A thread that comes to signal keeps coming until it signals. -/
theorem Trans.stored_keep (h : Trans s t a s') (hno : ¬ s.Stored t q) (hu : s.Stored u q) : s'.Stored u q := by
  obtain ⟨id, arg, hc⟩ := hu
  have hut : u ≠ t := fun hut => hno ⟨id, arg, hut ▸ hc⟩
  exact ⟨id, arg, (h.calls_ne hut).trans hc⟩

/-- A processor that waits has its queue. -/
theorem LiveInv.of_waiting (hL : LiveInv s) (hw : s.procer q = .waiting) : (s.queues q).Usable :=
  (hL.live q (by simp [hw, ProcerPc.alive])).2

/-- The next step of a thread that comes to signal. -/
theorem next_of_stored (hsig : s.Stored t q) (hh : s.halted = none) (hu : (s.queues q).Usable) (env : Env) :
    next s (t, .run env) = some ((s.condSignal q).ret t (some .success)) := by
  obtain ⟨id, arg, hc⟩ := hsig
  simp [next, hh, hc, State.callStep, State.postEvtSRT, hu.freed, hu.condReady]

/-- The step of a thread that comes to signal wakes the processor. -/
theorem woken_of_stored (hL : LiveInv s) (hsig : s.Stored t q) (hw : s.procer q = .waiting)
    (hn : next s (t, a) = some s') : s'.procer q = .woken := by
  have hh := (next_trans hn).1
  cases a with
  | run env =>
    rw [next_of_stored hsig hh (hL.of_waiting hw), Option.some.injEq] at hn
    rw [← hn]
    simp [State.condSignal, hw]
  | _ =>
    obtain ⟨id, arg, hc⟩ := hsig
    simp [next, hh, hc] at hn

theorem signalled_of_next (hL : LiveInv s) (hsig : s.Stored t q) (hn : next s (t, a) = some s') :
    (s.evtCond q).Signalled (s'.evtCond q) := by
  constructor
  · rintro u ⟨rfl, hw'⟩
    rcases (next_trans hn).2.waiting_next hw' with hw | ⟨hc, -⟩
    · exact ⟨rfl, hw⟩
    · obtain ⟨id, arg, hc'⟩ := hsig
      simp [hc] at hc'
  · rintro ⟨u, rfl, hw⟩
    refine ⟨_, ⟨rfl, hw⟩, fun ⟨_, hw'⟩ => ?_⟩
    rw [woken_of_stored hL hsig hw hn] at hw'
    cases hw'

/-! ### The law -/

/-- **The wait of the processor.**  Every step is one of a program that tests the number of events before it waits, and
signals after it has stored one. -/
theorem evtCond_step (hL : LiveInv s) (hn : next s (t, a) = some s') : (s.evtCond q).Step (s'.evtCond q) := by
  have h := (next_trans hn).2
  by_cases hsig : s.Stored t q
  · exact .signalled (signalled_of_next hL hsig hn)
  by_cases hnum' : (s'.queue q).curEvtNum = 0
  · exact .tested (not_not.mpr hnum')
  by_cases hnum : (s.queue q).curEvtNum = 0
  · exact .raised (h.stored_next hL hnum hnum')
  · refine .quiet ?_ (fun _ => hnum) fun u hu => h.stored_keep hsig hu
    rintro u ⟨rfl, hw⟩
    exact ⟨rfl, (h.waiting_next hw).resolve_right fun he => hnum' he.2⟩

/-- A processor that waits with events before it has a thread that comes to signal. -/
theorem stored_of_waiting (h : Reach ok clients s) (hw : s.procer q = .waiting) (hnum : (s.queue q).curEvtNum ≠ 0) :
    ∃ t, s.Stored t q := by
  have hlaw : (s.evtCond q).NoLostWakeup := CondVar.noLostWakeup_reach (fun s => s.evtCond q)
    (Set.eq_empty_iff_forall_notMem.mpr fun t ht => by simp [State.init, State.evtCond] at ht)
    (fun s _ => evtCond_waiting_subsingleton s q) (fun s s' x hr _ hn => evtCond_step (liveInv_reach hr) hn) h
  exact hlaw ⟨.procer q, rfl, hw⟩ hnum

/-- What is about to happen to the processor that waits for queue `q`. -/
structure WakeUp (s : State abi) (q : ℕ) : Prop where
  /-- With an event before it, another thread has stored one and not signalled yet. -/
  queue : (s.queue q).curEvtNum ≠ 0 → ∃ t, t ≠ .procer q ∧ s.Stored t q
  /-- Such a thread waits for nothing while the process runs, and its next step wakes the processor. -/
  wakes : ∀ t, s.Stored t q → (s.halted = none → ∀ env, (next s (t, .run env)).isSome = true) ∧
    ∀ a s', next s (t, a) = some s' → s'.procer q = .woken

/-- **No wake-up of the processor is lost.**  In every run, a processor that waits while descriptors are queued is about
to be woken. -/
theorem procer_wakeup (h : Reach ok clients s) (hw : s.procer q = .waiting) : WakeUp s q := by
  have hL := liveInv_reach h
  constructor
  · intro hnum
    obtain ⟨t, ht⟩ := stored_of_waiting h hw hnum
    refine ⟨t, ?_, ht⟩
    rintro rfl
    -- the processor calls nothing while it waits
    obtain ⟨id, arg, hc⟩ := ht
    have hcb := hL.inCb q (by simp [hc])
    simp [hw, ProcerPc.isInCb] at hcb
  · intro t ht
    refine ⟨fun hh env => ?_, fun a s' hn => woken_of_stored hL ht hw hn⟩
    rw [next_of_stored ht hh (hL.of_waiting hw)]
    rfl

/-- A descriptor is stored while the processor waits, and not signalled yet. -/
def storedUnsignalled : List (Thread × Act lp64) :=
  startedDefault ++ [(.procer 0, .go)] ++ postOf (defineEvtDesc lp64 evtIDTestKeepAlive)

/-- The processor waits before an event. -/
theorem procer_wakeup_stored : ∃ s : State lp64, (s.queue 0).curEvtNum ≠ 0 ∧ WakeUp s 0 := by
  obtain ⟨s, hr, hs⟩ := reach_of_run (fun _ _ => True) 1 storedUnsignalled
    (fun s : State lp64 => decide (s.procer 0 = .waiting) && (s.queue 0).curEvtNum != 0) (by decide +kernel)
  rw [Bool.and_eq_true, decide_eq_true_eq, bne_iff_ne] at hs
  exact ⟨s, hs.2, procer_wakeup hr hs.1⟩

end PlatIF.Evt
