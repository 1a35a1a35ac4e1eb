import PlatIF.Ioc.WakeUp
import PlatIF.Ioc.Work

/-!
# What is begun comes to an end

In every run with polite callbacks, what the threads have begun can be finished, and is, whatever the order of the steps:
no thread is ever stuck, and nothing goes on forever.  The turns that do not count are those of a post that has to wait
for space, and spurious wake-ups; and the turn of a timed post at a full queue, where the source ends the process, is not
taken.

* `busy_runs` — the process does not end by such a step;
* `exists_busy` — as long as anything is in progress there is one (`Blocked` says what a call may wait for, and each chain
  of waiting ends at a thread that can go on);
* `Settled` — nothing is in progress any more;
* `polite_settles` — the law.
-/

namespace PlatIF.Ioc

variable {abi : Abi} {s s' s₁ : State abi} {t u v : Tid} {a : Act abi} {i g : ℕ} {d : EvtDesc abi}
  {rest : List (Frame abi)} {maxSuberNum : ULong abi} {clients : ℕ}

/-! ### The process goes on -/

/-- A call through a null pointer is made on an async thread, for a slot without a callback. -/
theorem asyncStep_nullCall {pc : AsyncPc abi} (h : s.asyncStep t i g pc a = some s') (h0 : s.halted = none)
    (hh : s'.halted = some .nullCall) : ∃ d, pc = .call d ∧ ¬ (s.suber i).occupied := by
  unfold State.asyncStep at h
  split at h
  · obtain rfl := Option.some.inj h
    simp [h0] at hh
  · simp [consume_halted h, h0] at hh
  · obtain rfl := Option.some.inj h
    simp [h0] at hh
  · simp [consume_halted h, h0] at hh
  · rename_i d _
    obtain rfl := Option.some.inj h
    unfold State.asyncCall at hh
    split at hh
    · rename_i hnull
      exact ⟨d, rfl, not_not.mpr hnull⟩
    · simp [h0] at hh
  · split at h
    · simp at h
    · obtain rfl := Option.some.inj h
      simp [h0] at hh
  · obtain rfl := Option.some.inj h
    unfold State.drainNext at hh
    split at hh <;> simp [h0] at hh
  · obtain rfl := Option.some.inj h
    unfold State.drainResult at hh
    split at hh
    · simp [h0] at hh
    · split at hh <;> simp [h0] at hh
  · simp at h

theorem isNonBlock_of_isTimeout {o : Option Options} (h : isTimeout o = true) : isNonBlock o = false := by
  cases o with
  | none => rfl
  | some o =>
    simp only [isTimeout, Bool.and_eq_true, bne_iff_ne] at h
    simp [isNonBlock, h.2]

theorem postPush_abort {f : PostFrame abi} (x : Suber abi) : (s.postPush t f rest i d x).halted = s.halted ∨
    (s.postPush t f rest i d x).halted = some .abort := by
  unfold State.postPush
  split
  · exact .inl rfl
  · split
    · exact .inl rfl
    · split
      · exact .inr rfl
      · exact .inl rfl

theorem postSection_abort {f : PostFrame abi} {env : Env} (h : s.postSection t f rest i env = some s') :
    s'.halted = s.halted ∨ s'.halted = some .abort := by
  unfold State.postSection at h
  split at h
  · simp at h
  · split at h
    · obtain rfl := Option.some.inj h
      exact postPush_abort _
    · split at h
      · obtain rfl := Option.some.inj h
        exact postPush_abort (s := s.spawn i) _
      · obtain rfl := Option.some.inj h
        exact .inr rfl

/-- A post ends the process by an abort only. -/
theorem postStep_abort {f : PostFrame abi} (h : s.postStep t f rest a = some s') :
    s'.halted = s.halted ∨ s'.halted = some .abort := by
  unfold State.postStep at h
  split at h
  · exact .inl (postLock_halted h)
  · obtain rfl := Option.some.inj h
    exact .inl postLoop_halted
  · exact postSection_abort h
  · split at h
    · simp at h
    · rename_i s₁ hs₁
      obtain rfl := Option.some.inj h
      obtain ⟨b, rfl, -⟩ := (condSignal_woken hs₁).eq
      exact .inl rfl
  · split at h
    · simp at h
    · rename_i s₁ hs₁
      obtain rfl := Option.some.inj h
      obtain ⟨b, rfl, -⟩ := (condSignal_woken hs₁).eq
      exact .inl rfl
  · simp at h

/-- Only an async thread calls through a null pointer. -/
theorem nullCall_cases (hn : next s (t, a) = some s') (hh : s'.halted = some .nullCall) :
    ∃ i g d, s.base t = .async i g (.call d) ∧ ¬ (s.suber i).occupied := by
  have h0 := (next_trans hn).1
  have hne : s'.halted ≠ s.halted := by simp [hh, h0]
  have hna : ¬ s'.halted = some .abort := by simp [hh]
  simp only [next, State.step, h0, Option.isSome_none, Bool.false_eq_true, if_false] at hn
  have huser : s.userStep t a ≠ some s' := fun h => by
    cases a <;> simp only [State.userStep, reduceCtorEq, Option.some.injEq] at h
    exact hne (h ▸ rfl)
  split at hn
  · split at hn
    · simp at hn
    · exact absurd hn huser
    · rename_i i g pc hb
      obtain ⟨d, rfl, ho⟩ := asyncStep_nullCall hn h0 hh
      exact ⟨i, g, d, hb, ho⟩
  · split at hn
    · exact absurd (cbReturn_halted hn) hne
    · exact absurd (cbWrite_halted hn) hne
    · exact absurd hn huser
  · cases a with
    | run env =>
      simp only [State.subStep] at hn
      split at hn <;> simp only [reduceCtorEq, Option.some.injEq] at hn <;> subst hn
      · exact absurd rfl hna
      · exact absurd rfl hne
      · exact absurd rfl hne
    | _ => simp [State.subStep] at hn
  · exact absurd (unsubStep_halted hn) hne
  · exact absurd (postStep_abort hn) (by simp [hne, hna])

/-- No step that counts ends the process. -/
theorem busy_runs (hr : Reach polite maxSuberNum clients s) (hok : busy s (t, a) = true) (hn : next s (t, a) = some s') :
    s'.halted = none := by
  have h0 := (next_trans hn).1
  by_contra hne
  obtain ⟨h, hh⟩ := Option.ne_none_iff_exists'.mp hne
  cases h with
  | abort =>
    cases abort_cases hn hh with
    | resource he =>
      simp only [busy, Bool.and_eq_true] at hok
      simp [hok.1.1.1, hok.1.2] at he
    | timed hf hp ho hroom =>
      -- only a step that runs on comes to a push, and it counts only when there is room
      cases a with
      | run env =>
        simp only [busy, Bool.and_eq_true, Bool.not_eq_true'] at hok
        have := State.waitsForSpace_eq_false hok.2 hf hp hroom
        simp [isNonBlock_of_isTimeout ho] at this
      | _ => simp [next, State.step, h0, hf, State.postStep, hp] at hn
    | mayDrop hb => simpa [hb, Base.entry] using entry_of_polite hr h0 t
  | nullCall =>
    obtain ⟨i, g, d, hb, ho⟩ := nullCall_cases hn hh
    have hx := (owned_reach (noSelfUnsub_of_polite hr)).2 t i ⟨g, _, hb⟩
    exact ho ((slotInv_reach hr).thread i t hx).occupied

/-! ### Who can go on -/

/-- The thread can take a step that counts. -/
def State.CanGo (s : State abi) (t : Tid) : Prop := ∃ a s', busy s (t, a) = true ∧ next s (t, a) = some s'

/-- What a call may have to wait for: the context mutex, space in a queue, or the end of a thread. -/
inductive Blocked (s : State abi) (t : Tid) : Prop
  | mutex (hm : RecMutex.tryLock s.ctx.mutex t = none)
      (hno : ∀ f rest, s.frames t = .post f :: rest → isNonBlock f.pOptions = false)
  | space {f : PostFrame abi} {rest : List (Frame abi)} {i : ℕ} (hf : s.frames t = .post f :: rest)
      (hp : f.pc = .push i) (hr : (s.suber i).evtQueue.hasRoom = false) (ho : isNonBlock f.pOptions = false)
  | join {f : UnsubFrame} {rest : List (Frame abi)} {i : ℕ} {u : Tid} (hf : s.frames t = .unsub f :: rest)
      (hp : f.pc = .join i) (hx : (s.suber i).asyncThreadID = some u) (hb : s.base u ≠ .gone)

theorem next_sub {f : SubFrame} (hh : s.halted = none) (hf : s.frames t = .sub f :: rest) :
    next s (t, a) = s.subStep t f rest a := by
  simp only [next, State.step, hh, hf]
  rfl

theorem next_unsub {f : UnsubFrame} (hh : s.halted = none) (hf : s.frames t = .unsub f :: rest) :
    next s (t, a) = s.unsubStep t f rest a := by
  simp only [next, State.step, hh, hf]
  rfl

theorem next_post {f : PostFrame abi} (hh : s.halted = none) (hf : s.frames t = .post f :: rest) :
    next s (t, a) = s.postStep t f rest a := by
  simp only [next, State.step, hh, hf]
  rfl

/-- A thread that is not in a post with a full queue before it can run on, if it can at all. -/
theorem canGo_of_go (hw : s.waitsForSpace t = false) (h : ∃ s', next s (t, .go) = some s') : s.CanGo t := by
  obtain ⟨s', h⟩ := h
  exact ⟨.go, s', by simp [busy, hw], h⟩

theorem canGo_signal (h : ∃ woken s', next s (t, .signal woken) = some s') : s.CanGo t := by
  obtain ⟨woken, s', h⟩ := h
  exact ⟨.signal woken, s', rfl, h⟩

/-- A callback can return. -/
theorem canGo_cb (hh : s.halted = none) (hS : Stack (s.base t) (s.frames t)) {c : CbFrame abi}
    (hf : s.frames t = .cb c :: rest) : s.CanGo t := by
  refine ⟨.ret .success, ?_⟩
  rw [hf] at hS
  have hn : next s (t, .ret .success) = s.cbReturn t c rest .success := by
    simp only [next, State.step, hh, hf]
    rfl
  rw [hn]
  cases hS.of_cb with
  | async hb _ =>
    simp only [State.cbReturn, hb]
    exact ⟨_, rfl, rfl⟩
  | sync hp _ _ _ | replay hp _ _ _ _ _ =>
    simp only [State.cbReturn, hp]
    exact ⟨_, rfl, rfl⟩

theorem subEVT_blocked {c : Ctx abi} {args : EvtSubArgs} {env : Env} (h : subEVT c t args env = .blocked) :
    RecMutex.tryLock c.mutex t = none := by
  unfold subEVT at h
  split at h
  · assumption
  · split at h
    · simp at h
    · split at h
      · simp at h
      · split at h
        · simp at h
        · split at h <;> simp at h

theorem canGo_sub (hh : s.halted = none) {f : SubFrame} (hf : s.frames t = .sub f :: rest) : s.CanGo t ∨ Blocked s t := by
  cases hc : subEVT s.ctx t f.pEvtSubArgs {} with
  | blocked => exact .inr (.mutex (subEVT_blocked hc) (by simp [hf]))
  | abort =>
    have := subEVT_abort hc
    simp at this
  | ret r c k =>
    refine .inl (canGo_of_go (by simp [State.waitsForSpace, hf]) ?_)
    rw [next_sub hh hf, State.subStep, hc]
    cases k <;> exact ⟨_, rfl⟩

theorem canGo_unsub (hh : s.halted = none) (hM : MutexFree s) {f : UnsubFrame} (hf : s.frames t = .unsub f :: rest) :
    s.CanGo t ∨ Blocked s t := by
  have hw : s.waitsForSpace t = false := by simp [State.waitsForSpace, hf]
  have hn := fun a => next_unsub (a := a) hh hf
  cases hp : f.pc with
  | lock =>
    cases hm : RecMutex.tryLock s.ctx.mutex t with
    | none => exact .inr (.mutex hm (by simp [hf]))
    | some m =>
      refine .inl (canGo_of_go hw ?_)
      rw [hn]
      simp only [State.unsubStep, hp, hm]
      split <;> exact ⟨_, rfl⟩
  | scan i =>
    refine .inl (canGo_of_go hw ?_)
    rw [hn]
    simp only [State.unsubStep, hp]
    exact ⟨_, rfl⟩
  | stop i =>
    refine .inl (canGo_of_go hw ?_)
    rw [hn]
    simp only [State.unsubStep, hp, Suber.lock_of_mutex (hM hh i)]
    exact ⟨_, rfl⟩
  | signal i =>
    obtain ⟨woken, s₁, hs⟩ := s.exists_condSignal i
    refine .inl (canGo_signal ⟨woken, ?_⟩)
    rw [hn]
    simp only [State.unsubStep, hp, hs]
    exact ⟨_, rfl⟩
  | join i =>
    by_cases hj : s.joinReady t i = true
    · refine .inl (canGo_of_go hw ?_)
      rw [hn]
      simp only [State.unsubStep, hp, hj, if_true]
      exact ⟨_, rfl⟩
    · cases hx : (s.suber i).asyncThreadID with
      | none => simp [State.joinReady, hx] at hj
      | some u =>
        simp only [State.joinReady, hx, Bool.or_eq_true, beq_iff_eq, decide_eq_true_eq, not_or] at hj
        exact .inr (.join hf hp hx hj.2)

theorem canGo_post (hh : s.halted = none) (hM : MutexFree s) (hS : Stack (s.base t) (s.frames t)) {f : PostFrame abi}
    (hf : s.frames t = .post f :: rest) : s.CanGo t ∨ Blocked s t := by
  have hn := fun a => next_post (a := a) hh hf
  have hw : (∀ i, f.pc = .push i → (s.suber i).evtQueue.hasRoom = true ∨ isNonBlock f.pOptions = true) →
      s.waitsForSpace t = false := fun h => by
    simp only [State.waitsForSpace, hf]
    split
    · rename_i i hp
      rcases h i hp with h | h <;> simp [h]
    · rfl
  cases hp : f.pc with
  | lock =>
    cases hm : RecMutex.tryLock s.ctx.mutex t with
    | some m =>
      refine .inl (canGo_of_go (hw (by simp [hp])) ?_)
      rw [hn]
      simp only [State.postStep, hp, State.postLock, hm]
      split <;> exact ⟨_, rfl⟩
    | none =>
      by_cases ho : isNonBlock f.pOptions = true
      · -- it returns at once
        refine .inl (canGo_of_go (hw (by simp [hp])) ?_)
        rw [hn]
        simp only [State.postStep, hp, State.postLock, hm, ho, if_true]
        exact ⟨_, rfl⟩
      · refine .inr (.mutex hm fun f' rest' hf' => ?_)
        obtain ⟨rfl, -⟩ : f = f' ∧ _ := by simpa using hf.symm.trans hf'
        simpa using ho
  | loop i =>
    refine .inl (canGo_of_go (hw (by simp [hp])) ?_)
    rw [hn]
    simp only [State.postStep, hp]
    exact ⟨_, rfl⟩
  | inCb i =>
    rw [hf] at hS
    exact absurd hp (hS.of_post.1 i)
  | push i =>
    by_cases hroom : (s.suber i).evtQueue.hasRoom = true ∨ isNonBlock f.pOptions = true
    · refine .inl (canGo_of_go (hw fun j hj => PostPc.push.inj (hp.symm.trans hj) ▸ hroom) ?_)
      rw [hn]
      simp only [State.postStep, hp, State.postSection, Suber.lock_of_mutex (hM hh i)]
      split <;> exact ⟨_, rfl⟩
    · simp only [not_or, Bool.not_eq_true] at hroom
      exact .inr (.space hf hp hroom.1 hroom.2)
  | signal i | retry i =>
    obtain ⟨woken, s₁, hs⟩ := s.exists_condSignal i
    refine .inl (canGo_signal ⟨woken, ?_⟩)
    rw [hn]
    simp only [State.postStep, hp, hs]
    exact ⟨_, rfl⟩

/-- **Calls in progress.**  A thread with anything in progress can go on, or waits for one of three things. -/
theorem canGo_or_blocked (hh : s.halted = none) (hM : MutexFree s) (hT : ThreadInv s) (hne : s.frames t ≠ []) :
    s.CanGo t ∨ Blocked s t := by
  have hS := hT.stack t
  cases hf : s.frames t with
  | nil => exact absurd hf hne
  | cons f rest =>
    cases f with
    | sub f => exact canGo_sub hh hf
    | unsub f => exact canGo_unsub hh hM hf
    | post f => exact canGo_post hh hM hS hf
    | cb c => exact .inl (canGo_cb hh hS hf)

/-- An async thread with nothing in progress can go on, or waits on its condition. -/
theorem canGo_async (hh : s.halted = none) (hM : MutexFree s) (hT : ThreadInv s) (he : (s.base t).entry = none) {pc : AsyncPc abi}
    (hf : s.frames t = []) (hb : s.base t = .async i g pc) : s.CanGo t ∨ pc = .waiting := by
  have hw : s.waitsForSpace t = false := by simp [State.waitsForSpace, hf]
  have hn : next s (t, .go) = s.asyncStep t i g pc .go := by
    simp only [next, State.step, hh, hf, hb]
    rfl
  have hS := hT.stack t
  rw [hf, hb] at hS
  rw [hb] at he
  have hgo : (∃ s', s.asyncStep t i g pc .go = some s') → s.CanGo t ∨ pc = .waiting := fun h =>
    .inl (canGo_of_go hw (hn ▸ h))
  cases pc with
  | waiting => exact .inr rfl
  | start | call | drainChk => exact hgo ⟨_, rfl⟩
  | top | woken => exact hgo ⟨_, consume_of_mutex (hM hh i)⟩
  | drain =>
    refine hgo ?_
    simp only [State.asyncStep, Suber.lock_of_mutex (hM hh i)]
    exact ⟨_, rfl⟩
  | inCb =>
    rcases hS.of_nil with h | h | ⟨_, _, _, h, hidle⟩
    · cases h
    · cases h
    · cases h
      exact absurd hidle id
  | replay | drained => simp [Base.entry] at he

/-! ### Somebody can go on -/

/-- Nothing is in progress: no call, no callback, and every async thread waits for its next event. -/
structure Settled (s : State abi) : Prop where
  calls : ∀ t, s.frames t = []
  threads : ∀ u i g pc, s.base u = .async i g pc → pc = .waiting

/-- Somebody comes to signal to a thread that waits with an event or the exit flag before it. -/
theorem signaller_of_waiting (h : Reach (fun s x => noSelfUnsub s x = true) maxSuberNum clients s)
    (hb : s.base u = .async i g .waiting)
    (hc : (s.suber i).evtQueue.isEmpty = false ∨ (s.suber i).shouldExitASyncThread = true) :
    ∃ w, s.Pushed w i ∨ s.FlagSet w i := by
  have hu : s.waitsOn u i = true := State.waitsOn_iff.mpr ⟨g, hb⟩
  have hone : ∀ s, Reach (fun s x => noSelfUnsub s x = true) maxSuberNum clients s →
      {u | s.waitsOn u i = true}.Subsingleton := fun s h => (owned_reach h).2.waiting_subsingleton i
  rcases hc with hq | hflag
  · have hlaw := CondVar.noLostWakeup_reach (fun s => s.evtCond i) State.init_waiting hone
      (fun s s' x hr _ hn => evtCond_step (threadInv_reach hr) (allocInv_reach hr) hn) h
    obtain ⟨w, hw⟩ := hlaw ⟨u, hu⟩ hq
    exact ⟨w, .inl hw⟩
  · have hlaw := CondVar.noLostWakeup_reach (fun s => s.exitCond i) State.init_waiting hone
      (fun s s' x hr _ hn => exitCond_step (threadInv_reach hr) (allocInv_reach hr) hn) h
    obtain ⟨w, hw⟩ := hlaw ⟨u, hu⟩ hflag
    exact ⟨w, .inr hw⟩

/-- A polite callback never blocks its thread. -/
theorem canGo_of_isAsync (hP : PoliteInv s) (hh : s.halted = none) (hM : MutexFree s) (hT : ThreadInv s)
    (hb : (s.base t).isAsync = true) (hne : s.frames t ≠ []) : s.CanGo t := by
  cases hf : s.frames t with
  | nil => exact absurd hf hne
  | cons f rest =>
    cases f with
    | sub f => simp [(hP.of_sub hf).1] at hb
    | unsub f => simp [(hP.of_unsub hf).1] at hb
    | cb c => exact canGo_cb hh (hT.stack t) hf
    | post f =>
      have ho := hP.of_post hf hb
      refine (canGo_post hh hM (hT.stack t) hf).resolve_right fun hblocked => ?_
      cases hblocked with
      | mutex _ hno => simp [hno f rest hf] at ho
      | space hf' _ _ ho' => simp [hP.of_post hf' hb] at ho'
      | join hf' => simp [(hP.of_unsub hf').1] at hb

/-- Where nobody can go on, the async threads wait. -/
theorem waiting_of_stuck (hr : Reach polite maxSuberNum clients s) (hh : s.halted = none) (hno : ∀ t, ¬ s.CanGo t)
    {pc : AsyncPc abi} (hb : s.base u = .async i g pc) : pc = .waiting := by
  have hT := threadInv_reach hr
  have hM := mutexFree_reach hr
  have hf : s.frames u = [] := by
    by_contra hne
    exact hno u (canGo_of_isAsync (politeInv_reach hr) hh hM hT (by rw [hb]; rfl) hne)
  exact (canGo_async hh hM hT (entry_of_polite hr hh u) hf hb).resolve_left (hno u)

theorem canGo_of_signal (hh : s.halted = none) (hw : s.Pushed t i ∨ s.FlagSet t i) : s.CanGo t := by
  obtain ⟨a, s', hn⟩ := exists_next_signal hw hh
  refine ⟨a, s', ?_, hn⟩
  rcases hw with ⟨f, rest, hf, hp⟩ | ⟨f, rest, hf, hp⟩
  · cases a with
    | signal woken => rfl
    | _ => simp [next, State.step, hh, hf, State.postStep, hp] at hn
  · cases a with
    | signal woken => rfl
    | _ => simp [next, State.step, hh, hf, State.unsubStep, hp] at hn

/-- Where nobody can go on, the thread of a slot has ended, or has neither an event nor the exit flag before it. -/
theorem thread_of_stuck (hr : Reach polite maxSuberNum clients s) (hh : s.halted = none) (hno : ∀ t, ¬ s.CanGo t)
    (hx : (s.suber i).asyncThreadID = some u) : s.base u = .gone ∨
      (s.suber i).evtQueue.isEmpty = true ∧ (s.suber i).shouldExitASyncThread = false := by
  rcases ((slotInv_reach hr).thread i u hx).base with hb | ⟨g, pc, hb⟩
  · exact .inl hb
  · obtain rfl := waiting_of_stuck hr hh hno hb
    right
    by_contra hc
    have hsig : (s.suber i).evtQueue.isEmpty = false ∨ (s.suber i).shouldExitASyncThread = true := by
      cases hq : (s.suber i).evtQueue.isEmpty <;> simp_all
    obtain ⟨w, hw⟩ := signaller_of_waiting (noSelfUnsub_of_polite hr) hb hsig
    exact hno w (canGo_of_signal hh hw)

theorem flowInv_of_polite (hr : Reach polite maxSuberNum clients s) : FlowInv s :=
  flowInv_reach (noSelfUnsub_of_polite hr)

/-- Where nobody can go on, all queues are empty. -/
theorem queue_of_stuck (hr : Reach polite maxSuberNum clients s) (hh : s.halted = none) (hno : ∀ t, ¬ s.CanGo t) (i : ℕ) :
    (s.suber i).evtQueue.isEmpty = true := by
  cases hx : (s.suber i).asyncThreadID with
  | none => exact (WrapRing.isEmpty_iff_contents _).mpr ((flowInv_of_polite hr).idle i hx)
  | some u =>
    rcases thread_of_stuck hr hh hno hx with hb | ⟨hq, -⟩
    · exact (goneInv_reach hr i u hx hb).2
    · exact hq

/-- Where nobody can go on, no call waits for space or for the end of a thread. -/
theorem mutex_of_stuck (hr : Reach polite maxSuberNum clients s) (hh : s.halted = none) (hno : ∀ t, ¬ s.CanGo t)
    (hne : s.frames t ≠ []) : RecMutex.tryLock s.ctx.mutex t = none := by
  have hT := threadInv_reach hr
  cases (canGo_or_blocked hh (mutexFree_reach hr) hT hne).resolve_left (hno t) with
  | mutex hm => exact hm
  | @space f rest i hf hp hr' ho =>
    have hq := (WrapRing.isEmpty_iff_pending _).mp (queue_of_stuck hr hh hno i)
    have : (s.suber i).evtQueue.hasRoom = true := by
      rw [WrapRing.hasRoom_iff, hq]
      decide
    simp [this] at hr'
  | @join f rest i u hf hp hx hb =>
    have hflag := ((holderInv_reach hr).unsub t f rest i hf (by rw [hp]; rfl)).flag (by rw [hp]; rfl)
    rcases thread_of_stuck hr hh hno hx with hb' | ⟨-, hflag'⟩
    · exact absurd hb' hb
    · simp [hflag] at hflag'

/-- **No deadlock.**  As long as anything is in progress somebody can go on. -/
theorem exists_canGo (hr : Reach polite maxSuberNum clients s) (hh : s.halted = none) (hs : ¬ Settled s) :
    ∃ t, s.CanGo t := by
  by_contra hstuck
  have hno : ∀ t, ¬ s.CanGo t := not_exists.mp hstuck
  have hheld := heldInv_reach hr
  refine hs ⟨fun t => ?_, fun u i g pc hb => waiting_of_stuck hr hh hno hb⟩
  by_contra hne
  -- who is kept from the mutex is kept by somebody who is kept from it in turn
  obtain ⟨v, -, hv⟩ := RecMutex.tryLock_eq_none.mp (mutex_of_stuck hr hh hno hne)
  obtain ⟨w, hwv, hw⟩ := RecMutex.tryLock_eq_none.mp (mutex_of_stuck hr hh hno (hheld.frames_ne_nil hv))
  exact hwv (RecMutex.held_unique hw hv)

/-! ### At rest -/

/-- Nobody can go on when nothing is in progress. -/
theorem Settled.not_canGo (h : Settled s) (t : Tid) : ¬ s.CanGo t := by
  rintro ⟨a, s', hok, hn⟩
  have hh := (next_trans hn).1
  simp only [next, State.step, hh, h.calls t, Option.isSome_none, Bool.false_eq_true, if_false] at hn
  split at hn
  · simp at hn
  · cases a <;> simp [busy, State.userStep] at hok hn
  · rename_i i g pc hb
    obtain rfl := h.threads t i g pc hb
    cases a <;> simp [busy, State.asyncStep] at hok hn

/-- What is left when nothing is in progress. -/
structure AtRest (s : State abi) : Prop where
  mutex : s.ctx.mutex = none
  queues : ∀ i, (s.suber i).evtQueue.contents = [] ∧ (s.suber i).evtCached.contents = []
  /-- The thread of every slot waits for it, and there are no others. -/
  threads : ∀ u i, (s.suber i).asyncThreadID = some u ↔ ∃ g, s.base u = .async i g .waiting
  count : s.ctx.curSuberNum.toNat = s.ctx.occupiedNum
  /-- What was ever accepted for a subscription has been delivered to it. -/
  delivered : ∀ g, accepted g s.log = delivered g s.log

theorem mutex_eq_none {m : RecMutex Tid} (h : ∀ t, RecMutex.held m t = 0) : m = none := by
  cases m with
  | none => rfl
  | some x =>
    have := h x.1
    simp [RecMutex.held] at this

theorem Settled.inHand (h : Settled s) (i : ℕ) : s.inHand i = [] := by
  cases hx : (s.suber i).asyncThreadID with
  | none => exact State.inHand_of_none hx
  | some u =>
    rw [State.inHand_of_some hx]
    cases hb : s.base u with
    | async j g pc =>
      obtain rfl := h.threads u j g pc hb
      rfl
    | _ => rfl

theorem Settled.atRest (h : Settled s) (hr : Reach polite maxSuberNum clients s) (hh : s.halted = none) : AtRest s := by
  have hno := h.not_canGo
  have hF := flowInv_of_polite hr
  have hqueue : ∀ i, (s.suber i).evtQueue.contents = [] := fun i =>
    (WrapRing.isEmpty_iff_contents _).mp (queue_of_stuck hr hh hno i)
  constructor
  case mutex =>
    refine mutex_eq_none fun t => (heldInv_reach hr t).trans ?_
    rw [h.calls t, holdCount_nil]
  case queues => exact fun i => ⟨hqueue i, uncached_reach hr i⟩
  case threads =>
    intro u i
    constructor
    · intro hx
      have hI := (slotInv_reach hr).thread i u hx
      rcases hI.base with hb | ⟨g, pc, hb⟩
      · -- a thread that has ended is being joined
        obtain ⟨w, f, rest, hf, -⟩ := flagInv_reach hr i (goneInv_reach hr i u hx hb).1 hI.occupied
        simp [h.calls w] at hf
      · obtain rfl := h.threads u i g pc hb
        exact ⟨g, hb⟩
    · rintro ⟨g, hb⟩
      exact (owned_reach (noSelfUnsub_of_polite hr)).2 u i ⟨g, _, hb⟩
  case count =>
    refine (countInv_reach (callsCount_of_polite hr)).count.resolve_left ?_
    rintro ⟨t, f, rest, hf, -⟩
    simp [h.calls t] at hf
  case delivered =>
    intro g
    by_cases hg : ∃ i, s.sid i = g
    · obtain ⟨i, rfl⟩ := hg
      have hc := hF.channel i
      rw [h.inHand i, hqueue i] at hc
      exact hc.all_delivered
    · exact hF.old g (not_exists.mp hg)

/-- What happens after a state when user code makes no further calls, its callbacks do nothing but return, every resource
is granted, and no timed post takes its turn at a full queue. -/
structure Settles (s : State abi) : Prop where
  /-- A run is not longer than the work at its start. -/
  bounded : ∀ acts s', Runs.runUnder next (fun s x => busy s x = true) acts s = some s' → acts.length ≤ s.work
  /-- It never ends before everything is done. -/
  goes : ∀ s', Runs.ReachUnder next (fun s x => busy s x = true) s s' → s'.halted = none ∧
    (¬ Settled s' → ∃ x s'', busy s' x = true ∧ next s' x = some s'')
  ends : ∃ s', Runs.ReachUnder next (fun s x => busy s x = true) s s' ∧ Settled s'
  rest : ∀ s', Runs.ReachUnder next (fun s x => busy s x = true) s s' → Settled s' → AtRest s'

theorem polite_drains (maxSuberNum : ULong abi) (clients : ℕ) :
    Runs.Drains next (fun (s : State abi) x => busy s x = true)
      (fun s => Reach polite maxSuberNum clients s ∧ s.halted = none) Settled State.work where
  step s s' x hI hok hn := by
    have hh := busy_runs hI.1 hok hn
    exact ⟨⟨hI.1.tail x (polite_of_busy hok) hn, hh⟩, work_lt hI.1 hok hn hh⟩
  go s hI hs := by
    obtain ⟨t, a, s', hok, hn⟩ := exists_canGo hI.1 hI.2 hs
    exact ⟨(t, a), s', hok, hn⟩

/-- **What is begun comes to an end.**  From every state of a run with polite callbacks, whatever the order of the `busy`
steps, everything in progress is done after a bounded number of them; then all calls have returned, the context mutex is
free, and every event that was accepted for a subscription has been delivered to it. -/
theorem polite_settles (hr : Reach polite maxSuberNum clients s) (hh : s.halted = none) : Settles s := by
  have hD := polite_drains maxSuberNum clients
  have hI : Reach polite maxSuberNum clients s ∧ s.halted = none := ⟨hr, hh⟩
  constructor
  case bounded =>
    intro acts s' hrun
    have := hD.length_le hI hrun
    omega
  case goes =>
    intro s' hs'
    have hI' := hD.invariant hI hs'
    exact ⟨hI'.2, hD.go s' hI'⟩
  case ends => exact hD.exists_rest hI
  case rest =>
    intro s' hs' hrest
    have hI' := hD.invariant hI hs'
    exact hrest.atRest hI'.1 hI'.2

/-- The callback on thread `2` posts to its own subscription, which thread `1` is about to end; thread `0` comes to post
as well. -/
def threeInProgress : List (Tid × Act lp64) :=
  [(0, .call (.subEVT ⟨1, 1, some [7]⟩)), (0, .go)] ++ clientPost 7 0 ++ [(2, .go), (2, .go), (2, .go),
    (1, .call (.unsubEVT (some ⟨1, 1⟩))), (1, .go), (1, .go), (1, .go), (1, .signal none),
    (2, .call (.postEVT (.ofID lp64 7) (some optNonBlock))), (0, .call (.postEVT (.ofID lp64 7) none))]

/-- A call waits for the end of a thread, another one for the context mutex, and both come to their end. -/
theorem polite_settles_join : ∃ s : State lp64, (next s (0, .go)).isNone = true ∧ (next s (1, .go)).isNone = true ∧
    Settles s := by
  obtain ⟨s, hr, hs⟩ := reach_of_run polite (1 : ULong lp64) 2 threeInProgress
    (fun s => (next s (0, .go)).isNone && (next s (1, .go)).isNone && s.halted.isNone) (by decide +kernel)
  simp only [Bool.and_eq_true, Option.isNone_iff_eq_none (o := s.halted)] at hs
  exact ⟨s, hs.1.1, hs.1.2, polite_settles hr hs.2⟩

end PlatIF.Ioc
