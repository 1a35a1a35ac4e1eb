import PlatIF.Ioc.Transitions

/-!
# Inversion of the step function

`step_trans` : a step is one of the transitions.  It is proved function by function, as the step function is
written; every invariant of the system is a case analysis of `Trans`, by `Reach.induction`, and does not
unfold `step`.
-/

namespace PlatIF.Ioc

variable {abi : Abi} {s s' s₁ : State abi} {t : Tid} {a : Act abi} {rest : List (Frame abi)} {i : ℕ}

theorem Suber.lock_eq_some {x y : Suber abi} (h : x.lock t = some y) :
    x.mutex = none ∧ y = { x with mutex := some t } := by
  unfold Suber.lock at h
  split at h
  · rename_i hx
    exact ⟨hx, (Option.some.inj h).symm⟩
  · simp at h

theorem Suber.lock_of_mutex {x : Suber abi} (h : x.mutex = none) : x.lock t = some { x with mutex := some t } := by
  unfold Suber.lock
  rw [h]

/-- What a subscriber section writes back, when it changes nothing but the mutex. -/
theorem Suber.unlock_of_mutex {x : Suber abi} (h : x.mutex = none) :
    Suber.unlock { x with mutex := some t } = x := by
  cases x
  simp_all [Suber.unlock]

theorem State.setSuber_self (s : State abi) (i : ℕ) : s.setSuber i (s.suber i) = s := by
  simp

theorem condSignal_woken {woken : Option Tid} (h : s.condSignal i woken = some s₁) :
    s.Woken i s₁ := by
  unfold State.condSignal at h
  split at h
  · rename_i u
    split at h
    · rename_i j g hb
      split at h
      · rename_i hj
        subst hj
        exact .inr ⟨u, g, hb, (Option.some.inj h).symm⟩
      · simp at h
    · simp at h
  · split at h
    · simp at h
    · exact .inl (Option.some.inj h).symm

/-- Some thread that waits on the slot is woken, if there is one. -/
theorem State.exists_condSignal (s : State abi) (i : ℕ) : ∃ woken s₁, s.condSignal i woken = some s₁ := by
  by_cases hw : (List.range s.nextTid).any (fun u => s.waitsOn u i) = true
  · obtain ⟨u, -, hu⟩ := List.any_eq_true.mp hw
    refine ⟨some u, ?_⟩
    unfold State.waitsOn at hu
    split at hu
    · rename_i hb
      exact ⟨_, by simp only [State.condSignal, hb, if_pos (beq_iff_eq.mp hu)]; rfl⟩
    · simp at hu
  · exact ⟨none, s, by simp only [State.condSignal, if_neg hw]⟩

theorem sub_trans {f : SubFrame} (hf : s.frames t = .sub f :: rest)
    (h : s.subStep t f rest a = some s') : Trans s t a s' := by
  cases a with
  | run env =>
    simp only [State.subStep, subEVT] at h
    cases hm : RecMutex.tryLock s.ctx.mutex t with
    | none => simp [hm] at h
    | some m =>
      simp only [hm, RecMutex.unlock_tryLock hm] at h
      by_cases hc : s.ctx.curSuberNum ≥ s.ctx.maxSuberNum
      · rw [if_pos hc] at h
        obtain rfl := Option.some.inj h
        exact .subFull hf hm hc
      rw [if_neg hc] at h
      by_cases hal : (!s.ctx.isAlloced && !env.calloc) = true
      · rw [if_pos hal] at h
        obtain rfl := Option.some.inj h
        exact .halt _
      rw [if_neg hal] at h
      cases hi : s.ctx.allocSubers.freeSuberIdx with
      | none =>
        cases hm' : RecMutex.tryLock m t with
        | none =>
          obtain ⟨u, hne, hpos⟩ := RecMutex.tryLock_eq_none.mp hm'
          exact absurd (RecMutex.held_unique hpos (RecMutex.held_of_tryLock_pos hm)) hne
        | some m' =>
          simp only [hi, hm', Option.getD_some, Option.some.injEq] at h
          rw [Ctx.allocSubers_eq] at h
          subst h
          exact .subNoSlot hf hm hm' hc hi
      | some i =>
        have key : Trans s t (.run env) _ := .subFill hf hm hc hi
        rw [State.subFilled] at key
        cases hml : env.malloc <;> rw [hml] at key <;>
        · simp only [hi, hml, if_true, if_false, Bool.false_eq_true, Option.some.injEq] at h
          rw [Ctx.allocSubers_eq] at h
          subst h
          exact key
  | _ => simp [State.subStep] at h

/-- The loop body after the thread of slot `i` is known to be stopped: `unsubFree`, seen from the state. -/
theorem unsubFree_trans {f : UnsubFrame} {env : Env} {c : Ctx abi}
    (hf : s.frames t = .unsub f :: rest) (hs : s.slotStopped t f i)
    (hc : c = s.ctx.setSuber i { s.suber i with asyncThreadID := none }) :
    Trans s t (.run env) (s.unsubNext t f rest i (unsubFree c t f.pEvtUnsubArgs i)) := by
  subst hc
  cases hn : f.pEvtUnsubArgs with
  | none =>
    cases hids : (s.suber i).args.pEvtIDs with
    | none =>
      have key : Trans s t (.run env) _ := .unsubKeepNext hf hs hn hids
      simpa [unsubFree, hids, State.unsubNext, State.noteRemoved, Suber.occupied] using key
    | some ids =>
      have key : Trans s t (.run env) _ := .unsubFreeNext hf hs hn (by simp [hids])
      by_cases ho : (s.suber i).args.cbProcEvtF = NULL <;>
        simpa [unsubFree, hids, State.unsubNext, State.noteRemoved, Suber.freed, Suber.clearArgs,
          Suber.occupied, ho] using key
  | some k =>
    have key : Trans s t (.run env) _ := .unsubFreeDone hf hs hn
    by_cases ho : (s.suber i).args.cbProcEvtF = NULL <;>
      simpa [unsubFree, State.unsubNext, State.noteRemoved, Suber.freed, Suber.clearArgs,
        Suber.occupied, ho] using key

theorem unsubVisit_picked {f : UnsubFrame} (hi : i < s.ctx.maxSuberNum.toNat)
    (hk : f.picks (s.suber i)) :
    unsubVisit s.ctx t f.pEvtUnsubArgs i =
      if (s.suber i).asyncThreadID.isSome then .stop else unsubFree s.ctx t f.pEvtUnsubArgs i := by
  unfold unsubVisit
  rw [if_pos hi]
  cases hn : f.pEvtUnsubArgs with
  | none => rfl
  | some k =>
    simp only [UnsubFrame.picks, hn] at hk
    simp only [if_pos hk]

theorem unsubVisit_skipped {f : UnsubFrame} (hi : i < s.ctx.maxSuberNum.toNat)
    (hk : ¬ f.picks (s.suber i)) : unsubVisit s.ctx t f.pEvtUnsubArgs i = .next s.ctx := by
  unfold unsubVisit
  rw [if_pos hi]
  cases hn : f.pEvtUnsubArgs with
  | none => simp [UnsubFrame.picks, hn] at hk
  | some k =>
    simp only [UnsubFrame.picks, hn] at hk
    simp only [if_neg hk]

theorem unsub_trans {f : UnsubFrame} (hf : s.frames t = .unsub f :: rest)
    (h : s.unsubStep t f rest a = some s') : Trans s t a s' := by
  unfold State.unsubStep at h
  split at h
  · rename_i hp
    cases hm : RecMutex.tryLock s.ctx.mutex t with
    | none => simp [hm] at h
    | some m =>
      simp only [hm] at h
      split at h
      · rename_i ha
        obtain rfl := Option.some.inj h
        exact .unsubLock hf hp hm ha
      · rename_i ha
        rw [RecMutex.unlock_tryLock hm] at h
        obtain rfl := Option.some.inj h
        exact .unsubNotFound hf hp hm (by simpa using ha)
  · rename_i i _ hp
    obtain rfl := Option.some.inj h
    by_cases hi : i < s.ctx.maxSuberNum.toNat
    · by_cases hk : f.picks (s.suber i)
      · rw [unsubVisit_picked hi hk]
        cases hu : (s.suber i).asyncThreadID with
        | some u => exact .unsubStop hf hp hi hk hu
        | none => exact unsubFree_trans hf (.inl ⟨hp, hi, hk, hu⟩) (by simp [← hu])
      · rw [unsubVisit_skipped hi hk]
        have key : Trans s t (.run ‹Env›) _ := .unsubSkip hf hp hi hk
        simpa [State.unsubNext, State.noteRemoved] using key
    · have key : Trans s t (.run ‹Env›) _ := .unsubEnd hf hp hi
      cases hn : f.pEvtUnsubArgs <;>
        simpa [unsubVisit, hi, hn, State.unsubNext, State.noteRemoved] using key
  · rename_i i _ hp
    split at h
    · simp at h
    · rename_i x hx
      obtain ⟨hmx, rfl⟩ := Suber.lock_eq_some hx
      obtain rfl := Option.some.inj h
      have key : Trans s t (.run ‹Env›) _ := .unsubSetFlag hf hp hmx
      simpa [Suber.unlock, ← hmx] using key
  · rename_i i woken hp
    split at h
    · simp at h
    · rename_i s₁ hs₁
      obtain rfl := Option.some.inj h
      exact .unsubSignal hf hp (condSignal_woken hs₁)
  · rename_i i _ hp
    split at h
    · rename_i hj
      obtain rfl := Option.some.inj h
      exact unsubFree_trans hf (.inr ⟨hp, hj⟩) rfl
    · simp at h
  · simp at h

theorem postLock_trans {f : PostFrame abi} (hf : s.frames t = .post f :: rest) (hp : f.pc = .lock)
    (h : s.postLock t f rest a = some s') : Trans s t a s' := by
  unfold State.postLock at h
  split at h
  · rename_i m env hm
    split at h
    · rename_i ha
      obtain rfl := Option.some.inj h
      exact .postLock hf hp hm ha
    · rename_i ha
      rw [RecMutex.unlock_tryLock hm] at h
      obtain rfl := Option.some.inj h
      exact .postNotFound hf hp hm (by simpa using ha)
  · rename_i env hm
    split at h
    · rename_i ho
      obtain rfl := Option.some.inj h
      exact .postBusy hf hp hm (.inl ho)
    rename_i ho
    split at h
    · simp at h
    rename_i ho'
    split at h
    · rename_i i ht
      obtain rfl := Option.some.inj h
      unfold State.postCached
      split
      · rename_i hr
        exact .postCache hf hp hm (by simpa using ho) (by simpa using ho') ht hr
      · rename_i hr
        exact .postCacheFull hf hp hm (by simpa using ho) (by simpa using ho') ht (by simpa using hr)
    · simp at h
  · rename_i hm
    split at h
    · rename_i ho
      obtain rfl := Option.some.inj h
      exact .postBusy hf hp hm (.inr ho)
    · simp at h
  · simp at h

theorem postLoop_trans {f : PostFrame abi} {env : Env} (hf : s.frames t = .post f :: rest)
    (hp : f.pc = .loop i) : Trans s t (.run env) (s.postLoop t f rest i) := by
  unfold State.postLoop
  split
  · rename_i hi
    split
    · rename_i hl
      split
      · rename_i hs
        exact .postSync hf hp hi hl hs
      · rename_i hs
        exact .postASync hf hp hi hl (by simpa using hs)
    · rename_i hl
      exact .postSkip hf hp hi (by simpa using hl)
  · rename_i hi
    exact .postEnd hf hp hi

/-- The section of an ASYNC visit, as the push into a slot that has a thread. -/
theorem postSection_eq {f : PostFrame abi} {env : Env} (h : s.postSection t f rest i env = some s') :
    s' = s.halt .abort ∨ (s.suber i).mutex = none ∧
      s' = (s.withThread i).postPush t f rest i (s.desc t f)
        { (s.withThread i).suber i with mutex := some t } := by
  unfold State.postSection at h
  split at h
  · simp at h
  · rename_i x hx
    obtain ⟨hm, rfl⟩ := Suber.lock_eq_some hx
    split at h
    · rename_i u hu
      obtain rfl := Option.some.inj h
      rw [withThread_of_some hu]
      exact .inr ⟨hm, rfl⟩
    · rename_i hu
      split at h
      · obtain rfl := Option.some.inj h
        refine .inr ⟨hm, ?_⟩
        have hid : (s.suber i).asyncThreadID = none := hu
        rw [withThread_suber, hid, withThread_of_none hid]
        unfold State.postPush
        simp
      · obtain rfl := Option.some.inj h
        refine .inl ?_
        rw [Suber.unlock_of_mutex hm, State.setSuber_self]

theorem postPush_trans {f : PostFrame abi} {env : Env} (hf : s.frames t = .post f :: rest)
    (hp : f.pc = .push i) (h : s.postSection t f rest i env = some s') :
    Trans s t (.run env) s' := by
  rcases postSection_eq h with rfl | ⟨hm, rfl⟩
  · exact .halt _
  have hmw : ((s.withThread i).suber i).mutex = none := by rw [withThread_suber]; exact hm
  have hqw : ((s.withThread i).suber i).evtQueue = (s.suber i).evtQueue := by rw [withThread_suber]
  unfold State.postPush
  split
  · rename_i hr
    have key : Trans s t (.run env) _ := .postAccept hf hp hm (by simpa [hqw] using hr)
    rw [← hqw] at key
    simpa [Suber.unlock, hmw, withThread_sid] using key
  · rename_i hr
    have hr' : (s.suber i).evtQueue.hasRoom = false := by simpa [hqw] using hr
    split
    · rename_i ho
      have key : Trans s t (.run env) _ := .postFull hf hp hm hr' ho
      rwa [Suber.unlock_of_mutex hmw, State.setSuber_self]
    rename_i ho
    split
    · exact .haltPush hf hp
    · rename_i ho'
      have key : Trans s t (.run env) _ := .postRetry hf hp hm hr' (by simpa using ho) (by simpa using ho')
      rwa [Suber.unlock_of_mutex hmw, State.setSuber_self]

theorem post_trans {f : PostFrame abi} (hf : s.frames t = .post f :: rest)
    (h : s.postStep t f rest a = some s') : Trans s t a s' := by
  unfold State.postStep at h
  split at h
  · rename_i hp
    exact postLock_trans hf hp h
  · rename_i i env hp
    obtain rfl := Option.some.inj h
    exact postLoop_trans hf hp
  · rename_i i env hp
    exact postPush_trans hf hp h
  · rename_i i woken hp
    split at h
    · simp at h
    · rename_i s₁ hs₁
      obtain rfl := Option.some.inj h
      exact .postSignal hf hp (condSignal_woken hs₁)
  · rename_i i woken hp
    split at h
    · simp at h
    · rename_i s₁ hs₁
      obtain rfl := Option.some.inj h
      exact .postRetrySignal hf hp (condSignal_woken hs₁)
  · simp at h

theorem cbReturn_trans {f : CbFrame abi} {r : TosResult} (hf : s.frames t = .cb f :: rest)
    (h : s.cbReturn t f rest r = some s') : Trans s t (.ret r) s' := by
  unfold State.cbReturn at h
  split at h
  · rename_i p rest'
    split at h
    · rename_i i hp
      obtain rfl := Option.some.inj h
      exact .cbRetPost r hf hp
    · simp at h
  · split at h
    · rename_i i g d hb
      obtain rfl := Option.some.inj h
      exact .cbRetAsync r hf hb
    · simp at h
  · simp at h

/-- The section of the async loop, when the mutex of the slot is free. -/
theorem consume_of_mutex {g : ℕ} (hm : (s.suber i).mutex = none) : s.consume t i g =
    some (if (s.suber i).shouldExitASyncThread && (s.suber i).evtQueue.isEmpty then s.setBase t .gone
      else if (s.suber i).evtQueue.isEmpty then s.setBase t (.async i g .waiting)
      else (s.setSuber i { s.suber i with evtQueue := (s.suber i).evtQueue.pop }).setBase t
        (.async i g (.call (s.suber i).evtQueue.front))) := by
  simp only [State.consume, Suber.lock_of_mutex hm]
  rw [Suber.unlock_of_mutex hm, State.setSuber_self]
  split
  · rfl
  · split
    · rfl
    · simp [Suber.unlock, hm]

theorem consume_trans {g : ℕ} {pc : AsyncPc abi} {env : Env} (hf : s.frames t = [])
    (hb : s.base t = .async i g pc) (hp : pc = .top ∨ pc = .woken)
    (h : s.consume t i g = some s') : Trans s t (.run env) s' := by
  cases hm : (s.suber i).mutex with
  | some u => simp [State.consume, Suber.lock, hm] at h
  | none =>
    rw [consume_of_mutex hm, Option.some.injEq] at h
    subst h
    split
    · rename_i hs
      rw [Bool.and_eq_true] at hs
      exact .asyncExit hf hb hp hm hs.1 hs.2
    · rename_i hs
      split
      · rename_i he
        exact .asyncWait hf hb hp hm (by simpa [he] using hs) he
      · rename_i he
        exact .asyncTake hf hb hp hm (by simpa using he)

theorem async_trans {g : ℕ} {pc : AsyncPc abi} (hf : s.frames t = [])
    (hb : s.base t = .async i g pc) (h : s.asyncStep t i g pc a = some s') : Trans s t a s' := by
  unfold State.asyncStep at h
  split at h
  · obtain rfl := Option.some.inj h
    exact .asyncStart hf hb
  · exact consume_trans hf hb (.inl rfl) h
  · obtain rfl := Option.some.inj h
    exact .asyncWake hf hb
  · exact consume_trans hf hb (.inr rfl) h
  · obtain rfl := Option.some.inj h
    unfold State.asyncCall
    split
    · exact .halt _
    · rename_i ho
      exact .asyncCall hf hb ho
  · split at h
    · simp at h
    · rename_i x hx
      obtain ⟨hm, rfl⟩ := Suber.lock_eq_some hx
      rw [Suber.unlock_of_mutex hm, State.setSuber_self] at h
      obtain rfl := Option.some.inj h
      exact .asyncDrain hf hb hm
  · rename_i e _
    obtain rfl := Option.some.inj h
    unfold State.drainNext
    split
    · rename_i hc
      simp only [Bool.and_eq_true, decide_eq_true_eq, gt_iff_lt] at hc
      obtain ⟨rfl, hc⟩ := hc
      exact .asyncReplay hf hb hc
    · rename_i hc
      refine .asyncTop hf hb ?_
      cases e with
      | false => exact .inl rfl
      | true => exact .inr (by simpa using hc)
  · rename_i d r _
    obtain rfl := Option.some.inj h
    unfold State.drainResult
    split
    · rename_i hr
      exact .asyncRetire hf (hr ▸ hb)
    · rename_i hr
      split
      · rename_i hd
        exact .haltRetire hf hb hr hd
      · rename_i hd
        exact .asyncRedo hf hb hr (by simpa using hd)
  · simp at h

theorem cbWrite_trans {f : CbFrame abi} {d : EvtDesc abi} (hf : s.frames t = .cb f :: rest)
    (h : s.cbWrite t f rest d = some s') : Trans s t (.write d) s' := by
  unfold State.cbWrite at h
  split at h
  · rename_i p rest'
    split at h
    · rename_i i hp hr
      obtain rfl := Option.some.inj h
      exact .cbWrite d hf hp hr
    · simp at h
  · simp at h

theorem user_trans (hu : s.userOnTop t) (h : s.userStep t a = some s') : Trans s t a s' := by
  unfold State.userStep at h
  split at h
  · obtain rfl := Option.some.inj h
    exact .call _ hu
  · simp at h

/-- **Inversion.**  A step is one of the transitions, taken while the process runs. -/
theorem step_trans (h : s.step t a = some s') : s.halted = none ∧ Trans s t a s' := by
  unfold State.step at h
  split at h
  · simp at h
  rename_i hh
  refine ⟨by simpa using hh, ?_⟩
  split at h
  · rename_i hf
    split at h
    · simp at h
    · rename_i hb
      exact user_trans (.inl ⟨hf, hb⟩) h
    · rename_i hb
      exact async_trans hf hb h
  · rename_i f rest hf
    split at h
    · exact cbReturn_trans hf h
    · exact cbWrite_trans hf h
    · exact user_trans (.inr ⟨f, rest, hf⟩) h
  · rename_i hf
    exact sub_trans hf h
  · rename_i hf
    exact unsub_trans hf h
  · rename_i hf
    exact post_trans hf h

theorem next_trans (h : next s (t, a) = some s') : s.halted = none ∧ Trans s t a s' :=
  step_trans h

/-- **The invariant rule of the system**, with the step premise over the transitions. -/
theorem Reach.induction {P : State abi → Prop} {ok : State abi → Tid × Act abi → Prop}
    {maxSuberNum : ULong abi} {clients : ℕ} (h : Reach ok maxSuberNum clients s)
    (h0 : P (State.init maxSuberNum clients))
    (hstep : ∀ s s' t a, Reach ok maxSuberNum clients s → P s → ok s (t, a) → s.halted = none →
      Trans s t a s' → P s') : P s :=
  Runs.ReachUnder.invariant h0
    (fun _ _ x hr hP hok hn => hstep _ _ x.1 x.2 hr hP hok (next_trans hn).1 (next_trans hn).2) h

end PlatIF.Ioc
