import PlatIF.Evt.Transitions

/-!
# Inversion of the step function

A step is one of the transitions, function by function.  `Reach.induction` is the induction rule for runs that all
invariants use.
-/

namespace PlatIF.Evt

variable {abi : Abi} {s s' : State abi} {t : Thread} {a : Act abi} {env : Env} {q slot k : ℕ}

/-- A call that goes on to `c`. -/
theorem State.tableStep_goto (s : State abi) (t : Thread) (c : Call abi) :
    s.setCall t (some c) = s.tableStep t s.manger s.nextRow (some c) [] := by
  simp [State.setCall]

/-! ### The life cycle -/

theorem enableLock_trans (hc : s.calls t = some (.enableEvtManger .lock))
    (h : s.enableEvtManger t .lock env = some s') : Trans s t (.run env) s' := by
  simp only [State.enableEvtManger] at h
  by_cases hw : s.stateWLock = none
  · rw [if_neg (by simp [hw])] at h
    by_cases hs : s.manger.state = .ready
    · rw [if_neg (by simp [hs])] at h
      cases hq : s.manger.evtQueueProcer with
      | none =>
        simp only [hq, Option.some.injEq] at h
        exact h ▸ .table rfl hc (.enableBug hw hs hq)
      | some tab =>
        simp only [hq] at h
        cases hf : tab.firstFree s.manger.mayEvtQueueNumMax.toNat with
        | none =>
          simp only [hf, Option.some.injEq] at h
          exact h ▸ .table rfl hc (.enableTooMany hw hs hq hf)
        | some idx =>
          simp only [hf] at h
          split at h
          · rename_i ha
            exact Option.some.inj h ▸ .table rfl hc (.enableNoMemory hw hs ha)
          · exact Option.some.inj h ▸ .life rfl hc (.enable hw hs hq hf)
    · rw [if_pos hs] at h
      exact Option.some.inj h ▸ .table rfl hc (.enableBadState hw hs)
  · rw [if_pos (by simpa [Option.isSome_iff_ne_none] using hw)] at h
    simp at h

theorem enableEvtManger_trans {pc : EnablePc} (hc : s.calls t = some (.enableEvtManger pc))
    (h : s.enableEvtManger t pc env = some s') : Trans s t (.run env) s' := by
  cases pc with
  | lock => exact enableLock_trans hc h
  | initMutex q => exact Option.some.inj h ▸ .life rfl hc .initMutex
  | initCond q => exact Option.some.inj h ▸ .life rfl hc .initCond
  | create q => exact Option.some.inj h ▸ .life rfl hc .create
  | unlock => exact Option.some.inj h ▸ .life rfl hc .enabled

theorem disableEvtManger_trans {pc : DisablePc} (hc : s.calls t = some (.disableEvtManger pc))
    (h : s.disableEvtManger t pc = some s') : Trans s t (.run env) s' := by
  unfold State.disableEvtManger at h
  cases pc with
  | lock =>
    simp only at h
    by_cases hw : s.stateWLock = none
    · rw [if_neg (by simp [hw])] at h
      by_cases hs : s.manger.state = .running
      · rw [if_neg (by simp [hs])] at h
        cases hq : s.evtQueue with
        | none =>
          simp only [hq, Option.some.injEq] at h
          exact h ▸ .table rfl hc (.disableNone hw hs hq)
        | some q =>
          simp only [hq, Option.some.injEq] at h
          exact h ▸ .life rfl hc (.disable hw hs hq)
      · rw [if_pos hs] at h
        exact Option.some.inj h ▸ .table rfl hc (.disableNot hw hs)
    · rw [if_pos (by simpa [Option.isSome_iff_ne_none] using hw)] at h
      simp at h
  | join q =>
    simp only at h
    split at h
    · rename_i he
      exact Option.some.inj h ▸ .life rfl hc (.destroyMutex (of_decide_eq_true he))
    · simp at h
  | destroyCond q => exact Option.some.inj h ▸ .life rfl hc .destroyCond
  | free q => exact Option.some.inj h ▸ .life rfl hc .free
  | clear q => exact Option.some.inj h ▸ .life rfl hc .clear
  | unlock q => exact Option.some.inj h ▸ .life rfl hc .disabled

/-! ### The tables -/

theorem regOper_trans {args : EvtOperArgs} {checked : Bool} (hc : s.calls t = some (.regOper args checked))
    (h : s.regOper t args checked env = some s') : Trans s t (.run env) s' := by
  unfold State.regOper at h
  cases checked with
  | true =>
    simp only [if_true] at h
    rcases hm : s.manger.doRegOper args env with ⟨r, id, m⟩
    have htab := TableStep.reg (t := t) hm
    cases id with
    | none =>
      simp only [hm, Option.some.injEq] at h
      exact h ▸ .table rfl hc htab
    | some id =>
      simp only [hm, Option.some.injEq] at h
      subst h
      simpa using Trans.table (a := .run env) rfl hc htab
  | false =>
    simp only [Bool.false_eq_true, if_false] at h
    by_cases hw : s.stateWLock = none
    · rw [if_neg (by simp [hw])] at h
      by_cases hs : s.manger.state = .ready
      · rw [if_neg (by simp [hs]), State.tableStep_goto] at h
        exact Option.some.inj h ▸ .table rfl hc (.regCheck hw hs)
      · rw [if_pos hs] at h
        exact Option.some.inj h ▸ .table rfl hc (.regBadState hw hs)
    · rw [if_pos (by simpa [Option.isSome_iff_ne_none] using hw)] at h
      simp at h

theorem subEvts_trans {id : EvtOperID abi} {ids : List EvtID} {args : EvtSubArgs} {checked : Bool}
    (hc : s.calls t = some (.subEvts id ids args checked)) (h : s.subEvts t id ids args checked env = some s') :
    Trans s t (.run env) s' := by
  unfold State.subEvts at h
  cases checked with
  | true =>
    simp only [if_true] at h
    by_cases hl : s.subReaders = []
    · rw [if_neg (by simp [hl])] at h
      exact Option.some.inj h ▸ .table rfl hc (.sub hl)
    · rw [if_pos hl] at h
      simp at h
  | false =>
    simp only [Bool.false_eq_true, if_false] at h
    by_cases hr : s.manger.isRegedOperID id = tosYes
    · rw [if_neg (by simp [hr]), State.tableStep_goto] at h
      exact Option.some.inj h ▸ .table rfl hc (.subCheck hr)
    · rw [if_pos hr] at h
      exact Option.some.inj h ▸ .table rfl hc (.subNotReged hr)

theorem pubEvts_trans {id : EvtOperID abi} {ids : List EvtID} {pc : PubPc}
    (hc : s.calls t = some (.pubEvts id ids pc)) (h : s.pubEvts t id ids pc env = some s') :
    Trans s t (.run env) s' := by
  unfold State.pubEvts at h
  cases pc with
  | check =>
    simp only at h
    by_cases hr : s.manger.isRegedOperID id = tosYes
    · rw [if_neg (by simp [hr])] at h
      split at h
      · rename_i ht
        exact Option.some.inj h ▸ .table rfl hc (.pubBug hr (by simpa using ht))
      · rw [State.tableStep_goto] at h
        exact Option.some.inj h ▸ .table rfl hc (.pubCheck hr)
    · rw [if_pos hr] at h
      exact Option.some.inj h ▸ .table rfl hc (.pubNotReged hr)
  | scan row =>
    simp only at h
    cases ht : s.manger.pubTable with
    | none =>
      simp only [ht, Option.some.injEq] at h
      exact h ▸ .halt (.pubNull hc ht)
    | some tab =>
      simp only [ht] at h
      by_cases hr : s.manger.mayPubEvtNumMax.toNat < row
      · rw [if_pos hr] at h
        exact Option.some.inj h ▸ .table rfl hc (.pubTooMany hr)
      rw [if_neg hr] at h
      by_cases hl : tab.len ≤ row
      · rw [if_pos hl] at h
        exact Option.some.inj h ▸ .halt (.pubBounds hc ht (Nat.not_lt.mp hr) hl)
      rw [if_neg hl] at h
      split at h
      · rw [State.tableStep_goto] at h
        exact Option.some.inj h ▸ .table rfl hc .pubNext
      · rename_i he
        split at h
        · rename_i ha
          exact Option.some.inj h ▸ .table rfl hc (.pubNoMemory ha)
        · rw [State.tableStep_goto] at h
          exact Option.some.inj h ▸ .table rfl hc (.pubFree ht (Nat.not_le.mp hl) (by simpa using he))
  | store row =>
    simp only [Option.some.injEq] at h
    subst h
    simpa using Trans.table (a := .run env) rfl hc .pubStore
  | fill row pRow pc =>
    simp only at h
    split at h
    · rename_i hf
      exact Option.some.inj h ▸ .halt (.pubFreed hc hf)
    · rename_i hf
      cases hn : pc.next ids with
      | some pc' =>
        simp only [hn, Option.some.injEq] at h
        subst h
        simpa using Trans.table (a := .run env) rfl hc (.pubFill hf hn)
      | none =>
        simp only [hn, Option.some.injEq] at h
        exact h ▸ .table rfl hc (.pubDone hf hn)

/-! ### Posts -/

theorem postSection_trans {id : EvtOperID abi} {arg : PostArg abi}
    (hc : s.calls t = some (.postEvtSRT id arg (.lock (some q)))) (hl : (s.queues q).freed = false)
    (hi : (s.queues q).mutexReady = true) (hm : (s.queues q).mutex = none) :
    Trans s t (.run env) (s.postSection t q id arg) := by
  unfold State.postSection
  cases hfull : (s.queue q).isFull with
  | true => exact .table rfl hc (.postFull hl hi hm hfull)
  | false =>
    simp only [Bool.false_eq_true, if_false]
    cases hd : s.argDesc t arg with
    | none => exact .halt (.postArg hc hd)
    | some x => exact .post rfl hc hl hi hm hfull hd

theorem postEvtSRT_trans {id : EvtOperID abi} {arg : PostArg abi} {pc : PostPc}
    (hc : s.calls t = some (.postEvtSRT id arg pc)) (h : s.postEvtSRT t id arg pc = some s') :
    Trans s t (.run env) s' := by
  unfold State.postEvtSRT at h
  cases pc with
  | check =>
    simp only at h
    by_cases hr : s.manger.isRegedOperID id = tosYes
    · rw [if_neg (by simp [hr]), State.tableStep_goto] at h
      exact Option.some.inj h ▸ .table rfl hc (.postCheck hr)
    · rw [if_pos hr] at h
      exact Option.some.inj h ▸ .table rfl hc (.postNotReged hr)
  | load =>
    simp only at h
    split at h
    · rename_i hq
      exact Option.some.inj h ▸ .halt (.postTable hc (by simpa using hq))
    · rename_i hq
      rw [State.tableStep_goto] at h
      exact Option.some.inj h ▸ .table rfl hc (.postLoad (by simpa using hq))
  | lock pEvtQueue =>
    cases pEvtQueue with
    | none => exact Option.some.inj h ▸ .halt (.postNull hc)
    | some q =>
      simp only at h
      split at h
      · rename_i hl
        exact Option.some.inj h ▸ .halt (.postFreed hc hl)
      · rename_i hl
        split at h
        · rename_i hi
          exact Option.some.inj h ▸ .halt (.postEarly hc (by simpa using hl) hi)
        · rename_i hi
          split at h
          · simp at h
          · rename_i hm
            exact Option.some.inj h ▸
              postSection_trans hc (by simpa using hl) (by simpa using hi) (by simpa using hm)
  | signal q =>
    simp only at h
    split at h
    · rename_i hl
      exact Option.some.inj h ▸ .halt (.postSignalFreed hc hl)
    · rename_i hl
      split at h
      · rename_i hi
        exact Option.some.inj h ▸ .halt (.postSignalEarly hc (by simpa using hl) hi)
      · rename_i hi
        exact Option.some.inj h ▸ .signal rfl hc (by simpa using hl) (by simpa using hi)

theorem callStep_trans {c : Call abi} (hc : s.calls t = some c) (h : s.callStep t c env = some s') :
    Trans s t (.run env) s' := by
  cases c with
  | initEvtManger args =>
    simp only [State.callStep, State.initEvtManger] at h
    split at h
    · simp at h
    · rename_i hw
      exact Option.some.inj h ▸ .table rfl hc (.init (by simpa using hw))
  | deinitEvtManger => exact Option.some.inj h ▸ .table rfl hc .deinit
  | enableEvtManger pc => exact enableEvtManger_trans hc h
  | disableEvtManger pc => exact disableEvtManger_trans hc h
  | regOper args checked => exact regOper_trans hc h
  | unregOper id => exact Option.some.inj h ▸ .table rfl hc .unreg
  | pubEvts id ids pc => exact pubEvts_trans hc h
  | unpubEvts id => exact Option.some.inj h ▸ .table rfl hc .unpub
  | subEvts id ids args checked => exact subEvts_trans hc h
  | unsubEvts id =>
    simp only [State.callStep, State.unsubEvts] at h
    split at h
    · simp at h
    · rename_i hl
      exact Option.some.inj h ▸ .table rfl hc (.unsub (by simpa using hl))
  | postEvtSRT id arg pc => exact postEvtSRT_trans hc h

/-! ### The processor -/

theorem consume_trans (hc : s.calls (.procer q) = none) (hp : s.procer q = .top ∨ s.procer q = .woken)
    (h : s.consume q = some s') : Trans s (.procer q) a s' := by
  unfold State.consume at h
  split at h
  · rename_i hl
    exact Option.some.inj h ▸ .halt (.procerFreed rfl hc hl)
  · rename_i hl
    split at h
    · simp at h
    · rename_i hm
      have hl' : (s.queues q).freed = false := by simpa using hl
      have hm' : (s.queues q).mutex = none := by simpa using hm
      split at h
      · rename_i hn
        exact Option.some.inj h ▸ .wait rfl hc hp hl' hm' hn
      · rename_i hn
        exact Option.some.inj h ▸ .take rfl hc hp hl' hm' hn

theorem cancelWait_trans (hc : s.calls (.procer q) = none) (hp : s.procer q = .waiting ∨ s.procer q = .woken)
    (h : s.cancelWait q = some s') : Trans s (.procer q) .cancel s' := by
  unfold State.cancelWait at h
  split at h
  · simp at h
  · rename_i hx
    simp only [not_or, Bool.not_eq_false] at hx
    exact Option.some.inj h ▸ .cancelWait rfl rfl hc hp hx.1 (by simpa using hx.2)

theorem compare_trans {row num : ℕ} {r : Row abi} {pc yes : DispatchPc} {matched : EvtID → Bool}
    (hc : s.calls (.procer q) = none) (hp : s.procer q = .dispatch slot k pc) (hr : s.subRow row = some r)
    (hm : pc = .cmpClass row num ∧ num ≤ r.evtIDs.length ∧ yes = .cmpClassmate row num ∨
      pc = .cmpClassmate row num ∧ yes = .call row num) :
    Trans s (.procer q) a (s.compare q slot k row num matched yes) := by
  unfold State.compare
  split
  · rename_i hl
    exact .halt (.procerFreed rfl hc hl)
  · rename_i hl
    rcases hm with ⟨rfl, hle, rfl⟩ | ⟨rfl, rfl⟩
    · exact .compare rfl hc hp (by simpa using hl) hr (.inl ⟨rfl, hle, by split <;> simp⟩)
    · exact .compare rfl hc hp (by simpa using hl) hr (.inr ⟨rfl, by split <;> simp⟩)

theorem callSuber_trans {row num : ℕ} {r : Row abi} (hc : s.calls (.procer q) = none)
    (hp : s.procer q = .dispatch slot k (.call row num)) (hr : s.subRow row = some r) :
    Trans s (.procer q) a (s.callSuber q slot k row num r) := by
  unfold State.callSuber
  split
  · exact .halt (.procerNull rfl hc)
  · rename_i args hs
    split
    · exact .halt (.procerNull rfl hc)
    · exact .callSuber rfl hc hp hr hs

theorem dispatchStep_trans {pc : DispatchPc} (hc : s.calls (.procer q) = none)
    (hp : s.procer q = .dispatch slot k pc) (h : s.dispatchStep q slot k pc = some s') :
    Trans s (.procer q) a s' := by
  unfold State.dispatchStep at h
  cases pc with
  | rdlock =>
    simp only at h
    split at h
    · rename_i hn
      exact Option.some.inj h ▸ .noTable rfl hc hp (by simpa using hn)
    · rename_i hn
      exact Option.some.inj h ▸ .rdlock rfl hc hp (by simpa using hn)
  | row row =>
    simp only at h
    by_cases hr : s.manger.maySubEvtNumMax.toNat ≤ row
    · rw [if_pos hr] at h
      exact Option.some.inj h ▸ .endDispatch rfl hc hp hr
    rw [if_neg hr] at h
    split at h
    · rename_i hn
      exact Option.some.inj h ▸
        .move rfl hc hp (.inl ⟨row, rfl, Nat.not_le.mp hr, .inl ⟨by simpa using hn, rfl⟩⟩)
    · rename_i hn
      exact Option.some.inj h ▸
        .move rfl hc hp (.inl ⟨row, rfl, Nat.not_le.mp hr, .inr ⟨by simpa using hn, rfl⟩⟩)
  | cmpClass row num =>
    simp only at h
    cases hr : s.subRow row with
    | none =>
      simp only [hr, Option.some.injEq] at h
      exact h ▸ .halt (.procerNull rfl hc)
    | some r =>
      simp only [hr] at h
      split at h
      · rename_i hlt
        exact Option.some.inj h ▸ .move rfl hc hp (.inr (.inl ⟨row, num, r, rfl, hr, hlt, rfl⟩))
      · rename_i hle
        exact Option.some.inj h ▸ compare_trans hc hp hr (.inl ⟨rfl, Nat.not_lt.mp hle, rfl⟩)
  | cmpClassmate row num =>
    simp only at h
    cases hr : s.subRow row with
    | none =>
      simp only [hr, Option.some.injEq] at h
      exact h ▸ .halt (.procerNull rfl hc)
    | some r =>
      simp only [hr, Option.some.injEq] at h
      exact h ▸ compare_trans hc hp hr (.inr ⟨rfl, rfl⟩)
  | call row num =>
    simp only at h
    cases hr : s.subRow row with
    | none =>
      simp only [hr, Option.some.injEq] at h
      exact h ▸ .halt (.procerNull rfl hc)
    | some r =>
      simp only [hr, Option.some.injEq] at h
      exact h ▸ callSuber_trans hc hp hr
  | inCb row num => simp at h

theorem cbStep_trans {row num : ℕ} (hc : s.calls (.procer q) = none)
    (hp : s.procer q = .dispatch slot k (.inCb row num)) (h : s.cbStep q slot k row num a = some s') :
    Trans s (.procer q) a s' := by
  cases a with
  | cbRead =>
    simp only [State.cbStep] at h
    split at h
    · rename_i hl
      exact Option.some.inj h ▸ .halt (.procerFreed rfl hc hl)
    · rename_i hl
      exact Option.some.inj h ▸ .cbRead rfl hc hp (by simpa using hl)
  | cbRet => exact Option.some.inj h ▸ .move rfl hc hp (.inr (.inr ⟨row, num, rfl, rfl⟩))
  | cancel =>
    simp only [State.cbStep] at h
    split at h
    · rename_i hx
      exact Option.some.inj h ▸ .cancelCb rfl rfl hc hp hx
    · simp at h
  | call api => simp [State.cbStep] at h
  | run env => simp [State.cbStep] at h
  | wake => simp [State.cbStep] at h

theorem procerStep_trans (hc : s.calls (.procer q) = none) (h : s.procerStep q a = some s') :
    Trans s (.procer q) a s' := by
  unfold State.procerStep at h
  split at h
  case h_1 hp => exact consume_trans hc (.inl hp) h
  case h_2 hp => exact consume_trans hc (.inr hp) h
  case h_3 hp => exact Option.some.inj h ▸ .wake rfl hc hp
  case h_4 hp => exact cancelWait_trans hc (.inl hp) h
  case h_5 hp => exact cancelWait_trans hc (.inr hp) h
  case h_6 hp => exact cbStep_trans hc hp h
  case h_7 hp => exact dispatchStep_trans hc hp h
  case h_8 => simp at h

theorem cancelJoin_trans {p : ℕ} (hc : s.calls t = some (.disableEvtManger (.join p)))
    (h : s.cancelJoin t = some s') : Trans s t .cancel s' := by
  cases t with
  | client n => simp [State.cancelJoin] at h
  | procer q =>
    simp only [State.cancelJoin] at h
    split at h
    · rename_i hx
      exact Option.some.inj h ▸ .cancelJoin rfl rfl hc hx
    · simp at h

theorem startCall_trans {api : Api abi} (hc : s.calls t = none) (h : s.startCall t api = some s') :
    Trans s t (.call api) s' := by
  unfold State.startCall at h
  split at h
  · simp at h
  · rename_i hno
    split at h
    · rename_i hu
      exact Option.some.inj h ▸ .call rfl hc hu hno
    · simp at h

/-- **A step is a transition.** -/
theorem next_trans (h : next s (t, a) = some s') : s.halted = none ∧ Trans s t a s' := by
  unfold next at h
  split at h
  · simp at h
  · rename_i hh
    refine ⟨by simpa using hh, ?_⟩
    split at h
    case h_1 c env hc ha =>
      obtain rfl : a = .run env := ha
      exact callStep_trans hc h
    case h_2 p hc ha =>
      obtain rfl : a = .cancel := ha
      exact cancelJoin_trans hc h
    case h_3 => simp at h
    case h_4 api hc ha =>
      obtain rfl : a = .call api := ha
      exact startCall_trans hc h
    case h_5 hc _ =>
      cases t with
      | client n => simp at h
      | procer q => exact procerStep_trans hc h

/-- A step changes the call of no other thread. -/
theorem Trans.calls_ne {u : Thread} (h : Trans s t a s') (hu : u ≠ t) : s'.calls u = s.calls u := by
  cases h with
  | life ha hc hl => cases hl <;> simp [State.createQueue, Function.update_of_ne hu]
  | _ => simp [State.endDispatch, Function.update_of_ne hu]

/-! ### The induction rule -/

section

variable {ok : State abi → Thread × Act abi → Prop} {clients : ℕ}

/-- **The induction rule for runs.** -/
theorem Reach.induction {P : State abi → Prop} (h0 : P (State.init clients))
    (hstep : ∀ s s' t a, Reach ok clients s → P s → ok s (t, a) → s.halted = none → Trans s t a s' → P s')
    (h : Reach ok clients s) : P s :=
  Runs.ReachUnder.invariant h0 (fun s s' x hr hP ha hn =>
    hstep s s' x.1 x.2 hr hP ha (next_trans hn).1 (next_trans hn).2) h

theorem Reach.mono {ok' : State abi → Thread × Act abi → Prop} (hok : ∀ s x, ok s x → ok' s x)
    (h : Reach ok clients s) : Reach ok' clients s :=
  Runs.ReachUnder.mono hok h

end

end PlatIF.Evt
