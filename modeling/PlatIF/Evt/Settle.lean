import PlatIF.Evt.Work

/-!
# The manager settles

When user code makes no further calls and its callbacks return, what clients and processor have begun comes to its end,
`PLT_EVT_disableEvtManger` included: the steps are bounded by the work at the start, and as long as anything is in
progress somebody can take one.

* `exists_canGo` — nobody waits for ever;
* `Idle.atRest` — what is left then;
* `manger_settles` — the law for every run with polite callbacks.
-/

namespace PlatIF.Evt

variable {abi : Abi} {s s' : State abi} {t u : Thread} {a : Act abi} {env : Env} {clients q n : ℕ} {c : Call abi}

/-! ### Nobody waits for ever -/

theorem ProcerPc.alive_of_reading {pc : ProcerPc} (h : pc.reading = true) : pc.alive := by
  constructor <;> rintro rfl <;> simp [ProcerPc.reading] at h

/-- The thread can take a step that counts. -/
def State.CanGo (s : State abi) (t : Thread) : Prop := ∃ a s', busy s (t, a) = true ∧ next s (t, a) = some s'

/-- All calls have returned, and processors wait. -/
structure Idle (s : State abi) : Prop where
  calls : ∀ t, s.calls t = none
  procer : ∀ q, (s.procer q).alive → s.procer q = .waiting

/-- A call goes on when it does not stand at a lock that is held, nor at a join. -/
theorem callStep_isSome (h1 : c.locksState = true → s.stateWLock = none)
    (h2 : c.writesSubTable = true → s.subReaders = [])
    (h3 : ∀ q, c.lockTarget = some q → (s.queues q).freed = true ∨ (s.queues q).mutex = none)
    (h4 : ∀ q, c.joins = some q → s.procer q = .ended) : (s.callStep t c env).isSome = true := by
  cases c with
  | initEvtManger args =>
    simp [State.callStep, State.initEvtManger, h1 rfl]
  | deinitEvtManger | unregOper | unpubEvts => rfl
  | enableEvtManger pc =>
    cases pc with
    | lock =>
      simp only [State.callStep, State.enableEvtManger, h1 rfl, Option.isSome_none, Bool.false_eq_true, if_false]
      split
      · rfl
      · split
        · rfl
        · split
          · rfl
          · split <;> rfl
    | initMutex | initCond | create | unlock => rfl
  | disableEvtManger pc =>
    cases pc with
    | lock =>
      simp only [State.callStep, State.disableEvtManger, h1 rfl, Option.isSome_none, Bool.false_eq_true, if_false]
      split
      · rfl
      · split <;> rfl
    | join q => simp [State.callStep, State.disableEvtManger, State.joinReady, h4 q rfl]
    | destroyCond | free | clear | unlock => rfl
  | regOper args checked =>
    cases checked with
    | true =>
      simp only [State.callStep, State.regOper, if_true]
      split <;> rfl
    | false =>
      simp only [State.callStep, State.regOper, h1 rfl, Option.isSome_none, Bool.false_eq_true, if_false]
      split <;> rfl
  | pubEvts id ids pc =>
    cases pc with
    | check =>
      simp only [State.callStep, State.pubEvts]
      split
      · rfl
      · split <;> rfl
    | scan row =>
      simp only [State.callStep, State.pubEvts]
      split
      · rfl
      · split
        · rfl
        · split
          · rfl
          · split
            · rfl
            · split <;> rfl
    | store => rfl
    | fill row pRow pc =>
      simp only [State.callStep, State.pubEvts]
      split
      · rfl
      · split <;> rfl
  | subEvts id ids args checked =>
    cases checked with
    | true => simp [State.callStep, State.subEvts, h2 rfl]
    | false =>
      simp only [State.callStep, State.subEvts, Bool.false_eq_true, if_false]
      split <;> rfl
  | unsubEvts id => simp [State.callStep, State.unsubEvts, h2 rfl]
  | postEvtSRT id arg pc =>
    cases pc with
    | check | load =>
      simp only [State.callStep, State.postEvtSRT]
      split <;> rfl
    | signal q =>
      simp only [State.callStep, State.postEvtSRT]
      split
      · rfl
      · split <;> rfl
    | lock p =>
      cases p with
      | none => rfl
      | some q =>
        simp only [State.callStep, State.postEvtSRT]
        rcases h3 q rfl with hf | hm
        · rw [if_pos hf]
          rfl
        · simp only [hm, Option.isSome_none, Bool.false_eq_true, if_false]
          split
          · rfl
          · split <;> rfl

theorem canGo_of_call (hh : s.halted = none) (hc : s.calls t = some c) (hsafe : s.waitSafe (t, .go) = true)
    (hgo : (s.callStep t c {}).isSome = true) : s.CanGo t := by
  obtain ⟨s', hs⟩ := Option.isSome_iff_exists.mp hgo
  refine ⟨.go, s', ?_, by simpa [next, hh, hc] using hs⟩
  simp [busy, hsafe, State.stopsIdle]

/-- The processor goes on, unless it waits or a call of its callback is in progress. -/
theorem canGo_of_procer (hr : Reach (fun s x => s.polite x = true) clients s) (hh : s.halted = none)
    (hc : s.calls (.procer q) = none) (ha : (s.procer q).alive) (hw : s.procer q ≠ .waiting) : s.CanGo (.procer q) := by
  have hmutex : (s.queues q).mutex = none := by
    by_contra hm
    obtain ⟨v, hv⟩ := Option.ne_none_iff_exists'.mp hm
    exact ha.2 ((holdInv_reach hr).mutex q v hv).2
  have hrun : ∀ s', s.procerStep q .go = some s' → s.CanGo (.procer q) := fun s' hs =>
    ⟨.go, s', by simp [busy, State.waitSafe, State.stopsIdle, hc], by simp [next, hh, hc, hs]⟩
  have hsome : (s.procerStep q .go).isSome = true → s.CanGo (.procer q) := fun h => by
    obtain ⟨s', hs⟩ := Option.isSome_iff_exists.mp h
    exact hrun s' hs
  cases hp : s.procer q with
  | absent => exact absurd hp ha.1
  | ended => exact absurd hp ha.2
  | waiting => exact absurd hp hw
  | top | woken =>
    refine hsome ?_
    simp only [State.procerStep, hp, State.consume, hmutex, Option.isSome_none, Bool.false_eq_true, if_false]
    split
    · rfl
    · split <;> rfl
  | dispatch slot k pc =>
    cases pc with
    | inCb row num =>
      refine ⟨.cbRet, s.goto q slot k (.cmpClass row (num + 1)), by simp [busy, State.waitSafe, State.stopsIdle], ?_⟩
      simp [next, hh, hc, State.procerStep, hp, State.cbStep]
    | rdlock | row =>
      refine hsome ?_
      simp only [State.procerStep, hp, State.dispatchStep]
      split
      · rfl
      · first | rfl | split <;> rfl
    | cmpClass =>
      refine hsome ?_
      simp only [State.procerStep, hp, State.dispatchStep]
      split
      · rfl
      · split <;> rfl
    | cmpClassmate | call =>
      refine hsome ?_
      simp only [State.procerStep, hp, State.dispatchStep]
      split <;> rfl

/-! ### Where nobody can go on -/

section

variable (hr : Reach (fun s x => s.polite x = true) clients s) (hh : s.halted = none) (hno : ∀ t, ¬ s.CanGo t)
include hr hh hno

/-- Who has the state locked joins: at the other places it would go on. -/
theorem join_of_stuck (hw : s.stateWLock = some t) : ∃ q, s.calls t = some (.disableEvtManger (.join q)) := by
  obtain ⟨n, c, rfl, hc, hx⟩ := (waitInv_of_polite hr).stateLock t hw
  by_contra hnone
  refine hno _ (canGo_of_call hh hc ?_ (callStep_isSome (fun hl => ?_) (fun hl => ?_) (fun q hl => ?_) fun q hl => ?_))
  · simp only [State.waitSafe, hc]
    split <;> simp_all [Call.holdsState]
  · simp [Call.holdsState_of_locksState hl] at hx
  · simp [Call.holdsState_of_writesSubTable hl] at hx
  · simp [Call.holdsState_of_lockTarget hl] at hx
  · exact absurd ⟨q, Call.joins_eq_some.mp hl ▸ hc⟩ hnone

/-- A callback's call stands at no lock that is held. -/
theorem procer_call_of_stuck (q : ℕ) : s.calls (.procer q) = none := by
  by_contra hc
  obtain ⟨c, hc⟩ := Option.ne_none_iff_exists'.mp hc
  have hL := liveInv_reach hr
  have hW := waitInv_of_polite hr
  have hpolite := politeInv_reach hr q c hc
  have halive := ProcerPc.alive_of_isInCb (hL.inCb q (by simp [hc]))
  refine hno (.procer q) (canGo_of_call hh hc ?_ (callStep_isSome ?_ ?_ ?_ ?_))
  · cases c with
    | disableEvtManger | subEvts => simp [Call.polite] at hpolite
    | _ => simp [State.waitSafe, hc]
  · intro hl
    by_contra hw
    obtain ⟨t, ht⟩ := Option.ne_none_iff_exists'.mp hw
    obtain ⟨p, hj⟩ := join_of_stuck hr hh hno ht
    exact hW.locksState q c hc hl t p hj
  · exact fun hl => by simp [hW.subTable q c hc] at hl
  · intro p hl
    obtain ⟨id, arg, rfl⟩ := Call.lockTarget_eq_some.mp hl
    obtain rfl := (hL.locking _ _ _ _ hc).2 q rfl
    right
    by_contra hm
    obtain ⟨v, hv⟩ := Option.ne_none_iff_exists'.mp hm
    exact halive.2 ((holdInv_reach hr).mutex p v hv).2
  · intro p hl
    have hx := Call.holdsState_of_ofCb (hW.ofCb q c hc)
    simp [Call.holdsState_of_joins hl] at hx

theorem waiting_of_stuck (ha : (s.procer q).alive) : s.procer q = .waiting := by
  by_contra hw
  exact hno _ (canGo_of_procer hr hh (procer_call_of_stuck hr hh hno q) ha hw)

/-- A processor that waits has nothing before it: who stores an event goes on to signal. -/
theorem curEvtNum_of_stuck (hw : s.procer q = .waiting) : (s.queue q).curEvtNum = 0 := by
  by_contra hnum
  obtain ⟨t, ht⟩ := stored_of_waiting hr hw hnum
  obtain ⟨id, arg, hc⟩ := id ht
  cases t with
  | procer p => simp [procer_call_of_stuck hr hh hno p] at hc
  | client n =>
    refine hno _ ⟨.go, _, ?_, next_of_stored ht hh ((liveInv_reach hr).of_waiting hw) _⟩
    simp [busy, State.waitSafe, State.stopsIdle, hc]

/-- Nor is it cancelled: the cancellation would take effect. -/
theorem cancelled_of_stuck (hw : s.procer q = .waiting) : s.cancelled q = false := by
  by_contra hx
  have hmutex : (s.queues q).mutex = none := by
    by_contra hm
    obtain ⟨v, hv⟩ := Option.ne_none_iff_exists'.mp hm
    simpa [hw] using ((holdInv_reach hr).mutex q v hv).2
  have hgo : ∃ s', s.cancelWait q = some s' := by simp [State.cancelWait, hx, hmutex]
  obtain ⟨s', hs⟩ := hgo
  refine hno (.procer q) ⟨.cancel, s', ?_, ?_⟩
  · simp [busy, State.waitSafe, State.stopsIdle, hw, curEvtNum_of_stuck hr hh hno hw]
  · simp [next, hh, procer_call_of_stuck hr hh hno q, State.procerStep, hw, hs]

/-- Nobody joins: the processor would come to its end. -/
theorem joins_of_stuck : s.calls t ≠ some (.disableEvtManger (.join q)) := by
  intro hc
  obtain ⟨-, -, hne, -, hx⟩ := (liveInv_reach hr).join hc
  by_cases he : s.procer q = .ended
  · refine hno t (canGo_of_call hh hc ?_ ?_)
    · cases t <;> simp [State.waitSafe, hc]
    · simp [State.callStep, State.disableEvtManger, State.joinReady, he]
  · have hw := waiting_of_stuck hr hh hno ⟨hne, he⟩
    simp [cancelled_of_stuck hr hh hno hw] at hx

theorem stateWLock_of_stuck : s.stateWLock = none := by
  by_contra hw
  obtain ⟨t, ht⟩ := Option.ne_none_iff_exists'.mp hw
  obtain ⟨q, hc⟩ := join_of_stuck hr hh hno ht
  exact joins_of_stuck hr hh hno hc

theorem subReaders_of_stuck : s.subReaders = [] := by
  by_contra hne
  obtain ⟨u, hu⟩ := List.exists_mem_of_ne_nil _ hne
  obtain ⟨q, rfl, hread⟩ := subReaders_of_polite hr hu
  simp [waiting_of_stuck hr hh hno (ProcerPc.alive_of_reading hread), ProcerPc.reading] at hread

/-- The mutex of a queue is left locked only in a queue that is freed. -/
theorem mutex_of_stuck (q : ℕ) : (s.queues q).freed = true ∨ (s.queues q).mutex = none := by
  by_contra hboth
  obtain ⟨hf, hm⟩ := not_or.mp hboth
  obtain ⟨v, hv⟩ := Option.ne_none_iff_exists'.mp hm
  have hC := cancelInv_reach hr
  rcases hC.joined q (hC.ended q ((holdInv_reach hr).mutex q v hv).2) with hfreed | ⟨t, c, hc, hcf⟩
  · exact hf hfreed
  · -- whoever frees it has the state locked
    have hlock := stateLock_reach hr t c hc (Call.holdsState_of_frees hcf)
    simp [stateWLock_of_stuck hr hh hno] at hlock

theorem client_call_of_stuck (n : ℕ) : s.calls (.client n) = none := by
  by_contra hc
  obtain ⟨c, hc⟩ := Option.ne_none_iff_exists'.mp hc
  refine hno (.client n) (canGo_of_call hh hc ?_ (callStep_isSome ?_ ?_ ?_ ?_))
  · have hcb : s.cbAtStateLock = false := by
      unfold State.cbAtStateLock
      cases s.evtQueue with
      | none => rfl
      | some q => simp [procer_call_of_stuck hr hh hno q]
    simp only [State.waitSafe, hcb]
    split <;> simp_all
  · exact fun _ => stateWLock_of_stuck hr hh hno
  · exact fun _ => subReaders_of_stuck hr hh hno
  · exact fun q _ => mutex_of_stuck hr hh hno q
  · exact fun q hj => absurd (Call.joins_eq_some.mp hj ▸ hc) (joins_of_stuck hr hh hno)

end

/-- **No deadlock.**  As long as anything is in progress somebody can go on. -/
theorem exists_canGo (hr : Reach (fun s x => s.polite x = true) clients s) (hh : s.halted = none) (hs : ¬ Idle s) :
    ∃ t, s.CanGo t := by
  by_contra hstuck
  have hno : ∀ t, ¬ s.CanGo t := not_exists.mp hstuck
  refine hs ⟨fun t => ?_, fun q ha => waiting_of_stuck hr hh hno ha⟩
  cases t with
  | client n => exact client_call_of_stuck hr hh hno n
  | procer q => exact procer_call_of_stuck hr hh hno q

/-! ### At rest -/

/-- What is left when nothing is in progress. -/
structure AtRest (s : State abi) : Prop where
  /-- No lock is held that anybody could wait for. -/
  locks : s.stateWLock = none ∧ s.subReaders = [] ∧
    ∀ q, (s.queues q).freed = true ∨ (s.queues q).mutex = none
  /-- Every processor that was cancelled has ended, and its queue is freed. -/
  stopped : ∀ q, s.cancelled q = true → s.procer q = .ended ∧ (s.queues q).freed = true
  /-- While the manager runs, its processor waits for an event, and there is none. -/
  running : ∀ q, s.evtQueue = some q → s.procer q = .waiting ∧ (s.queue q).curEvtNum = 0
  /-- Every event that a queue ever accepted was taken, and its dispatch went through the whole table. -/
  dispatched : ∀ q, s.taken q = s.accepted q ∧ s.dispatched q = List.range (s.accepted q).length

/-- Then nobody joins, so that who was cancelled was joined. -/
theorem Idle.freed (h : Idle s) (hC : CancelInv s) (hx : s.cancelled q = true) : (s.queues q).freed = true := by
  refine (hC.joined q hx).resolve_right ?_
  rintro ⟨t, c, hc, -⟩
  simp [h.calls t] at hc

/-- A processor that waits has nothing before it. -/
theorem Idle.curEvtNum {ok : State abi → Thread × Act abi → Prop} (h : Idle s) (hr : Reach ok clients s)
    (hw : s.procer q = .waiting) : (s.queue q).curEvtNum = 0 := by
  by_contra hnum
  obtain ⟨t, id, arg, hc⟩ := stored_of_waiting hr hw hnum
  simp [h.calls t] at hc

theorem Idle.atRest (h : Idle s) (hr : Reach (fun s x => s.polite x = true) clients s) : AtRest s := by
  have hL := liveInv_reach hr
  have hH := holdInv_reach hr
  have hC := cancelInv_reach hr
  obtain ⟨hU, hQ⟩ := queue_reach hr
  have hset : s.Settled := fun t c hc => by simp [h.calls t] at hc
  constructor
  case locks =>
    refine ⟨?_, ?_, fun q => ?_⟩
    · by_contra hw
      obtain ⟨t, ht⟩ := Option.ne_none_iff_exists'.mp hw
      obtain ⟨n, c, rfl, hc, -⟩ := (waitInv_of_polite hr).stateLock t ht
      simp [h.calls] at hc
    · by_contra hne
      obtain ⟨u, hu⟩ := List.exists_mem_of_ne_nil _ hne
      obtain ⟨q, rfl, hread⟩ := subReaders_of_polite hr hu
      simp [h.procer q (ProcerPc.alive_of_reading hread), ProcerPc.reading] at hread
    · by_cases hm : (s.queues q).mutex = none
      · exact .inr hm
      · obtain ⟨v, hv⟩ := Option.ne_none_iff_exists'.mp hm
        exact .inl (h.freed hC (hC.ended q (hH.mutex q v hv).2))
  case stopped =>
    intro q hx
    have hf := h.freed hC hx
    exact ⟨(stopInv_of_polite hr q).freed hf, hf⟩
  case running =>
    intro q hcur
    obtain ⟨hne, hu⟩ := hL.usable hset q hcur
    have hended : s.procer q ≠ .ended := fun he => by
      have hf := hu.freed
      simp [h.freed hC (hC.ended q he)] at hf
    have hw := h.procer q ⟨hne, hended⟩
    exact ⟨hw, h.curEvtNum hr hw⟩
  case dispatched =>
    intro q
    have hI := stopInv_of_polite hr q
    have hidle : ∀ slot k pc, s.procer q ≠ .dispatch slot k pc := fun slot k pc hp => by
      simpa [hp] using h.procer q (by simp [hp, ProcerPc.alive])
    have hno : s.dispatchNo q = (s.taken q).length := by
      unfold State.dispatchNo
      split
      · rename_i hp
        exact absurd hp (hidle _ _ _)
      · rfl
    have htaken : s.taken q = s.accepted q := by
      by_cases he : s.procer q = .ended
      · exact (hI.ended he).2.symm
      · by_cases hcur : s.evtQueue = some q
        · obtain ⟨hne, hu⟩ := hL.usable hset q hcur
          exact (hQ.accepted_eq_taken hu.mutexInit (h.curEvtNum hr (h.procer q ⟨hne, he⟩))).symm
        · -- a queue that was never created
          have hge : s.nextQueue ≤ q := Nat.not_lt.mp fun hlt => he (freedInv_reach hr q hlt hcur).2
          have hzero := hU q (by rw [(hL.fresh q hge).2]; rfl)
          rw [hzero.2.1, hzero.2.2.1]
    exact ⟨htaken, by rw [hI.dispatched, hno, htaken]⟩

/-! ### The law -/

/-- What happens after a state when user code makes no further calls and its callbacks return. -/
structure Settles (s : State abi) : Prop where
  /-- Runs are not longer than a bound. -/
  bounded : ∃ n, ∀ acts s', Runs.runUnder next (fun s x => busy s x = true) acts s = some s' → acts.length ≤ n
  /-- As long as anything is in progress, somebody can go on. -/
  goes : ∀ s', Runs.ReachUnder next (fun s x => busy s x = true) s s' → s'.halted = none → ¬ Idle s' →
    ∃ x s'', busy s' x = true ∧ next s' x = some s''
  /-- Everything comes to its end, unless a fault ends the process. -/
  ends : ∃ s', Runs.ReachUnder next (fun s x => busy s x = true) s s' ∧ (Idle s' ∨ s'.halted ≠ none)
  rest : ∀ s', Runs.ReachUnder next (fun s x => busy s x = true) s s' → Idle s' → AtRest s'

theorem polite_drains (abi : Abi) (clients n : ℕ) :
    Runs.Drains next (fun (s : State abi) x => busy s x = true)
      (fun s => Reach (fun s x => s.polite x = true) clients s ∧ s.Within n) (fun s => Idle s ∨ s.halted ≠ none)
      (State.work · n) where
  step s s' a hI hok hn := by
    have hW := (next_trans hn).2.within hI.2 fun api ha => by
      obtain ⟨t, a⟩ := a
      obtain rfl : a = .call api := ha
      simp [busy] at hok
    exact ⟨⟨hI.1.tail a (polite_of_busy hok) hn, hW⟩, work_lt hI.1 hI.2 hok hn⟩
  go s hI hs := by
    obtain ⟨hs, hh⟩ := not_or.mp hs
    obtain ⟨t, a, s', hok, hn⟩ := exists_canGo hI.1 (not_not.mp hh) hs
    exact ⟨(t, a), s', hok, hn⟩

/-- If besides no post has overwritten the slot of a dispatch, every dispatch was that of the event accepted with its
number, and made all the calls due for it. -/
theorem Idle.served (h : Idle s) (hr : Reach (fun s x => s.polite x = true ∧ s.keepsSlot x = true) clients s) (q : ℕ)
    {k : ℕ} {d : EvtDesc abi} (hd : (s.accepted q)[k]? = some d) : ∃ s₁ s₂,
      Served (fun s x => s.polite x = true ∧ s.keepsSlot x = true) clients s s₁ s₂ q k d := by
  have hrest := h.atRest (hr.mono fun _ _ hx => hx.1)
  have hk : k ∈ s.dispatched q := by
    rw [(hrest.dispatched q).2, List.mem_range]
    exact (List.getElem?_eq_some_iff.mp hd).1
  obtain ⟨d', s₁, s₂, hS⟩ := served_reach (fun s x hx => ⟨(State.polite_iff.mp hx.1).2.2, hx.2⟩) hr k hk
  obtain rfl := Option.some.inj (hS.accepted.symm.trans hd)
  exact ⟨s₁, s₂, hS⟩

/-- Client `0` disables the manager while the processor runs a callback, with another event queued. -/
def joinedInCallback : List (Thread × Act lp64) :=
  startedDefault ++ postedKeepAlive ++ postedKeepAlive ++ List.replicate 6 (.procer 0, .go) ++
    [(.client 0, .call .disableEvtManger), (.client 0, .go)]

end PlatIF.Evt
