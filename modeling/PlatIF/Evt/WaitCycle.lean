import PlatIF.Evt.Locks
import PlatIF.Evt.PostSafety
import PlatIF.Lib.WaitGraph

/-!
# Waits among the locks of the manager

Between two steps a thread may hold the state lock (while it sets up a queue, or stops one and joins its processor), the
subscription table (in a dispatch) or the mutex of a queue (when it ended in `pthread_cond_wait`).  The registry lock and the publication table's lock are
held only within one step, in sections that wait for nothing, so that nobody in a cycle waits for them.

* `WaitsFor` — who waits for whom;
* `waitInv_reach` — in runs under `waitSafe`, a callback is at no lock that its own thread has, nor at the state lock
  while its thread is joined;
* `no_wait_cycle` — then there is no cycle of waits, and a step that does not meet `waitSafe` makes one.
-/

namespace PlatIF.Evt

variable {abi : Abi} {s s' : State abi} {t u : Thread} {a : Act abi} {env : Env} {clients q : ℕ} {c : Call abi}

/-! ### Waiting -/

/-- The call is at a lock of the state lock, for reading or for writing. -/
def Call.locksState : Call abi → Bool
  | .initEvtManger _ | .enableEvtManger .lock | .disableEvtManger .lock | .regOper _ false => true
  | _ => false

/-- The queue whose processor the call joins. -/
def Call.joins : Call abi → Option ℕ
  | .disableEvtManger (.join q) => some q
  | _ => none

theorem Call.joins_eq_some : c.joins = some q ↔ c = .disableEvtManger (.join q) := by
  unfold Call.joins
  split <;> simp_all

/-- What a thread may wait for, and the thread that has to act first. -/
inductive WaitsFor (s : State abi) (t u : Thread) : Prop
  | stateLock {c : Call abi} (hc : s.calls t = some c) (hl : c.locksState = true) (hu : s.stateWLock = some u)
  | subTable {c : Call abi} (hc : s.calls t = some c) (hl : c.writesSubTable = true) (hu : u ∈ s.subReaders)
  | mutex {c : Call abi} {q : ℕ} (hc : s.calls t = some c) (hl : c.lockTarget = some q)
      (hu : (s.queues q).mutex = some u)
  | procerMutex {q : ℕ} (ht : t = .procer q) (hp : s.procer q = .top ∨ s.procer q = .woken)
      (hu : (s.queues q).mutex = some u)
  | join {c : Call abi} {q : ℕ} (hc : s.calls t = some c) (hl : c.joins = some q) (hu : u = .procer q)
      (hp : s.procer q ≠ .ended)

/-! ### The condition -/

/-- The functions that a callback may call. -/
def Api.ofCb : Api abi → Bool
  | .postEvtSRT _ _ | .regOper _ | .pubEvts _ _ | .subEvts _ _ _ | .unsubEvts _ => true
  | _ => false

/-- Callbacks call `postEvtSRT`, `regOper`, `pubEvts`, `subEvts` and `unsubEvts` only. -/
def cbCalls (x : Thread × Act abi) : Bool :=
  match x with
  | (.procer _, .call api) => api.ofCb
  | _ => true

/-- The thread that has the state locked joins a processor. -/
def State.joining (s : State abi) : Bool := s.stateWLock.any fun u => (s.calls u).any fun c => c.joins.isSome

/-- A callback on the processor of the current queue is at the state lock. -/
def State.cbAtStateLock (s : State abi) : Bool :=
  s.evtQueue.any fun q => (s.calls (.procer q)).any Call.locksState

/-- The step is not one of a callback that goes on to the write lock of the subscription table, which its thread reads;
nor does a callback come to the state lock while its processor is joined, or a join begin while it is there. -/
def State.waitSafe (s : State abi) (x : Thread × Act abi) : Bool :=
  match x with
  | (.procer _, .call (.unsubEvts _)) => false
  | (.procer _, .call (.regOper _)) => !s.joining
  | (t, .run _) =>
    match t, s.calls t with
    | .procer _, some (.subEvts id _ _ false) => s.manger.isRegedOperID id != tosYes
    | _, some (.disableEvtManger .lock) => s.manger.state != .running || !s.cbAtStateLock
    | _, _ => true
  | _ => true

/-! ### The invariant -/

/-- The call is one that a callback may make. -/
def Call.ofCb : Call abi → Bool
  | .postEvtSRT _ _ _ | .regOper _ _ | .pubEvts _ _ _ | .subEvts _ _ _ _ | .unsubEvts _ => true
  | _ => false

/-- A callback's call waits for nothing that the callback's own thread has, nor for a thread that joins; and the state
lock is held by a client that enables or disables. -/
structure WaitInv (s : State abi) : Prop where
  stateLock : ∀ t, s.stateWLock = some t → ∃ n c, t = .client n ∧ s.calls t = some c ∧ c.holdsState = true
  ofCb : ∀ q c, s.calls (.procer q) = some c → c.ofCb = true
  subTable : ∀ q c, s.calls (.procer q) = some c → c.writesSubTable = false
  locksState : ∀ q c, s.calls (.procer q) = some c → c.locksState = true →
    ∀ u p, s.calls u ≠ some (.disableEvtManger (.join p))

theorem Call.holdsState_of_ofCb (h : c.ofCb = true) : c.holdsState = false := by
  cases c <;> simp_all [Call.ofCb, Call.holdsState]

theorem Call.holdsState_of_joins (h : c.joins = some q) : c.holdsState = true := by
  rw [Call.joins_eq_some.mp h]
  rfl

theorem Call.joins_of_not_holds (h : c.holdsState = false) : c.joins = none := by
  cases hj : c.joins with
  | none => rfl
  | some q => simp [Call.holdsState_of_joins hj] at h

theorem Call.holdsState_of_locksState (h : c.locksState = true) : c.holdsState = false := by
  unfold Call.locksState at h
  split at h <;> simp_all [Call.holdsState]

theorem Call.holdsState_of_writesSubTable (h : c.writesSubTable = true) : c.holdsState = false := by
  unfold Call.writesSubTable at h
  split at h <;> simp_all [Call.holdsState]

theorem Call.holdsState_of_lockTarget (h : c.lockTarget = some q) : c.holdsState = false := by
  obtain ⟨id, arg, rfl⟩ := Call.lockTarget_eq_some.mp h
  rfl

/-- Who joins has the state locked. -/
theorem StateLock.joining (hX : StateLock s) {p : ℕ} (hc : s.calls t = some (.disableEvtManger (.join p))) :
    s.joining = true := by
  simp [State.joining, hX t _ hc rfl, hc, Call.joins]

/-- The calls that set up or stop a queue are not those of a callback. -/
theorem LifeStep.not_ofCb (h : LifeStep s t c s') : c.ofCb = false := by
  cases h <;> rfl

/-- A callback's call on the tables stays off the locks that its thread has. -/
theorem TableStep.ofCb {m : Manger abi} {n : ℕ} {c' : Call abi} {os : List (Obs abi)}
    (h : TableStep s t env c m n (some c') os) (hc : c.ofCb = true)
    (hsub : ∀ id ids args, c = .subEvts id ids args false → s.manger.isRegedOperID id ≠ tosYes) :
    c'.ofCb = true ∧ c'.writesSubTable = false ∧ c'.locksState = false := by
  cases h with
  | subCheck hr => exact absurd hr (hsub _ _ _ rfl)
  | _ => simp [Call.ofCb, Call.writesSubTable, Call.locksState]

/-- A callback at the state lock is on the processor of the current queue. -/
theorem cbAtStateLock_of_call (hL : LiveInv s) (hc : s.calls (.procer q) = some c) (hl : c.locksState = true) :
    s.cbAtStateLock = true := by
  have hq := (hL.ofCb (p := q) (by simp [hc])).1
  simp [State.cbAtStateLock, hq, hc, hl]

/-- The calls of a callback after a step of its own. -/
theorem waitInv_self (hX : StateLock s) (hW : WaitInv s) (hcb : cbCalls (Thread.procer q, a) = true)
    (hok : s.waitSafe (.procer q, a) = true) (h : Trans s (.procer q) a s') (hc : s'.calls (.procer q) = some c) :
    c.ofCb = true ∧ c.writesSubTable = false ∧
      (c.locksState = true → ∀ u p, s'.calls u ≠ some (.disableEvtManger (.join p))) := by
  have hold : s.calls (.procer q) = some c → s'.calls = s.calls →
      c.ofCb = true ∧ c.writesSubTable = false ∧
        (c.locksState = true → ∀ u p, s'.calls u ≠ some (.disableEvtManger (.join p))) :=
    fun hc hs => ⟨hW.ofCb q c hc, hW.subTable q c hc, fun hl u p => hs ▸ hW.locksState q c hc hl u p⟩
  cases h with
  | @call api ha hc' hu hr =>
    subst ha
    simp only [State.setCall, Function.update_self, Option.some.injEq] at hc
    subst hc
    cases api with
    | regOper args =>
      refine ⟨rfl, rfl, fun _ u p hj => ?_⟩
      by_cases hut : u = .procer q
      · subst hut
        simp [Api.toCall] at hj
      · have hj' := hX.joining ((Function.update_of_ne hut _ _).symm.trans hj)
        simp [State.waitSafe, hj'] at hok
    | unsubEvts id => simp [State.waitSafe] at hok
    | postEvtSRT | pubEvts | subEvts => exact ⟨rfl, rfl, fun hl => by simp [Api.toCall, Call.locksState] at hl⟩
    | _ => simp [cbCalls, Api.ofCb] at hcb
  | @table env c₀ m n c' os ha hc' htab =>
    subst ha
    simp only [State.tableStep, Function.update_self] at hc
    subst hc
    obtain ⟨h1, h2, h3⟩ := htab.ofCb (hW.ofCb q _ hc') fun id ids args he => by
      subst he
      simpa [State.waitSafe, hc'] using hok
    exact ⟨h1, h2, fun hl => by simp [h3] at hl⟩
  | life ha hc' hl =>
    have hcb' := hW.ofCb q _ hc'
    simp [hl.not_ofCb] at hcb'
  | post ha hc' =>
    simp only [State.obs, State.setCall, Function.update_self, Option.some.injEq] at hc
    subst hc
    exact ⟨rfl, rfl, fun hl => by simp [Call.locksState] at hl⟩
  | cancelJoin | signal => simp at hc
  | _ => exact hold hc rfl

/-- The thread that has the state locked keeps it to its return. -/
theorem waitInv_lock (hX : StateLock s) (hW : WaitInv s) (h : Trans s t a s') (hu : s'.stateWLock = some u) :
    ∃ n c, u = .client n ∧ s'.calls u = some c ∧ c.holdsState = true := by
  -- a holder that goes on where it is
  have hkeep : s.stateWLock = some u → (∀ n c, u = .client n → s.calls u = some c → c.holdsState = true →
      s'.calls u = some c) → ∃ n c, u = .client n ∧ s'.calls u = some c ∧ c.holdsState = true := fun hu hstay => by
    obtain ⟨n, c, hn, hc, hx⟩ := hW.stateLock u hu
    exact ⟨n, c, hn, hstay n c hn hc hx, hx⟩
  cases h with
  | life ha hc hl =>
    have ht : ∃ n, t = .client n := by
      cases t with
      | client n => exact ⟨n, rfl⟩
      | procer p =>
        have hcb := hW.ofCb p _ hc
        simp [hl.not_ofCb] at hcb
    obtain ⟨n, rfl⟩ := ht
    have hu' : u = .client n := by
      cases hl with
      | enable | disable => exact (Option.some.inj hu).symm
      | initMutex | initCond | create | destroyMutex | destroyCond | free | clear =>
        exact (Option.some.inj ((hX _ _ hc rfl).symm.trans hu)).symm
      | enabled | disabled => simp at hu
    subst hu'
    cases hl with
    | enable | initMutex | initCond | create | disable | destroyMutex | destroyCond | free | clear =>
      exact ⟨n, _, rfl, Function.update_self _ _ _, rfl⟩
    | enabled | disabled => simp at hu
  | @call api ha hc =>
    refine hkeep hu fun n c hn hcu hx => ?_
    have hne : u ≠ t := fun h => by simp [h, hc] at hcu
    exact (Function.update_of_ne hne _ _).trans hcu
  | table ha hc htab =>
    refine hkeep hu fun n c hn hcu hx => ?_
    have hne : u ≠ t := fun h => by
      obtain rfl := Option.some.inj (hc.symm.trans (h ▸ hcu))
      simp [htab.holdsState] at hx
    exact (Function.update_of_ne hne _ _).trans hcu
  | cancelJoin ha ht hc =>
    refine hkeep hu fun n c hn hcu hx => ?_
    have hne : u ≠ t := fun h => by simp [hn, ht] at h
    exact (Function.update_of_ne hne _ _).trans hcu
  | post ha hc =>
    refine hkeep (by simpa using hu) fun n c hn hcu hx => ?_
    have hne : u ≠ t := fun h => by
      obtain rfl := Option.some.inj (hc.symm.trans (h ▸ hcu))
      simp [Call.holdsState] at hx
    simpa [Function.update_of_ne hne] using hcu
  | signal ha hc =>
    refine hkeep (by simpa using hu) fun n c hn hcu hx => ?_
    have hne : u ≠ t := fun h => by
      obtain rfl := Option.some.inj (hc.symm.trans (h ▸ hcu))
      simp [Call.holdsState] at hx
    simpa [Function.update_of_ne hne] using hcu
  | _ => exact hkeep hu fun _ _ _ hcu _ => hcu

/-- A join begins in the absence of callbacks at the state lock. -/
theorem waitInv_join (hok : s.waitSafe (t, a) = true) (h : Trans s t a s') {p : ℕ}
    (hj : s'.calls u = some (.disableEvtManger (.join p))) :
    s.calls u = some (.disableEvtManger (.join p)) ∨ s.cbAtStateLock = false := by
  by_cases hut : u = t
  · subst hut
    cases h with
    | @call api ha hc =>
      simp only [State.setCall, Function.update_self, Option.some.injEq] at hj
      cases api <;> simp [Api.toCall] at hj
    | table ha hc htab =>
      have hrest := htab.rest.1 _ (by simpa using hj)
      simp [Call.holdsState] at hrest
    | life ha hc hl =>
      cases hl with
      | disable hw hs hq =>
        subst ha
        cases u <;> exact .inr (by simpa [State.waitSafe, hc, hs] using hok)
      | enable | initMutex | initCond | create | enabled | destroyMutex | destroyCond | free | clear | disabled => simp at hj
    | cancelJoin | post | signal => simp at hj
    | _ => exact .inl hj
  · exact .inl ((h.calls_ne hut).symm.trans hj)

theorem waitInv_trans (hL : LiveInv s) (hX : StateLock s) (hW : WaitInv s) (hcb : cbCalls (t, a) = true)
    (hok : s.waitSafe (t, a) = true) (h : Trans s t a s') : WaitInv s' := by
  have hcalls : ∀ p c, s'.calls (.procer p) = some c → c.ofCb = true ∧ c.writesSubTable = false ∧
      (c.locksState = true → ∀ u p, s'.calls u ≠ some (.disableEvtManger (.join p))) := by
    intro p c hc
    by_cases ht : t = .procer p
    · subst ht
      exact waitInv_self hX hW hcb hok h hc
    · rw [h.calls_ne (Ne.symm ht)] at hc
      refine ⟨hW.ofCb p c hc, hW.subTable p c hc, fun hl u p' hj => ?_⟩
      rcases waitInv_join hok h hj with hold | hno
      · exact hW.locksState p c hc hl u p' hold
      · simp [cbAtStateLock_of_call hL hc hl] at hno
  exact ⟨fun u hu => waitInv_lock hX hW h hu, fun p c hc => (hcalls p c hc).1, fun p c hc => (hcalls p c hc).2.1,
    fun p c hc => (hcalls p c hc).2.2⟩

theorem waitInv_reach (h : Reach (fun s x => cbCalls x = true ∧ s.waitSafe x = true) clients s) : WaitInv s :=
  h.induction (P := WaitInv) ⟨by simp [State.init], by simp [State.init], by simp [State.init], by simp [State.init]⟩
    fun _ _ _ _ hr hW hok _ h => waitInv_trans (liveInv_reach hr) (stateLock_reach hr) hW hok.1 hok.2 h

/-! ### Cycles -/

/-- Clients wait for clients that have the state locked; those that join for processors, which wait for processors that
have ended and for clients that set up or stop a queue without a join, and these wait for nobody. -/
def State.waitRank (s : State abi) (t : Thread) : ℕ :=
  match t with
  | .client n =>
    if (s.calls (.client n)).any fun c => c.joins.isSome then 2
    else if (s.calls (.client n)).any Call.holdsState then 0
    else 3
  | .procer q => if s.procer q = .ended then 0 else 1

theorem waitRank_client (n : ℕ) (hc : s.calls (.client n) = some c) (hx : c.holdsState = false) :
    s.waitRank (.client n) = 3 := by
  simp [State.waitRank, hc, hx, Call.joins_of_not_holds hx]

theorem waitRank_joins (n : ℕ) (hc : s.calls (.client n) = some c) (hj : c.joins = some q) :
    s.waitRank (.client n) = 2 := by
  simp [State.waitRank, hc, hj]

theorem waitRank_holds (n : ℕ) (hc : s.calls (.client n) = some c) (hx : c.holdsState = true) (hj : c.joins = none) :
    s.waitRank (.client n) = 0 := by
  simp [State.waitRank, hc, hx, hj]

theorem waitRank_procer (s : State abi) (q : ℕ) : s.waitRank (.procer q) ≤ 1 := by
  simp only [State.waitRank]
  split <;> omega

/-- Every wait is for a thread of lower rank. -/
theorem WaitsFor.rank_lt (hL : LiveInv s) (hH : HoldInv s) (hW : WaitInv s) (h : WaitsFor s t u) :
    s.waitRank u < s.waitRank t := by
  have hprocer : ∀ q, u = .procer q → s.waitRank u ≤ 1 := by
    rintro q rfl
    exact waitRank_procer s q
  have hended : ∀ q, (s.queues q).mutex = some u → s.waitRank u = 0 := by
    intro q hu
    obtain ⟨rfl, he⟩ := hH.mutex q u hu
    simp [State.waitRank, he]
  cases h with
  | @stateLock c hc hl hu =>
    obtain ⟨n, d, rfl, hd, hx⟩ := hW.stateLock u hu
    cases t with
    | client m =>
      rw [waitRank_client m hc (Call.holdsState_of_locksState hl)]
      cases hj : d.joins with
      | none =>
        rw [waitRank_holds n hd hx hj]
        omega
      | some q =>
        rw [waitRank_joins n hd hj]
        omega
    | procer p =>
      -- the holder does not join, since a callback is at its lock
      have hj : d.joins = none := by
        cases hj : d.joins with
        | none => rfl
        | some q => exact absurd (Call.joins_eq_some.mp hj ▸ hd) (hW.locksState p c hc hl _ q)
      have hne : s.procer p ≠ .ended := (ProcerPc.alive_of_isInCb (hL.inCb p (by simp [hc]))).2
      rw [waitRank_holds n hd hx hj]
      simp [State.waitRank, hne]
  | @subTable c hc hl hu =>
    cases t with
    | client m =>
      rw [waitRank_client m hc (Call.holdsState_of_writesSubTable hl)]
      cases u with
      | client n => exact absurd hu (hH.client n)
      | procer q =>
        have hle := hprocer q rfl
        omega
    | procer p => simp [hW.subTable p c hc] at hl
  | @mutex c q hc hl hu =>
    rw [hended q hu]
    cases t with
    | client m =>
      rw [waitRank_client m hc (Call.holdsState_of_lockTarget hl)]
      omega
    | procer p =>
      have hcb := hL.inCb p (by simp [hc])
      have hne : s.procer p ≠ .ended := (ProcerPc.alive_of_isInCb hcb).2
      simp [State.waitRank, hne]
  | @procerMutex q ht hp hu =>
    have he := (hH.mutex q u hu).2
    rcases hp with hp | hp <;> simp [hp] at he
  | @join c q hc hl hu hp =>
    have hle := hprocer q hu
    cases t with
    | client m =>
      rw [waitRank_joins m hc hl]
      omega
    | procer p =>
      have hx := Call.holdsState_of_ofCb (hW.ofCb p c hc)
      simp [Call.holdsState_of_joins hl] at hx

/-- The call of a thread that has just made it. -/
theorem next_call {api : Api abi} (hn : next s (t, .call api) = some s') :
    s.userCode t = true ∧ s'.calls t = some api.toCall ∧ s'.subReaders = s.subReaders ∧
      s'.stateWLock = s.stateWLock ∧ s'.procer = s.procer ∧ ∀ u, u ≠ t → s'.calls u = s.calls u := by
  unfold next at hn
  split at hn
  · simp at hn
  · split at hn
    case h_4 api' hc ha =>
      obtain rfl := Act.call.inj ha
      unfold State.startCall at hn
      split at hn
      · simp at hn
      · split at hn
        · rename_i hu
          obtain rfl := Option.some.inj hn
          exact ⟨hu, by simp, rfl, rfl, rfl, fun u hne => by simp [Function.update_of_ne hne]⟩
        · simp at hn
    case h_5 hc hno => exact absurd rfl (hno api)
    all_goals simp_all

/-- A client that joins and a callback at the state lock on the joined processor wait for one another. -/
theorem cycle_of_join {n : ℕ} {c' : Call abi} (hw : s.stateWLock = some (.client n))
    (hj : s.calls (.client n) = some c) (hjoin : c.joins = some q) (hp : s.procer q ≠ .ended)
    (hc : s.calls (.procer q) = some c') (hl : c'.locksState = true) :
    WaitGraph.Cycle (WaitsFor s) (.procer q) :=
  WaitGraph.Cycle.of_two (.stateLock hc hl hw) (.join hj hjoin rfl hp)

/-- A callback's `subEvts` goes on to wait for the table that its own thread reads. -/
theorem cycle_of_subEvts {id : EvtOperID abi} {ids : List EvtID} {args : EvtSubArgs} (hL : LiveInv s) (hH : HoldInv s)
    (hc : s.calls (.procer q) = some (.subEvts id ids args false)) (hreg : s.manger.isRegedOperID id = tosYes)
    (h : Trans s (.procer q) (.run env) s') : WaitGraph.Cycle (WaitsFor s') (.procer q) := by
  have hread := hH.reading q (ProcerPc.reading_of_isInCb (hL.inCb q (by simp [hc])))
  cases h with
  | table ha hc' htab =>
    obtain rfl := Option.some.inj (hc.symm.trans hc')
    cases htab with
    | subNotReged hr => exact absurd hreg hr
    | subCheck =>
      have hc' : (s.tableStep (.procer q) s.manger s.nextRow (some (.subEvts id ids args true)) []).calls
          (.procer q) = some (.subEvts id ids args true) := Function.update_self ..
      exact .of_self (.subTable hc' rfl hread)
  | life ha hc' hl =>
    obtain rfl := Option.some.inj (hc.symm.trans hc')
    cases hl
  | halt hh => cases hh <;> simp_all
  | _ => simp_all

/-- A join begins while a callback on the processor is at the state lock. -/
theorem cycle_of_disable (hL : LiveInv s) (hX : StateLock s) (hW : WaitInv s)
    (hc : s.calls t = some (.disableEvtManger .lock))
    (hrun : s.manger.state = .running) (hcb : s.cbAtStateLock = true) (h : Trans s t (.run env) s') :
    ∃ u, WaitGraph.Cycle (WaitsFor s') u := by
  cases h with
  | table ha hc' htab =>
    obtain rfl := Option.some.inj (hc.symm.trans hc')
    cases htab with
    | disableNot hw hs => exact absurd hrun hs
    | disableNone hw hs hq => exact absurd hq ((hL.running (hX.settled hw)).mpr hs)
  | life ha hc' hl =>
    obtain rfl := Option.some.inj (hc.symm.trans hc')
    cases t with
    | client n =>
      cases hl with
      | @disable q hw hs hq =>
        simp only [State.cbAtStateLock, hq, Option.any_some, Option.any_eq_true] at hcb
        obtain ⟨c', hc'', hl⟩ := hcb
        have halive := ProcerPc.alive_of_isInCb (hL.inCb q (by simp [hc'']))
        have hne : Thread.procer q ≠ .client n := by simp
        have hjoin : Function.update s.calls (.client n) (some (.disableEvtManger (.join q))) (.client n) =
            some (.disableEvtManger (.join q)) := Function.update_self ..
        have hlock : Function.update s.calls (.client n) (some (.disableEvtManger (.join q))) (.procer q) = some c' := by
          rw [Function.update_of_ne hne, hc'']
        exact ⟨.procer q, cycle_of_join rfl hjoin rfl halive.2 hlock hl⟩
    | procer p =>
      have hcb' := hW.ofCb p _ hc'
      simp [Call.ofCb] at hcb'
  | halt hh => cases hh <;> simp_all
  | _ => simp_all

/-- A step that does not meet the condition leads to a cycle. -/
theorem cycle_of_unsafe (hL : LiveInv s) (hH : HoldInv s) (hX : StateLock s) (hW : WaitInv s)
    (hok : s.waitSafe (t, a) = false) (hn : next s (t, a) = some s') :
    ∃ u, WaitGraph.Cycle (WaitsFor s') u := by
  unfold State.waitSafe at hok
  split at hok
  case h_1 q id hx =>
    -- `unsubEvts` waits for the table that its own thread reads
    obtain ⟨rfl, rfl⟩ := Prod.mk.inj hx
    obtain ⟨hu, hc, hR, -⟩ := next_call hn
    have hread := hH.reading q (ProcerPc.reading_of_isInCb hu)
    exact ⟨.procer q, .of_self (.subTable hc rfl (hR ▸ hread))⟩
  case h_2 q args hx =>
    obtain ⟨rfl, rfl⟩ := Prod.mk.inj hx
    obtain ⟨hu, hc, -, hw, hp, hne⟩ := next_call hn
    simp only [Bool.not_eq_false', State.joining, Option.any_eq_true, Option.isSome_iff_exists] at hok
    obtain ⟨u, hlock, d, hd, p, hj⟩ := hok
    obtain rfl := Call.joins_eq_some.mp hj
    obtain ⟨n, -, rfl, -⟩ := hW.stateLock u hlock
    -- the processor that is joined is the one with the callback
    have halive := ProcerPc.alive_of_isInCb hu
    have hq : p = q := Option.some.inj ((hL.join hd).2.1.symm.trans (hL.live q halive).1)
    subst hq
    have hj' : s'.calls (.client n) = some (.disableEvtManger (.join p)) := (hne _ (by simp)).trans hd
    exact ⟨.procer p, cycle_of_join (hw.trans hlock) hj' rfl (by rw [hp]; exact halive.2) hc rfl⟩
  case h_3 env hx =>
    obtain ⟨rfl, rfl⟩ := Prod.mk.inj hx
    have htrans := (next_trans hn).2
    split at hok
    case h_1 q id ids args hc => exact ⟨_, cycle_of_subEvts hL hH hc (by simpa using hok) htrans⟩
    case h_2 hc =>
      simp only [Bool.or_eq_false_iff, Bool.not_eq_false', bne_eq_false_iff_eq] at hok
      exact cycle_of_disable hL hX hW hc hok.1 hok.2 htrans
    case h_3 => simp at hok
  case h_4 => simp at hok

theorem no_cycle_reach (hr : Reach (fun s x => cbCalls x = true ∧ s.waitSafe x = true) clients s) :
    ¬ WaitGraph.Cycle (WaitsFor s) t := by
  have hL := liveInv_reach hr
  have hH := holdInv_reach hr
  have hW := waitInv_reach hr
  have hrank : ∀ t u, WaitsFor s t u → s.waitRank u < s.waitRank t := fun t u h => h.rank_lt hL hH hW
  exact WaitGraph.not_cycle hrank

/-- **No circular wait.**  In every run of clients and of callbacks that call `postEvtSRT`, `regOper`, `pubEvts`,
`subEvts` and `unsubEvts`, whose steps meet `waitSafe`, no chain of waits leads from a thread back to itself; and the
condition is exact: the next step keeps it so if and only if it meets `waitSafe`. -/
theorem no_wait_cycle (hr : Reach (fun s x => cbCalls x = true ∧ s.waitSafe x = true) clients s) :
    (∀ t, ¬ WaitGraph.Cycle (WaitsFor s) t) ∧
      ∀ x s', cbCalls x = true → next s x = some s' →
        (s.waitSafe x = true ↔ ∀ t, ¬ WaitGraph.Cycle (WaitsFor s') t) := by
  refine ⟨fun t => no_cycle_reach hr, fun x s' hcb hn => ⟨fun hok t => ?_, fun hfree => ?_⟩⟩
  · exact no_cycle_reach (hr.tail x ⟨hcb, hok⟩ hn)
  · by_contra hok
    obtain ⟨u, hcycle⟩ := cycle_of_unsafe (liveInv_reach hr) (holdInv_reach hr) (stateLock_reach hr) (waitInv_reach hr)
      (by simpa using hok) hn
    exact hfree u hcycle

/-- The processor of queue `0` runs a callback. -/
def inCallback : List (Thread × Act lp64) :=
  startedDefault ++ postedKeepAlive ++ List.replicate 6 (.procer 0, .go)

/-- A callback that calls `subEvts` waits for its own thread; and a callback that calls `regOper` waits for the client
that joins its processor. -/
theorem callback_waits_in_cycle :
    (∃ s : State lp64, Reach (fun _ x => cbCalls x = true) 1 s ∧ WaitGraph.Cycle (WaitsFor s) (.procer 0)) ∧
    ∃ s : State lp64, Reach (fun _ x => cbCalls x = true) 1 s ∧ WaitsFor s (.procer 0) (.client 0) ∧
      WaitGraph.Cycle (WaitsFor s) (.procer 0) := by
  constructor
  · obtain ⟨s, hr, hs⟩ := reach_of_run (fun _ x => cbCalls x = true) 1
      (inCallback ++ ([(.procer 0, .call (.subEvts 0 [evtIDTestKeepAlive] ⟨1, 1⟩)), (.procer 0, .go)] :
        List (Thread × Act lp64)))
      (fun s => (s.calls (.procer 0)).any fun c : Call lp64 =>
        c.writesSubTable && decide (.procer 0 ∈ s.subReaders)) (by decide +kernel)
    simp only [Option.any_eq_true, Bool.and_eq_true, decide_eq_true_eq] at hs
    obtain ⟨c, hc, hl, hread⟩ := hs
    exact ⟨s, hr, .of_self (.subTable hc hl hread)⟩
  · obtain ⟨s, hr, hs⟩ := reach_of_run (fun _ x => cbCalls x = true) 1
      (inCallback ++ ([(.client 0, .call .disableEvtManger), (.client 0, .go), (.procer 0, .call (.regOper ⟨0⟩))] :
        List (Thread × Act lp64)))
      (fun s => (s.calls (.procer 0)).any fun c : Call lp64 => (s.calls (.client 0)).any fun c' : Call lp64 =>
        c.locksState && decide (s.stateWLock = some (.client 0)) && c'.joins == some 0 &&
          decide (s.procer 0 ≠ .ended)) (by decide +kernel)
    simp only [Option.any_eq_true, Bool.and_eq_true, decide_eq_true_eq, beq_iff_eq] at hs
    obtain ⟨c, hc, c', hc', ⟨⟨hl, hw⟩, hj⟩, hp⟩ := hs
    exact ⟨s, hr, .stateLock hc hl hw, cycle_of_join hw hc' hj hp hc hl⟩

/-- A client waits for a callback that posts. -/
theorem no_wait_cycle_unsub :
    ∃ s : State lp64, WaitsFor s (.client 0) (.procer 0) ∧ ∀ t, ¬ WaitGraph.Cycle (WaitsFor s) t := by
  obtain ⟨s, hr, hs⟩ := reach_of_run (fun s x => cbCalls x = true ∧ s.waitSafe x = true) 1
    (inCallback ++ ([(.procer 0, .call (.postEvtSRT 0 .received)), (.client 0, .call (.unsubEvts 0))] :
      List (Thread × Act lp64)))
    (fun s => (s.calls (.client 0)).any fun c : Call lp64 =>
      c.writesSubTable && decide (.procer 0 ∈ s.subReaders)) (by decide +kernel)
  simp only [Option.any_eq_true, Bool.and_eq_true, decide_eq_true_eq] at hs
  obtain ⟨c, hc, hl, hread⟩ := hs
  exact ⟨s, .subTable hc hl hread, (no_wait_cycle hr).1⟩

end PlatIF.Evt
