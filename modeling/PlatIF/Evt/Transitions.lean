import PlatIF.Evt.Machine

/-!
# The transitions of the manager

`Trans s t a s'` lists what a step can do, with the guards that hold there, and `next_trans` is the inversion of the
step function: no later proof unfolds it.  The steps of calls that leave the queues alone are one transition,
`TableStep`, those that set up or stop a queue are another, `LifeStep`, and the steps that end the process a third,
`HaltStep`.

* `TableStep` — the manager's variables, the rest of the call, and what is logged;
* `LifeStep` — the calls that set up and stop a queue;
* `Trans.induction` — the induction rule for runs, over transitions.
-/

namespace PlatIF.Evt

variable {abi : Abi}

/-- A step of a call that only touches the manager's variables: these, the next unused row address, the rest of the
call (`none` when it returned), and the log entries. -/
inductive TableStep (s : State abi) (t : Thread) (env : Env) :
    Call abi → Manger abi → ℕ → Option (Call abi) → List (Obs abi) → Prop
  | deinit : TableStep s t env .deinitEvtManger s.manger s.nextRow none [.ret t none]
  | init {args : Option EvtMangerModArgs} (hw : s.stateWLock = none) :
      TableStep s t env (.initEvtManger args) (s.manger.initEvtManger args env).2 s.nextRow none
        [.ret t (some (s.manger.initEvtManger args env).1)]
  | enableBadState (hw : s.stateWLock = none) (hs : s.manger.state ≠ .ready) :
      TableStep s t env (.enableEvtManger .lock) s.manger s.nextRow none [.ret t (some .badState)]
  | enableBug (hw : s.stateWLock = none) (hs : s.manger.state = .ready) (hq : s.manger.evtQueueProcer = none) :
      TableStep s t env (.enableEvtManger .lock) s.manger s.nextRow none [.ret t (some .bug)]
  | enableTooMany {tab : Table ℕ} (hw : s.stateWLock = none) (hs : s.manger.state = .ready)
      (hq : s.manger.evtQueueProcer = some tab) (hf : tab.firstFree s.manger.mayEvtQueueNumMax.toNat = none) :
      TableStep s t env (.enableEvtManger .lock) s.manger s.nextRow none [.ret t (some .tooManyReged)]
  | enableNoMemory (hw : s.stateWLock = none) (hs : s.manger.state = .ready) (ha : env.alloc 0 = false) :
      TableStep s t env (.enableEvtManger .lock) s.manger s.nextRow none [.ret t (some .notEnoughMemory)]
  | disableNot (hw : s.stateWLock = none) (hs : s.manger.state ≠ .running) :
      TableStep s t env (.disableEvtManger .lock) s.manger s.nextRow none [.ret t none]
  | disableNone (hw : s.stateWLock = none) (hs : s.manger.state = .running) (hq : s.evtQueue = none) :
      TableStep s t env (.disableEvtManger .lock) { s.manger with state := .ready } s.nextRow none [.ret t none]
  | regBadState {args : EvtOperArgs} (hw : s.stateWLock = none) (hs : s.manger.state ≠ .ready) :
      TableStep s t env (.regOper args false) s.manger s.nextRow none [.ret t (some .badState)]
  | regCheck {args : EvtOperArgs} (hw : s.stateWLock = none) (hs : s.manger.state = .ready) :
      TableStep s t env (.regOper args false) s.manger s.nextRow (some (.regOper args true)) []
  | reg {args : EvtOperArgs} {r : TosResult} {id : Option (EvtOperID abi)} {m : Manger abi}
      (hm : s.manger.doRegOper args env = (r, id, m)) :
      TableStep s t env (.regOper args true) m s.nextRow none ((id.map Obs.reged).toList ++ [.ret t (some r)])
  | unreg {id : EvtOperID abi} :
      TableStep s t env (.unregOper id) (s.manger.unregOper id) s.nextRow none [.ret t none]
  | pubNotReged {id : EvtOperID abi} {ids : List EvtID} (hr : s.manger.isRegedOperID id ≠ tosYes) :
      TableStep s t env (.pubEvts id ids .check) s.manger s.nextRow none [.ret t (some .notReged)]
  | pubBug {id : EvtOperID abi} {ids : List EvtID} (hr : s.manger.isRegedOperID id = tosYes)
      (ht : s.manger.pubTable = none) :
      TableStep s t env (.pubEvts id ids .check) s.manger s.nextRow none [.ret t (some .bug)]
  | pubCheck {id : EvtOperID abi} {ids : List EvtID} (hr : s.manger.isRegedOperID id = tosYes) :
      TableStep s t env (.pubEvts id ids .check) s.manger s.nextRow (some (.pubEvts id ids (.scan 0))) []
  | pubTooMany {id : EvtOperID abi} {ids : List EvtID} {row : ℕ} (hr : s.manger.mayPubEvtNumMax.toNat < row) :
      TableStep s t env (.pubEvts id ids (.scan row)) s.manger s.nextRow none [.ret t (some .tooManyPubedEvents)]
  | pubNext {id : EvtOperID abi} {ids : List EvtID} {row : ℕ} :
      TableStep s t env (.pubEvts id ids (.scan row)) s.manger s.nextRow
        (some (.pubEvts id ids (.scan (row + 1)))) []
  | pubNoMemory {id : EvtOperID abi} {ids : List EvtID} {row : ℕ} (ha : env.alloc 0 = false) :
      TableStep s t env (.pubEvts id ids (.scan row)) s.manger s.nextRow none [.ret t (some .notEnoughMemory)]
  | pubFree {id : EvtOperID abi} {ids : List EvtID} {row : ℕ} {tab : Table (ℕ × Row abi)}
      (ht : s.manger.pubTable = some tab) (hl : row < tab.len) (he : tab.entry row = none) :
      TableStep s t env (.pubEvts id ids (.scan row)) s.manger s.nextRow (some (.pubEvts id ids (.store row))) []
  | pubStore {id : EvtOperID abi} {ids : List EvtID} {row : ℕ} :
      TableStep s t env (.pubEvts id ids (.store row)) (s.manger.storePubRow row s.nextRow) (s.nextRow + 1)
        (some (.pubEvts id ids (.fill row s.nextRow .roleType))) []
  | pubFill {id : EvtOperID abi} {ids : List EvtID} {row pRow : ℕ} {pc pc' : FillPc}
      (hf : pRow ∉ s.manger.freedRows) (hn : pc.next ids = some pc') :
      TableStep s t env (.pubEvts id ids (.fill row pRow pc)) (s.manger.fillPubRow row pRow id ids pc) s.nextRow
        (some (.pubEvts id ids (.fill row pRow pc'))) []
  | pubDone {id : EvtOperID abi} {ids : List EvtID} {row pRow : ℕ} {pc : FillPc}
      (hf : pRow ∉ s.manger.freedRows) (hn : pc.next ids = none) :
      TableStep s t env (.pubEvts id ids (.fill row pRow pc)) (s.manger.fillPubRow row pRow id ids pc) s.nextRow none
        [.ret t (some .success)]
  | unpub {id : EvtOperID abi} :
      TableStep s t env (.unpubEvts id) (s.manger.unpubEvts id) s.nextRow none [.ret t none]
  | subNotReged {id : EvtOperID abi} {ids : List EvtID} {args : EvtSubArgs}
      (hr : s.manger.isRegedOperID id ≠ tosYes) :
      TableStep s t env (.subEvts id ids args false) s.manger s.nextRow none [.ret t (some .notReged)]
  | subCheck {id : EvtOperID abi} {ids : List EvtID} {args : EvtSubArgs} (hr : s.manger.isRegedOperID id = tosYes) :
      TableStep s t env (.subEvts id ids args false) s.manger s.nextRow (some (.subEvts id ids args true)) []
  | sub {id : EvtOperID abi} {ids : List EvtID} {args : EvtSubArgs} (hl : s.subReaders = []) :
      TableStep s t env (.subEvts id ids args true) (s.manger.doSubEvts id ids args env).2 s.nextRow none
        [.ret t (some (s.manger.doSubEvts id ids args env).1)]
  | unsub {id : EvtOperID abi} (hl : s.subReaders = []) :
      TableStep s t env (.unsubEvts id) (s.manger.unsubEvts id) s.nextRow none [.ret t none]
  | postNotReged {id : EvtOperID abi} {arg : PostArg abi} (hr : s.manger.isRegedOperID id ≠ tosYes) :
      TableStep s t env (.postEvtSRT id arg .check) s.manger s.nextRow none [.ret t (some .notReged)]
  | postCheck {id : EvtOperID abi} {arg : PostArg abi} (hr : s.manger.isRegedOperID id = tosYes) :
      TableStep s t env (.postEvtSRT id arg .check) s.manger s.nextRow (some (.postEvtSRT id arg .load)) []
  | postLoad {id : EvtOperID abi} {arg : PostArg abi} (hq : s.manger.evtQueueProcer ≠ none) :
      TableStep s t env (.postEvtSRT id arg .load) s.manger s.nextRow (some (.postEvtSRT id arg (.lock s.evtQueue))) []
  | postFull {id : EvtOperID abi} {arg : PostArg abi} {q : ℕ} (hl : (s.queues q).freed = false)
      (hi : (s.queues q).mutexReady = true) (hm : (s.queues q).mutex = none) (hfull : (s.queue q).isFull = true) :
      TableStep s t env (.postEvtSRT id arg (.lock (some q))) s.manger s.nextRow none
        [.ret t (some .tooManyPubedEvents)]

/-- The result of such a step. -/
@[simp] def State.tableStep (s : State abi) (t : Thread) (m : Manger abi) (nextRow : ℕ) (c : Option (Call abi))
    (os : List (Obs abi)) : State abi :=
  { s with manger := m, nextRow := nextRow, calls := Function.update s.calls t c, log := s.log ++ os }

/-- A step of `PLT_EVT_enableEvtManger` or `PLT_EVT_disableEvtManger` on a queue or on the state lock: the call it
belongs to, and the state it leaves. -/
inductive LifeStep (s : State abi) (t : Thread) : Call abi → State abi → Prop
  | enable {tab : Table ℕ} {idx : ℕ} (hw : s.stateWLock = none) (hs : s.manger.state = .ready)
      (hq : s.manger.evtQueueProcer = some tab) (hf : tab.firstFree s.manger.mayEvtQueueNumMax.toNat = some idx) :
      LifeStep s t (.enableEvtManger .lock)
        ((s.createQueue t idx tab).setCall t (some (.enableEvtManger (.initMutex s.nextQueue))))
  | initMutex {q : ℕ} : LifeStep s t (.enableEvtManger (.initMutex q))
      ((s.initMutex q).setCall t (some (.enableEvtManger (.initCond q))))
  | initCond {q : ℕ} : LifeStep s t (.enableEvtManger (.initCond q))
      ((s.initCond q).setCall t (some (.enableEvtManger (.create q))))
  | create {q : ℕ} : LifeStep s t (.enableEvtManger (.create q))
      ((s.setProcer q .top).setCall t (some (.enableEvtManger .unlock)))
  | enabled : LifeStep s t (.enableEvtManger .unlock) ((s.unlockState .running).ret t (some .success))
  | disable {q : ℕ} (hw : s.stateWLock = none) (hs : s.manger.state = .running) (hq : s.evtQueue = some q) :
      LifeStep s t (.disableEvtManger .lock)
        ({ s with stateWLock := some t, cancelled := Function.update s.cancelled q true }.setCall t
          (some (.disableEvtManger (.join q))))
  | destroyMutex {q : ℕ} (he : s.procer q = .ended) : LifeStep s t (.disableEvtManger (.join q))
      ((s.destroyMutex q).setCall t (some (.disableEvtManger (.destroyCond q))))
  | destroyCond {q : ℕ} : LifeStep s t (.disableEvtManger (.destroyCond q))
      ((s.destroyCond q).setCall t (some (.disableEvtManger (.free q))))
  | free {q : ℕ} : LifeStep s t (.disableEvtManger (.free q))
      ((s.freeQueue q).setCall t (some (.disableEvtManger (.clear q))))
  | clear {q : ℕ} : LifeStep s t (.disableEvtManger (.clear q))
      (s.clearQueue.setCall t (some (.disableEvtManger (.unlock q))))
  | disabled {q : ℕ} : LifeStep s t (.disableEvtManger (.unlock q)) ((s.unlockState .ready).ret t none)

/-- A step that ends the process. -/
inductive HaltStep (s : State abi) (t : Thread) : Halt → Prop
  | pubNull {id : EvtOperID abi} {ids : List EvtID} {row : ℕ} (hc : s.calls t = some (.pubEvts id ids (.scan row)))
      (ht : s.manger.pubTable = none) : HaltStep s t .nullDeref
  | pubBounds {id : EvtOperID abi} {ids : List EvtID} {row : ℕ} {tab : Table (ℕ × Row abi)}
      (hc : s.calls t = some (.pubEvts id ids (.scan row))) (ht : s.manger.pubTable = some tab)
      (hr : row ≤ s.manger.mayPubEvtNumMax.toNat) (hl : tab.len ≤ row) : HaltStep s t .outOfBounds
  | pubFreed {id : EvtOperID abi} {ids : List EvtID} {row pRow : ℕ} {pc : FillPc}
      (hc : s.calls t = some (.pubEvts id ids (.fill row pRow pc))) (hf : pRow ∈ s.manger.freedRows) :
      HaltStep s t .useAfterFree
  | postTable {id : EvtOperID abi} {arg : PostArg abi} (hc : s.calls t = some (.postEvtSRT id arg .load))
      (hq : s.manger.evtQueueProcer = none) : HaltStep s t .nullDeref
  | postNull {id : EvtOperID abi} {arg : PostArg abi} (hc : s.calls t = some (.postEvtSRT id arg (.lock none))) :
      HaltStep s t .nullDeref
  | postFreed {id : EvtOperID abi} {arg : PostArg abi} {q : ℕ}
      (hc : s.calls t = some (.postEvtSRT id arg (.lock (some q)))) (hl : (s.queues q).freed = true) :
      HaltStep s t .useAfterFree
  | postEarly {id : EvtOperID abi} {arg : PostArg abi} {q : ℕ}
      (hc : s.calls t = some (.postEvtSRT id arg (.lock (some q)))) (hl : (s.queues q).freed = false)
      (hi : (s.queues q).mutexReady = false) : HaltStep s t .notInitialized
  | postArg {id : EvtOperID abi} {arg : PostArg abi} {q : ℕ}
      (hc : s.calls t = some (.postEvtSRT id arg (.lock (some q)))) (ha : s.argDesc t arg = none) :
      HaltStep s t .useAfterFree
  | postSignalFreed {id : EvtOperID abi} {arg : PostArg abi} {q : ℕ}
      (hc : s.calls t = some (.postEvtSRT id arg (.signal q))) (hl : (s.queues q).freed = true) :
      HaltStep s t .useAfterFree
  | postSignalEarly {id : EvtOperID abi} {arg : PostArg abi} {q : ℕ}
      (hc : s.calls t = some (.postEvtSRT id arg (.signal q))) (hl : (s.queues q).freed = false)
      (hi : (s.queues q).condReady = false) : HaltStep s t .notInitialized
  | procerFreed {q : ℕ} (ht : t = .procer q) (hc : s.calls t = none) (hl : (s.queues q).freed = true) :
      HaltStep s t .useAfterFree
  | procerNull {q : ℕ} (ht : t = .procer q) (hc : s.calls t = none) : HaltStep s t .nullDeref

/-- What a step of thread `t` with action `a` can do. -/
inductive Trans (s : State abi) (t : Thread) (a : Act abi) : State abi → Prop
  | call {api : Api abi} (ha : a = .call api) (hc : s.calls t = none) (hu : s.userCode t = true)
      (hr : ∀ id n, api = .postEvtSRT id .received → t ≠ .client n) :
      Trans s t a ({ s with entry := Function.update s.entry t s.manger }.setCall t (some api.toCall))
  | table {env : Env} {c : Call abi} {m : Manger abi} {n : ℕ} {c' : Option (Call abi)} {os : List (Obs abi)}
      (ha : a = .run env) (hc : s.calls t = some c) (h : TableStep s t env c m n c' os) :
      Trans s t a (s.tableStep t m n c' os)
  | life {env : Env} {c : Call abi} {s' : State abi} (ha : a = .run env) (hc : s.calls t = some c)
      (h : LifeStep s t c s') : Trans s t a s'
  | cancelJoin {q p : ℕ} (ha : a = .cancel) (ht : t = .procer q)
      (hc : s.calls t = some (.disableEvtManger (.join p))) (hx : s.cancelled q = true) :
      Trans s t a ((s.setProcer q .ended).setCall t none)
  -- a post
  | post {env : Env} {id : EvtOperID abi} {arg : PostArg abi} {q : ℕ} {d : EvtDesc abi} {place : Option (ℕ × ℕ)}
      (ha : a = .run env) (hc : s.calls t = some (.postEvtSRT id arg (.lock (some q))))
      (hl : (s.queues q).freed = false) (hi : (s.queues q).mutexReady = true) (hm : (s.queues q).mutex = none)
      (hfull : (s.queue q).isFull = false)
      (hd : s.argDesc t arg = some (d, place)) :
      Trans s t a ((((s.setQueue q ((s.queue q).post id d).2.1).writeBack place ((s.queue q).post id d).2.2).setCall t
        (some (.postEvtSRT id arg (.signal q)))).obs (.accept q t ((s.queue q).post id d).2.2))
  | signal {env : Env} {id : EvtOperID abi} {arg : PostArg abi} {q : ℕ} (ha : a = .run env)
      (hc : s.calls t = some (.postEvtSRT id arg (.signal q))) (hl : (s.queues q).freed = false)
      (hi : (s.queues q).condReady = true) : Trans s t a ((s.condSignal q).ret t (some .success))
  -- the processor
  | wait {q : ℕ} (ht : t = .procer q) (hc : s.calls t = none) (hp : s.procer q = .top ∨ s.procer q = .woken)
      (hl : (s.queues q).freed = false) (hm : (s.queues q).mutex = none) (hn : (s.queue q).curEvtNum = 0) :
      Trans s t a (s.setProcer q .waiting)
  | take {q : ℕ} (ht : t = .procer q) (hc : s.calls t = none) (hp : s.procer q = .top ∨ s.procer q = .woken)
      (hl : (s.queues q).freed = false) (hm : (s.queues q).mutex = none) (hn : (s.queue q).curEvtNum ≠ 0) :
      Trans s t a (((s.setQueue q (s.queue q).take.2).setProcer q
        (.dispatch (s.queue q).take.1 (s.taken q).length .rdlock)).obs
        (.take q ((s.queue q).evtDescQueue (s.queue q).take.1)))
  | wake {q : ℕ} (ht : t = .procer q) (hc : s.calls t = none) (hp : s.procer q = .waiting) :
      Trans s t a (s.setProcer q .woken)
  | cancelWait {q : ℕ} (ha : a = .cancel) (ht : t = .procer q) (hc : s.calls t = none)
      (hp : s.procer q = .waiting ∨ s.procer q = .woken) (hx : s.cancelled q = true)
      (hm : (s.queues q).mutex = none) :
      Trans s t a
        ({ s with queues := Function.update s.queues q { s.queues q with mutex := some (.procer q) } }.setProcer q
          .ended)
  -- a dispatch
  | noTable {q slot k : ℕ} (ht : t = .procer q) (hc : s.calls t = none) (hp : s.procer q = .dispatch slot k .rdlock)
      (hn : s.manger.subTable = none) : Trans s t a ((s.setProcer q .top).obs (.dispatched q k))
  | rdlock {q slot k : ℕ} (ht : t = .procer q) (hc : s.calls t = none) (hp : s.procer q = .dispatch slot k .rdlock)
      (hn : s.manger.subTable ≠ none) :
      Trans s t a ({ s with subReaders := .procer q :: s.subReaders }.goto q slot k (.row 0))
  | endDispatch {q slot k row : ℕ} (ht : t = .procer q) (hc : s.calls t = none)
      (hp : s.procer q = .dispatch slot k (.row row)) (hr : s.manger.maySubEvtNumMax.toNat ≤ row) :
      Trans s t a (s.endDispatch q k)
  | move {q slot k : ℕ} {pc pc' : DispatchPc} (ht : t = .procer q) (hc : s.calls t = none)
      (hp : s.procer q = .dispatch slot k pc)
      (hm : (∃ row, pc = .row row ∧ row < s.manger.maySubEvtNumMax.toNat ∧
          (s.subRow row = none ∧ pc' = .row (row + 1) ∨ s.subRow row ≠ none ∧ pc' = .cmpClass row 0)) ∨
        (∃ row num r, pc = .cmpClass row num ∧ s.subRow row = some r ∧ r.evtIDs.length < num ∧
          pc' = .row (row + 1)) ∨
        ∃ row num, pc = .inCb row num ∧ pc' = .cmpClass row (num + 1)) :
      Trans s t a (s.goto q slot k pc')
  | compare {q slot k row num : ℕ} {r : Row abi} {pc pc' : DispatchPc} (ht : t = .procer q) (hc : s.calls t = none)
      (hp : s.procer q = .dispatch slot k pc) (hl : (s.queues q).freed = false) (hr : s.subRow row = some r)
      (hm : pc = .cmpClass row num ∧ num ≤ r.evtIDs.length ∧ (pc' = .cmpClass row (num + 1) ∨
          pc' = .cmpClassmate row num) ∨
        pc = .cmpClassmate row num ∧ (pc' = .cmpClass row (num + 1) ∨ pc' = .call row num)) :
      Trans s t a ((s.goto q slot k pc').obs (.read q k ((s.queue q).evtDescQueue slot)))
  | callSuber {q slot k row num : ℕ} {r : Row abi} {args : EvtSubArgs} (ht : t = .procer q) (hc : s.calls t = none)
      (hp : s.procer q = .dispatch slot k (.call row num)) (hr : s.subRow row = some r)
      (hs : r.pEvtSubArgs = some args) :
      Trans s t a ((s.goto q slot k (.inCb row num)).obs
        (.call q k r.operID args.toObjPriv ((s.queue q).evtDescQueue slot)))
  | cbRead {q slot k row num : ℕ} (ht : t = .procer q) (hc : s.calls t = none)
      (hp : s.procer q = .dispatch slot k (.inCb row num)) (hl : (s.queues q).freed = false) :
      Trans s t a (s.obs (.cbRead q k ((s.queue q).evtDescQueue slot)))
  | cancelCb {q slot k row num : ℕ} (ha : a = .cancel) (ht : t = .procer q) (hc : s.calls t = none)
      (hp : s.procer q = .dispatch slot k (.inCb row num)) (hx : s.cancelled q = true) :
      Trans s t a (s.setProcer q .ended)
  | halt {h : Halt} (hh : HaltStep s t h) : Trans s t a (s.halt h)

end PlatIF.Evt
