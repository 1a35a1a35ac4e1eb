import PlatIF.Evt.State
import PlatIF.Lib.Runs

/-!
# The step function of the manager

`next s (t, a)` lets thread `t` take one step; `none` means that it cannot (it waits for a lock, for the join, or the
action does not fit).  A lock section in which nothing waits, and in which nothing is stored that others read without
the lock, is one step.  The locks that outlive a step are in the state: the state lock while
`PLT_EVT_enableEvtManger` sets up a queue and `PLT_EVT_disableEvtManger` stops one, the subscription table during a
dispatch, and whatever a cancelled processor held when it ended.

Cancellation is deferred: it takes effect in `pthread_cond_wait`, which obtains the queue mutex first, in
`pthread_join`, and in a callback, and only where the action says so.  `pthread_create` is assumed to succeed.
-/

namespace PlatIF.Evt

variable {abi : Abi}

/-- A call of a function of the API. -/
inductive Api (abi : Abi) where
  | initEvtManger (pEvtModArgs : Option EvtMangerModArgs)
  | deinitEvtManger
  | enableEvtManger
  | disableEvtManger
  | regOper (evtOperArgs : EvtOperArgs)
  | unregOper (evtOperID : EvtOperID abi)
  | pubEvts (evtPuberID : EvtOperID abi) (evtIDs : List EvtID)
  | unpubEvts (evtOperID : EvtOperID abi)
  | subEvts (evtSuberID : EvtOperID abi) (evtIDs : List EvtID) (evtSubArgs : EvtSubArgs)
  | unsubEvts (evtOperID : EvtOperID abi)
  | postEvtSRT (evtPuberID : EvtOperID abi) (arg : PostArg abi)

/-- The call at its first program point. -/
def Api.toCall : Api abi → Call abi
  | .initEvtManger args => .initEvtManger args
  | .deinitEvtManger => .deinitEvtManger
  | .enableEvtManger => .enableEvtManger .lock
  | .disableEvtManger => .disableEvtManger .lock
  | .regOper args => .regOper args false
  | .unregOper id => .unregOper id
  | .pubEvts id ids => .pubEvts id ids .check
  | .unpubEvts id => .unpubEvts id
  | .subEvts id ids args => .subEvts id ids args false
  | .unsubEvts id => .unsubEvts id
  | .postEvtSRT id arg => .postEvtSRT id arg .check

/-- What a step is told from outside. -/
inductive Act (abi : Abi) where
  /-- User code calls the API. -/
  | call (api : Api abi)
  /-- The thread runs on, with these answers to its requests for memory. -/
  | run (env : Env)
  /-- The callback reads the descriptor it was handed. -/
  | cbRead
  /-- The callback returns; its result is not used. -/
  | cbRet
  /-- A pending cancellation takes effect. -/
  | cancel
  /-- A spurious wake-up from `pthread_cond_wait`. -/
  | wake

/-- Run on with every allocation granted. -/
abbrev Act.go : Act abi := .run {}

namespace State

variable (s : State abi)

/-! ### The manager's life cycle -/

def initEvtManger (t : Thread) (args : Option EvtMangerModArgs) (env : Env) : Option (State abi) :=
  if s.stateWLock.isSome then none
  else
    match s.manger.initEvtManger args env with
    | (r, m) => some ((s.setManger m).ret t (some r))

/-- A zeroed queue object in entry `idx`; the state stays locked. -/
@[simp] def createQueue (t : Thread) (idx : ℕ) (tab : Table ℕ) : State abi :=
  { s with
    manger := { s.manger with evtQueueProcer := some (tab.set idx (some s.nextQueue)) },
    stateWLock := some t,
    queues := Function.update s.queues s.nextQueue .zero,
    nextQueue := s.nextQueue + 1 }

/-- The depth of queue `q` is set and its mutex initialized.  Who posts before locks a mutex that is not
initialized, so nobody reads the depth earlier. -/
@[simp] def initMutex (q : ℕ) : State abi :=
  { s with queues := Function.update s.queues q { s.queues q with
      queue := { s.queue q with evtDescNumInQueue := s.manger.mayEvtDescQueueNumMax.setWidth 32 },
      mutexInit := true } }

@[simp] def initCond (q : ℕ) : State abi :=
  { s with queues := Function.update s.queues q { s.queues q with condInit := true } }

/-- The manager gets the state `st` and its state is unlocked. -/
@[simp] def unlockState (st : EvtMangerState) : State abi :=
  { s with manger := { s.manger with state := st }, stateWLock := none }

/-- `PLT_EVT_enableEvtManger`, with `__PLT_EVT_doEnableEvtManger_ofStartupEvtProcer`.  The source ignores the result of
`pthread_create`, which is taken to succeed; what is said of a running processor rests on it. -/
def enableEvtManger (t : Thread) (pc : EnablePc) (env : Env) : Option (State abi) :=
  match pc with
  | .lock =>
    if s.stateWLock.isSome then none
    else if s.manger.state ≠ .ready then some (s.ret t (some .badState))
    else
      match s.manger.evtQueueProcer with
      | none => some (s.ret t (some .bug))
      | some tab =>
        match tab.firstFree s.manger.mayEvtQueueNumMax.toNat with
        | none => some (s.ret t (some .tooManyReged))
        | some idx =>
          if env.alloc 0 = false then some (s.ret t (some .notEnoughMemory))
          else some ((s.createQueue t idx tab).setCall t (some (.enableEvtManger (.initMutex s.nextQueue))))
  | .initMutex q => some ((s.initMutex q).setCall t (some (.enableEvtManger (.initCond q))))
  | .initCond q => some ((s.initCond q).setCall t (some (.enableEvtManger (.create q))))
  | .create q => some ((s.setProcer q .top).setCall t (some (.enableEvtManger .unlock)))
  | .unlock => some ((s.unlockState .running).ret t (some .success))

/-- `_mEvtQueueProcer[0]`; the table has one entry, since nothing sets `_mMayEvtQueueNumMax`. -/
def evtQueue : Option ℕ := s.manger.evtQueueProcer.bind fun tab => tab.entry 0

/-- `pthread_join` returns. -/
def joinReady (q : ℕ) : Bool := decide (s.procer q = .ended)

/-- `pthread_mutex_destroy(&_mEvtQueueProcer[0]->Mutex)`. -/
@[simp] def destroyMutex (q : ℕ) : State abi :=
  { s with queues := Function.update s.queues q { s.queues q with mutexGone := true } }

@[simp] def destroyCond (q : ℕ) : State abi :=
  { s with queues := Function.update s.queues q { s.queues q with condGone := true } }

@[simp] def freeQueue (q : ℕ) : State abi :=
  { s with queues := Function.update s.queues q { s.queues q with freed := true } }

/-- `_mEvtQueueProcer[0] = NULL`. -/
@[simp] def clearQueue : State abi :=
  s.setManger { s.manger with evtQueueProcer := s.manger.evtQueueProcer.map fun tab => tab.set 0 none }

/-- `PLT_EVT_disableEvtManger`, with `__PLT_EVT_doDisableEvtManger_ofStopEvtProcer`. -/
def disableEvtManger (t : Thread) (pc : DisablePc) : Option (State abi) :=
  match pc with
  | .lock =>
    if s.stateWLock.isSome then none
    else if s.manger.state ≠ .running then some (s.ret t none)
    else
      match s.evtQueue with
      | none => some ((s.setManger { s.manger with state := .ready }).ret t none)
      | some q =>
        some ({ s with stateWLock := some t, cancelled := Function.update s.cancelled q true }.setCall t
          (some (.disableEvtManger (.join q))))
  | .join q =>
    if s.joinReady q then some ((s.destroyMutex q).setCall t (some (.disableEvtManger (.destroyCond q)))) else none
  | .destroyCond q => some ((s.destroyCond q).setCall t (some (.disableEvtManger (.free q))))
  | .free q => some ((s.freeQueue q).setCall t (some (.disableEvtManger (.clear q))))
  | .clear q => some (s.clearQueue.setCall t (some (.disableEvtManger (.unlock q))))
  | .unlock _ => some ((s.unlockState .ready).ret t none)

/-- Cancelled at `pthread_join`: a callback tried to stop its own processor. -/
def cancelJoin (t : Thread) : Option (State abi) :=
  match t with
  | .client _ => none
  | .procer q => if s.cancelled q then some ((s.setProcer q .ended).setCall t none) else none

/-! ### The tables -/

def regOper (t : Thread) (args : EvtOperArgs) (checked : Bool) (env : Env) : Option (State abi) :=
  if checked then
    match s.manger.doRegOper args env with
    | (r, some id, m) => some (((s.setManger m).obs (.reged id)).ret t (some r))
    | (r, none, m) => some ((s.setManger m).ret t (some r))
  -- `__EvtManger_readCurrentState`
  else if s.stateWLock.isSome then none
  else if s.manger.state ≠ .ready then some (s.ret t (some .badState))
  else some (s.setCall t (some (.regOper args true)))

def subEvts (t : Thread) (id : EvtOperID abi) (ids : List EvtID) (args : EvtSubArgs) (checked : Bool) (env : Env) :
    Option (State abi) :=
  if checked then
    -- the table is locked for writing
    if s.subReaders ≠ [] then none
    else
      match s.manger.doSubEvts id ids args env with
      | (r, m) => some ((s.setManger m).ret t (some r))
  else if s.manger.isRegedOperID id ≠ tosYes then some (s.ret t (some .notReged))
  else some (s.setCall t (some (.subEvts id ids args true)))

def unsubEvts (t : Thread) (id : EvtOperID abi) : Option (State abi) :=
  if s.subReaders ≠ [] then none else some ((s.setManger (s.manger.unsubEvts id)).ret t none)

/-- `PLT_EVT_pubEvts`, with `__PLT_EVT_doPubEvts`.  The loop runs up to `row <= _mMayPubEvtNumMax`. -/
def pubEvts (t : Thread) (id : EvtOperID abi) (ids : List EvtID) (pc : PubPc) (env : Env) : Option (State abi) :=
  match pc with
  | .check =>
    if s.manger.isRegedOperID id ≠ tosYes then some (s.ret t (some .notReged))
    else if s.manger.pubTable.isNone then some (s.ret t (some .bug))
    else some (s.setCall t (some (.pubEvts id ids (.scan 0))))
  | .scan row =>
    match s.manger.pubTable with
    | none => some (s.halt .nullDeref)
    | some tab =>
      if s.manger.mayPubEvtNumMax.toNat < row then some (s.ret t (some .tooManyPubedEvents))
      else if tab.len ≤ row then some (s.halt .outOfBounds)
      else if (tab.entry row).isSome then some (s.setCall t (some (.pubEvts id ids (.scan (row + 1)))))
      else if env.alloc 0 = false then some (s.ret t (some .notEnoughMemory))
      else some (s.setCall t (some (.pubEvts id ids (.store row))))
  | .store row =>
    some ({ s with manger := s.manger.storePubRow row s.nextRow, nextRow := s.nextRow + 1 }.setCall t
      (some (.pubEvts id ids (.fill row s.nextRow .roleType))))
  | .fill row pRow pc =>
    if pRow ∈ s.manger.freedRows then some (s.halt .useAfterFree)
    else
      match pc.next ids with
      | some pc' =>
        some ((s.setManger (s.manger.fillPubRow row pRow id ids pc)).setCall t
          (some (.pubEvts id ids (.fill row pRow pc'))))
      | none => some ((s.setManger (s.manger.fillPubRow row pRow id ids pc)).ret t (some .success))

/-! ### `PLT_EVT_postEvtSRT` -/

/-- `*pEvtDesc`, and where it is if it lies in a queue: `none` when that queue was freed. -/
def argDesc (t : Thread) (arg : PostArg abi) : Option (EvtDesc abi × Option (ℕ × ℕ)) :=
  match arg, t with
  | .own d, _ => some (d, none)
  | .received, .procer p =>
    match s.procer p with
    | .dispatch slot _ _ =>
      if (s.queues p).freed then none else some ((s.queue p).evtDescQueue slot, some (p, slot))
    | _ => none
  | .received, .client _ => none

/-- The writes to `*pEvtDesc`, which the caller sees. -/
def writeBack (place : Option (ℕ × ℕ)) (d : EvtDesc abi) : State abi :=
  match place with
  | none => s
  | some (p, slot) => s.setQueue p ((s.queue p).writeSlot slot d)

/-- The section under the mutex of queue `q`. -/
def postSection (t : Thread) (q : ℕ) (id : EvtOperID abi) (arg : PostArg abi) : State abi :=
  if (s.queue q).isFull then s.ret t (some .tooManyPubedEvents)
  else
    match s.argDesc t arg with
    | none => s.halt .useAfterFree
    | some (d, place) =>
      (((s.setQueue q ((s.queue q).post id d).2.1).writeBack place ((s.queue q).post id d).2.2).setCall t
        (some (.postEvtSRT id arg (.signal q)))).obs (.accept q t ((s.queue q).post id d).2.2)

/-- `pthread_cond_signal(&pEvtQueue->Cond)`; only the processor waits there. -/
def condSignal (q : ℕ) : State abi :=
  if s.procer q = .waiting then s.setProcer q .woken else s

def postEvtSRT (t : Thread) (id : EvtOperID abi) (arg : PostArg abi) (pc : PostPc) : Option (State abi) :=
  match pc with
  | .check =>
    if s.manger.isRegedOperID id ≠ tosYes then some (s.ret t (some .notReged))
    else some (s.setCall t (some (.postEvtSRT id arg .load)))
  | .load =>
    if s.manger.evtQueueProcer.isNone then some (s.halt .nullDeref)
    else some (s.setCall t (some (.postEvtSRT id arg (.lock s.evtQueue))))
  | .lock none => some (s.halt .nullDeref)
  | .lock (some q) =>
    if (s.queues q).freed then some (s.halt .useAfterFree)
    else if (s.queues q).mutexReady = false then some (s.halt .notInitialized)
    else if (s.queues q).mutex.isSome then none
    else some (s.postSection t q id arg)
  | .signal q =>
    if (s.queues q).freed then some (s.halt .useAfterFree)
    else if (s.queues q).condReady = false then some (s.halt .notInitialized)
    else some ((s.condSignal q).ret t (some .success))

/-- The next step of a call. -/
def callStep (t : Thread) (c : Call abi) (env : Env) : Option (State abi) :=
  match c with
  | .initEvtManger args => s.initEvtManger t args env
  | .deinitEvtManger => some (s.ret t none)
  | .enableEvtManger pc => s.enableEvtManger t pc env
  | .disableEvtManger pc => s.disableEvtManger t pc
  | .regOper args checked => s.regOper t args checked env
  | .unregOper id => some ((s.setManger (s.manger.unregOper id)).ret t none)
  | .pubEvts id ids pc => s.pubEvts t id ids pc env
  | .unpubEvts id => some ((s.setManger (s.manger.unpubEvts id)).ret t none)
  | .subEvts id ids args checked => s.subEvts t id ids args checked env
  | .unsubEvts id => s.unsubEvts t id
  | .postEvtSRT id arg pc => s.postEvtSRT t id arg pc

/-! ### The processor thread -/

/-- The section at the head of the loop and after a wake-up: wait, or take the oldest descriptor.  The thread is
created after its mutex and condition are initialized. -/
def consume (q : ℕ) : Option (State abi) :=
  if (s.queues q).freed then some (s.halt .useAfterFree)
  else if (s.queues q).mutex.isSome then none
  else if (s.queue q).curEvtNum = 0 then some (s.setProcer q .waiting)
  else
    some (((s.setQueue q (s.queue q).take.2).setProcer q
      (.dispatch (s.queue q).take.1 (s.taken q).length .rdlock)).obs
      (.take q ((s.queue q).evtDescQueue (s.queue q).take.1)))

/-- Cancelled in `pthread_cond_wait`: the thread has the mutex when it ends. -/
def cancelWait (q : ℕ) : Option (State abi) :=
  if s.cancelled q = false ∨ (s.queues q).mutex.isSome then none
  else
    some ({ s with queues := Function.update s.queues q { s.queues q with mutex := some (.procer q) } }.setProcer q
      .ended)

/-- Go on in dispatch `k` of queue `q`. -/
@[simp] def goto (q slot k : ℕ) (pc : DispatchPc) : State abi := s.setProcer q (.dispatch slot k pc)

/-- The loop over the rows ends: the table is unlocked. -/
def endDispatch (q k : ℕ) : State abi :=
  ({ s with subReaders := s.subReaders.erase (.procer q) }.setProcer q .top).obs (.dispatched q k)

/-- `_mEvtPSDB_SubTable[row]`. -/
def subRow (row : ℕ) : Option (Row abi) := s.manger.subTable.bind fun tab => tab.entry row

/-- A comparison of the loop over the identifiers: `matched` is its outcome for the descriptor as it is now. -/
def compare (q slot k row num : ℕ) (matched : EvtID → Bool) (yes : DispatchPc) : State abi :=
  if (s.queues q).freed then s.halt .useAfterFree
  else
    (s.goto q slot k (if matched ((s.queue q).evtDescQueue slot).evtID then yes else .cmpClass row (num + 1))).obs
      (.read q k ((s.queue q).evtDescQueue slot))

/-- `CbProcEvtSRT_F(pEvtSuber->EvtSuberID, pEvtDesc, pEvtSuber->pEvtSubArgs->ToObjPriv)`. -/
def callSuber (q slot k row num : ℕ) (r : Row abi) : State abi :=
  match r.pEvtSubArgs with
  | none => s.halt .nullDeref
  | some args =>
    if args.cbProcEvtSRTF = NULL then s.halt .nullDeref
    else
      (s.goto q slot k (.inCb row num)).obs
        (.call q k r.operID args.toObjPriv ((s.queue q).evtDescQueue slot))

/-- One step of `___PLT_EVT_EvtProcer_callEachSuberCbProcEvt`, other than in a callback. -/
def dispatchStep (q slot k : ℕ) (pc : DispatchPc) : Option (State abi) :=
  match pc with
  | .rdlock =>
    if s.manger.subTable.isNone then some ((s.setProcer q .top).obs (.dispatched q k))
    else some ({ s with subReaders := .procer q :: s.subReaders }.goto q slot k (.row 0))
  | .row row =>
    if s.manger.maySubEvtNumMax.toNat ≤ row then some (s.endDispatch q k)
    else if (s.subRow row).isNone then some (s.goto q slot k (.row (row + 1)))
    else some (s.goto q slot k (.cmpClass row 0))
  | .cmpClass row num =>
    match s.subRow row with
    | none => some (s.halt .nullDeref)
    | some r =>
      -- `num <= NumIDs`, so the word behind the identifiers is compared too
      if r.evtIDs.length < num then some (s.goto q slot k (.row (row + 1)))
      else
        some (s.compare q slot k row num (fun id => evtIDClass (r.evtIDAt num) == evtIDClass id)
          (.cmpClassmate row num))
  | .cmpClassmate row num =>
    match s.subRow row with
    | none => some (s.halt .nullDeref)
    | some r =>
      some (s.compare q slot k row num
        (fun id => evtIDClassmate (r.evtIDAt num) &&& evtIDClassmate id != 0) (.call row num))
  | .call row num =>
    match s.subRow row with
    | none => some (s.halt .nullDeref)
    | some r => some (s.callSuber q slot k row num r)
  | .inCb _ _ => none

/-- One step of a callback. -/
def cbStep (q slot k row num : ℕ) (a : Act abi) : Option (State abi) :=
  match a with
  | .cbRead =>
    if (s.queues q).freed then some (s.halt .useAfterFree)
    else some (s.obs (.cbRead q k ((s.queue q).evtDescQueue slot)))
  | .cbRet => some (s.goto q slot k (.cmpClass row (num + 1)))
  | .cancel => if s.cancelled q then some (s.setProcer q .ended) else none
  | _ => none

def procerStep (q : ℕ) (a : Act abi) : Option (State abi) :=
  match s.procer q, a with
  | .top, .run _ | .woken, .run _ => s.consume q
  | .waiting, .wake => some (s.setProcer q .woken)
  | .waiting, .cancel | .woken, .cancel => s.cancelWait q
  | .dispatch slot k (.inCb row num), a => s.cbStep q slot k row num a
  | .dispatch slot k pc, .run _ => s.dispatchStep q slot k pc
  | _, _ => none

/-! ### The step function -/

/-- User code runs on `t`: an idle client, or a callback. -/
def userCode (t : Thread) : Bool :=
  match t with
  | .client n => n < s.clients
  | .procer q => (s.procer q).isInCb

/-- User code calls the API.  Only a callback was handed a descriptor. -/
def startCall (t : Thread) (api : Api abi) : Option (State abi) :=
  match api, t with
  | .postEvtSRT _ .received, .client _ => none
  | api, t =>
    if s.userCode t then
      some ({ s with entry := Function.update s.entry t s.manger }.setCall t (some api.toCall))
    else none

end State

/-- The transition function of the system of all threads. -/
def next (s : State abi) (x : Thread × Act abi) : Option (State abi) :=
  if s.halted.isSome then none
  else
    match s.calls x.1, x.2 with
    | some c, .run env => s.callStep x.1 c env
    | some (.disableEvtManger (.join _)), .cancel => s.cancelJoin x.1
    | some _, _ => none
    | none, .call api => s.startCall x.1 api
    | none, a =>
      match x.1 with
      | .client _ => none
      | .procer q => s.procerStep q a

/-! ### What the updates leave alone -/

section

variable (s : State abi) (q : ℕ) (place : Option (ℕ × ℕ)) (d : EvtDesc abi)

@[simp] theorem State.condSignal_clients : (s.condSignal q).clients = s.clients := by
  unfold State.condSignal
  split <;> rfl

@[simp] theorem State.condSignal_manger : (s.condSignal q).manger = s.manger := by
  unfold State.condSignal
  split <;> rfl

@[simp] theorem State.condSignal_stateWLock : (s.condSignal q).stateWLock = s.stateWLock := by
  unfold State.condSignal
  split <;> rfl

@[simp] theorem State.condSignal_subReaders : (s.condSignal q).subReaders = s.subReaders := by
  unfold State.condSignal
  split <;> rfl

@[simp] theorem State.condSignal_queues : (s.condSignal q).queues = s.queues := by
  unfold State.condSignal
  split <;> rfl

@[simp] theorem State.condSignal_nextQueue : (s.condSignal q).nextQueue = s.nextQueue := by
  unfold State.condSignal
  split <;> rfl

@[simp] theorem State.condSignal_nextRow : (s.condSignal q).nextRow = s.nextRow := by
  unfold State.condSignal
  split <;> rfl

@[simp] theorem State.condSignal_cancelled : (s.condSignal q).cancelled = s.cancelled := by
  unfold State.condSignal
  split <;> rfl

@[simp] theorem State.condSignal_calls : (s.condSignal q).calls = s.calls := by
  unfold State.condSignal
  split <;> rfl

@[simp] theorem State.condSignal_log : (s.condSignal q).log = s.log := by
  unfold State.condSignal
  split <;> rfl

@[simp] theorem State.condSignal_halted : (s.condSignal q).halted = s.halted := by
  unfold State.condSignal
  split <;> rfl

@[simp] theorem State.condSignal_entry : (s.condSignal q).entry = s.entry := by
  unfold State.condSignal
  split <;> rfl

@[simp] theorem State.writeBack_clients : (s.writeBack place d).clients = s.clients := by
  cases place <;> rfl

@[simp] theorem State.writeBack_manger : (s.writeBack place d).manger = s.manger := by
  cases place <;> rfl

@[simp] theorem State.writeBack_stateWLock : (s.writeBack place d).stateWLock = s.stateWLock := by
  cases place <;> rfl

@[simp] theorem State.writeBack_subReaders : (s.writeBack place d).subReaders = s.subReaders := by
  cases place <;> rfl

@[simp] theorem State.writeBack_nextQueue : (s.writeBack place d).nextQueue = s.nextQueue := by
  cases place <;> rfl

@[simp] theorem State.writeBack_nextRow : (s.writeBack place d).nextRow = s.nextRow := by
  cases place <;> rfl

@[simp] theorem State.writeBack_procer : (s.writeBack place d).procer = s.procer := by
  cases place <;> rfl

@[simp] theorem State.writeBack_cancelled : (s.writeBack place d).cancelled = s.cancelled := by
  cases place <;> rfl

@[simp] theorem State.writeBack_calls : (s.writeBack place d).calls = s.calls := by
  cases place <;> rfl

@[simp] theorem State.writeBack_log : (s.writeBack place d).log = s.log := by
  cases place <;> rfl

@[simp] theorem State.writeBack_halted : (s.writeBack place d).halted = s.halted := by
  cases place <;> rfl

@[simp] theorem State.writeBack_entry : (s.writeBack place d).entry = s.entry := by
  cases place <;> rfl

end

/-- States of runs whose steps all meet `ok`. -/
def Reach (ok : State abi → Thread × Act abi → Prop) (clients : ℕ) (s : State abi) : Prop :=
  Runs.ReachUnder next ok (State.init clients) s

/-- The step from `s` to `s'` is the return of the call `c` of thread `t`. -/
structure Returns (s s' : State abi) (t : Thread) (c : Call abi) (r : Option TosResult) : Prop where
  call : s.calls t = some c
  done : s'.calls t = none
  result : ∃ os, s'.log = s.log ++ os ++ [.ret t r]

/-- Thread `t` enables the manager, with nobody in between. -/
def enabling (t : Thread) : List (Thread × Act abi) := (t, .call .enableEvtManger) :: List.replicate 5 (t, .go)

/-- A state reached by the given actions, and tested there. -/
theorem reach_of_run (ok : State abi → Thread × Act abi → Prop) [∀ s x, Decidable (ok s x)] (clients : ℕ)
    (acts : List (Thread × Act abi)) (p : State abi → Bool)
    (h : (Runs.runUnder next ok acts (State.init clients)).any p = true) : ∃ s, Reach ok clients s ∧ p s = true :=
  Runs.exists_reach_of_runUnder acts p h

end PlatIF.Evt
