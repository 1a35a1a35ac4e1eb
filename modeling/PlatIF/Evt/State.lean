import PlatIF.Evt.Manger
import PlatIF.Evt.Queue

/-!
# Threads, calls and the heap of queues

Client threads call the API.  Each queue object has a processor thread of its own, which runs
`__PLT_EVT_EvtProcer_Thread` and, in a dispatch, the callbacks of the subscribers; a callback may call the API too.
No function of the API calls back, so a thread has at most one call in progress.

The program points are the places where a thread can be interrupted by others: before each lock, between two reads
of the descriptor, between two stores that others read without a lock, in a callback.  Queue objects and rows of
publications are never reused, so that a stale pointer is recognized: whoever follows a null pointer, or a pointer to
memory that was freed, or uses a mutex or condition before it is initialized, ends the process.
-/

namespace PlatIF.Evt

variable {abi : Abi}

/-! ### Program points -/

/-- Threads: the clients, and the processor of each queue object. -/
inductive Thread where
  | client (n : ℕ)
  | procer (q : ℕ)
  deriving DecidableEq

/-- Program points of `___PLT_EVT_EvtProcer_callEachSuberCbProcEvt`. -/
inductive DispatchPc where
  /-- Before `pthread_rwlock_rdlock(&_mEvtPSDB_SubTableRWLock)`. -/
  | rdlock
  /-- At the head of the loop over the rows. -/
  | row (row : ℕ)
  /-- At the head of the loop over the identifiers: before the class of the descriptor is read. -/
  | cmpClass (row num : ℕ)
  /-- The classes agree; before the classmates of the descriptor are read. -/
  | cmpClassmate (row num : ℕ)
  /-- The identifier matches, before the callback is called. -/
  | call (row num : ℕ)
  /-- The callback is running. -/
  | inCb (row num : ℕ)
  deriving DecidableEq

/-- Program points of `__PLT_EVT_EvtProcer_Thread`. -/
inductive ProcerPc where
  /-- Not created. -/
  | absent
  /-- Before `pthread_mutex_lock(&pEvtQueue->Mutex)`. -/
  | top
  /-- Blocked in `pthread_cond_wait`. -/
  | waiting
  /-- Woken, before `pthread_cond_wait` has the mutex again. -/
  | woken
  /-- `pEvtDesc` points to `slot` of the queue.  History: `k` events were taken before this one. -/
  | dispatch (slot k : ℕ) (pc : DispatchPc)
  /-- Cancelled. -/
  | ended
  deriving DecidableEq

/-- A callback is running. -/
def ProcerPc.isInCb : ProcerPc → Bool
  | .dispatch _ _ (.inCb _ _) => true
  | _ => false

/-- The descriptor that a post is given: one of the caller's own, or the one its callback was handed. -/
inductive PostArg (abi : Abi) where
  | own (d : EvtDesc abi)
  | received

/-- Program points of `PLT_EVT_postEvtSRT`. -/
inductive PostPc where
  /-- Before the registration is checked. -/
  | check
  /-- Before `_mEvtQueueProcer[0]` is read. -/
  | load
  /-- Before the mutex of the queue is locked; the pointer may be null. -/
  | lock (pEvtQueue : Option ℕ)
  /-- Stored and unlocked, before `pthread_cond_signal`. -/
  | signal (pEvtQueue : ℕ)

/-- Program points of `PLT_EVT_enableEvtManger`. -/
inductive EnablePc where
  /-- Before the state lock. -/
  | lock
  /-- The zeroed queue is in `_mEvtQueueProcer`, before its depth is set and its mutex is initialized. -/
  | initMutex (pEvtQueue : ℕ)
  | initCond (pEvtQueue : ℕ)
  /-- Before `pthread_create`. -/
  | create (pEvtQueue : ℕ)
  /-- Before the manager is running and its state is unlocked. -/
  | unlock

/-- Program points of `PLT_EVT_disableEvtManger`. -/
inductive DisablePc where
  /-- Before the state lock. -/
  | lock
  /-- The processor of the queue was cancelled, before `pthread_join` returns. -/
  | join (pEvtQueue : ℕ)
  /-- The mutex of the queue was destroyed. -/
  | destroyCond (pEvtQueue : ℕ)
  | free (pEvtQueue : ℕ)
  /-- The queue was freed, before its entry in `_mEvtQueueProcer` is cleared. -/
  | clear (pEvtQueue : ℕ)
  /-- Before the manager is ready and its state is unlocked. -/
  | unlock (pEvtQueue : ℕ)

/-- Program points of `PLT_EVT_pubEvts`, whose loop takes no lock. -/
inductive PubPc where
  | check
  /-- Before row `row` is tested. -/
  | scan (row : ℕ)
  /-- The row was null and a new one is allocated, before the pointer is stored. -/
  | store (row : ℕ)
  /-- Stored, before the next of its fields is filled in. -/
  | fill (row pRow : ℕ) (pc : FillPc)

/-! ### Calls -/

/-- A call of the API in progress. -/
inductive Call (abi : Abi) where
  | initEvtManger (pEvtModArgs : Option EvtMangerModArgs)
  | deinitEvtManger
  | enableEvtManger (pc : EnablePc)
  | disableEvtManger (pc : DisablePc)
  /-- `checked`: the manager was found ready. -/
  | regOper (evtOperArgs : EvtOperArgs) (checked : Bool)
  | unregOper (evtOperID : EvtOperID abi)
  | pubEvts (evtPuberID : EvtOperID abi) (evtIDs : List EvtID) (pc : PubPc)
  | unpubEvts (evtOperID : EvtOperID abi)
  /-- `checked`: the operator was found registered. -/
  | subEvts (evtSuberID : EvtOperID abi) (evtIDs : List EvtID) (evtSubArgs : EvtSubArgs) (checked : Bool)
  | unsubEvts (evtOperID : EvtOperID abi)
  | postEvtSRT (evtPuberID : EvtOperID abi) (arg : PostArg abi) (pc : PostPc)

/-- A queue object.  Its mutex and its condition are initialized (`mutexInit`, `condInit`) and later destroyed
(`mutexGone`, `condGone`); `mutex` is the thread that died with the mutex locked. -/
structure QueueObj (abi : Abi) where
  queue : EvtQueue abi
  mutexInit : Bool
  condInit : Bool
  mutex : Option Thread
  mutexGone : Bool
  condGone : Bool
  freed : Bool

/-- A queue object as `calloc` leaves it. -/
def QueueObj.zero : QueueObj abi := ⟨EvtQueue.init 0, false, false, none, false, false, false⟩

/-- The mutex can be locked. -/
def QueueObj.mutexReady (x : QueueObj abi) : Bool := x.mutexInit && !x.mutexGone

/-- The condition can be signalled. -/
def QueueObj.condReady (x : QueueObj abi) : Bool := x.condInit && !x.condGone

theorem QueueObj.mutexReady_iff {x : QueueObj abi} :
    x.mutexReady = true ↔ x.mutexInit = true ∧ x.mutexGone = false := by
  simp [QueueObj.mutexReady]

theorem QueueObj.condReady_iff {x : QueueObj abi} : x.condReady = true ↔ x.condInit = true ∧ x.condGone = false := by
  simp [QueueObj.condReady]

/-- One entry of the log. -/
inductive Obs (abi : Abi) where
  /-- A descriptor was stored in queue `q`. -/
  | accept (q : ℕ) (t : Thread) (d : EvtDesc abi)
  /-- The processor of `q` took the descriptor. -/
  | take (q : ℕ) (d : EvtDesc abi)
  /-- The dispatch loop read the descriptor of its dispatch `k`. -/
  | read (q k : ℕ) (d : EvtDesc abi)
  /-- A callback was called, with what the descriptor was then. -/
  | call (q k : ℕ) (evtSuberID : EvtOperID abi) (toObjPriv : Ptr) (d : EvtDesc abi)
  /-- The running callback read the descriptor. -/
  | cbRead (q k : ℕ) (d : EvtDesc abi)
  /-- Dispatch `k` went through the whole subscription table. -/
  | dispatched (q k : ℕ)
  /-- An operator was registered. -/
  | reged (evtOperID : EvtOperID abi)
  /-- A call returned; `none` for a function without a result. -/
  | ret (t : Thread) (result : Option TosResult)
  deriving DecidableEq

/-- Why the process ended. -/
inductive Halt where
  | nullDeref
  | useAfterFree
  /-- A mutex or a condition was used before it was initialized, or after it was destroyed. -/
  | notInitialized
  | outOfBounds
  deriving DecidableEq

/-- The state of the process. -/
structure State (abi : Abi) where
  /-- The number of client threads. -/
  clients : ℕ
  manger : Manger abi
  /-- The thread in `PLT_EVT_enableEvtManger` or `PLT_EVT_disableEvtManger` that holds the state lock for writing. -/
  stateWLock : Option Thread
  /-- The threads that hold `_mEvtPSDB_SubTableRWLock` for reading. -/
  subReaders : List Thread
  queues : ℕ → QueueObj abi
  nextQueue : ℕ
  nextRow : ℕ
  procer : ℕ → ProcerPc
  /-- `pthread_cancel` was called for the processor of the queue. -/
  cancelled : ℕ → Bool
  calls : Thread → Option (Call abi)
  halted : Option Halt
  /-- History: the manager when the thread made its last call. -/
  entry : Thread → Manger abi
  log : List (Obs abi)

/-- The process before any call. -/
def State.init (clients : ℕ) : State abi where
  clients := clients
  manger := .init
  stateWLock := none
  subReaders := []
  queues := fun _ => .zero
  nextQueue := 0
  nextRow := 0
  procer := fun _ => .absent
  cancelled := fun _ => false
  calls := fun _ => none
  halted := none
  entry := fun _ => .init
  log := []

/-! ### State updates -/

namespace State

variable (s : State abi)

/-- The queue of the object `q`. -/
@[simp] abbrev queue (q : ℕ) : EvtQueue abi := (s.queues q).queue

@[simp] def setManger (m : Manger abi) : State abi := { s with manger := m }

@[simp] def setQueue (q : ℕ) (x : EvtQueue abi) : State abi :=
  { s with queues := Function.update s.queues q { s.queues q with queue := x } }

@[simp] def setProcer (q : ℕ) (pc : ProcerPc) : State abi := { s with procer := Function.update s.procer q pc }

@[simp] def setCall (t : Thread) (c : Option (Call abi)) : State abi :=
  { s with calls := Function.update s.calls t c }

@[simp] def obs (o : Obs abi) : State abi := { s with log := s.log ++ [o] }

@[simp] def halt (h : Halt) : State abi := { s with halted := some h }

/-- A call returns. -/
@[simp] def ret (t : Thread) (r : Option TosResult) : State abi := (s.setCall t none).obs (.ret t r)

end State

/-! ### History -/

section

variable (q : ℕ) (log : List (Obs abi))

/-- The descriptors accepted by queue `q`, in order. -/
def acceptedIn : List (EvtDesc abi) :=
  log.filterMap fun
    | .accept p _ d => if p = q then some d else none
    | _ => none

/-- The descriptors the processor of `q` took, in order. -/
def takenIn : List (EvtDesc abi) :=
  log.filterMap fun
    | .take p d => if p = q then some d else none
    | _ => none

/-- What was read of the descriptors of queue `q` while they were dispatched: the number of the dispatch, and what
the descriptor was at that moment. -/
def readsIn : List (ℕ × EvtDesc abi) :=
  log.filterMap fun
    | .read p k d | .call p k _ _ d | .cbRead p k d => if p = q then some (k, d) else none
    | _ => none

/-- The dispatches of queue `q` that went through the whole table. -/
def dispatchedIn : List ℕ :=
  log.filterMap fun
    | .dispatched p k => if p = q then some k else none
    | _ => none

@[simp] theorem acceptedIn_append (os : List (Obs abi)) :
    acceptedIn q (log ++ os) = acceptedIn q log ++ acceptedIn q os := List.filterMap_append

@[simp] theorem takenIn_append (os : List (Obs abi)) : takenIn q (log ++ os) = takenIn q log ++ takenIn q os :=
  List.filterMap_append

@[simp] theorem readsIn_append (os : List (Obs abi)) : readsIn q (log ++ os) = readsIn q log ++ readsIn q os :=
  List.filterMap_append

@[simp] theorem dispatchedIn_append (os : List (Obs abi)) :
    dispatchedIn q (log ++ os) = dispatchedIn q log ++ dispatchedIn q os := List.filterMap_append

variable (t : Thread) (r : Option TosResult)

@[simp] theorem acceptedIn_ret : acceptedIn q [(.ret t r : Obs abi)] = [] := rfl

@[simp] theorem takenIn_ret : takenIn q [(.ret t r : Obs abi)] = [] := rfl

@[simp] theorem readsIn_ret : readsIn q [(.ret t r : Obs abi)] = [] := rfl

@[simp] theorem dispatchedIn_ret : dispatchedIn q [(.ret t r : Obs abi)] = [] := rfl

end

namespace State

variable (s : State abi) (q : ℕ)

@[simp] abbrev accepted : List (EvtDesc abi) := acceptedIn q s.log

@[simp] abbrev taken : List (EvtDesc abi) := takenIn q s.log

@[simp] abbrev reads : List (ℕ × EvtDesc abi) := readsIn q s.log

@[simp] abbrev dispatched : List ℕ := dispatchedIn q s.log

end State

end PlatIF.Evt
