import PlatIF.Ioc.Context

/-!
# Threads and call frames of the connectionless mode

A thread is a base (an ordinary client thread, or an async thread with its program point in
`__IOC_ConlesMode_ASyncEventThread`) under a stack of frames: the API calls in progress and the user
callbacks in progress.  User code is on top when the top frame is a callback, or when a client thread has
no frame; it may then call any API function, and a callback may return.

The program points are the places where the source holds no subscriber mutex.  What lies between two of
them is one step: a section under a subscriber mutex, a stretch under the context mutex, or a signal.

The state also carries history that the code does not have and no step reads: the number of the
subscription that fills each slot, a log of what was accepted and delivered, and in each frame what its
call found on entry.
-/

namespace PlatIF.Ioc

variable {abi : Abi}

/-! ### Program points -/

/-- Program points of `__IOC_ConlesMode_postEVT`. -/
inductive PostPc where
  /-- Before the context mutex is obtained. -/
  | lock
  /-- At the head of the fan-out loop. -/
  | loop (suberIdx : ℕ)
  /-- The SYNC callback of the slot is running. -/
  | inCb (suberIdx : ℕ)
  /-- Before `pthread_mutex_lock(&pEvtSuber->Mutex)`. -/
  | push (suberIdx : ℕ)
  /-- Pushed and unlocked, before `pthread_cond_signal`. -/
  | signal (suberIdx : ℕ)
  /-- Queue full and unlocked, before the `pthread_cond_signal` of the blocking retry. -/
  | retry (suberIdx : ℕ)
  deriving DecidableEq

/-- Program points of `__IOC_ConlesMode_unsubEVT`, with `__IOC_ConlesEvent_stopASyncThread` inlined. -/
inductive UnsubPc where
  | lock
  /-- At the head of the search loop. -/
  | scan (idx : ℕ)
  /-- Before the section that sets `ShouldExitASyncThread`. -/
  | stop (idx : ℕ)
  /-- Flag set, before `pthread_cond_signal`. -/
  | signal (idx : ℕ)
  /-- At `pthread_join`. -/
  | join (idx : ℕ)
  deriving DecidableEq

/-- `pToProcCachedEvtDesc`: the cell of the slot's `EvtDescCachedQueue` it points to.  History: what the cell held when
the pointer was taken. -/
structure CachedPtr (abi : Abi) where
  cell : Fin evtCachedMax
  desc : EvtDesc abi
  deriving DecidableEq

/-- Program points of `__IOC_ConlesMode_ASyncEventThread`. -/
inductive AsyncPc (abi : Abi) where
  /-- Before `setASyncEventThreadSpecificKey`. -/
  | start
  /-- At the head of `while (1)`. -/
  | top
  /-- Blocked in `pthread_cond_wait`. -/
  | waiting
  /-- Woken, before `pthread_cond_wait` has the mutex again. -/
  | woken
  /-- An event was taken and the mutex released; before `CbProcEvt_F` is read and called. -/
  | call (toProcEvtDesc : EvtDesc abi)
  /-- `CbProcEvt_F` is running. -/
  | inCb (toProcEvtDesc : EvtDesc abi)
  /-- At the head of the drain loop. -/
  | drain
  /-- `IsEvtDescQueueEmpty` is computed. -/
  | drainChk (isEvtDescQueueEmpty : Bool)
  /-- The `postEVT` call for the oldest cached entry is running. -/
  | replay (toProcCached : CachedPtr abi)
  /-- That call has returned. -/
  | drained (toProcCached : CachedPtr abi) (result : TosResult)
  deriving DecidableEq

/-! ### Frames -/

/-- What a fan-out found at a matching subscription: whether its queue had room, or what its SYNC
callback returned. -/
inductive Visit where
  | queue (hasRoom : Bool)
  | callback (result : TosResult)
  deriving DecidableEq

/-- A `subEVT` call, always at its lock: the rest of the body is one step. -/
structure SubFrame where
  pEvtSubArgs : EvtSubArgs
  /-- History: depth of the context mutex held by the caller at entry. -/
  entryDepth : ℕ

/-- An `unsubEVT` call. -/
structure UnsubFrame where
  pEvtUnsubArgs : Option EvtUnsubArgs
  pc : UnsubPc
  entryDepth : ℕ

/-- A `postEVT` call with its locals `Result` and `IsCbProcEvt_Found`. -/
structure PostFrame (abi : Abi) where
  /-- `*pEvtDesc`, which a SYNC callback may write to; what a replay looks at is in the slot (`State.desc`). -/
  pEvtDesc : EvtDesc abi
  pOptions : Option Options
  pc : PostPc
  result : TosResult
  isCbProcEvtFound : Bool
  /-- The call is the replay of a cached entry: it returns into the drain loop. -/
  isReplay : Bool
  entryDepth : ℕ
  /-- History: the table when the context mutex was obtained. -/
  table : ℕ → Suber abi
  /-- History: the matching subscriptions visited so far, in order. -/
  visits : List (ℕ × Visit)
  /-- History: what `*pEvtDesc` was at each slot tested so far. -/
  tested : List (EvtDesc abi)

/-- The value `postEVT` returns at its end. -/
def PostFrame.value (f : PostFrame abi) : TosResult :=
  if f.isCbProcEvtFound then f.result else .noEvtSuber

/-- A callback invocation, with the pointers it was made through. -/
structure CbFrame (abi : Abi) where
  suberIdx : ℕ
  cbProcEvtF : Ptr
  pCbPriv : Ptr
  /-- What `*pEvtDesc` was at the call. -/
  pEvtDesc : EvtDesc abi
  /-- History: the subscription whose callback this is. -/
  sid : ℕ
  entryDepth : ℕ

/-- A frame of a thread's stack. -/
inductive Frame (abi : Abi) where
  | sub (f : SubFrame)
  | unsub (f : UnsubFrame)
  | post (f : PostFrame abi)
  | cb (f : CbFrame abi)

/-- A call of the API, as opposed to a callback. -/
def Frame.isApi : Frame abi → Bool
  | .cb _ => false
  | _ => true

/-- The depth at which the thread held the context mutex when the frame was pushed. -/
def Frame.entryDepth : Frame abi → ℕ
  | .sub f => f.entryDepth
  | .unsub f => f.entryDepth
  | .post f => f.entryDepth
  | .cb f => f.entryDepth

/-- The bottom of a thread's stack. -/
inductive Base (abi : Abi) where
  /-- Not yet created, or ended. -/
  | gone
  | client
  /-- An async thread working on a slot, created for subscription `sid`. -/
  | async (suberIdx sid : ℕ) (pc : AsyncPc abi)
  deriving DecidableEq

/-! ### Observations -/

/-- One entry of the log. -/
inductive Obs (abi : Abi) where
  /-- A slot was filled by a new subscription. -/
  | subscribed (suberIdx sid : ℕ)
  /-- A subscription was taken out of its slot. -/
  | removed (sid : ℕ) (t : Tid)
  /-- An event was pushed into the queue of a subscription. -/
  | accept (sid : ℕ) (t : Tid) (isReplay : Bool) (d : EvtDesc abi)
  /-- An async thread calls the callback of a subscription. -/
  | deliver (sid : ℕ) (t : Tid) (d : EvtDesc abi)
  /-- A SYNC post calls the callback of a subscription. -/
  | syncCall (sid : ℕ) (t : Tid) (d : EvtDesc abi)
  /-- A callback returned. -/
  | cbRet (sid : ℕ) (t : Tid) (result : TosResult)
  /-- An event was cached; `nextSid` is the number of the next subscription. -/
  | store (sid nextSid : ℕ) (d : EvtDesc abi)
  /-- The oldest cached entry was retired. -/
  | retire (sid : ℕ) (t : Tid)
  /-- An API call returned. -/
  | ret (t : Tid) (result : TosResult)
  deriving DecidableEq

/-- Why the process ended. -/
inductive Halt where
  /-- `TOS_abortNotTested()`. -/
  | abort
  /-- A call through a null function pointer. -/
  | nullCall
  deriving DecidableEq

/-- The state of the process. -/
structure State (abi : Abi) where
  ctx : Ctx abi
  base : Tid → Base abi
  frames : Tid → List (Frame abi)
  /-- `ASyncEvtThreadEvtSuberKey`; set together with `ASyncEvtThreadFlagKey`. -/
  tls : Tid → Option ℕ
  nextTid : Tid
  halted : Option Halt
  /-- History: the subscription that fills, or last filled, each slot; `0` before the first. -/
  sid : ℕ → ℕ
  nextSid : ℕ
  log : List (Obs abi)

/-- `clients` ordinary threads, and the context as statically initialized. -/
def State.init (maxSuberNum : ULong abi) (clients : ℕ) : State abi where
  ctx := Ctx.init maxSuberNum
  base := fun t => if t < clients then .client else .gone
  frames := fun _ => []
  tls := fun _ => none
  nextTid := clients
  halted := none
  sid := fun _ => 0
  nextSid := 1
  log := []

theorem State.init_base_ne (maxSuberNum : ULong abi) (clients : ℕ) (u : Tid) (i g : ℕ) (pc : AsyncPc abi) :
    (State.init maxSuberNum clients).base u ≠ .async i g pc := by
  by_cases hu : u < clients <;> simp [State.init, hu]

/-! ### State updates -/

namespace State

variable (s : State abi)

/-- The subscriber slot `i`. -/
abbrev suber (i : ℕ) : Suber abi := s.ctx.pEvtSubers i

/-- The depth at which `t` holds the context mutex. -/
abbrev depth (t : Tid) : ℕ := RecMutex.held s.ctx.mutex t

@[simp] def setCtx (c : Ctx abi) : State abi := { s with ctx := c }

@[simp] def setMutex (m : RecMutex Tid) : State abi := s.setCtx { s.ctx with mutex := m }

@[simp] def setSuber (i : ℕ) (x : Suber abi) : State abi := s.setCtx (s.ctx.setSuber i x)

@[simp] def setFrames (t : Tid) (fs : List (Frame abi)) : State abi :=
  { s with frames := Function.update s.frames t fs }

@[simp] def setBase (t : Tid) (b : Base abi) : State abi :=
  { s with base := Function.update s.base t b }

@[simp] def setTls (t : Tid) (i : ℕ) : State abi :=
  { s with tls := Function.update s.tls t (some i) }

@[simp] def obs (o : Obs abi) : State abi := { s with log := s.log ++ [o] }

@[simp] def halt (h : Halt) : State abi := { s with halted := some h }

/-- Slot `i` belongs to a new subscription. -/
@[simp] def newSub (i : ℕ) : State abi :=
  { s with sid := Function.update s.sid i s.nextSid, nextSid := s.nextSid + 1,
           log := s.log ++ [.subscribed i s.nextSid] }

/-- `pthread_create` of the async thread of slot `i`; its id is `nextTid`. -/
@[simp] def spawn (i : ℕ) : State abi :=
  { s with base := Function.update s.base s.nextTid (.async i (s.sid i) .start),
           nextTid := s.nextTid + 1 }

end State

end PlatIF.Ioc
