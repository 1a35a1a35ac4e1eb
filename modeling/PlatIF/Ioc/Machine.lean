import PlatIF.Ioc.State
import PlatIF.Lib.Runs

/-!
# The step function of the connectionless mode

`step s t a` lets thread `t` take one step.  The action says what user code does, what the platform
answers, and which waiting thread a signal wakes; `none` means that the step is not possible (a blocking
lock or a join that has to wait, or an action that does not fit the program point).

Blocking is the absence of a step, so every interleaving of the threads is a list of pairs of a thread
and an action.
-/

namespace PlatIF.Ioc

variable {abi : Abi}

/-- A call of an API function of the connectionless mode. -/
inductive Api (abi : Abi) where
  | subEVT (pEvtSubArgs : EvtSubArgs)
  | unsubEVT (pEvtUnsubArgs : Option EvtUnsubArgs)
  | postEVT (pEvtDesc : EvtDesc abi) (pOptions : Option Options)

/-- What a step is told from outside. -/
inductive Act (abi : Abi) where
  /-- User code calls the API. -/
  | call (api : Api abi)
  /-- A callback returns. -/
  | ret (result : TosResult)
  /-- A SYNC callback writes `*pEvtDesc`.  The copy that an async thread hands out is not read again. -/
  | write (d : EvtDesc abi)
  /-- The thread runs on, with these answers to its requests for resources. -/
  | run (env : Env)
  /-- `pthread_mutex_timedlock` gives up. -/
  | timeout
  /-- A spurious wake-up from `pthread_cond_wait`. -/
  | wake
  /-- `pthread_cond_signal` wakes this thread, or none when none waits. -/
  | signal (woken : Option Tid)

/-- Run on with every resource granted. -/
abbrev Act.go : Act abi := .run {}

namespace State

variable (s : State abi)

/-! ### Calls and returns -/

/-- The frame of a new API call. -/
def frameOf (t : Tid) : Api abi → Frame abi
  | .subEVT args => .sub ⟨args, s.depth t⟩
  | .unsubEVT args => .unsub ⟨args, .lock, s.depth t⟩
  | .postEVT d o => .post ⟨d, o, .lock, .bug, false, false, s.depth t, s.ctx.pEvtSubers, [], []⟩

/-- User code on thread `t` acts. -/
def userStep (t : Tid) (a : Act abi) : Option (State abi) :=
  match a with
  | .call api => some (s.setFrames t (s.frameOf t api :: s.frames t))
  | _ => none

/-- An API call returns `r` to user code. -/
def ret (t : Tid) (rest : List (Frame abi)) (r : TosResult) : State abi :=
  (s.setFrames t rest).obs (.ret t r)

/-- A `postEVT` call returns `r`, to user code or to the drain loop. -/
def retPost (t : Tid) (f : PostFrame abi) (rest : List (Frame abi)) (r : TosResult) : State abi :=
  if f.isReplay then
    match s.base t with
    | .async i g (.replay d) => (s.ret t rest r).setBase t (.async i g (.drained d r))
    | _ => s.ret t rest r
  else s.ret t rest r

/-- Go on with the context `c`; a subscription that held slot `i` in `s` and is not in `c` was removed. -/
def noteRemoved (t : Tid) (i : ℕ) (c : Ctx abi) : State abi :=
  { s with ctx := c,
           log := s.log ++
             if (s.suber i).occupied ∧ ¬ (c.pEvtSubers i).occupied then [.removed (s.sid i) t] else [] }

/-- Thread `u` is blocked on the condition of slot `i`. -/
def waitsOn (u : Tid) (i : ℕ) : Bool :=
  match s.base u with
  | .async j _ .waiting => j == i
  | _ => false

/-- `pthread_cond_signal(&pEvtSuber->Cond)`: wakes a thread that waits on slot `i`, if there is one. -/
def condSignal (i : ℕ) (woken : Option Tid) : Option (State abi) :=
  match woken with
  | some u =>
    match s.base u with
    | .async j g .waiting => if j = i then some (s.setBase u (.async j g .woken)) else none
    | _ => none
  | none => if (List.range s.nextTid).any (fun u => s.waitsOn u i) then none else some s

/-! ### `subEVT` -/

def subStep (t : Tid) (f : SubFrame) (rest : List (Frame abi)) (a : Act abi) : Option (State abi) :=
  match a with
  | .run env =>
    match subEVT s.ctx t f.pEvtSubArgs env with
    | .blocked => none
    | .abort => some (s.halt .abort)
    | .ret r c none => some ((s.setCtx c).ret t rest r)
    | .ret r c (some i) => some (((s.setCtx c).newSub i).ret t rest r)
  | _ => none

/-! ### `unsubEVT` -/

/-- Go on after the loop body handled slot `i`. -/
def unsubNext (t : Tid) (f : UnsubFrame) (rest : List (Frame abi)) (i : ℕ) (n : UnsubNext abi) :
    State abi :=
  match n with
  | .stop => s.setFrames t (.unsub { f with pc := .stop i } :: rest)
  | .next c => (s.noteRemoved t i c).setFrames t (.unsub { f with pc := .scan (i + 1) } :: rest)
  -- the source returns `TOS_RESULT_SUCCESS` whatever `Result` holds
  | .done c => (s.noteRemoved t i c).ret t rest .success

/-- `pthread_join` returns: the target has ended, or is the caller itself (which fails at once). -/
def joinReady (t : Tid) (i : ℕ) : Bool :=
  match (s.suber i).asyncThreadID with
  | none => true
  | some u => u == t || decide (s.base u = .gone)

def unsubStep (t : Tid) (f : UnsubFrame) (rest : List (Frame abi)) (a : Act abi) :
    Option (State abi) :=
  match f.pc, a with
  | .lock, .run _ =>
    match RecMutex.tryLock s.ctx.mutex t with
    | none => none
    | some m =>
      if s.ctx.isAlloced then
        some ((s.setMutex m).setFrames t (.unsub { f with pc := .scan 0 } :: rest))
      else some ((s.setMutex (RecMutex.unlock m t)).ret t rest .notFound)
  | .scan i, .run _ =>
    some (s.unsubNext t f rest i (unsubVisit s.ctx t f.pEvtUnsubArgs i))
  | .stop i, .run _ =>
    match (s.suber i).lock t with
    | none => none
    | some x =>
      some ((s.setSuber i { x with shouldExitASyncThread := true }.unlock).setFrames t
        (.unsub { f with pc := .signal i } :: rest))
  | .signal i, .signal woken =>
    match s.condSignal i woken with
    | none => none
    | some s => some (s.setFrames t (.unsub { f with pc := .join i } :: rest))
  | .join i, .run _ =>
    if s.joinReady t i then
      some (s.unsubNext t f rest i
        (unsubFree (s.ctx.setSuber i { s.suber i with asyncThreadID := none }) t f.pEvtUnsubArgs i))
    else none
  | _, _ => none

/-! ### `postEVT` -/

/-- `__IOC_ConlesMode_postEVT_ASyncThreadCached`, for the slot of the thread-specific key. -/
def postCached (t : Tid) (f : PostFrame abi) (rest : List (Frame abi)) (i : ℕ) : State abi :=
  if (s.suber i).evtCached.hasRoom then
    ((s.setSuber i { s.suber i with evtCached := (s.suber i).evtCached.push f.pEvtDesc }).obs
      (.store (s.sid i) s.nextSid f.pEvtDesc)).retPost t f rest .success
  else s.retPost t f rest .notEnoughResource

/-- The lock acquisition of `postEVT`. -/
def postLock (t : Tid) (f : PostFrame abi) (rest : List (Frame abi)) (a : Act abi) :
    Option (State abi) :=
  match RecMutex.tryLock s.ctx.mutex t, a with
  | some m, .run _ =>
    if s.ctx.isAlloced then
      some ((s.setMutex m).setFrames t
        (.post { f with pc := .loop 0, table := s.ctx.pEvtSubers } :: rest))
    else some ((s.setMutex (RecMutex.unlock m t)).retPost t f rest .notFound)
  | none, .run _ =>
    if isNonBlock f.pOptions then some (s.retPost t f rest .timeout)
    else if isTimeout f.pOptions then none
    else
      match s.tls t with
      | some i => some (s.postCached t f rest i)
      | none => none
  | none, .timeout =>
    if isTimeout f.pOptions then some (s.retPost t f rest .timeout) else none
  | _, _ => none

/-- `*pEvtDesc`.  A replay looks at the cell that `pToProcCachedEvtDesc` points to. -/
def desc (t : Tid) (f : PostFrame abi) : EvtDesc abi :=
  match f.isReplay, s.base t with
  | true, .async i _ (.replay p) => (s.suber i).evtCached.cells p.cell
  | _, _ => f.pEvtDesc

/-- SYNC delivery: asked for by the call, or set for the context. -/
def isSync (f : PostFrame abi) : Bool := isSyncMode f.pOptions || s.ctx.isSyncMode

/-- The head of the fan-out loop. -/
def postLoop (t : Tid) (f : PostFrame abi) (rest : List (Frame abi)) (i : ℕ) : State abi :=
  if i < s.ctx.maxSuberNum.toNat then
    if (s.suber i).args.lists (s.desc t f) then
      if s.isSync f then
        (s.setFrames t
          (.cb ⟨i, (s.suber i).args.cbProcEvtF, (s.suber i).args.pCbPriv, s.desc t f, s.sid i,
              s.depth t⟩ :: .post { f with pc := .inCb i, tested := f.tested ++ [s.desc t f] } :: rest)).obs
          (.syncCall (s.sid i) t (s.desc t f))
      else s.setFrames t (.post { f with pc := .push i, tested := f.tested ++ [s.desc t f] } :: rest)
    else s.setFrames t (.post { f with pc := .loop (i + 1), tested := f.tested ++ [s.desc t f] } :: rest)
  else (s.setMutex (RecMutex.unlock s.ctx.mutex t)).retPost t f rest f.value

/-- The rest of the section of an ASYNC visit, with the subscriber mutex held and a thread started. -/
def postPush (t : Tid) (f : PostFrame abi) (rest : List (Frame abi)) (i : ℕ) (d : EvtDesc abi) (x : Suber abi) :
    State abi :=
  if x.evtQueue.hasRoom then
    ((s.setSuber i { x with evtQueue := x.evtQueue.push d }.unlock).setFrames t
      (.post { f with pc := .signal i, result := .success,
                      visits := f.visits ++ [(i, .queue true)] } :: rest)).obs
      (.accept (s.sid i) t f.isReplay d)
  else if isNonBlock f.pOptions then
    (s.setSuber i x.unlock).setFrames t
      (.post { f with pc := .loop (i + 1), result := .timeout, isCbProcEvtFound := true,
                      visits := f.visits ++ [(i, .queue false)] } :: rest)
  else if isTimeout f.pOptions then (s.setSuber i x).halt .abort
  else (s.setSuber i x.unlock).setFrames t (.post { f with pc := .retry i } :: rest)

/-- The section of an ASYNC visit: start the async thread if there is none, then push. -/
def postSection (t : Tid) (f : PostFrame abi) (rest : List (Frame abi)) (i : ℕ) (env : Env) :
    Option (State abi) :=
  match (s.suber i).lock t with
  | none => none
  | some x =>
    match x.asyncThreadID with
    | some _ => some (s.postPush t f rest i (s.desc t f) x)
    | none =>
      if env.threadCreate then
        some ((s.spawn i).postPush t f rest i (s.desc t f) { x with asyncThreadID := some s.nextTid })
      else some ((s.setSuber i x.unlock).halt .abort)

def postStep (t : Tid) (f : PostFrame abi) (rest : List (Frame abi)) (a : Act abi) :
    Option (State abi) :=
  match f.pc, a with
  | .lock, a => s.postLock t f rest a
  | .loop i, .run _ => some (s.postLoop t f rest i)
  | .push i, .run env => s.postSection t f rest i env
  | .signal i, .signal woken =>
    match s.condSignal i woken with
    | none => none
    | some s => some (s.setFrames t
        (.post { f with pc := .loop (i + 1), isCbProcEvtFound := true } :: rest))
  | .retry i, .signal woken =>
    match s.condSignal i woken with
    | none => none
    | some s => some (s.setFrames t (.post { f with pc := .push i } :: rest))
  | _, _ => none

/-! ### Callbacks and the async thread -/

/-- A callback returns `r`: to the SYNC fan-out that called it, or to its async thread. -/
def cbReturn (t : Tid) (f : CbFrame abi) (rest : List (Frame abi)) (r : TosResult) :
    Option (State abi) :=
  match rest with
  | .post p :: rest' =>
    match p.pc with
    | .inCb i =>
      some ((s.setFrames t
        (.post { p with pc := .loop (i + 1), result := r, isCbProcEvtFound := true,
                        visits := p.visits ++ [(i, .callback r)] } :: rest')).obs
        (.cbRet f.sid t r))
    | _ => none
  | [] =>
    match s.base t with
    | .async i g (.inCb _) =>
      some (((s.setFrames t []).setBase t (.async i g .drain)).obs (.cbRet f.sid t r))
    | _ => none
  | _ => none

/-- A SYNC callback writes `d` through its pointer, which is the one its `postEVT` was given; a replay makes no SYNC
call. -/
def cbWrite (t : Tid) (f : CbFrame abi) (rest : List (Frame abi)) (d : EvtDesc abi) : Option (State abi) :=
  match rest with
  | .post p :: rest' =>
    match p.pc, p.isReplay with
    | .inCb _, false => some (s.setFrames t (.cb f :: .post { p with pEvtDesc := d } :: rest'))
    | _, _ => none
  | _ => none

/-- The section at the head of the loop and after a wake-up: leave, wait, or take the next event. -/
def consume (t : Tid) (i g : ℕ) : Option (State abi) :=
  match (s.suber i).lock t with
  | none => none
  | some x =>
    if x.shouldExitASyncThread && x.evtQueue.isEmpty then
      some ((s.setSuber i x.unlock).setBase t .gone)
    else if x.evtQueue.isEmpty then
      some ((s.setSuber i x.unlock).setBase t (.async i g .waiting))
    else
      some ((s.setSuber i { x with evtQueue := x.evtQueue.pop }.unlock).setBase t
        (.async i g (.call x.evtQueue.front)))

/-- `pEvtSuber->Args.CbProcEvt_F(&ToProcEvtDesc, pEvtSuber->Args.pCbPriv)`, read without a lock. -/
def asyncCall (t : Tid) (i g : ℕ) (d : EvtDesc abi) : State abi :=
  if (s.suber i).args.cbProcEvtF = NULL then s.halt .nullCall
  else
    ((s.setBase t (.async i g (.inCb d))).setFrames t
      [.cb ⟨i, (s.suber i).args.cbProcEvtF, (s.suber i).args.pCbPriv, d, s.sid i, s.depth t⟩]).obs
      (.deliver (s.sid i) t d)

/-- After `IsEvtDescQueueEmpty` was computed: replay the oldest cached entry, or leave the drain
loop. -/
def drainNext (t : Tid) (i g : ℕ) (isEmpty : Bool) : State abi :=
  if isEmpty && (s.suber i).evtCached.pending > 0 then
    (s.setBase t (.async i g (.replay ⟨WrapRing.cellOf _ (s.suber i).evtCached.procCnt,
        (s.suber i).evtCached.front⟩))).setFrames t
      [.post ⟨(s.suber i).evtCached.front, some optNonBlock, .lock, .bug, false, true, s.depth t,
          s.ctx.pEvtSubers, [], []⟩]
  else s.setBase t (.async i g .top)

/-- `EvtProcCachedCnt++`. -/
def retire (t : Tid) (i : ℕ) : State abi :=
  (s.setSuber i { s.suber i with evtCached := (s.suber i).evtCached.pop }).obs
    (.retire (s.sid i) t)

/-- After a replay returned `r`; the flag is read in the cell that was replayed. -/
def drainResult (t : Tid) (i g : ℕ) (p : CachedPtr abi) (r : TosResult) : State abi :=
  if r = .success then (s.retire t i).setBase t (.async i g .drain)
  else if ((s.suber i).evtCached.cells p.cell).mayDrop then (s.retire t i).halt .abort
  else s.setBase t (.async i g .drain)

def asyncStep (t : Tid) (i g : ℕ) (pc : AsyncPc abi) (a : Act abi) : Option (State abi) :=
  match pc, a with
  | .start, .run _ => some ((s.setTls t i).setBase t (.async i g .top))
  | .top, .run _ => s.consume t i g
  | .waiting, .wake => some (s.setBase t (.async i g .woken))
  | .woken, .run _ => s.consume t i g
  | .call d, .run _ => some (s.asyncCall t i g d)
  | .drain, .run _ =>
    match (s.suber i).lock t with
    | none => none
    | some x => some ((s.setSuber i x.unlock).setBase t (.async i g (.drainChk x.evtQueue.isEmpty)))
  | .drainChk e, .run _ => some (s.drainNext t i g e)
  | .drained p r, .run _ => some (s.drainResult t i g p r)
  | _, _ => none

/-! ### The step function -/

/-- One step of thread `t`. -/
def step (t : Tid) (a : Act abi) : Option (State abi) :=
  if s.halted.isSome then none
  else
    match s.frames t with
    | [] =>
      match s.base t with
      | .gone => none
      | .client => s.userStep t a
      | .async i g pc => s.asyncStep t i g pc a
    | .cb f :: rest =>
      match a with
      | .ret r => s.cbReturn t f rest r
      | .write d => s.cbWrite t f rest d
      | a => s.userStep t a
    | .sub f :: rest => s.subStep t f rest a
    | .unsub f :: rest => s.unsubStep t f rest a
    | .post f :: rest => s.postStep t f rest a

end State

/-- The transition function of the system of all threads. -/
def next (s : State abi) (a : Tid × Act abi) : Option (State abi) := s.step a.1 a.2

/-- States of runs whose steps all meet `ok`, from `clients` ordinary threads and a table of
`maxSuberNum` slots. -/
def Reach (ok : State abi → Tid × Act abi → Prop) (maxSuberNum : ULong abi) (clients : ℕ)
    (s : State abi) : Prop :=
  Runs.ReachUnder next ok (State.init maxSuberNum clients) s

/-- The step from `s` to `s'` is the return of the call `f` of thread `t`, with result `r`. -/
structure Returns (s s' : State abi) (t : Tid) (f : Frame abi) (r : TosResult) : Prop where
  top : s.frames t = f :: s'.frames t
  api : f.isApi = true
  result : s'.log.getLast? = some (.ret t r)

/-- A state reached by the given actions, and tested there. -/
theorem reach_of_run (ok : State abi → Tid × Act abi → Prop) [∀ s x, Decidable (ok s x)]
    (maxSuberNum : ULong abi) (clients : ℕ) (acts : List (Tid × Act abi)) (p : State abi → Bool)
    (h : (Runs.runUnder next ok acts (State.init maxSuberNum clients)).any p = true) :
    ∃ s, Reach ok maxSuberNum clients s ∧ p s = true :=
  Runs.exists_reach_of_runUnder acts p h

/-- The call in progress, when it is the only frame of its thread. -/
def State.onlyFrame (s : State abi) (t : Tid) : Option (Frame abi) :=
  match s.frames t with
  | [f] => some f
  | _ => none

theorem State.onlyFrame_eq_some {s : State abi} {t : Tid} {f : Frame abi} :
    s.onlyFrame t = some f ↔ s.frames t = [f] := by
  unfold State.onlyFrame
  split <;> simp_all

/-- The post in progress, when it is the only frame of its thread. -/
def State.onlyPost (s : State abi) (t : Tid) : Option (PostFrame abi) :=
  match s.frames t with
  | [.post f] => some f
  | _ => none

theorem State.onlyPost_eq_some {s : State abi} {t : Tid} {f : PostFrame abi} :
    s.onlyPost t = some f ↔ s.frames t = [.post f] := by
  unfold State.onlyPost
  split <;> simp_all

/-- The callback on top of the stack of `t`. -/
def State.topCb (s : State abi) (t : Tid) : Option (CbFrame abi) :=
  match s.frames t with
  | .cb c :: _ => some c
  | _ => none

/-- The last call of `t` has just returned `r`. -/
def State.returned (s : State abi) (t : Tid) (r : TosResult) : Bool :=
  (s.frames t).isEmpty && s.log.getLast? == some (.ret t r)

theorem returns_of_returned {s s' : State abi} {t : Tid} {f : Frame abi} {r : TosResult} (hf : s.frames t = [f])
    (hapi : f.isApi = true) (h : s'.returned t r = true) : Returns s s' t f r := by
  simp only [State.returned, Bool.and_eq_true, List.isEmpty_iff, beq_iff_eq] at h
  exact ⟨by rw [hf, h.1], hapi, h.2⟩

end PlatIF.Ioc
