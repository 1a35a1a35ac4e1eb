import PlatIF.Ioc.Machine

/-!
# The transitions of the connectionless mode

`Trans s t a s'` lists what a step can do, one constructor for each way through the source between two
program points, with the guards that hold there.  A subscriber section locks and unlocks the subscriber
mutex, so its net effect leaves the mutex as it was: the constructors state the slot without it.
-/

namespace PlatIF.Ioc

variable {abi : Abi}

/-! ### Net effects -/

/-- A freed slot, with its thread gone. -/
def Suber.freed (x : Suber abi) : Suber abi := { x.clearArgs with asyncThreadID := none }

@[simp] theorem Suber.freed_occupied (x : Suber abi) : ¬ x.freed.occupied := by
  simp [Suber.freed, Suber.clearArgs, Suber.occupied]

/-- The call of `unsubEVT` looks for this subscription. -/
def UnsubFrame.picks (f : UnsubFrame) (x : Suber abi) : Prop :=
  match f.pEvtUnsubArgs with
  | none => True
  | some k => x.hasKey k

namespace State

variable (s : State abi)

/-- Slot `i` with a running thread: the one it has, or a new one. -/
def withThread (i : ℕ) : State abi :=
  match (s.suber i).asyncThreadID with
  | some _ => s
  | none => (s.spawn i).setSuber i { s.suber i with asyncThreadID := some s.nextTid }

/-- Slot `i` freed by `t`. -/
@[simp] def freeSlot (t : Tid) (i : ℕ) : State abi :=
  { s with ctx := s.ctx.setSuber i (s.suber i).freed,
           log := s.log ++ if (s.suber i).occupied then [.removed (s.sid i) t] else [] }

/-- The thread of slot `i` joined. -/
@[simp] def detach (i : ℕ) : State abi :=
  s.setSuber i { s.suber i with asyncThreadID := none }

/-- User code is on top of the stack of `t`. -/
def userOnTop (t : Tid) : Prop :=
  (s.frames t = [] ∧ s.base t = .client) ∨ ∃ f rest, s.frames t = .cb f :: rest

/-- Slot `i` has no thread to stop, or its thread was joined. -/
def slotStopped (t : Tid) (f : UnsubFrame) (i : ℕ) : Prop :=
  (f.pc = .scan i ∧ i < s.ctx.maxSuberNum.toNat ∧ f.picks (s.suber i) ∧
      (s.suber i).asyncThreadID = none) ∨
    (f.pc = .join i ∧ s.joinReady t i = true)

/-- `s₁` is `s` with at most one thread woken that waited on slot `i`. -/
def Woken (i : ℕ) (s₁ : State abi) : Prop :=
  s₁ = s ∨ ∃ u g, s.base u = .async i g .waiting ∧ s₁ = s.setBase u (.async i g .woken)

/-- The context after `subEVT` refilled slot `i`; it is counted when `malloc` gave the identifiers. -/
@[simp] def subFilled (i : ℕ) (args : EvtSubArgs) (malloc : Bool) : Ctx abi :=
  { s.ctx with
    isAlloced := true
    curSuberNum := if malloc then s.ctx.curSuberNum + 1 else s.ctx.curSuberNum
    pEvtSubers := Function.update s.ctx.allocSubers.pEvtSubers i
      (if malloc then .ofArgsCopied args else .ofArgs args) }

end State

/-! ### The started thread -/

section

variable {s : State abi} {i : ℕ}

theorem withThread_of_none (hu : (s.suber i).asyncThreadID = none) :
    s.withThread i =
      (s.spawn i).setSuber i { s.suber i with asyncThreadID := some s.nextTid } := by
  unfold State.withThread
  rw [hu]

theorem withThread_of_some {u : Tid} (hu : (s.suber i).asyncThreadID = some u) :
    s.withThread i = s := by
  unfold State.withThread
  rw [hu]

theorem withThread_sid : (s.withThread i).sid = s.sid := by
  unfold State.withThread
  split <;> rfl

/-- The slot after its thread was started if it had none. -/
theorem withThread_suber :
    (s.withThread i).suber i = { s.suber i with
      asyncThreadID := some ((s.suber i).asyncThreadID.getD s.nextTid) } := by
  cases hu : (s.suber i).asyncThreadID with
  | none =>
    rw [withThread_of_none hu]
    simp [State.suber]
  | some u =>
    rw [withThread_of_some hu, Option.getD_some, ← hu]

end

/-! ### The transition relation -/

/-- One step of thread `t`. -/
inductive Trans (s : State abi) (t : Tid) : Act abi → State abi → Prop
  -- user code
  | call (api : Api abi) (hu : s.userOnTop t) :
      Trans s t (.call api) (s.setFrames t (s.frameOf t api :: s.frames t))
  | cbRetPost {f p rest i} (r : TosResult) (hf : s.frames t = .cb f :: .post p :: rest)
      (hp : p.pc = .inCb i) :
      Trans s t (.ret r) ((s.setFrames t
        (.post { p with pc := .loop (i + 1), result := r, isCbProcEvtFound := true,
                        visits := p.visits ++ [(i, .callback r)] } :: rest)).obs
        (.cbRet f.sid t r))
  | cbRetAsync {f i g d} (r : TosResult) (hf : s.frames t = [.cb f])
      (hb : s.base t = .async i g (.inCb d)) :
      Trans s t (.ret r)
        (((s.setFrames t []).setBase t (.async i g .drain)).obs (.cbRet f.sid t r))
  | cbWrite {f p rest i} (d : EvtDesc abi) (hf : s.frames t = .cb f :: .post p :: rest) (hp : p.pc = .inCb i)
      (hr : p.isReplay = false) :
      Trans s t (.write d) (s.setFrames t (.cb f :: .post { p with pEvtDesc := d } :: rest))
  -- subEVT
  | subFull {env f rest m} (hf : s.frames t = .sub f :: rest)
      (hm : RecMutex.tryLock s.ctx.mutex t = some m)
      (hc : s.ctx.curSuberNum ≥ s.ctx.maxSuberNum) :
      Trans s t (.run env) (s.ret t rest .notEnoughResource)
  | subNoSlot {env f rest m m'} (hf : s.frames t = .sub f :: rest)
      (hm : RecMutex.tryLock s.ctx.mutex t = some m) (hm' : RecMutex.tryLock m t = some m')
      (hc : ¬ s.ctx.curSuberNum ≥ s.ctx.maxSuberNum)
      (hi : s.ctx.allocSubers.freeSuberIdx = none) :
      Trans s t (.run env)
        ((s.setCtx { s.ctx with isAlloced := true, pEvtSubers := s.ctx.allocSubers.pEvtSubers,
                                mutex := m' }).ret t rest .notTestedBug)
  | subFill {env f rest m i} (hf : s.frames t = .sub f :: rest)
      (hm : RecMutex.tryLock s.ctx.mutex t = some m)
      (hc : ¬ s.ctx.curSuberNum ≥ s.ctx.maxSuberNum)
      (hi : s.ctx.allocSubers.freeSuberIdx = some i) :
      Trans s t (.run env)
        (((s.setCtx (s.subFilled i f.pEvtSubArgs env.malloc)).newSub i).ret t rest
          (if env.malloc then .success else .notTestedBug))
  -- unsubEVT
  | unsubLock {env f rest m} (hf : s.frames t = .unsub f :: rest) (hp : f.pc = .lock)
      (hm : RecMutex.tryLock s.ctx.mutex t = some m) (ha : s.ctx.isAlloced = true) :
      Trans s t (.run env)
        ((s.setMutex m).setFrames t (.unsub { f with pc := .scan 0 } :: rest))
  | unsubNotFound {env f rest m} (hf : s.frames t = .unsub f :: rest) (hp : f.pc = .lock)
      (hm : RecMutex.tryLock s.ctx.mutex t = some m) (ha : s.ctx.isAlloced = false) :
      Trans s t (.run env) (s.ret t rest .notFound)
  | unsubStop {env f rest i u} (hf : s.frames t = .unsub f :: rest) (hp : f.pc = .scan i)
      (hi : i < s.ctx.maxSuberNum.toNat) (hk : f.picks (s.suber i))
      (hu : (s.suber i).asyncThreadID = some u) :
      Trans s t (.run env) (s.setFrames t (.unsub { f with pc := .stop i } :: rest))
  | unsubSkip {env f rest i} (hf : s.frames t = .unsub f :: rest) (hp : f.pc = .scan i)
      (hi : i < s.ctx.maxSuberNum.toNat) (hk : ¬ f.picks (s.suber i)) :
      Trans s t (.run env) (s.setFrames t (.unsub { f with pc := .scan (i + 1) } :: rest))
  | unsubEnd {env f rest i} (hf : s.frames t = .unsub f :: rest) (hp : f.pc = .scan i)
      (hi : ¬ i < s.ctx.maxSuberNum.toNat) :
      Trans s t (.run env)
        ((s.setCtx { s.ctx with
            curSuberNum := if f.pEvtUnsubArgs.isNone then 0 else s.ctx.curSuberNum,
            mutex := RecMutex.unlock s.ctx.mutex t }).ret t rest .success)
  | unsubSetFlag {env f rest i} (hf : s.frames t = .unsub f :: rest) (hp : f.pc = .stop i)
      (hx : (s.suber i).mutex = none) :
      Trans s t (.run env)
        ((s.setSuber i { s.suber i with shouldExitASyncThread := true }).setFrames t
          (.unsub { f with pc := .signal i } :: rest))
  | unsubSignal {woken f rest i s₁} (hf : s.frames t = .unsub f :: rest) (hp : f.pc = .signal i)
      (hw : s.Woken i s₁) :
      Trans s t (.signal woken) (s₁.setFrames t (.unsub { f with pc := .join i } :: rest))
  | unsubFreeNext {env f rest i} (hf : s.frames t = .unsub f :: rest) (hs : s.slotStopped t f i)
      (hn : f.pEvtUnsubArgs = none) (hids : (s.suber i).args.pEvtIDs.isSome = true) :
      Trans s t (.run env)
        ((s.freeSlot t i).setFrames t (.unsub { f with pc := .scan (i + 1) } :: rest))
  | unsubKeepNext {env f rest i} (hf : s.frames t = .unsub f :: rest) (hs : s.slotStopped t f i)
      (hn : f.pEvtUnsubArgs = none) (hids : (s.suber i).args.pEvtIDs = none) :
      Trans s t (.run env)
        ((s.detach i).setFrames t (.unsub { f with pc := .scan (i + 1) } :: rest))
  | unsubFreeDone {env f rest i k} (hf : s.frames t = .unsub f :: rest) (hs : s.slotStopped t f i)
      (hk : f.pEvtUnsubArgs = some k) :
      Trans s t (.run env)
        (((s.freeSlot t i).setCtx { (s.freeSlot t i).ctx with
            curSuberNum := s.ctx.curSuberNum - 1,
            mutex := RecMutex.unlock s.ctx.mutex t }).ret t rest .success)
  -- postEVT: obtaining the context mutex
  | postLock {env f rest m} (hf : s.frames t = .post f :: rest) (hp : f.pc = .lock)
      (hm : RecMutex.tryLock s.ctx.mutex t = some m) (ha : s.ctx.isAlloced = true) :
      Trans s t (.run env)
        ((s.setMutex m).setFrames t
          (.post { f with pc := .loop 0, table := s.ctx.pEvtSubers } :: rest))
  | postNotFound {env f rest m} (hf : s.frames t = .post f :: rest) (hp : f.pc = .lock)
      (hm : RecMutex.tryLock s.ctx.mutex t = some m) (ha : s.ctx.isAlloced = false) :
      Trans s t (.run env) (s.retPost t f rest .notFound)
  | postBusy {a f rest} (hf : s.frames t = .post f :: rest) (hp : f.pc = .lock)
      (hm : RecMutex.tryLock s.ctx.mutex t = none)
      (ho : isNonBlock f.pOptions = true ∨ isTimeout f.pOptions = true) :
      Trans s t a (s.retPost t f rest .timeout)
  | postCache {env f rest i} (hf : s.frames t = .post f :: rest) (hp : f.pc = .lock)
      (hm : RecMutex.tryLock s.ctx.mutex t = none)
      (ho : isNonBlock f.pOptions = false) (ho' : isTimeout f.pOptions = false)
      (ht : s.tls t = some i) (hr : (s.suber i).evtCached.hasRoom = true) :
      Trans s t (.run env)
        (((s.setSuber i { s.suber i with evtCached := (s.suber i).evtCached.push f.pEvtDesc }).obs
          (.store (s.sid i) s.nextSid f.pEvtDesc)).retPost t f rest .success)
  | postCacheFull {env f rest i} (hf : s.frames t = .post f :: rest) (hp : f.pc = .lock)
      (hm : RecMutex.tryLock s.ctx.mutex t = none)
      (ho : isNonBlock f.pOptions = false) (ho' : isTimeout f.pOptions = false)
      (ht : s.tls t = some i) (hr : (s.suber i).evtCached.hasRoom = false) :
      Trans s t (.run env) (s.retPost t f rest .notEnoughResource)
  -- postEVT: the fan-out
  | postSkip {env f rest i} (hf : s.frames t = .post f :: rest) (hp : f.pc = .loop i)
      (hi : i < s.ctx.maxSuberNum.toNat) (hl : (s.suber i).args.lists (s.desc t f) = false) :
      Trans s t (.run env) (s.setFrames t
        (.post { f with pc := .loop (i + 1), tested := f.tested ++ [s.desc t f] } :: rest))
  | postSync {env f rest i} (hf : s.frames t = .post f :: rest) (hp : f.pc = .loop i)
      (hi : i < s.ctx.maxSuberNum.toNat) (hl : (s.suber i).args.lists (s.desc t f) = true)
      (hs : s.isSync f = true) :
      Trans s t (.run env)
        ((s.setFrames t
          (.cb ⟨i, (s.suber i).args.cbProcEvtF, (s.suber i).args.pCbPriv, (s.desc t f), s.sid i,
              s.depth t⟩ :: .post { f with pc := .inCb i, tested := f.tested ++ [s.desc t f] } :: rest)).obs
          (.syncCall (s.sid i) t (s.desc t f)))
  | postASync {env f rest i} (hf : s.frames t = .post f :: rest) (hp : f.pc = .loop i)
      (hi : i < s.ctx.maxSuberNum.toNat) (hl : (s.suber i).args.lists (s.desc t f) = true)
      (hs : s.isSync f = false) :
      Trans s t (.run env) (s.setFrames t
        (.post { f with pc := .push i, tested := f.tested ++ [s.desc t f] } :: rest))
  | postEnd {env f rest i} (hf : s.frames t = .post f :: rest) (hp : f.pc = .loop i)
      (hi : ¬ i < s.ctx.maxSuberNum.toNat) :
      Trans s t (.run env)
        ((s.setMutex (RecMutex.unlock s.ctx.mutex t)).retPost t f rest f.value)
  | postAccept {env f rest i} (hf : s.frames t = .post f :: rest) (hp : f.pc = .push i)
      (hx : (s.suber i).mutex = none) (hr : (s.suber i).evtQueue.hasRoom = true) :
      Trans s t (.run env)
        ((((s.withThread i).setSuber i { (s.withThread i).suber i with
            evtQueue := (s.suber i).evtQueue.push (s.desc t f) }).setFrames t
          (.post { f with pc := .signal i, result := .success,
                          visits := f.visits ++ [(i, .queue true)] } :: rest)).obs
          (.accept (s.sid i) t f.isReplay (s.desc t f)))
  | postFull {env f rest i} (hf : s.frames t = .post f :: rest) (hp : f.pc = .push i)
      (hx : (s.suber i).mutex = none) (hr : (s.suber i).evtQueue.hasRoom = false)
      (ho : isNonBlock f.pOptions = true) :
      Trans s t (.run env)
        ((s.withThread i).setFrames t
          (.post { f with pc := .loop (i + 1), result := .timeout, isCbProcEvtFound := true,
                          visits := f.visits ++ [(i, .queue false)] } :: rest))
  | postRetry {env f rest i} (hf : s.frames t = .post f :: rest) (hp : f.pc = .push i)
      (hx : (s.suber i).mutex = none) (hr : (s.suber i).evtQueue.hasRoom = false)
      (ho : isNonBlock f.pOptions = false) (ho' : isTimeout f.pOptions = false) :
      Trans s t (.run env)
        ((s.withThread i).setFrames t (.post { f with pc := .retry i } :: rest))
  | postSignal {woken f rest i s₁} (hf : s.frames t = .post f :: rest) (hp : f.pc = .signal i)
      (hw : s.Woken i s₁) :
      Trans s t (.signal woken)
        (s₁.setFrames t (.post { f with pc := .loop (i + 1), isCbProcEvtFound := true } :: rest))
  | postRetrySignal {woken f rest i s₁} (hf : s.frames t = .post f :: rest) (hp : f.pc = .retry i)
      (hw : s.Woken i s₁) :
      Trans s t (.signal woken) (s₁.setFrames t (.post { f with pc := .push i } :: rest))
  -- the async thread
  | asyncStart {env i g} (hf : s.frames t = []) (hb : s.base t = .async i g .start) :
      Trans s t (.run env) ((s.setTls t i).setBase t (.async i g .top))
  | asyncExit {env i g pc} (hf : s.frames t = []) (hb : s.base t = .async i g pc)
      (hp : pc = .top ∨ pc = .woken) (hx : (s.suber i).mutex = none)
      (hs : (s.suber i).shouldExitASyncThread = true) (he : (s.suber i).evtQueue.isEmpty = true) :
      Trans s t (.run env) (s.setBase t .gone)
  | asyncWait {env i g pc} (hf : s.frames t = []) (hb : s.base t = .async i g pc)
      (hp : pc = .top ∨ pc = .woken) (hx : (s.suber i).mutex = none)
      (hs : (s.suber i).shouldExitASyncThread = false) (he : (s.suber i).evtQueue.isEmpty = true) :
      Trans s t (.run env) (s.setBase t (.async i g .waiting))
  | asyncTake {env i g pc} (hf : s.frames t = []) (hb : s.base t = .async i g pc)
      (hp : pc = .top ∨ pc = .woken) (hx : (s.suber i).mutex = none)
      (he : (s.suber i).evtQueue.isEmpty = false) :
      Trans s t (.run env)
        ((s.setSuber i { s.suber i with evtQueue := (s.suber i).evtQueue.pop }).setBase t
          (.async i g (.call (s.suber i).evtQueue.front)))
  | asyncWake {i g} (hf : s.frames t = []) (hb : s.base t = .async i g .waiting) :
      Trans s t .wake (s.setBase t (.async i g .woken))
  | asyncCall {env i g d} (hf : s.frames t = []) (hb : s.base t = .async i g (.call d))
      (ho : (s.suber i).occupied) :
      Trans s t (.run env)
        (((s.setBase t (.async i g (.inCb d))).setFrames t
          [.cb ⟨i, (s.suber i).args.cbProcEvtF, (s.suber i).args.pCbPriv, d, s.sid i, s.depth t⟩]).obs
          (.deliver (s.sid i) t d))
  | asyncDrain {env i g} (hf : s.frames t = []) (hb : s.base t = .async i g .drain)
      (hx : (s.suber i).mutex = none) :
      Trans s t (.run env) (s.setBase t (.async i g (.drainChk (s.suber i).evtQueue.isEmpty)))
  | asyncReplay {env i g} (hf : s.frames t = []) (hb : s.base t = .async i g (.drainChk true))
      (hc : 0 < (s.suber i).evtCached.pending) :
      Trans s t (.run env)
        ((s.setBase t (.async i g (.replay ⟨WrapRing.cellOf _ (s.suber i).evtCached.procCnt,
            (s.suber i).evtCached.front⟩))).setFrames t
          [.post ⟨(s.suber i).evtCached.front, some optNonBlock, .lock, .bug, false, true, s.depth t,
              s.ctx.pEvtSubers, [], []⟩])
  | asyncTop {env i g e} (hf : s.frames t = []) (hb : s.base t = .async i g (.drainChk e))
      (hc : e = false ∨ (s.suber i).evtCached.pending = 0) :
      Trans s t (.run env) (s.setBase t (.async i g .top))
  | asyncRetire {env i g p} (hf : s.frames t = [])
      (hb : s.base t = .async i g (.drained p .success)) :
      Trans s t (.run env) ((s.retire t i).setBase t (.async i g .drain))
  | asyncRedo {env i g p r} (hf : s.frames t = []) (hb : s.base t = .async i g (.drained p r))
      (hr : r ≠ .success) (hd : ((s.suber i).evtCached.cells p.cell).mayDrop = false) :
      Trans s t (.run env) (s.setBase t (.async i g .drain))
  -- the process ends
  | halt {a} (h : Halt) : Trans s t a (s.halt h)
  | haltPush {env f rest i} (hf : s.frames t = .post f :: rest) (hp : f.pc = .push i) :
      Trans s t (.run env)
        (((s.withThread i).setSuber i { (s.withThread i).suber i with mutex := some t }).halt .abort)
  | haltRetire {env i g p r} (hf : s.frames t = []) (hb : s.base t = .async i g (.drained p r))
      (hr : r ≠ .success) (hd : ((s.suber i).evtCached.cells p.cell).mayDrop = true) :
      Trans s t (.run env) ((s.retire t i).halt .abort)

end PlatIF.Ioc
