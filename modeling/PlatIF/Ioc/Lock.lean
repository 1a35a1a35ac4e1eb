import Mathlib.Algebra.Order.BigOperators.Group.List
import PlatIF.Ioc.Stack

/-!
# The context mutex and the subscriber mutexes

What the threads hold, and what follows for the table.

* `lockInv_reach` — a thread holds the context mutex at least as often as its frames say;
* `Trans.sameTable` — `SameTable` is the part of the table that only the holder of the context mutex
  changes, so a thread that holds it sees that part change by its own steps alone;
* `mutexFree_reach` — between steps no subscriber mutex is held while the process runs.
-/

namespace PlatIF.Ioc

variable {abi : Abi} {s s' : State abi} {t u : Tid} {a : Act abi} {i : ℕ}

/-! ### Who holds the context mutex -/

/-- How often a frame holds the context mutex. -/
def Frame.holds : Frame abi → ℕ
  | .sub _ => 0
  | .unsub f => if f.pc = .lock then 0 else 1
  | .post f => if f.pc = .lock then 0 else 1
  | .cb _ => 0

@[simp] theorem Frame.holds_sub (f : SubFrame) : (Frame.sub f : Frame abi).holds = 0 := rfl

@[simp] theorem Frame.holds_cb (f : CbFrame abi) : (Frame.cb f).holds = 0 := rfl

theorem Frame.holds_unsub (f : UnsubFrame) :
    (Frame.unsub f : Frame abi).holds = if f.pc = .lock then 0 else 1 := rfl

theorem Frame.holds_post (f : PostFrame abi) :
    (Frame.post f).holds = if f.pc = .lock then 0 else 1 := rfl

@[simp] theorem holds_frameOf (api : Api abi) : (s.frameOf t api).holds = 0 := by
  cases api <;> rfl

/-- How often the frames of a stack hold the context mutex. -/
def holdCount (fs : List (Frame abi)) : ℕ := (fs.map Frame.holds).sum

@[simp] theorem holdCount_nil : holdCount ([] : List (Frame abi)) = 0 := rfl

@[simp] theorem holdCount_cons (f : Frame abi) (fs : List (Frame abi)) :
    holdCount (f :: fs) = f.holds + holdCount fs := by
  simp [holdCount]

/-- Every thread holds the context mutex at least as often as its frames do.  A thread may hold it more
often: `subEVT` leaks a lock on one of its paths. -/
def LockInv (s : State abi) : Prop := ∀ t, holdCount (s.frames t) ≤ s.depth t

theorem State.slotStopped.pc_ne {f : UnsubFrame} (h : s.slotStopped t f i) : f.pc ≠ .lock := by
  rcases h with ⟨hp, -⟩ | ⟨hp, -⟩ <;> simp [hp]

theorem lockInv_self (hL : LockInv s) (h : Trans s t a s') :
    holdCount (s'.frames t) ≤ s'.depth t := by
  have h0 := hL t
  cases h
  case unsubSignal hf hp hw | postSignal hf hp hw | postRetrySignal hf hp hw =>
    obtain ⟨b, rfl, -⟩ := hw.eq
    simpa [State.depth, hf, hp, Frame.holds_unsub, Frame.holds_post] using h0
  case subNoSlot hf hm hm' _ _ =>
    have h₁ := RecMutex.held_tryLock hm
    have h₂ := RecMutex.held_tryLock hm'
    simp only [State.depth, hf, holdCount_cons, Frame.holds_sub] at h0
    simp only [State.depth, State.setCtx, State.ret_eq, Function.update_self]
    omega
  case unsubLock hf hp hm _ | postLock hf hp hm _ =>
    have h₁ := RecMutex.held_tryLock hm
    simp [State.depth, hf, hp, Frame.holds_unsub, Frame.holds_post] at h0 ⊢
    omega
  case unsubEnd hf hp _ | postEnd hf hp _ =>
    simp [State.depth, hf, hp, Frame.holds_unsub, Frame.holds_post, RecMutex.held_unlock] at h0 ⊢
    omega
  case unsubFreeDone hf hs _ =>
    simp [State.depth, hf, hs.pc_ne, Frame.holds_unsub, RecMutex.held_unlock] at h0 ⊢
    omega
  case unsubFreeNext hf hs _ _ | unsubKeepNext hf hs _ _ =>
    simpa [State.depth, hf, hs.pc_ne, Frame.holds_unsub] using h0
  -- the other steps neither lock nor unlock, and keep the number of frames that hold
  all_goals
    simp [State.depth, *, Frame.holds_unsub, Frame.holds_post] at h0 ⊢
    try omega

theorem lockInv_trans (hL : LockInv s) (h : Trans s t a s') : LockInv s' := by
  intro u
  by_cases hu : u = t
  · rw [hu]
    exact lockInv_self hL h
  · rw [h.frames_ne hu, h.depth_ne hu]
    exact hL u

theorem lockInv_reach {ok : State abi → Tid × Act abi → Prop} {maxSuberNum : ULong abi} {clients : ℕ}
    (h : Reach ok maxSuberNum clients s) : LockInv s :=
  h.induction (fun _ => Nat.zero_le _) fun _ _ _ _ _ hL _ _ h => lockInv_trans hL h

/-- A thread with a frame that holds the context mutex does hold it. -/
theorem LockInv.holder (hL : LockInv s) {f : Frame abi} (hf : f ∈ s.frames t) (hh : f.holds = 1) :
    0 < s.depth t := by
  have : f.holds ≤ holdCount (s.frames t) :=
    List.single_le_sum (fun _ _ => Nat.zero_le _) _ (List.mem_map_of_mem hf)
  have := hL t
  omega

theorem LockInv.post_holder (hL : LockInv s) {f : PostFrame abi} {rest : List (Frame abi)}
    (hf : s.frames t = .post f :: rest) (hp : f.pc ≠ .lock) : 0 < s.depth t :=
  hL.holder (f := .post f) (by simp [hf]) (by simp [Frame.holds_post, hp])

theorem LockInv.unsub_holder (hL : LockInv s) {f : UnsubFrame} {rest : List (Frame abi)}
    (hf : s.frames t = .unsub f :: rest) (hp : f.pc ≠ .lock) : 0 < s.depth t :=
  hL.holder (f := .unsub f) (by simp [hf]) (by simp [Frame.holds_unsub, hp])

/-- While `u` holds the context mutex, no other thread obtains it. -/
theorem eq_of_tryLock {m : RecMutex Tid} (hm : RecMutex.tryLock s.ctx.mutex t = some m)
    (hu : 0 < s.depth u) : u = t := by
  by_contra hne
  exact Option.some_ne_none m (hm.symm.trans (RecMutex.tryLock_eq_none.mpr ⟨u, hne, hu⟩))

/-! ### The part of the table behind the context mutex -/

/-- The part of a slot that only the holder of the context mutex changes. -/
structure SameSlot (x y : Suber abi) : Prop where
  args : y.args = x.args
  asyncThreadID : y.asyncThreadID = x.asyncThreadID
  flag : y.shouldExitASyncThread = x.shouldExitASyncThread
  postCnt : y.evtQueue.postCnt = x.evtQueue.postCnt
  cells : y.evtQueue.cells = x.evtQueue.cells

/-- The part of the context that only the holder of the context mutex changes. -/
structure SameTable (s s' : State abi) : Prop where
  isAlloced : s'.ctx.isAlloced = s.ctx.isAlloced
  curSuberNum : s'.ctx.curSuberNum = s.ctx.curSuberNum
  slot : ∀ i, SameSlot (s.suber i) (s'.suber i)
  sid : s'.sid = s.sid
  nextSid : s'.nextSid = s.nextSid

theorem SameSlot.refl (x : Suber abi) : SameSlot x x := ⟨rfl, rfl, rfl, rfl, rfl⟩

theorem SameSlot.trans {x y z : Suber abi} (h : SameSlot x y) (h' : SameSlot y z) : SameSlot x z :=
  ⟨h'.args.trans h.args, h'.asyncThreadID.trans h.asyncThreadID, h'.flag.trans h.flag, h'.postCnt.trans h.postCnt,
    h'.cells.trans h.cells⟩

theorem SameTable.of_eq (hc : s'.ctx = s.ctx) (hs : s'.sid = s.sid) (hn : s'.nextSid = s.nextSid) :
    SameTable s s' := by
  refine ⟨by rw [hc], by rw [hc], fun i => ?_, hs, hn⟩
  rw [State.suber, State.suber, hc]
  exact .refl _

/-- A write to one slot that keeps its part behind the mutex. -/
theorem SameTable.of_update {x : Suber abi} (hc : s'.ctx = s.ctx.setSuber i x)
    (hx : SameSlot (s.suber i) x) (hs : s'.sid = s.sid) (hn : s'.nextSid = s.nextSid) :
    SameTable s s' := by
  refine ⟨by simp [hc], by simp [hc], fun j => ?_, hs, hn⟩
  by_cases hj : j = i
  · subst hj
    simpa [State.suber, hc] using hx
  · simpa [State.suber, hc, hj] using SameSlot.refl _

/-- **Frame rule of the context mutex.**  While `u` holds it, the steps of the others leave the table
behind it as it is. -/
theorem Trans.sameTable (hL : LockInv s) (h : Trans s t a s') (hu : u ≠ t) (hd : 0 < s.depth u) :
    SameTable s s' := by
  have hlock : ∀ {m}, RecMutex.tryLock s.ctx.mutex t = some m → SameTable s s' :=
    fun hm => absurd (eq_of_tryLock hm hd) hu
  have hpost : ∀ {f rest}, s.frames t = .post f :: rest → f.pc ≠ .lock → SameTable s s' :=
    fun hf hp => absurd (RecMutex.held_unique hd (hL.post_holder hf hp)) hu
  have hunsub : ∀ {f rest}, s.frames t = .unsub f :: rest → f.pc ≠ .lock → SameTable s s' :=
    fun hf hp => absurd (RecMutex.held_unique hd (hL.unsub_holder hf hp)) hu
  cases h
  case subFull hm _ | subNoSlot hm _ _ _ | subFill hm _ _ | unsubLock hm _ | unsubNotFound hm _ |
      postLock hm _ | postNotFound hm _ => exact hlock hm
  case unsubStop hf hp _ _ _ | unsubSkip hf hp _ _ | unsubEnd hf hp _ | unsubSetFlag hf hp _ |
      unsubSignal hf hp _ => exact hunsub hf (by simp [hp])
  case unsubFreeNext hf hs _ _ | unsubKeepNext hf hs _ _ | unsubFreeDone hf hs _ =>
    exact hunsub hf hs.pc_ne
  case postSkip hf hp _ _ | postSync hf hp _ _ _ | postASync hf hp _ _ _ | postEnd hf hp _ |
      postAccept hf hp _ _ | postFull hf hp _ _ _ | postRetry hf hp _ _ _ _ | postSignal hf hp _ |
      postRetrySignal hf hp _ | haltPush hf hp => exact hpost hf (by simp [hp])
  case postCache =>
    exact .of_update (State.retPost_ctx ..) ⟨rfl, rfl, rfl, rfl, rfl⟩ (State.retPost_sid ..)
      (State.retPost_nextSid ..)
  case asyncTake => exact .of_update rfl ⟨rfl, rfl, rfl, rfl, rfl⟩ rfl rfl
  case asyncRetire | haltRetire => exact .of_update rfl ⟨rfl, rfl, rfl, rfl, rfl⟩ rfl rfl
  all_goals exact .of_eq (by simp) (by simp) (by simp)

/-! ### Subscriber mutexes -/

/-- No subscriber mutex is held while the process runs. -/
def MutexFree (s : State abi) : Prop := s.halted = none → ∀ i, (s.suber i).mutex = none

theorem mutexFree_trans (hM : MutexFree s) (hr : s.halted = none) (h : Trans s t a s') :
    MutexFree s' := by
  have h0 := hM hr
  simp only [State.suber] at h0
  have hal : ∀ i, (s.ctx.allocSubers.pEvtSubers i).mutex = none := fun i => by
    unfold Ctx.allocSubers
    split
    · exact h0 i
    · rfl
  intro hr' j
  cases h
  case unsubSignal hw | postSignal hw | postRetrySignal hw =>
    obtain ⟨b, rfl, -⟩ := hw.eq
    exact h0 j
  case subNoSlot => exact hal j
  case subFill i _ _ _ _ =>
    by_cases hj : j = i
    · simp only [hj, State.suber, State.setCtx, State.newSub, State.ret_eq, State.subFilled,
        Function.update_self]
      split <;> rfl
    · simpa [State.suber, hj] using hal j
  case halt | haltPush | haltRetire => simp at hr'
  all_goals
    simp [State.suber, Function.update_apply, h0, Suber.freed, Suber.clearArgs]
    try split <;> simp [h0]

theorem mutexFree_reach {ok : State abi → Tid × Act abi → Prop} {maxSuberNum : ULong abi}
    {clients : ℕ} (h : Reach ok maxSuberNum clients s) : MutexFree s :=
  h.induction (fun _ _ => rfl) fun _ _ _ _ _ hM _ hr h => mutexFree_trans hM hr h

end PlatIF.Ioc
