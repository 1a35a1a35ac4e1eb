import Mathlib.Logic.Relation
import PlatIF.Ioc.FanOut
import PlatIF.Ioc.Ownership

/-!
# Posts that wait for themselves

A post without timeout keeps the context mutex while it waits for space in a queue.  The thread that makes space
may be waiting for that mutex, or be the poster itself: then nothing goes on.

* `WaitsFor` — who waits for whom: for the context mutex, for space in a queue, or at a join;
* `waitInv_reach` — in runs under `lockSafe` no thread that a post may have to wait for is the poster or at the
  lock of the context mutex;
* `no_post_deadlock` — so no waits-for chain leads from a post back to itself;
* `post_waits_for_itself` — without the condition one does.
-/

namespace PlatIF.Ioc

variable {abi : Abi} {s s' : State abi} {t u v : Tid} {a : Act abi} {i j : ℕ} {f : PostFrame abi}
  {rest : List (Frame abi)} {ok : State abi → Tid × Act abi → Prop} {maxSuberNum : ULong abi}
  {clients : ℕ}

/-! ### Waiting -/

/-- The thread is at a `pthread_mutex_lock` of the context mutex. -/
def State.atLock (s : State abi) (u : Tid) : Bool :=
  match s.frames u with
  | .sub _ :: _ => true
  | .unsub f :: _ => f.pc = .lock
  | .post f :: _ => f.pc = .lock && !isNonBlock f.pOptions && !isTimeout f.pOptions && (s.tls u).isNone
  | _ => false

/-- The post waits at slot `i` for space in its queue. -/
structure State.WaitsAt (s : State abi) (f : PostFrame abi) (i : ℕ) : Prop where
  pc : f.pc = .push i ∨ f.pc = .retry i
  full : (s.suber i).evtQueue.hasRoom = false
  nonBlock : isNonBlock f.pOptions = false
  timeout : isTimeout f.pOptions = false

theorem State.WaitsAt.slot (h : s.WaitsAt f i) : f.pc.slot = some i := by
  rcases h.pc with hp | hp <;> rw [hp] <;> rfl

/-- What a thread may wait for, and which other thread has to act first. -/
inductive WaitsFor (s : State abi) (u v : Tid) : Prop
  | mutex (hl : s.atLock u = true) (hd : 0 < s.depth v)
  | space {f : PostFrame abi} {rest : List (Frame abi)} {i : ℕ} (hf : s.frames u = .post f :: rest)
      (hw : s.WaitsAt f i) (hv : (s.suber i).asyncThreadID = some v)
  | join {f : UnsubFrame} {rest : List (Frame abi)} {i : ℕ} (hf : s.frames u = .unsub f :: rest)
      (hp : f.pc = .join i) (hv : (s.suber i).asyncThreadID = some v)

/-- A post waits for space in a queue whose thread is the poster, or waits for it, directly or through others. -/
def State.PostDeadlock (s : State abi) (t : Tid) : Prop :=
  ∃ f rest i u, s.frames t = .post f :: rest ∧ s.WaitsAt f i ∧ (s.suber i).asyncThreadID = some u ∧
    Relation.ReflTransGen (WaitsFor s) u t

/-! ### The condition -/

/-- The post has yet to visit slot `j`, whose queue is full. -/
def State.mayWait (s : State abi) (f : PostFrame abi) (j : ℕ) : Bool :=
  !isNonBlock f.pOptions && !isTimeout f.pOptions && !s.isSync f && decide (f.pc.index ≤ j) &&
    (s.suber j).args.lists f.pEvtDesc && !(s.suber j).evtQueue.hasRoom

/-- The post has yet to visit a full queue of thread `u`. -/
def State.mayWaitFor (s : State abi) (f : PostFrame abi) (u : Tid) : Bool :=
  (List.range s.ctx.maxSuberNum.toNat).any fun j => s.mayWait f j && (s.suber j).asyncThreadID == some u

theorem State.mayWaitFor_iff : s.mayWaitFor f u = true ↔
    ∃ j, j < s.ctx.maxSuberNum.toNat ∧ s.mayWait f j = true ∧ (s.suber j).asyncThreadID = some u := by
  simp [State.mayWaitFor]

/-- The step does not let a post obtain the context mutex that has to visit a full queue of its own thread, or of
one at the lock of that mutex; and it is not a call of `subEVT` or `unsubEVT` by the thread of a full queue that a
post with the mutex has yet to visit. -/
def lockSafe (s : State abi) (x : Tid × Act abi) : Bool :=
  match x.2 with
  | .run _ =>
    match s.frames x.1 with
    | .post f :: _ =>
      !decide (f.pc = .lock) || (RecMutex.tryLock s.ctx.mutex x.1).isNone ||
        (List.range s.nextTid).all fun u => !s.mayWaitFor f u || (u != x.1 && !s.atLock u)
    | _ => true
  | .call (.subEVT _) | .call (.unsubEVT _) =>
    (List.range s.nextTid).all fun v =>
      match s.frames v with
      | .post f :: _ => decide (f.pc = .lock) || !s.mayWaitFor f x.1
      | _ => true
  | _ => true

/-- A thread for which a post in progress may have to wait is another one, and not at the lock of the context
mutex. -/
def WaitInv (s : State abi) : Prop :=
  ∀ t f rest u, s.frames t = .post f :: rest → f.pc ≠ .lock → s.mayWaitFor f u = true →
    u ≠ t ∧ s.atLock u = false

theorem atLock_ne (h : Trans s t a s') (hu : u ≠ t) : s'.atLock u = s.atLock u := by
  unfold State.atLock
  rw [h.frames_ne hu, h.tls_ne hu]

/-- A thread that returns from a call is in user code. -/
theorem atLock_returned {b : Base abi} {g : Frame abi} (hS : Stack b (g :: rest)) (hg : g.isApi = true)
    (h : s'.frames t = rest) : s'.atLock t = false := by
  unfold State.atLock
  rw [h]
  cases rest with
  | nil => rfl
  | cons f rest =>
    have hf := hS.below_api hg
    cases f with
    | cb f => rfl
    | _ => simp [Frame.isApi] at hf

/-- The thread of a slot has the thread-specific key whenever it is in a call. -/
theorem thread_tls (hT : ThreadInv s) (hI : SlotInv s) (hx : (s.suber j).asyncThreadID = some u)
    (hne : s.frames u ≠ []) : s.tls u = some j := by
  have hS := hT.stack u
  rcases (hI.thread j u hx).base with hb | ⟨g, pc, hb⟩
  · rw [hb] at hS
    exact absurd hS.of_gone hne
  · refine hT.tls u j g pc hb ?_
    rintro rfl
    rw [hb] at hS
    exact hne (hS.of_idle trivial)

/-- The thread of a slot comes to the lock of the context mutex by a call of `subEVT` or `unsubEVT` only. -/
theorem atLock_self (hT : ThreadInv s) (hI : SlotInv s) (h : Trans s t a s')
    (hx : (s.suber j).asyncThreadID = some t) (h0 : s.atLock t = false) (h1 : s'.atLock t = true) :
    (∃ args, a = .call (.subEVT args)) ∨ ∃ args, a = .call (.unsubEVT args) := by
  cases h
  case call api hu =>
    cases api with
    | subEVT args => exact .inl ⟨args, rfl⟩
    | unsubEVT args => exact .inr ⟨args, rfl⟩
    | postEVT d o =>
      have hne : s.frames t ≠ [] := fun hf => by
        rcases hu with ⟨-, hb⟩ | ⟨c, rest, hf'⟩
        · rcases (hI.thread j t hx).base with hb' | ⟨g, pc, hb'⟩ <;> simp [hb] at hb'
        · simp [hf] at hf'
      simp [State.atLock, State.frameOf, thread_tls hT hI hx hne] at h1
  case subFull hf _ _ | subNoSlot hf _ _ _ _ | subFill hf _ _ _ | unsubNotFound hf _ _ _ |
      unsubEnd hf _ _ | unsubFreeDone hf _ _ | postNotFound hf _ _ _ | postBusy hf _ _ _ |
      postCache hf _ _ _ _ _ _ | postCacheFull hf _ _ _ _ _ _ | postEnd hf _ _ =>
    have hS := hT.stack t
    rw [hf] at hS
    simp [atLock_returned hS rfl] at h1
  case unsubSignal hf _ hw | postSignal hf _ hw | postRetrySignal hf _ hw =>
    obtain ⟨b, rfl, -⟩ := hw.eq
    simp [State.atLock] at h1
  all_goals simp_all [State.atLock]

/-- The steps of the others make no queue full that a post with the context mutex has yet to visit. -/
theorem mayWait_ne (hL : LockInv s) (hI : SlotInv s) (h : Trans s t a s') (he : Effect s s' t) (hv : v ≠ t)
    (hd : 0 < s.depth v) (hw : s'.mayWait f j = true) : s.mayWait f j = true := by
  have hs := h.sameTable hL hv hd
  simp only [State.mayWait, State.isSync, h.isSyncMode_eq, (hs.slot j).args, Bool.and_eq_true,
    Bool.not_eq_true'] at hw ⊢
  obtain ⟨hw, hfull⟩ := hw
  refine ⟨hw, ?_⟩
  cases he.slot j with
  | took _ hne h =>
    -- a queue that an event was taken from has room
    have hpend : (s.suber j).evtQueue.pending ≠ 0 := fun h0 => by
      simp [(WrapRing.isEmpty_iff_pending _).mpr h0] at hne
    have hlt := (WrapRing.pending_pop_le _ hpend).trans_le (hI.room j)
    have hroom := (WrapRing.hasRoom_iff (s.suber j).evtQueue.pop).mpr hlt
    simp only [h, hroom] at hfull
    cases hfull
  | accepted hf hp => exact absurd (RecMutex.held_unique hd (hL.post_holder hf (by simp [hp]))) hv
  | filled _ _ _ hsid =>
    have := hI.sid_lt j
    rw [← hsid, hs.sid] at this
    omega
  | started _ _ h => rwa [h.evtQueue] at hfull
  | same h | flagged _ _ _ h | kept _ _ _ h | cached h | freed _ _ h =>
    rw [h] at hfull
    exact hfull

/-- A post that goes on has to visit no more full queues than before; or it has just obtained the context mutex. -/
theorem mayWait_self (h : Trans s t a s') (hp : PostStep s s' t a f rest) (hpc : f.pc ≠ .lock)
    (hK : ∀ p, .post p ∈ s.frames t → p.Kind s.ctx.isSyncMode) (hw : s'.mayWait f j = true) :
    ∃ f₀, s.frames t = .post f₀ :: rest ∧ s.mayWait f₀ j = true ∧
      (f₀.pc = .lock → ∃ env m, a = .run env ∧ RecMutex.tryLock s.ctx.mutex t = some m) := by
  simp only [State.mayWait, State.isSync, h.isSyncMode_eq, Bool.and_eq_true, decide_eq_true_eq,
    Bool.not_eq_true'] at hw
  obtain ⟨⟨⟨⟨⟨hnb, hto⟩, hy⟩, hi⟩, hl⟩, hfull⟩ := hw
  cases hp with
  | called hp => exact absurd hp hpc
  | @locked f₀ env m hf hp hd ht hv hs ho ha hm =>
    refine ⟨f₀, hf, ?_, fun _ => ⟨env, m, ha, hm⟩⟩
    rw [State.suber, hs, hd] at hl
    rw [State.suber, hs] at hfull
    simp [State.mayWait, State.isSync, hp, PostPc.index, ← ho, hnb, hto, hy, hl, hfull]
  | @moved f₀ hf hp hd ho ht hv hs hi' =>
    refine ⟨f₀, hf, ?_, fun h => absurd h hp⟩
    rw [(hs j).1, hd] at hl
    rw [(hs j).2] at hfull
    simp [State.mayWait, State.isSync, ← ho, hnb, hto, hy, hl, hfull, hi'.trans hi]
  | @accepted f₀ i x hf hp hd ho ht hv hs ha hq hi' =>
    have hj : j ≠ i := by omega
    refine ⟨f₀, hf, ?_, fun h => by simp [hp] at h⟩
    simp only [State.suber, hs, Ctx.setSuber, Function.update_of_ne hj, hd] at hl hfull
    have hle : f₀.pc.index ≤ j := by
      rw [hp]
      simp only [PostPc.index]
      omega
    simp [State.mayWait, State.isSync, ← ho, hnb, hto, hy, hl, hfull, hle]
  | returned hf hp ha hd ho ht hs =>
    have hk := (hK _ (hf ▸ List.mem_cons_of_mem _ List.mem_cons_self)).inCb _ hp
    rw [← ho, hy] at hk
    simp at hk

theorem waitInv_trans (hT : ThreadInv s) (hL : LockInv s) (hI : SlotInv s) (hW : WaitInv s)
    (hK : ∀ t p, .post p ∈ s.frames t → p.Kind s.ctx.isSyncMode) (hok : lockSafe s (t, a) = true)
    (h : Trans s t a s') (he : Effect s s' t) : WaitInv s' := by
  intro v f rest u hf hpc hw
  rw [State.mayWaitFor_iff, h.maxSuberNum_eq] at hw
  obtain ⟨j, hj, hw, hx⟩ := hw
  by_cases hv : v = t
  · subst hv
    obtain ⟨f₀, hf₀, hw₀, hlock⟩ := mayWait_self h (h.postStep (hT.stack v) hf) hpc (hK v) hw
    have hne : s.frames v ≠ [] := by simp [hf₀]
    -- the thread of the slot was there, or is started by this step
    have hold : (s.suber j).asyncThreadID = some u ∨ u = s.nextTid := by
      cases he.thread j with
      | same hj _ => exact .inl (hj ▸ hx)
      | letGo hj _ => simp [hj] at hx
      | fresh _ _ _ hj => exact .inr (by simpa [hj] using hx.symm)
    rcases hold with hx₀ | rfl
    · have hwf : s.mayWaitFor f₀ u = true := State.mayWaitFor_iff.mpr ⟨j, hj, hw₀, hx₀⟩
      have hu : u ≠ v ∧ s.atLock u = false := by
        by_cases hp : f₀.pc = .lock
        · obtain ⟨env, m, rfl, hm⟩ := hlock hp
          simp only [lockSafe, hf₀, hp, hm, decide_true, Bool.not_true, Option.isNone_some, Bool.false_or,
            List.all_eq_true, List.mem_range] at hok
          have := hok u (hI.thread j u hx₀).lt
          simpa [hwf] using this
        · exact hW v f₀ rest u hf₀ hp hwf
      exact ⟨hu.1, (atLock_ne h hu.1).trans hu.2⟩
    · have hu : s.nextTid ≠ v := (hT.ne_nextTid hne).symm
      refine ⟨hu, (atLock_ne h hu).trans ?_⟩
      have hS := hT.stack s.nextTid
      rw [(hT.fresh _ le_rfl).1] at hS
      simp [State.atLock, hS.of_gone]
  · rw [h.frames_ne hv] at hf
    have hd := hL.post_holder hf hpc
    have hx₀ : (s.suber j).asyncThreadID = some u := ((h.sameTable hL hv hd).slot j).asyncThreadID ▸ hx
    have hwf : s.mayWaitFor f u = true :=
      State.mayWaitFor_iff.mpr ⟨j, hj, mayWait_ne hL hI h he hv hd hw, hx₀⟩
    obtain ⟨huv, h0⟩ := hW v f rest u hf hpc hwf
    refine ⟨huv, ?_⟩
    by_cases hu : u = t
    · -- the thread of the queue steps: it may not call `subEVT` or `unsubEVT` now
      subst hu
      by_contra h1
      have hcall := atLock_self hT hI h hx₀ h0 (by simpa using h1)
      have hlt : v < s.nextTid := by
        by_contra hge
        have hS := hT.stack v
        rw [(hT.fresh v (Nat.not_lt.mp hge)).1] at hS
        simp [hS.of_gone] at hf
      have hsafe : decide (f.pc = .lock) || !s.mayWaitFor f u := by
        rcases hcall with ⟨args, rfl⟩ | ⟨args, rfl⟩ <;>
        · simp only [lockSafe, List.all_eq_true, List.mem_range] at hok
          simpa [hf] using hok v hlt
      simp [hpc, hwf] at hsafe
    · rw [atLock_ne h hu]
      exact h0

theorem waitInv_reach (hok : ∀ s x, ok s x → lockSafe s x = true) (h : Reach ok maxSuberNum clients s) :
    WaitInv s :=
  h.induction (fun t f rest u hf => by simp [State.init] at hf) fun _ _ _ _ hr hW ha _ h =>
    waitInv_trans (threadInv_reach hr) (lockInv_reach hr) (slotInv_reach hr) hW (kind_reach hr) (hok _ _ ha) h
      (h.effect (threadInv_reach hr) (allocInv_reach hr))

/-- **A post never waits for itself, directly or through others, where the locks are safe.** -/
theorem no_post_deadlock (hr : Reach (fun s x => lockSafe s x = true) maxSuberNum clients s) :
    ¬ s.PostDeadlock t := by
  rintro ⟨f, rest, i, u, hf, hwait, hx, hchain⟩
  have hL := lockInv_reach hr
  have hlock := PostPc.slot_ne_lock hwait.slot
  have hd := hL.post_holder hf hlock
  have hP := (holderInv_reach hr).post t f rest i hf hwait.slot
  -- a replay does not block
  have hrep : f.isReplay = false := by
    have hS := (threadInv_reach hr).stack t
    rw [hf] at hS
    by_contra hrep
    have hnb := hwait.nonBlock
    simp [hS.replay_options (by simpa using hrep), isNonBlock_optNonBlock] at hnb
  have hindex : f.pc.index = i := by rcases hwait.pc with hp | hp <;> rw [hp] <;> rfl
  have hw : s.mayWait f i = true := by
    simp [State.mayWait, hwait.nonBlock, hwait.timeout, hP.async, hindex, hP.lists hrep, hwait.full]
  obtain ⟨hu, h0⟩ := waitInv_reach (fun _ _ h => h) hr t f rest u hf hlock
    (State.mayWaitFor_iff.mpr ⟨i, hP.lt, hw, hx⟩)
  -- the thread of the queue neither waits for the context mutex nor has it, so the chain ends there
  rcases hchain.cases_head with rfl | ⟨v, hstep, -⟩
  · exact hu rfl
  · cases hstep with
    | mutex hl _ => simp [h0] at hl
    | space hf' hw' _ =>
      exact hu (RecMutex.held_unique (hL.post_holder hf' (PostPc.slot_ne_lock hw'.slot)) hd)
    | join hf' hp _ => exact hu (RecMutex.held_unique (hL.unsub_holder hf' (by simp [hp])) hd)

/-- The step is not a `postEVT` call by a callback with other options than the default ones. -/
def defaultPosts (s : State abi) (x : Tid × Act abi) : Bool :=
  match s.frames x.1, x.2 with
  | .cb _ :: _, .call (.postEVT _ o) => o.isNone
  | _, _ => true

/-- A subscription takes its event, and its callback posts the same event twice. -/
def postedTwice : List (Tid × Act lp64) :=
  ([(0, .call (.subEVT ⟨1, 1, some [7]⟩)), (0, .go),
   (0, .call (.postEVT (.ofID lp64 7) none)), (0, .go), (0, .go), (0, .go), (0, .signal none)] :
    List (Tid × Act lp64)) ++
  List.replicate 32 (0, .go) ++
  ([(1, .go), (1, .go), (1, .go),
   (1, .call (.postEVT (.ofID lp64 7) none)), (1, .go), (1, .go), (1, .go), (1, .signal none)] :
    List (Tid × Act lp64)) ++
  List.replicate 32 (1, .go) ++
  ([(1, .call (.postEVT (.ofID lp64 7) none)), (1, .go), (1, .go), (1, .go)] : List (Tid × Act lp64))

/-- The test for a post that waits without a limit for space in the queue of slot `i`. -/
def State.waitsAt (s : State abi) (t : Tid) (i : ℕ) : Bool :=
  match s.frames t with
  | .post f :: _ => decide (f.pc = .retry i) && !(s.suber i).evtQueue.hasRoom && !isNonBlock f.pOptions &&
      !isTimeout f.pOptions
  | _ => false

theorem waitsAt_test (h : s.waitsAt t i = true) : ∃ f rest, s.frames t = .post f :: rest ∧ s.WaitsAt f i := by
  unfold State.waitsAt at h
  split at h
  case h_2 => simp at h
  case h_1 f rest hf =>
    simp only [Bool.and_eq_true, Bool.not_eq_true', decide_eq_true_eq] at h
    obtain ⟨⟨⟨hp, hfull⟩, hnb⟩, hto⟩ := h
    exact ⟨f, rest, hf, .inr hp, hfull, hnb, hto⟩

/-- A callback whose second post waits for space in the queue of its own thread. -/
theorem post_waits_for_itself :
    ∃ s : State lp64, Reach (fun s x => noSelfUnsub s x && defaultPosts s x) (initMaxSuberNum lp64) 1 s ∧
      s.PostDeadlock 1 := by
  obtain ⟨s, hr, hs⟩ := reach_of_run (fun s x => noSelfUnsub s x && defaultPosts s x) (initMaxSuberNum lp64) 1
    postedTwice
    (fun s => s.waitsAt 1 0 && (s.suber 0).asyncThreadID == some 1) (by decide +kernel)
  simp only [Bool.and_eq_true, beq_iff_eq] at hs
  obtain ⟨hwait, hx⟩ := hs
  obtain ⟨f, rest, hf, hw⟩ := waitsAt_test hwait
  exact ⟨s, hr, f, rest, 0, 1, hf, hw, hx, .refl⟩

/-- A publisher waits for a subscription whose callback is running. -/
theorem no_post_deadlock_first :
    ∃ (s : State lp64) (f : PostFrame lp64), s.frames 0 = [.post f] ∧ s.WaitsAt f 0 ∧ ¬ s.PostDeadlock 0 := by
  obtain ⟨s, hr, hs⟩ := reach_of_run (fun s x => lockSafe s x = true) (1 : ULong lp64) 1
    [(0, .call (.subEVT ⟨1, 1, some [7]⟩)), (0, .go),
     (0, .call (.postEVT (.ofID lp64 7) none)), (0, .go), (0, .go), (0, .go), (0, .signal none), (0, .go),
     (1, .go), (1, .go), (1, .go),
     (0, .call (.postEVT (.ofID lp64 7) none)), (0, .go), (0, .go), (0, .go), (0, .signal none), (0, .go),
     (0, .call (.postEVT (.ofID lp64 7) none)), (0, .go), (0, .go), (0, .go)]
    (fun s => s.waitsAt 0 0 && (s.frames 0).length == 1) (by decide +kernel)
  simp only [Bool.and_eq_true, beq_iff_eq] at hs
  obtain ⟨hwait, hlen⟩ := hs
  obtain ⟨f, rest, hf, hw⟩ := waitsAt_test hwait
  have hrest : rest = [] := by simpa [hf] using hlen
  exact ⟨s, f, hrest ▸ hf, hw, no_post_deadlock hr⟩

end PlatIF.Ioc
