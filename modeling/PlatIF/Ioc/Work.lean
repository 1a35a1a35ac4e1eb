import PlatIF.Lib.Drain
import PlatIF.Ioc.Polite
import PlatIF.Ioc.PostAbort

/-!
# The work that is left

What the threads have begun, counted in steps: each program point is worth the steps to the end of its call or loop, each
queued event those from its being taken to the head of the loop again, and a push or a signal also those of the thread
that it starts or wakes.

* `busy` — the steps that count: not a new call, not a write of a callback, not a spurious wake-up, not the turn of a
  post that finds a queue full and is not to return at once;
* `Trans.workStep` — what such a step does to the work of the threads and to the queues;
* `work_lt` — it leaves less work than there was.
-/

namespace PlatIF.Ioc

variable {abi : Abi} {s s' s₁ : State abi} {t u v : Tid} {a : Act abi} {i g c m : ℕ} {d : EvtDesc abi}
  {rest : List (Frame abi)} {maxSuberNum : ULong abi} {clients : ℕ}

/-! ### The steps that count -/

/-- The thread is in a post that finds a queue full and is not to return at once: one that has to wait for space, or a
timed one, which ends the process there. -/
def State.waitsForSpace (s : State abi) (t : Tid) : Bool :=
  match s.frames t with
  | .post f :: _ =>
    match f.pc with
    | .push i => !(s.suber i).evtQueue.hasRoom && !isNonBlock f.pOptions
    | _ => false
  | _ => false

theorem State.waitsForSpace_eq_false (h : s.waitsForSpace t = false) {f : PostFrame abi}
    (hf : s.frames t = .post f :: rest) (hp : f.pc = .push i) (hr : (s.suber i).evtQueue.hasRoom = false) :
    isNonBlock f.pOptions = true := by
  simpa [State.waitsForSpace, hf, hp, hr] using h

/-- The step goes on with what was begun: callbacks do nothing but return, `calloc`, `malloc` and `pthread_create` succeed,
no wake-up is spurious, and it is not the turn of a post that finds a queue full and is not to return at once. -/
def busy (s : State abi) (x : Tid × Act abi) : Bool :=
  match x.2 with
  | .call _ | .write _ | .wake => false
  | .run env => env.calloc && env.malloc && env.threadCreate && !s.waitsForSpace x.1
  | _ => true

theorem polite_of_busy {x : Tid × Act abi} (h : busy s x = true) : polite s x := by
  obtain ⟨t, a⟩ := x
  cases a with
  | call _ | write _ => simp [busy] at h
  | run env =>
    simp only [busy, Bool.and_eq_true] at h
    exact h.1.1.2
  | _ => trivial

/-! ### What is left to do -/

/-- The steps of an async thread to the end of its turn. -/
def AsyncPc.work : AsyncPc abi → ℕ
  | .waiting => 0
  | .top | .woken => 1
  | .start | .drainChk _ => 2
  | .drain => 3
  | .inCb _ | .replay _ | .drained .. => 4
  | .call _ => 5

def Base.work : Base abi → ℕ
  | .async _ _ pc => pc.work
  | _ => 0

/-- The steps of a post in a table of `m` slots, with those of the threads that it starts and wakes and those for the
events that it pushes. -/
def PostPc.work (m : ℕ) : PostPc → ℕ
  | .lock => 11 * m + 2
  | .loop i => 11 * (m - i) + 1
  | .inCb i => 11 * (m - (i + 1)) + 2
  | .push i => 11 * (m - (i + 1)) + 11
  | .signal i => 11 * (m - (i + 1)) + 3
  | .retry i => 11 * (m - (i + 1)) + 13

def UnsubPc.work (m : ℕ) : UnsubPc → ℕ
  | .lock => 6 * m + 2
  | .scan i => 6 * (m - i) + 1
  | .stop i => 6 * (m - (i + 1)) + 6
  | .signal i => 6 * (m - (i + 1)) + 4
  | .join i => 6 * (m - (i + 1)) + 2

def Frame.work (m : ℕ) : Frame abi → ℕ
  | .sub _ => 1
  | .unsub f => f.pc.work m
  | .post f => f.pc.work m
  | .cb _ => 0

/-- What is left to do of the calls in progress. -/
def framesWork (m : ℕ) (fs : List (Frame abi)) : ℕ := (fs.map (Frame.work m)).sum

@[simp] theorem framesWork_nil : framesWork m ([] : List (Frame abi)) = 0 := rfl

@[simp] theorem framesWork_cons (f : Frame abi) (fs : List (Frame abi)) :
    framesWork m (f :: fs) = f.work m + framesWork m fs := by
  simp [framesWork]

namespace State

variable (s : State abi)

/-- What is left to do of thread `u`. -/
def threadWork (u : Tid) : ℕ := (s.base u).work + framesWork s.ctx.maxSuberNum.toNat (s.frames u)

/-- What is left to do: by the threads, and for the events in the queues. -/
def work : ℕ :=
  ∑ u ∈ Finset.range s.nextTid, s.threadWork u +
    5 * ∑ i ∈ Finset.range s.ctx.maxSuberNum.toNat, (s.suber i).evtQueue.pending

end State

theorem PostPc.work_pos (p : PostPc) : 0 < p.work m := by
  cases p <;> exact Nat.succ_pos _

theorem UnsubPc.work_pos (p : UnsubPc) : 0 < p.work m := by
  cases p <;> exact Nat.succ_pos _

/-- A thread that does not exist has nothing to do. -/
theorem ThreadInv.threadWork_fresh (hT : ThreadInv s) (hu : s.nextTid ≤ u) : s.threadWork u = 0 := by
  have hb := (hT.fresh u hu).1
  have hS := hT.stack u
  rw [hb] at hS
  simp [State.threadWork, hb, hS.of_gone, Base.work]

/-! ### The queues -/

/-- Queues get longer only by a push that finds room. -/
theorem Effect.pending_le (he : Effect s s' t) {j : ℕ}
    (hno : ∀ f rest, s.frames t = .post f :: rest → f.pc = .push j → (s.suber j).evtQueue.hasRoom = false) :
    (s'.suber j).evtQueue.pending ≤ (s.suber j).evtQueue.pending := by
  cases he.slot j with
  | same h | flagged _ _ _ h | kept _ _ _ h | cached h => rw [h]
  | freed _ _ h =>
    rw [h]
    exact le_rfl
  | filled _ _ h =>
    rw [h.evtQueue]
    simp [WrapRing.pending]
  | started _ _ h => rw [h.evtQueue]
  | accepted hf hp hr => simp [hno _ _ hf hp] at hr
  | took _ hne h =>
    have hpend : (s.suber j).evtQueue.pending ≠ 0 := fun h0 => by
      simp [(WrapRing.isEmpty_iff_pending _).mpr h0] at hne
    rw [h]
    exact (WrapRing.pending_pop_le _ hpend).le

/-! ### The thread that takes the step -/

/-- Its call goes on. -/
theorem threadWork_replaced {f f' : Frame abi} (hf : s.frames t = f :: rest) (hf' : s'.frames t = f' :: rest)
    (hb : s'.base t = s.base t) (hm : s'.ctx.maxSuberNum = s.ctx.maxSuberNum)
    (hlt : f'.work s.ctx.maxSuberNum.toNat + c < f.work s.ctx.maxSuberNum.toNat) :
    s'.threadWork t + c < s.threadWork t := by
  simp only [State.threadWork, hf, hf', hb, hm, framesWork_cons]
  omega

/-- Its call returns. -/
theorem threadWork_returned {f : Frame abi} (hf : s.frames t = f :: rest) (hf' : s'.frames t = rest)
    (hb : (s'.base t).work ≤ (s.base t).work) (hm : s'.ctx.maxSuberNum = s.ctx.maxSuberNum)
    (hpos : 0 < f.work s.ctx.maxSuberNum.toNat) : s'.threadWork t < s.threadWork t := by
  simp only [State.threadWork, hf, hf', hm, framesWork_cons]
  omega

/-- It goes on in its loop. -/
theorem threadWork_async {pc pc' : AsyncPc abi} (hf : s.frames t = []) (hb : s.base t = .async i g pc)
    (hf' : s'.frames t = []) (hb' : s'.base t = .async i g pc') : s.threadWork t = pc.work ∧ s'.threadWork t = pc'.work := by
  simp [State.threadWork, hf, hf', hb, hb', Base.work]

theorem retPost_work (f : PostFrame abi) (r : TosResult) : ((s.retPost t f rest r).base t).work ≤ (s.base t).work := by
  rcases State.retPost_base_self s t f rest r with h | ⟨i, g, d, -, h, h'⟩
  · rw [h]
  · rw [h, h']
    exact le_rfl

/-! ### The others -/

/-- A thread that is neither woken nor started has what it had left to do. -/
theorem Trans.threadWork_ne (h : Trans s t a s') (hu : u ≠ t) (hb : s'.base u = s.base u) :
    s'.threadWork u = s.threadWork u := by
  rw [State.threadWork, State.threadWork, hb, h.frames_ne hu, h.maxSuberNum_eq]

/-- What a step of `t` does to the work of the threads, when `v` is the thread that it wakes or starts. -/
structure Shares (s s' : State abi) (t v : Tid) (c : ℕ) : Prop where
  others : ∀ u, u ≠ t → u ≠ v → s'.threadWork u ≤ s.threadWork u
  other : v ≠ t → s'.threadWork v ≤ s.threadWork v + c

theorem Trans.shares_none (h : Trans s t a s') (hb : ∀ u, u ≠ t → s'.base u = s.base u) : Shares s s' t t 0 :=
  ⟨fun u hu _ => (h.threadWork_ne hu (hb u hu)).le, fun hne => absurd rfl hne⟩

/-- A signal gives the thread that it wakes one step to do. -/
theorem Trans.shares_woken (h : Trans s t a s') (hw : s.Woken i s₁) (hb : s'.base = s₁.base) :
    ∃ v, Shares s s' t v 1 := by
  rcases hw with rfl | ⟨v, g, hv, rfl⟩
  · exact ⟨t, fun u hu _ => (h.threadWork_ne hu (congrFun hb u)).le, fun hne => absurd rfl hne⟩
  · refine ⟨v, fun u hu huv => (h.threadWork_ne hu ?_).le, fun hvt => ?_⟩
    · rw [hb]
      exact Function.update_of_ne huv ..
    · have hbv : s'.base v = .async i g .woken := by simp [hb]
      simp only [State.threadWork, hbv, hv, h.frames_ne hvt, h.maxSuberNum_eq, Base.work, AsyncPc.work]
      omega

/-- A visit gives the thread that it starts two. -/
theorem Trans.shares_started (hT : ThreadInv s) (h : Trans s t a s') (hb : s'.base = (s.withThread i).base) :
    Shares s s' t s.nextTid 2 := by
  refine ⟨fun u hu hn => (h.threadWork_ne hu ?_).le, fun hne => ?_⟩
  · rcases State.withThread_base s i u with hu | ⟨-, hu, -⟩
    · rw [hb, hu]
    · exact absurd hu hn
  · have hS := hT.stack s.nextTid
    rw [(hT.fresh _ le_rfl).1] at hS
    simp only [State.threadWork, h.frames_ne hne, hS.of_gone, framesWork_nil]
    rcases State.withThread_base s i s.nextTid with hu | ⟨-, -, hu⟩
    · rw [hb, hu]
      omega
    · rw [hb, hu]
      simp [Base.work, AsyncPc.work]

/-! ### Steps that count -/

/-- What a step of `t` does to the work. -/
inductive WorkStep (s s' : State abi) (t : Tid) : Prop
  | calm {v : Tid} {c : ℕ} (hv : Shares s s' t v c)
      (hq : ∀ j, (s'.suber j).evtQueue.pending ≤ (s.suber j).evtQueue.pending)
      (ht : s'.threadWork t + c < s.threadWork t)
  | queued {v : Tid} {c i : ℕ} (hv : Shares s s' t v c) (hpos : 0 < s.threadWork t) (hi : i < s.ctx.maxSuberNum.toNat)
      (hq : ∀ j, j ≠ i → (s'.suber j).evtQueue.pending ≤ (s.suber j).evtQueue.pending)
      (ht : s'.threadWork t + c + 5 * (s'.suber i).evtQueue.pending < s.threadWork t + 5 * (s.suber i).evtQueue.pending)

theorem Trans.workStep_pushed (hT : ThreadInv s) (hH : HolderInv s) (h : Trans s t a s') (he : Effect s s' t)
    {f f' : PostFrame abi} (hf : s.frames t = .post f :: rest) (hp : f.pc = .push i)
    (hr : (s.suber i).evtQueue.hasRoom = true) (hf' : s'.frames t = .post f' :: rest) (hp' : f'.pc = .signal i)
    (hb : s'.base = (s.withThread i).base) (hq : (s'.suber i).evtQueue = (s.suber i).evtQueue.push (s.desc t f)) :
    WorkStep s s' t := by
  have hself : s'.base t = s.base t := by
    rw [hb]
    exact State.withThread_base_self (hT.ne_nextTid (by simp [hf]))
  have hpow : evtQueueMax < 2 ^ abi.ulongBits := lt_of_lt_of_le (by decide) abi.pow_le
  have hpush := WrapRing.pending_push (s.suber i).evtQueue (s.desc t f)
    (Nat.lt_of_le_of_lt ((WrapRing.hasRoom_iff _).mp hr) hpow)
  have hlow : s'.threadWork t + 7 < s.threadWork t :=
    threadWork_replaced hf hf' hself h.maxSuberNum_eq (by
      simp only [Frame.work, hp, hp', PostPc.work]
      omega)
  refine .queued (h.shares_started hT hb) (Nat.zero_lt_of_lt hlow) (hH.post t f rest i hf (by rw [hp]; rfl)).lt (fun j hj => ?_) ?_
  · refine he.pending_le fun f₁ rest₁ hf₁ hp₁ => ?_
    obtain ⟨rfl, -⟩ : f = f₁ ∧ _ := by simpa using hf.symm.trans hf₁
    exact absurd (PostPc.push.inj (hp₁.symm.trans hp)) hj
  · rw [hq, hpush]
    omega

theorem Trans.workStep_took (hT : ThreadInv s) (hlt : ∀ u i, s.RunsOn u i → i < s.ctx.maxSuberNum.toNat)
    (h : Trans s t a s') (he : Effect s s' t) {pc : AsyncPc abi} (hf : s.frames t = []) (hb : s.base t = .async i g pc)
    (hpc : pc = .top ∨ pc = .woken) (hne : (s.suber i).evtQueue.isEmpty = false)
    (hb' : s'.base = Function.update s.base t (.async i g (.call (s.suber i).evtQueue.front)))
    (hq : (s'.suber i).evtQueue = (s.suber i).evtQueue.pop) : WorkStep s s' t := by
  have hself : s'.base t = .async i g (.call (s.suber i).evtQueue.front) := by rw [hb', Function.update_self]
  have hS := (stack_trans hT h).stack t
  rw [hself] at hS
  have hpend : (s.suber i).evtQueue.pending ≠ 0 := fun h0 => by
    simp [(WrapRing.isEmpty_iff_pending _).mpr h0] at hne
  have hpop := WrapRing.pending_pop_le (s.suber i).evtQueue hpend
  obtain ⟨h0, h1⟩ := threadWork_async hf hb (hS.of_idle trivial) hself
  have hpos : 1 ≤ pc.work := by rcases hpc with rfl | rfl <;> exact le_rfl
  refine .queued (h.shares_none fun u hu => by rw [hb', Function.update_of_ne hu]) (by rw [h0]; exact hpos)
    (hlt t i ⟨g, pc, hb⟩) (fun j _ => he.pending_le (by simp [hf])) ?_
  rw [h0, h1, hq, AsyncPc.work]
  omega

theorem Trans.workStep (hT : ThreadInv s) (hA : AllocInv s) (hH : HolderInv s)
    (hlt : ∀ u i, s.RunsOn u i → i < s.ctx.maxSuberNum.toNat) (hU : ∀ i, (s.suber i).evtCached.contents = []) (hok : busy s (t, a) = true) (hh : s'.halted = none)
    (h : Trans s t a s') : WorkStep s s' t := by
  have he := h.effect hT hA
  have hS := hT.stack t
  -- who has no post on top pushes nothing
  have hcalm : (∀ f rest, s.frames t = .post f :: rest → ∀ j, f.pc ≠ .push j) →
      ∀ j, (s'.suber j).evtQueue.pending ≤ (s.suber j).evtQueue.pending := fun hno j =>
    he.pending_le fun f rest hf hp => absurd hp (hno f rest hf j)
  have h0 := h
  cases h
  case call | cbWrite | asyncWake => simp [busy] at hok
  case halt | haltPush | haltRetire => simp at hh
  case subFull hf _ _ | subNoSlot hf _ _ _ _ | subFill hf _ _ _ =>
    exact .calm (h0.shares_none (by simp)) (hcalm (by simp [hf]))
      (threadWork_returned hf (by simp) (by simp) (by simp) Nat.one_pos)
  case unsubNotFound hf _ _ _ | unsubEnd hf _ _ | unsubFreeDone hf _ _ =>
    exact .calm (h0.shares_none (by simp)) (hcalm (by simp [hf]))
      (threadWork_returned hf (by simp) (by simp) (by simp) (UnsubPc.work_pos _))
  case unsubLock hf hp _ _ | unsubStop hf hp _ _ _ | unsubSkip hf hp _ _ | unsubSetFlag hf hp _ =>
    refine .calm (h0.shares_none (by simp)) (hcalm (by simp [hf]))
      (threadWork_replaced hf (by simp; rfl) (by simp) (by simp) ?_)
    simp only [Frame.work, hp, UnsubPc.work]
    omega
  case unsubSignal hf hp hw =>
    obtain ⟨v, hv⟩ := h0.shares_woken hw rfl
    refine .calm hv (hcalm (by simp [hf]))
      (threadWork_replaced hf (by simp; rfl) (hw.base_self hS (by simp [hf])) h0.maxSuberNum_eq ?_)
    simp only [Frame.work, hp, UnsubPc.work]
    omega
  case unsubFreeNext hf hs _ _ | unsubKeepNext hf hs _ _ =>
    refine .calm (h0.shares_none (by simp)) (hcalm (by simp [hf]))
      (threadWork_replaced hf (by simp; rfl) (by simp) (by simp) ?_)
    rcases hs with ⟨hp, hi, -⟩ | ⟨hp, -⟩ <;>
    · simp only [Frame.work, hp, UnsubPc.work]
      omega
  case cbRetPost hf hp =>
    refine .calm (h0.shares_none (by simp)) (hcalm (by simp [hf])) ?_
    simp [State.threadWork, hf, Frame.work, hp, PostPc.work]
  case cbRetAsync hf hb =>
    refine .calm (h0.shares_none fun u hu => by simp [hu]) (hcalm (by simp [hf])) ?_
    simp [State.threadWork, hf, hb, Frame.work, Base.work, AsyncPc.work]
  case postNotFound hf hp _ _ | postBusy hf hp _ _ | postCacheFull hf hp _ _ _ _ _ =>
    exact .calm (h0.shares_none fun u hu => State.retPost_base_ne _ _ _ _ _ hu) (hcalm (by simp [hf, hp]))
      (threadWork_returned hf (by simp) (retPost_work _ _) (by simp) (PostPc.work_pos _))
  case postCache hf hp _ _ _ _ _ | postEnd hf hp _ =>
    exact .calm (h0.shares_none fun u hu => State.retPost_base_ne _ _ _ _ _ hu) (hcalm (by simp [hf, hp]))
      (threadWork_returned hf (by simp) (retPost_work _ _) (by simp) (PostPc.work_pos _))
  case postLock hf hp _ _ | postSkip hf hp _ _ | postASync hf hp _ _ _ =>
    refine .calm (h0.shares_none (by simp)) (hcalm (by simp [hf, hp]))
      (threadWork_replaced hf (by simp; rfl) (by simp) (by simp) ?_)
    simp only [Frame.work, hp, PostPc.work]
    omega
  case postSync hf hp hi _ _ =>
    refine .calm (h0.shares_none (by simp)) (hcalm (by simp [hf, hp])) ?_
    simp [State.threadWork, hf, Frame.work, hp, PostPc.work]
    omega
  case postSignal hf hp hw | postRetrySignal hf hp hw =>
    obtain ⟨v, hv⟩ := h0.shares_woken hw rfl
    refine .calm hv (hcalm (by simp [hf, hp]))
      (threadWork_replaced hf (by simp; rfl) (hw.base_self hS (by simp [hf])) h0.maxSuberNum_eq ?_)
    simp only [Frame.work, hp, PostPc.work]
    omega
  case postRetry hf hp _ hr ho _ =>
    simp only [busy, Bool.and_eq_true, Bool.not_eq_true'] at hok
    simp [State.waitsForSpace_eq_false hok.2 hf hp hr] at ho
  case postFull i hf hp _ hr _ =>
    have hb := State.withThread_base_self (i := i) (hT.ne_nextTid (t := t) (by simp [hf]))
    refine .calm (h0.shares_started hT rfl) (fun j => he.pending_le fun f rest hf' hp' => ?_)
      (threadWork_replaced hf (by simp; rfl) hb h0.maxSuberNum_eq ?_)
    · obtain ⟨rfl, -⟩ : _ = f ∧ _ := by simpa using hf.symm.trans hf'
      obtain rfl : i = j := PostPc.push.inj (hp.symm.trans hp')
      exact hr
    · simp only [Frame.work, hp, PostPc.work]
      omega
  case postAccept f rest i hf hp _ hr =>
    exact h0.workStep_pushed hT hH he hf hp hr (by simp; rfl) rfl rfl (by simp [State.suber])
  case asyncTake i g pc hf hb hpc _ hne => exact h0.workStep_took hT hlt he hf hb hpc hne rfl (by simp [State.suber])
  case asyncReplay i _ _ _ hc =>
    have := WrapRing.contents_length (s.suber i).evtCached
    simp only [hU, List.length_nil] at this
    omega
  case asyncStart hf hb | asyncDrain hf hb _ | asyncTop hf hb _ | asyncRetire hf hb | asyncRedo hf hb _ _ =>
    refine .calm (h0.shares_none fun u hu => by simp [hu]) (hcalm (by simp [hf])) ?_
    simp [State.threadWork, hf, hb, Base.work, AsyncPc.work]
  case asyncExit hf hb hpc _ _ _ | asyncWait hf hb hpc _ _ _ =>
    refine .calm (h0.shares_none fun u hu => by simp [hu]) (hcalm (by simp [hf])) ?_
    rcases hpc with rfl | rfl <;> simp [State.threadWork, hf, hb, Base.work, AsyncPc.work]
  case asyncCall hf hb _ =>
    refine .calm (h0.shares_none fun u hu => by simp [hu]) (hcalm (by simp [hf])) ?_
    simp [State.threadWork, hf, hb, Frame.work, Base.work, AsyncPc.work]

/-! ### The work of the system -/

/-- Threads that are still to come have nothing to do. -/
theorem ThreadInv.work_eq (hT : ThreadInv s) {n : ℕ} (hn : s.nextTid ≤ n) :
    ∑ u ∈ Finset.range s.nextTid, s.threadWork u = ∑ u ∈ Finset.range n, s.threadWork u := by
  refine Finset.sum_subset (Finset.range_mono hn) fun u _ hu => hT.threadWork_fresh ?_
  simpa using hu

theorem Shares.sum_le (h : Shares s s' t v c) {n : ℕ} (ht : t < n) :
    (∑ u ∈ Finset.range n, s'.threadWork u) + s.threadWork t ≤
      (∑ u ∈ Finset.range n, s.threadWork u) + s'.threadWork t + c :=
  Runs.sum_le_of_slack (Finset.mem_range.mpr ht) h.others h.other

/-- A thread that gives up work exists. -/
theorem ThreadInv.lt_of_work (hT : ThreadInv s) (h : 0 < s.threadWork t) : t < s.nextTid := by
  by_contra hge
  rw [hT.threadWork_fresh (Nat.not_lt.mp hge)] at h
  exact lt_irrefl _ h

theorem WorkStep.lt (hT : ThreadInv s) (hn : s.nextTid ≤ s'.nextTid)
    (hm : s'.ctx.maxSuberNum = s.ctx.maxSuberNum) (h : WorkStep s s' t) : s'.work < s.work := by
  rw [State.work, State.work, hT.work_eq hn, hm]
  cases h with
  | calm hv hq ht =>
    have hsum := hv.sum_le ((hT.lt_of_work (Nat.zero_lt_of_lt ht)).trans_le hn)
    have hqueue := Finset.sum_le_sum fun j (_ : j ∈ Finset.range s.ctx.maxSuberNum.toNat) => hq j
    omega
  | queued hv hpos hi hq ht =>
    have hsum := hv.sum_le ((hT.lt_of_work hpos).trans_le hn)
    have hqueue := Runs.sum_le_of_slack (c := 0) (Finset.mem_range.mpr hi) (fun j hj _ => hq j hj)
      (fun hne => absurd rfl hne)
    omega

/-- **A step that counts leaves less work than there was.** -/
theorem work_lt (hr : Reach polite maxSuberNum clients s) (hok : busy s (t, a) = true) (hn : next s (t, a) = some s')
    (hh : s'.halted = none) : s'.work < s.work := by
  obtain ⟨-, h⟩ := next_trans hn
  have hT := threadInv_reach hr
  have hlt : ∀ u i, s.RunsOn u i → i < s.ctx.maxSuberNum.toNat := by
    rw [maxSuberNum_reach hr]
    exact runsOn_lt_reach hr
  exact (h.workStep hT (allocInv_reach hr) (holderInv_reach hr) hlt (uncached_reach hr) hok hh).lt hT h.nextTid_le
    h.maxSuberNum_eq

end PlatIF.Ioc
