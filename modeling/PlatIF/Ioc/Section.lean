import PlatIF.Ioc.Lock

/-!
# Inside the section of the context mutex

What a call knows of the table while it holds the context mutex: `unsubEVT` stands at a slot that it picked
and that has a thread, `postEVT` stands at a slot that lists the event.  The others leave these facts alone
by the frame rule of the mutex, so each needs a proof only for the steps of the holder.

* `allocInv_reach` — before the table is allocated nothing runs that could touch it, so `calloc` gives back
  the table there is (`AllocInv.allocSubers`);
* `holderInv_reach` — the facts about the slot a call stands at.
-/

namespace PlatIF.Ioc

variable {abi : Abi} {s s' : State abi} {t u : Tid} {a : Act abi} {i : ℕ}
  {rest : List (Frame abi)} {ok : State abi → Tid × Act abi → Prop} {maxSuberNum : ULong abi}
  {clients : ℕ}

/-! ### Constants of a run -/

theorem Trans.maxSuberNum_eq (h : Trans s t a s') : s'.ctx.maxSuberNum = s.ctx.maxSuberNum := by
  cases h
  case unsubSignal hw | postSignal hw | postRetrySignal hw =>
    obtain ⟨b, rfl, -⟩ := hw.eq
    rfl
  all_goals simp

theorem Trans.isSyncMode_eq (h : Trans s t a s') : s'.ctx.isSyncMode = s.ctx.isSyncMode := by
  cases h
  case unsubSignal hw | postSignal hw | postRetrySignal hw =>
    obtain ⟨b, rfl, -⟩ := hw.eq
    rfl
  all_goals simp

theorem maxSuberNum_reach (h : Reach ok maxSuberNum clients s) : s.ctx.maxSuberNum = maxSuberNum :=
  h.induction (P := fun s => s.ctx.maxSuberNum = maxSuberNum) rfl
    fun _ _ _ _ _ he _ _ h => h.maxSuberNum_eq.trans he

/-- No code sets `IsSyncMode` of the context. -/
theorem isSyncMode_reach (h : Reach ok maxSuberNum clients s) : s.ctx.isSyncMode = false :=
  h.induction (P := fun s => s.ctx.isSyncMode = false) rfl fun _ _ _ _ _ hy _ _ h => h.isSyncMode_eq.trans hy

/-! ### Before the table is allocated -/

/-- While the table is not allocated it is all zero, there is no async thread, and no call is past its
lock. -/
structure AllocInv (s : State abi) : Prop where
  slot : s.ctx.isAlloced = false → ∀ i, s.suber i = Suber.zero
  base : s.ctx.isAlloced = false → ∀ t i g pc, s.base t ≠ .async i g pc
  holds : s.ctx.isAlloced = false → ∀ t f, f ∈ s.frames t → f.holds = 0

theorem AllocInv.allocSubers (hA : AllocInv s) : s.ctx.allocSubers.pEvtSubers = s.ctx.pEvtSubers := by
  unfold Ctx.allocSubers
  split
  · rfl
  · rename_i h
    exact funext fun i => (hA.slot (by simpa using h) i).symm

/-- A step before the allocation touches neither the table nor the bases, and leaves every call at its
lock. -/
theorem allocInv_step (hT : ThreadInv s) (hA : AllocInv s) (h : Trans s t a s')
    (hal : s'.ctx.isAlloced = false) :
    s.ctx.isAlloced = false ∧ s'.ctx.pEvtSubers = s.ctx.pEvtSubers ∧ s'.base = s.base ∧
      ∀ f, f ∈ s'.frames t → f.holds = 0 := by
  have hal0 : s.ctx.isAlloced = false := by
    cases h
    case unsubSignal hw | postSignal hw | postRetrySignal hw =>
      obtain ⟨b, rfl, -⟩ := hw.eq
      exact hal
    case subNoSlot | subFill => simp at hal
    all_goals simpa using hal
  have hh := hA.holds hal0 t
  have hb := hA.base hal0 t
  have hpost : ∀ {f rest}, s.frames t = .post f :: rest → f.pc = .lock := fun {f} _ hf => by
    have := hh (.post f) (by simp [hf])
    by_contra hp
    simp [Frame.holds_post, hp] at this
  have hunsub : ∀ {f rest}, s.frames t = .unsub f :: rest → f.pc = .lock := fun {f} _ hf => by
    have := hh (.unsub f) (by simp [hf])
    by_contra hp
    simp [Frame.holds_unsub, hp] at this
  refine ⟨hal0, ?_⟩
  cases h
  case call api hu =>
    refine ⟨rfl, rfl, fun f hf => ?_⟩
    simp only [State.setFrames, Function.update_self, List.mem_cons] at hf
    rcases hf with rfl | hf
    · exact holds_frameOf api
    · exact hh f hf
  case cbRetPost p _ i r hf hp =>
    have := hh (.post p) (by simp [hf])
    simp [Frame.holds_post, hp] at this
  case subFull hf _ _ | unsubNotFound hf _ _ _ =>
    exact ⟨rfl, rfl, fun f hm => hh f (by simp [hf] at hm ⊢; exact .inr hm)⟩
  case postNotFound hf _ _ _ | postBusy hf _ _ _ | postCacheFull hf _ _ _ _ _ _ =>
    refine ⟨by simp, funext fun u => ?_, fun f hm => hh f ?_⟩
    · by_cases hu : u = t
      · subst hu
        rcases State.retPost_base_self s u _ _ _ with h | ⟨i, g, d, -, h, -⟩
        · exact h
        · exact absurd h (hb _ _ _)
      · exact State.retPost_base_ne _ _ _ _ _ hu
    · simp only [State.retPost_frames, Function.update_self] at hm
      simp [hf, hm]
  case postCache hf _ _ _ _ ht _ =>
    obtain ⟨g, pc, h⟩ := hT.async_of_tls (by simp [hf]) ht
    exact absurd h (hb _ _ _)
  case halt => exact ⟨rfl, rfl, hh⟩
  case cbWrite p _ _ _ hf _ _ =>
    refine ⟨rfl, rfl, fun f hm => ?_⟩
    simp only [State.setFrames, Function.update_self, List.mem_cons] at hm
    rcases hm with rfl | rfl | hm
    · exact hh _ (by simp [hf])
    · exact hh (.post p) (by simp [hf])
    · exact hh f (by simp [hf, hm])
  case subNoSlot | subFill => simp at hal
  case unsubLock _ ha | postLock _ ha => simp [hal0] at ha
  case unsubStop hf hp _ _ _ | unsubSkip hf hp _ _ | unsubEnd hf hp _ | unsubSetFlag hf hp _ |
      unsubSignal hf hp _ => simp [hunsub hf] at hp
  case unsubFreeNext hf hs _ _ | unsubKeepNext hf hs _ _ | unsubFreeDone hf hs _ =>
    exact absurd (hunsub hf) hs.pc_ne
  case postSkip hf hp _ _ | postSync hf hp _ _ _ | postASync hf hp _ _ _ | postEnd hf hp _ |
      postAccept hf hp _ _ | postFull hf hp _ _ _ | postRetry hf hp _ _ _ _ | postSignal hf hp _ |
      postRetrySignal hf hp _ | haltPush hf hp => simp [hpost hf] at hp
  -- what is left is a step of an async thread
  all_goals exact absurd ‹s.base t = _› (hb _ _ _)

theorem allocInv_trans (hT : ThreadInv s) (hA : AllocInv s) (h : Trans s t a s') : AllocInv s' where
  slot hal i := by
    obtain ⟨hal0, hc, -, -⟩ := allocInv_step hT hA h hal
    rw [State.suber, hc]
    exact hA.slot hal0 i
  base hal u := by
    obtain ⟨hal0, -, hb, -⟩ := allocInv_step hT hA h hal
    rw [hb]
    exact hA.base hal0 u
  holds hal u := by
    obtain ⟨hal0, -, -, hh⟩ := allocInv_step hT hA h hal
    by_cases hu : u = t
    · rw [hu]
      exact hh
    · rw [h.frames_ne hu]
      exact hA.holds hal0 u

theorem allocInv_reach (h : Reach ok maxSuberNum clients s) : AllocInv s := by
  refine h.induction ⟨fun _ _ => rfl, fun _ t i g pc hb => ?_, fun _ t f hf => ?_⟩
    fun _ _ _ _ hr hA _ _ h => allocInv_trans (threadInv_reach hr) hA h
  · exact absurd hb (State.init_base_ne _ _ t i g pc)
  · simp [State.init] at hf

/-! ### The slot a call stands at -/

/-- The slot whose thread `unsubEVT` stops. -/
def UnsubPc.slot : UnsubPc → Option ℕ
  | .stop i | .signal i | .join i => some i
  | _ => none

/-- The flag of the slot is set. -/
def UnsubPc.flagged : UnsubPc → Bool
  | .signal _ | .join _ => true
  | _ => false

/-- The slot an ASYNC visit of `postEVT` works on. -/
def PostPc.slot : PostPc → Option ℕ
  | .push i | .signal i | .retry i => some i
  | _ => none

/-- The slot has a thread. -/
def PostPc.started : PostPc → Bool
  | .signal _ | .retry _ => true
  | _ => false

/-- What `unsubEVT` knows of the slot it stands at. -/
structure UnsubOk (s : State abi) (f : UnsubFrame) (i : ℕ) : Prop where
  lt : i < s.ctx.maxSuberNum.toNat
  picks : f.picks (s.suber i)
  thread : ∃ u, (s.suber i).asyncThreadID = some u
  flag : f.pc.flagged = true → (s.suber i).shouldExitASyncThread = true

/-- What `postEVT` knows of the slot it stands at. -/
structure PostOk (s : State abi) (f : PostFrame abi) (i : ℕ) : Prop where
  lt : i < s.ctx.maxSuberNum.toNat
  listed : ∃ d : EvtDesc abi, (s.suber i).args.lists d = true
  /-- The cell that a replay looks at may have been written since. -/
  lists : f.isReplay = false → (s.suber i).args.lists f.pEvtDesc = true
  async : s.isSync f = false
  thread : f.pc.started = true → ∃ u, (s.suber i).asyncThreadID = some u

/-- The calls in progress know the slots they stand at. -/
structure HolderInv (s : State abi) : Prop where
  unsub : ∀ t f rest i, s.frames t = .unsub f :: rest → f.pc.slot = some i → UnsubOk s f i
  post : ∀ t f rest i, s.frames t = .post f :: rest → f.pc.slot = some i → PostOk s f i

theorem UnsubOk.transfer {f : UnsubFrame} (h : UnsubOk s f i) (hs : SameTable s s')
    (hm : s'.ctx.maxSuberNum = s.ctx.maxSuberNum) : UnsubOk s' f i := by
  obtain ⟨ha, hi, hf, -, -⟩ := hs.slot i
  refine ⟨hm ▸ h.lt, ?_, hi ▸ h.thread, fun hp => hf.trans (h.flag hp)⟩
  have := h.picks
  unfold UnsubFrame.picks Suber.hasKey at *
  rwa [ha]

theorem PostOk.transfer {f : PostFrame abi} (h : PostOk s f i) (hs : SameTable s s')
    (hm : s'.ctx.maxSuberNum = s.ctx.maxSuberNum) (hy : s'.ctx.isSyncMode = s.ctx.isSyncMode) :
    PostOk s' f i := by
  obtain ⟨ha, hi, -, -, -⟩ := hs.slot i
  refine ⟨hm ▸ h.lt, ha ▸ h.listed, ha ▸ h.lists, ?_, hi ▸ h.thread⟩
  have := h.async
  unfold State.isSync at *
  rwa [hy]

theorem PostOk.occupied {f : PostFrame abi} (h : PostOk s f i) : (s.suber i).args.cbProcEvtF ≠ NULL := by
  obtain ⟨d, hd⟩ := h.listed
  exact EvtSubArgs.cb_ne_null_of_lists hd

theorem UnsubPc.slot_ne_lock {p : UnsubPc} (h : p.slot = some i) : p ≠ .lock := by
  rintro rfl
  simp [UnsubPc.slot] at h

theorem PostPc.slot_ne_lock {p : PostPc} (h : p.slot = some i) : p ≠ .lock := by
  rintro rfl
  simp [PostPc.slot] at h

theorem holderInv_unsub_self (hH : HolderInv s) (hS : Stack (s.base t) (s.frames t))
    (h : Trans s t a s') {f : UnsubFrame} (hf' : s'.frames t = .unsub f :: rest)
    (hi : f.pc.slot = some i) : UnsubOk s' f i := by
  cases h
  case call api _ =>
    simp only [State.setFrames, Function.update_self] at hf'
    obtain ⟨hf', -⟩ := List.cons.inj hf'
    cases api <;> simp only [State.frameOf, Frame.unsub.injEq, reduceCtorEq] at hf'
    subst hf'
    simp [UnsubPc.slot] at hi
  case unsubStop hf hp hlt hk hu =>
    simp only [State.setFrames, Function.update_self, List.cons.injEq, Frame.unsub.injEq] at hf'
    obtain ⟨rfl, -⟩ := hf'
    obtain rfl : _ = i := by simpa [UnsubPc.slot] using hi
    exact ⟨hlt, hk, ⟨_, hu⟩, by simp [UnsubPc.flagged]⟩
  case unsubSetFlag hf hp _ =>
    have hold := hH.unsub t _ _ _ hf (by rw [hp]; rfl)
    simp only [State.setFrames, Function.update_self, List.cons.injEq, Frame.unsub.injEq] at hf'
    obtain ⟨rfl, -⟩ := hf'
    obtain rfl : _ = i := by simpa [UnsubPc.slot] using hi
    have hk := hold.picks
    unfold UnsubFrame.picks Suber.hasKey at hk
    exact ⟨by simpa using hold.lt, by simpa [State.suber, UnsubFrame.picks, Suber.hasKey] using hk,
      by simpa [State.suber] using hold.thread, by simp [State.suber]⟩
  case unsubSignal hf hp hw =>
    have hold := hH.unsub t _ _ _ hf (by rw [hp]; rfl)
    obtain ⟨b, rfl, -⟩ := hw.eq
    simp only [State.setFrames, Function.update_self, List.cons.injEq, Frame.unsub.injEq] at hf'
    obtain ⟨rfl, -⟩ := hf'
    obtain rfl : _ = i := by simpa [UnsubPc.slot] using hi
    exact ⟨hold.lt, hold.picks, hold.thread, fun _ => hold.flag (by rw [hp]; rfl)⟩
  case halt => exact (hH.unsub t f rest i hf' hi).transfer (.of_eq rfl rfl rfl) rfl
  case unsubLock | unsubSkip | unsubFreeNext | unsubKeepNext =>
    simp at hf'
    obtain ⟨rfl, -⟩ := hf'
    simp [UnsubPc.slot] at hi
  case postSignal hw | postRetrySignal hw => simp at hf'
  case subFull hf _ _ | subNoSlot hf _ _ _ _ | subFill hf _ _ _ | unsubNotFound hf _ _ _ |
      unsubEnd hf _ _ | unsubFreeDone hf _ _ | postNotFound hf _ _ _ | postBusy hf _ _ _ |
      postCache hf _ _ _ _ _ _ | postCacheFull hf _ _ _ _ _ _ | postEnd hf _ _ =>
    -- the caller of a call that returns is not an API call
    simp at hf'
    rw [hf, hf'] at hS
    exact absurd (hS.below_api rfl) (by simp [Frame.isApi])
  all_goals simp_all

/-- A write to slot `i` that keeps its arguments and leaves it with a thread. -/
theorem PostOk.of_update {f g : PostFrame abi} {x : Suber abi} (h : PostOk s f i)
    (hc : s'.ctx = s.ctx.setSuber i x) (ha : x.args = (s.suber i).args)
    (hu : ∃ u, x.asyncThreadID = some u) (hr : g.isReplay = f.isReplay) (hd : g.pEvtDesc = f.pEvtDesc)
    (ho : g.pOptions = f.pOptions) : PostOk s' g i := by
  have hs := h.async
  unfold State.isSync at hs
  exact ⟨by simpa [hc] using h.lt, by simpa [hc, State.suber, ha] using h.listed,
    by simpa [hc, State.suber, ha, hr, hd] using h.lists,
    by simpa [hc, State.isSync, ho] using hs, fun _ => by simpa [hc, State.suber] using hu⟩

theorem holderInv_post_self (hH : HolderInv s) (hS : Stack (s.base t) (s.frames t))
    (h : Trans s t a s') {f : PostFrame abi} (hf' : s'.frames t = .post f :: rest)
    (hi : f.pc.slot = some i) : PostOk s' f i := by
  cases h
  case call api _ =>
    simp only [State.setFrames, Function.update_self] at hf'
    obtain ⟨hf', -⟩ := List.cons.inj hf'
    cases api <;> simp only [State.frameOf, Frame.post.injEq, reduceCtorEq] at hf'
    subst hf'
    simp [PostPc.slot] at hi
  case postASync f₀ _ _ hf hp hlt hl hs =>
    simp only [State.setFrames, Function.update_self, List.cons.injEq, Frame.post.injEq] at hf'
    obtain ⟨rfl, -⟩ := hf'
    obtain rfl : _ = i := by simpa [PostPc.slot] using hi
    exact ⟨hlt, ⟨_, hl⟩, fun hr => by rwa [State.desc_of_not_replay s t f₀ hr] at hl, hs, by simp [PostPc.started]⟩
  case postAccept hf hp _ _ =>
    have hold := hH.post t _ _ _ hf (by rw [hp]; rfl)
    simp only [State.setFrames, State.obs, Function.update_self, List.cons.injEq,
      Frame.post.injEq] at hf'
    obtain ⟨rfl, -⟩ := hf'
    obtain rfl : _ = i := by simpa [PostPc.slot] using hi
    exact hold.of_update (x := { s.suber _ with asyncThreadID := some _, evtQueue := _ })
      (by simp [State.suber]; rfl) rfl ⟨_, rfl⟩ rfl rfl rfl
  case postRetry hf hp _ _ _ _ =>
    have hold := hH.post t _ _ _ hf (by rw [hp]; rfl)
    simp only [State.setFrames, Function.update_self, List.cons.injEq, Frame.post.injEq] at hf'
    obtain ⟨rfl, -⟩ := hf'
    obtain rfl : _ = i := by simpa [PostPc.slot] using hi
    exact hold.of_update (x := { s.suber _ with asyncThreadID := some _ })
      (State.withThread_ctx ..) rfl ⟨_, rfl⟩ rfl rfl rfl
  case postRetrySignal hf hp hw =>
    have hold := hH.post t _ _ _ hf (by rw [hp]; rfl)
    obtain ⟨b, rfl, -⟩ := hw.eq
    simp only [State.setFrames, Function.update_self, List.cons.injEq, Frame.post.injEq] at hf'
    obtain ⟨rfl, -⟩ := hf'
    obtain rfl : _ = i := by simpa [PostPc.slot] using hi
    exact ⟨hold.lt, hold.listed, hold.lists, hold.async, by simp [PostPc.started]⟩
  case halt =>
    exact (hH.post t f rest i hf' hi).transfer (.of_eq rfl rfl rfl) rfl rfl
  case haltPush hf hp =>
    have hold := hH.post t _ _ _ hf (by rw [hp]; rfl)
    simp only [State.halt, State.setSuber, State.setCtx, State.withThread_frames, hf, List.cons.injEq,
      Frame.post.injEq] at hf'
    obtain ⟨rfl, -⟩ := hf'
    obtain rfl : _ = i := by simpa [PostPc.slot, hp] using hi
    exact hold.of_update (x := { s.suber _ with asyncThreadID := some _, mutex := _ })
      (by simp [State.suber]; rfl) rfl ⟨_, rfl⟩ rfl rfl rfl
  case postLock | postSkip | postFull | cbRetPost | postSignal | asyncReplay =>
    simp at hf'
    obtain ⟨rfl, -⟩ := hf'
    simp [PostPc.slot] at hi
  case subFull hf _ _ | subNoSlot hf _ _ _ _ | subFill hf _ _ _ | unsubNotFound hf _ _ _ |
      unsubEnd hf _ _ | unsubFreeDone hf _ _ | postNotFound hf _ _ _ | postBusy hf _ _ _ |
      postCache hf _ _ _ _ _ _ | postCacheFull hf _ _ _ _ _ _ | postEnd hf _ _ =>
    simp at hf'
    rw [hf, hf'] at hS
    exact absurd (hS.below_api rfl) (by simp [Frame.isApi])
  all_goals simp_all

theorem holderInv_trans (hT : ThreadInv s) (hL : LockInv s) (hH : HolderInv s)
    (h : Trans s t a s') : HolderInv s' where
  unsub u f rest i hf hi := by
    by_cases hu : u = t
    · subst hu
      exact holderInv_unsub_self hH (hT.stack u) h hf hi
    · rw [h.frames_ne hu] at hf
      have hd := hL.unsub_holder hf (UnsubPc.slot_ne_lock hi)
      exact (hH.unsub u f rest i hf hi).transfer (h.sameTable hL hu hd) h.maxSuberNum_eq
  post u f rest i hf hi := by
    by_cases hu : u = t
    · subst hu
      exact holderInv_post_self hH (hT.stack u) h hf hi
    · rw [h.frames_ne hu] at hf
      have hd := hL.post_holder hf (PostPc.slot_ne_lock hi)
      exact (hH.post u f rest i hf hi).transfer (h.sameTable hL hu hd) h.maxSuberNum_eq
        h.isSyncMode_eq

theorem holderInv_reach (h : Reach ok maxSuberNum clients s) : HolderInv s := by
  refine h.induction ⟨fun t f rest i hf => ?_, fun t f rest i hf => ?_⟩
    fun _ _ _ _ hr hH _ _ h => holderInv_trans (threadInv_reach hr) (lockInv_reach hr) hH h
  · simp [State.init] at hf
  · simp [State.init] at hf

/-! ### One step of `unsubEVT` -/

/-- The slot the search loop of `unsubEVT` has come to. -/
def UnsubPc.idx : UnsubPc → Option ℕ
  | .lock => none
  | .scan i | .stop i | .signal i | .join i => some i

theorem UnsubPc.idx_ne_lock {p : UnsubPc} (h : p.idx = some i) : p ≠ .lock := by
  rintro rfl
  simp [UnsubPc.idx] at h

theorem UnsubPc.idx_eq_none {p : UnsubPc} : p.idx = none ↔ p = .lock := by
  cases p <;> simp [UnsubPc.idx]

/-- How a call of `unsubEVT` came to the program point it is at after a step of its thread. -/
inductive UnsubStep (s s' : State abi) (t : Tid) (a : Act abi) (f' : UnsubFrame)
    (rest : List (Frame abi)) : Prop
  | called (hp : f'.pc = .lock)
  | locked {f env} (hf : s.frames t = .unsub f :: rest) (h : a = .run env)
      (he : f'.pEvtUnsubArgs = f.pEvtUnsubArgs) (hp : f.pc = .lock) (hp' : f'.pc = .scan 0)
      (ha : s.ctx.isAlloced = true)
  | stays {f} (hf : s.frames t = .unsub f :: rest) (he : f'.pEvtUnsubArgs = f.pEvtUnsubArgs)
      (hi : f'.pc.idx = f.pc.idx)
  | skipped {f j} (hf : s.frames t = .unsub f :: rest) (he : f'.pEvtUnsubArgs = f.pEvtUnsubArgs)
      (hp : f.pc = .scan j) (hp' : f'.pc = .scan (j + 1)) (hk : ¬ f.picks (s.suber j))
  | freed {f j} (hf : s.frames t = .unsub f :: rest) (he : f'.pEvtUnsubArgs = f.pEvtUnsubArgs)
      (hs : s.slotStopped t f j) (hp' : f'.pc = .scan (j + 1)) (hn : f.pEvtUnsubArgs = none)
      (hx : ¬ (s'.suber j).occupied ∨ (s.suber j).args.pEvtIDs = none)

theorem Trans.unsubStep (hS : Stack (s.base t) (s.frames t)) (h : Trans s t a s') {f' : UnsubFrame}
    (hf' : s'.frames t = .unsub f' :: rest) : UnsubStep s s' t a f' rest := by
  cases h
  case call api _ =>
    simp only [State.setFrames, Function.update_self] at hf'
    obtain ⟨hf', -⟩ := List.cons.inj hf'
    cases api <;> simp only [State.frameOf, Frame.unsub.injEq, reduceCtorEq] at hf'
    subst hf'
    exact .called rfl
  case unsubLock hf hp _ ha =>
    simp only [State.setFrames, Function.update_self, List.cons.injEq, Frame.unsub.injEq] at hf'
    obtain ⟨rfl, rfl⟩ := hf'
    exact .locked hf rfl rfl hp rfl ha
  case unsubStop hf hp _ _ _ | unsubSetFlag hf hp _ | unsubSignal hf hp _ =>
    simp only [State.setFrames, Function.update_self, List.cons.injEq, Frame.unsub.injEq] at hf'
    obtain ⟨rfl, rfl⟩ := hf'
    exact .stays hf rfl (by rw [hp]; rfl)
  case unsubSkip hf hp _ hk =>
    simp only [State.setFrames, Function.update_self, List.cons.injEq, Frame.unsub.injEq] at hf'
    obtain ⟨rfl, rfl⟩ := hf'
    exact .skipped hf rfl hp rfl hk
  case unsubFreeNext hf hs hn _ =>
    simp only [State.setFrames, Function.update_self, List.cons.injEq, Frame.unsub.injEq] at hf'
    obtain ⟨rfl, rfl⟩ := hf'
    exact .freed hf rfl hs rfl hn (.inl (by simp [State.suber]))
  case unsubKeepNext hf hs hn hids =>
    simp only [State.setFrames, Function.update_self, List.cons.injEq, Frame.unsub.injEq] at hf'
    obtain ⟨rfl, rfl⟩ := hf'
    exact .freed hf rfl hs rfl hn (.inr hids)
  case halt => exact .stays hf' rfl rfl
  case postSignal hw | postRetrySignal hw => simp at hf'
  case subFull hf _ _ | subNoSlot hf _ _ _ _ | subFill hf _ _ _ | unsubNotFound hf _ _ _ |
      unsubEnd hf _ _ | unsubFreeDone hf _ _ | postNotFound hf _ _ _ | postBusy hf _ _ _ |
      postCache hf _ _ _ _ _ _ | postCacheFull hf _ _ _ _ _ _ | postEnd hf _ _ =>
    simp at hf'
    rw [hf, hf'] at hS
    exact absurd (hS.below_api rfl) (by simp [Frame.isApi])
  all_goals simp_all

/-- A call of `unsubEVT(NULL)` goes on to the end of the table. -/
theorem Trans.unsubAll_next (h : Trans s t a s') {f : UnsubFrame} (hf : s.frames t = .unsub f :: rest)
    (hn : f.pEvtUnsubArgs = none) (hp : f.pc ≠ .lock) :
    (∃ f', s'.frames t = .unsub f' :: rest ∧ f'.pEvtUnsubArgs = none ∧ f'.pc ≠ .lock) ∨
      ∃ i, f.pc = .scan i ∧ ¬ i < s.ctx.maxSuberNum.toNat ∧ s'.ctx.curSuberNum = 0 ∧
        s'.ctx.pEvtSubers = s.ctx.pEvtSubers := by
  have hw : ∀ {g r}, s.frames t = .unsub g :: r → g = f ∧ r = rest := fun h => by
    simpa using h.symm.trans hf
  cases h
  case unsubEnd hf' hpc hi =>
    obtain ⟨rfl, rfl⟩ := hw hf'
    exact .inr ⟨_, hpc, hi, by simp [hn], rfl⟩
  case unsubStop hf' _ _ _ _ | unsubSkip hf' _ _ _ | unsubSetFlag hf' _ _ | unsubSignal hf' _ _ |
      unsubFreeNext hf' _ _ _ | unsubKeepNext hf' _ _ _ =>
    obtain ⟨rfl, rfl⟩ := hw hf'
    exact .inl ⟨_, Function.update_self .., hn, by simp⟩
  case halt => exact .inl ⟨f, hf, hn, hp⟩
  case unsubLock hf' hpc _ _ | unsubNotFound hf' hpc _ _ =>
    obtain ⟨rfl, rfl⟩ := hw hf'
    exact absurd hpc hp
  case unsubFreeDone hf' _ hk =>
    obtain ⟨rfl, rfl⟩ := hw hf'
    simp [hn] at hk
  -- the other steps have another frame on top
  all_goals
    clear hw hn hp
    exfalso
    simp_all [State.userOnTop]

end PlatIF.Ioc
