import PlatIF.Ioc.Lock

/-!
# Lock balance

Does an API call return with the context mutex held as deep as at its entry?  Along runs whose SYNC callbacks
are balanced it does, on every path but one: `subEVT` locks a second time where it should unlock when it
finds every slot taken although the count says that there is room (`call_restores_mutex_iff`).  That state
is reached after `malloc` has failed (`subEVT_leaks_lock`).
-/

namespace PlatIF.Ioc

variable {abi : Abi} {s s' : State abi} {t u : Tid} {a : Act abi} {f : Frame abi}
  {rest : List (Frame abi)} {maxSuberNum : ULong abi} {clients : ℕ}

/-- The step is not the return of a SYNC callback that changed the hold of its thread on the context
mutex. -/
def syncBalanced (s : State abi) (x : Tid × Act abi) : Bool :=
  match s.frames x.1, x.2 with
  | .cb f :: .post _ :: _, .ret _ => s.depth x.1 == f.entryDepth
  | _, _ => true

/-- Every slot is taken, and `CurSuberNum` is below `MaxSuberNum` all the same. -/
def Ctx.fullUncounted (c : Ctx abi) : Prop :=
  c.curSuberNum < c.maxSuberNum ∧ c.isAlloced = true ∧
    ∀ i, i < c.maxSuberNum.toNat → (c.pEvtSubers i).occupied

/-! ### Entry depths along a stack -/

/-- A SYNC callback is entered one level deeper than the `postEVT` that makes it. -/
def Chained : List (Frame abi) → Prop
  | [] => True
  | f :: rest =>
    (∀ c p rest', f = .cb c → rest = .post p :: rest' → c.entryDepth = p.entryDepth + 1) ∧ Chained rest

@[simp] theorem chained_nil : Chained ([] : List (Frame abi)) := trivial

@[simp] theorem chained_sub {g : SubFrame} : Chained (Frame.sub g :: rest) ↔ Chained rest := by
  simp [Chained]

@[simp] theorem chained_unsub {g : UnsubFrame} : Chained (Frame.unsub g :: rest) ↔ Chained rest := by
  simp [Chained]

@[simp] theorem chained_post {p : PostFrame abi} : Chained (Frame.post p :: rest) ↔ Chained rest := by
  simp [Chained]

theorem chained_cb_post {c : CbFrame abi} {p : PostFrame abi} :
    Chained (.cb c :: .post p :: rest) ↔ c.entryDepth = p.entryDepth + 1 ∧ Chained rest := by
  simp [Chained]

@[simp] theorem chained_cb_nil {c : CbFrame abi} : Chained [.cb c] := by
  simp [Chained]

/-- Entry depths of one thread that holds the context mutex `d` deep. -/
structure DepthOk (d : ℕ) (fs : List (Frame abi)) : Prop where
  top : ∀ f rest, fs = f :: rest → f.isApi = true → d = f.entryDepth + f.holds
  chain : Chained fs

/-- Entry depths of all threads. -/
def DepthInv (s : State abi) : Prop := ∀ t, DepthOk (s.depth t) (s.frames t)

theorem chained_api (hf : f.isApi = true) : Chained (f :: rest) ↔ Chained rest := by
  cases f with
  | cb c => simp [Frame.isApi] at hf
  | sub => exact chained_sub
  | unsub => exact chained_unsub
  | post => exact chained_post

/-- Where user code is on top, or nothing is, there is no API frame to account for. -/
theorem DepthOk.user {b : Base abi} {d : ℕ} (hu : UserStack b rest ∨ rest = []) (hc : Chained rest) :
    DepthOk d rest where
  top f rest' hf hapi := by
    subst hf
    rcases hu with hu | hu
    · exact absurd (hu.top_not_api.symm.trans hapi) Bool.false_ne_true
    · simp at hu
  chain := hc

/-- The top frame goes on, and the hold on the mutex with it. -/
theorem DepthOk.replace {d d' : ℕ} {g : Frame abi} (h : DepthOk d (f :: rest)) (hf : f.isApi = true)
    (hg : g.isApi = true) (he : g.entryDepth = f.entryDepth) (hd : d' + f.holds = d + g.holds) :
    DepthOk d' (g :: rest) where
  top g' rest' hg' _ := by
    obtain ⟨rfl, rfl⟩ := List.cons.inj hg'
    have := h.top f _ rfl hf
    omega
  chain := (chained_api hg).mpr ((chained_api hf).mp h.chain)

/-- The caller of a finished API call goes on. -/
theorem DepthOk.ret {d d' : ℕ} {b : Base abi} (h : DepthOk d (f :: rest)) (hf : f.isApi = true)
    (hS : Stack b (f :: rest)) : DepthOk d' rest := by
  refine .user (b := b) ?_ ((chained_api hf).mp h.chain)
  cases f with
  | cb c => simp [Frame.isApi] at hf
  | sub => exact .inl hS.of_sub
  | unsub => exact .inl hS.of_unsub
  | post =>
    obtain ⟨-, ⟨-, hu⟩ | ⟨-, rfl, -⟩⟩ := hS.of_post
    · exact .inl hu
    · exact .inr rfl

theorem depthOk_self (hT : ThreadInv s) (hD : DepthOk (s.depth t) (s.frames t))
    (hok : syncBalanced s (t, a) = true) (h : Trans s t a s') :
    DepthOk (s'.depth t) (s'.frames t) := by
  have hS := hT.stack t
  cases h
  case call api hu =>
    simp only [State.setFrames, Function.update_self]
    have hapi : (s.frameOf t api).isApi = true := by cases api <;> rfl
    refine ⟨fun f rest hf _ => ?_, (chained_api hapi).mpr hD.chain⟩
    obtain ⟨rfl, rfl⟩ := List.cons.inj hf
    rw [holds_frameOf, Nat.add_zero]
    cases api <;> rfl
  case cbRetPost c p rest i r hf hp =>
    rw [hf] at hD
    simp only [syncBalanced, hf, beq_iff_eq] at hok
    obtain ⟨hcp, hc⟩ := chained_cb_post.mp hD.chain
    simp only [State.setFrames, State.obs, Function.update_self]
    refine ⟨fun f rest hf _ => ?_, chained_post.mpr hc⟩
    obtain ⟨rfl, rfl⟩ := List.cons.inj hf
    exact (hok.trans hcp).trans (by simp [Frame.entryDepth, Frame.holds_post])
  case cbRetAsync => exact .user (b := s.base t) (.inr (by simp)) (by simp)
  case unsubSignal hf hp hw | postSignal hf hp hw | postRetrySignal hf hp hw =>
    obtain ⟨b, rfl, -⟩ := hw.eq
    rw [hf] at hD
    simp only [State.setFrames, Function.update_self]
    exact hD.replace rfl rfl rfl (by simp [hp, Frame.holds_unsub, Frame.holds_post, State.depth])
  case unsubLock hf hp hm _ | postLock hf hp hm _ =>
    rw [hf] at hD
    simp only [State.setFrames, State.setMutex, State.setCtx, Function.update_self]
    have := RecMutex.held_tryLock hm
    exact hD.replace rfl rfl rfl (by simp [hp, Frame.holds_unsub, Frame.holds_post, State.depth, this])
  case unsubStop hf hp _ _ _ | unsubSkip hf hp _ _ | unsubSetFlag hf hp _ | postSkip hf hp _ _ |
      postASync hf hp _ _ _ | postAccept hf hp _ _ | postFull hf hp _ _ _ | postRetry hf hp _ _ _ _ =>
    rw [hf] at hD
    simp only [State.setFrames, State.setSuber, State.setCtx, State.obs, Function.update_self]
    exact hD.replace rfl rfl rfl (by simp [hp, Frame.holds_unsub, Frame.holds_post, State.depth])
  case unsubFreeNext hf hs _ _ | unsubKeepNext hf hs _ _ =>
    rw [hf] at hD
    simp only [State.setFrames, State.freeSlot, State.detach, State.setSuber, State.setCtx,
      Function.update_self]
    exact hD.replace rfl rfl rfl (by simp [hs.pc_ne, Frame.holds_unsub, State.depth])
  case postSync hf hp _ _ _ =>
    rw [hf] at hD
    simp only [State.setFrames, State.obs, Function.update_self]
    refine ⟨fun f rest hf => ?_, chained_cb_post.mpr ⟨?_, chained_post.mp hD.chain⟩⟩
    · obtain ⟨rfl, rfl⟩ := List.cons.inj hf
      simp [Frame.isApi]
    · simpa [Frame.entryDepth, Frame.holds_post, hp] using hD.top _ _ rfl rfl
  case subFull hf _ _ | subNoSlot hf _ _ _ _ | subFill hf _ _ _ | unsubNotFound hf _ _ _ |
      unsubEnd hf _ _ | unsubFreeDone hf _ _ | postNotFound hf _ _ _ | postBusy hf _ _ _ |
      postCache hf _ _ _ _ _ _ | postCacheFull hf _ _ _ _ _ _ | postEnd hf _ _ =>
    rw [hf] at hD hS
    simp only [State.ret_eq, State.retPost_frames, State.setMutex, State.setCtx, State.newSub, State.setSuber,
      State.obs, State.freeSlot, Function.update_self]
    exact hD.ret rfl hS
  case cbWrite hf _ _ =>
    rw [hf] at hD
    simp only [State.setFrames, Function.update_self]
    obtain ⟨hcp, hc⟩ := chained_cb_post.mp hD.chain
    refine ⟨fun f rest hf => ?_, chained_cb_post.mpr ⟨hcp, hc⟩⟩
    obtain ⟨rfl, rfl⟩ := List.cons.inj hf
    simp [Frame.isApi]
  case asyncCall => exact ⟨by simp [Frame.isApi], by simp⟩
  case asyncReplay =>
    simp only [State.setFrames, State.setBase, Function.update_self]
    refine ⟨fun f rest hf _ => ?_, by simp⟩
    obtain ⟨rfl, rfl⟩ := List.cons.inj hf
    rfl
  -- the other steps leave the stack and the mutex
  all_goals simpa [State.depth] using hD

theorem depthInv_trans (hT : ThreadInv s) (hD : DepthInv s) (hok : syncBalanced s (t, a) = true)
    (h : Trans s t a s') : DepthInv s' := by
  intro u
  by_cases hu : u = t
  · rw [hu]
    exact depthOk_self hT (hD t) hok h
  · rw [h.frames_ne hu, h.depth_ne hu]
    exact hD u

theorem depthInv_reach (h : Reach (fun s x => syncBalanced s x = true) maxSuberNum clients s) :
    DepthInv s :=
  h.induction (fun _ => ⟨fun _ _ hf => by simp [State.init] at hf, by simp [State.init]⟩)
    fun _ _ _ _ hr hD hok _ h => depthInv_trans (threadInv_reach hr) hD hok h

/-! ### Returns -/

/-- The missing-slot path of `subEVT` is taken exactly on a full table that is not counted full. -/
theorem Ctx.fullUncounted_of_none {c : Ctx abi} (hc : ¬ c.curSuberNum ≥ c.maxSuberNum)
    (hi : c.allocSubers.freeSuberIdx = none) : c.fullUncounted := by
  rw [Ctx.freeSuberIdx_eq_none] at hi
  have hlt : c.curSuberNum < c.maxSuberNum := BitVec.not_le.mp hc
  cases ha : c.isAlloced with
  | true =>
    rw [Ctx.allocSubers_of_isAlloced ha] at hi
    exact ⟨hlt, ha, hi⟩
  | false =>
    -- a table just allocated has a free first slot
    have h0 := hi 0 (by
      rw [show c.allocSubers.maxSuberNum = c.maxSuberNum by simp [Ctx.allocSubers, ha]]
      exact Nat.zero_lt_of_lt (BitVec.lt_def.mp hlt))
    simp [Ctx.allocSubers, ha, Suber.zero, Suber.occupied] at h0

/-- **An API call returns with the context mutex as deep as at its entry, and holds no subscriber mutex,
exactly when it is not a `subEVT` on a full table that is not counted full.** -/
theorem call_restores_mutex_iff {r : TosResult}
    (hr : Reach (fun s x => syncBalanced s x = true) maxSuberNum clients s)
    (hn : next s (t, a) = some s') (hret : Returns s s' t f r) :
    (s'.depth t = f.entryDepth ∧ ∀ i, (s'.suber i).mutex ≠ some t) ↔
      ¬ ((∃ g, f = .sub g) ∧ s.ctx.fullUncounted) := by
  obtain ⟨hf, hapi, -⟩ := hret
  obtain ⟨hrun, h⟩ := next_trans hn
  obtain ⟨rest, hret⟩ : ∃ rest, s'.frames t = rest := ⟨_, rfl⟩
  rw [hret] at hf
  have hd := (depthInv_reach hr t).top f rest hf hapi
  have hM := mutexFree_trans (mutexFree_reach hr) hrun h
  have hfree : s'.halted = none → ∀ i, (s'.suber i).mutex ≠ some t := fun hh i => by
    simp [hM hh i]
  cases h
  case subFull hf' hm hc =>
    have hc' : ¬ s.ctx.fullUncounted := fun hu => BitVec.not_le.mpr hu.1 hc
    obtain ⟨rfl, rfl⟩ := List.cons.inj (hf.symm.trans hf')
    simp only [hc', and_false, not_false_iff, iff_true]
    exact ⟨by simpa [State.depth] using hd, hfree (by simpa using hrun)⟩
  case subNoSlot hf' hm hm' hc hi =>
    obtain ⟨rfl, rfl⟩ := List.cons.inj (hf.symm.trans hf')
    refine iff_of_false ?_ (not_not.mpr ⟨⟨_, rfl⟩, Ctx.fullUncounted_of_none hc hi⟩)
    rintro ⟨hbad, -⟩
    have h₁ := RecMutex.held_tryLock hm
    have h₂ := RecMutex.held_tryLock hm'
    simp only [State.depth, State.setCtx, State.ret_eq, Frame.holds_sub] at hbad hd
    omega
  case subFill hf' hm hc hi =>
    have hc' : ¬ s.ctx.fullUncounted := fun hu => by
      rw [Ctx.allocSubers_of_isAlloced hu.2.1] at hi
      obtain ⟨hlt, ho⟩ := Ctx.freeSuberIdx_eq_some hi
      exact ho (hu.2.2 _ hlt)
    obtain ⟨rfl, rfl⟩ := List.cons.inj (hf.symm.trans hf')
    simp only [hc', and_false, not_false_iff, iff_true]
    exact ⟨by simpa [State.depth] using hd, hfree (by simpa using hrun)⟩
  case unsubNotFound hf' hp _ _ =>
    obtain ⟨rfl, rfl⟩ := List.cons.inj (hf.symm.trans hf')
    refine iff_of_true ⟨?_, hfree (by simpa using hrun)⟩ (by simp)
    simpa [State.depth, Frame.holds_unsub, hp] using hd
  case unsubEnd hf' hp _ =>
    obtain ⟨rfl, rfl⟩ := List.cons.inj (hf.symm.trans hf')
    refine iff_of_true ⟨?_, hfree (by simpa using hrun)⟩ (by simp)
    simp [State.depth, Frame.holds_unsub, hp] at hd
    simp [State.depth, RecMutex.held_unlock, hd]
  case unsubFreeDone hf' hs _ =>
    obtain ⟨rfl, rfl⟩ := List.cons.inj (hf.symm.trans hf')
    refine iff_of_true ⟨?_, hfree (by simpa using hrun)⟩ (by simp)
    simp [State.depth, Frame.holds_unsub, hs.pc_ne] at hd
    simp [State.depth, RecMutex.held_unlock, hd]
  case postNotFound hf' hp _ _ | postBusy hf' hp _ _ | postCache hf' hp _ _ _ _ _ |
      postCacheFull hf' hp _ _ _ _ _ =>
    obtain ⟨rfl, rfl⟩ := List.cons.inj (hf.symm.trans hf')
    refine iff_of_true ⟨?_, hfree (by simpa using hrun)⟩ (by simp)
    simpa [State.depth, Frame.holds_post, hp] using hd
  case postEnd hf' hp _ =>
    obtain ⟨rfl, rfl⟩ := List.cons.inj (hf.symm.trans hf')
    refine iff_of_true ⟨?_, hfree (by simpa using hrun)⟩ (by simp)
    simp [State.depth, Frame.holds_post, hp] at hd
    simp [State.depth, RecMutex.held_unlock, hd]
  -- no other step removes an API frame
  case cbRetPost hf' _ | cbRetAsync hf' _ | cbWrite hf' _ _ =>
    obtain ⟨rfl, rfl⟩ := List.cons.inj (hf.symm.trans hf')
    simp [Frame.isApi] at hapi
  case call =>
    have hlen := congrArg List.length hret
    simp only [State.setFrames, Function.update_self, hf, List.length_cons] at hlen
    omega
  case postSync hf' _ _ _ _ =>
    obtain ⟨rfl, rfl⟩ := List.cons.inj (hf.symm.trans hf')
    have hlen := congrArg List.length hret
    simp only [State.setFrames, State.obs, Function.update_self, List.length_cons] at hlen
    omega
  all_goals simp_all

/-- One `subEVT` call by thread `0`, with `malloc` answering as told. -/
def subCall (malloc : Bool) : List (Tid × Act lp64) :=
  [(0, .call (.subEVT ⟨1, 1, some [7]⟩)), (0, .run { malloc })]

/-- With the table of the source, one failed `malloc` and 31 successful calls fill every slot and leave the
count at 31; the next `subEVT` returns with the context mutex held two levels deeper. -/
theorem subEVT_leaks_lock :
    ∃ (s s' : State lp64) (f : Frame lp64) (r : TosResult),
      Reach (fun s x => syncBalanced s x = true) (initMaxSuberNum lp64) 1 s ∧
        next s (0, .go) = some s' ∧ Returns s s' 0 f r ∧ s'.depth 0 ≠ f.entryDepth := by
  obtain ⟨s, hr, hs⟩ := reach_of_run (fun s x => syncBalanced s x = true) (initMaxSuberNum lp64) 1
    (subCall false ++ (List.replicate 31 (subCall true)).flatten ++ (subCall true).take 1)
    (fun s => (s.onlyFrame 0).any fun f => (next s (0, .go)).any fun s' =>
      f.isApi && s'.returned 0 .notTestedBug && s'.depth 0 != f.entryDepth) (by decide +kernel)
  simp only [Option.any_eq_true, State.onlyFrame_eq_some, Bool.and_eq_true, bne_iff_ne] at hs
  obtain ⟨f, hf, s', hn, ⟨hapi, hret⟩, hd⟩ := hs
  exact ⟨s, s', f, _, hr, hn, returns_of_returned hf hapi hret, hd⟩

/-- The call that a callback on thread `t` is making. -/
def State.nestedCall (s : State abi) (t : Tid) : Option (Frame abi × List (Frame abi)) :=
  match s.frames t with
  | f :: .cb c :: rest => if f.isApi then some (f, .cb c :: rest) else none
  | _ => none

theorem State.nestedCall_eq_some {rest : List (Frame abi)} (h : s.nestedCall t = some (f, rest)) :
    s.frames t = f :: rest ∧ f.isApi = true ∧ ∃ c fs, rest = .cb c :: fs := by
  unfold State.nestedCall at h
  split at h
  · rename_i g c fs hf
    split at h
    · rename_i hapi
      simp only [Option.some.injEq, Prod.mk.injEq] at h
      obtain ⟨rfl, rfl⟩ := h
      exact ⟨hf, hapi, c, fs, rfl⟩
    · simp at h
  · simp at h

/-- A `subEVT` call that the callback of a SYNC post makes in a full table: it is refused, with the context mutex held
once, as when it was made. -/
theorem call_restores_mutex_iff_nested :
    ∃ (s s' : State lp64) (f : Frame lp64) (c : CbFrame lp64) (rest : List (Frame lp64)),
      s.frames 0 = f :: .cb c :: rest ∧ Returns s s' 0 f .notEnoughResource ∧ f.entryDepth = 1 ∧ s'.depth 0 = 1 ∧
      ((s'.depth 0 = f.entryDepth ∧ ∀ i, (s'.suber i).mutex ≠ some 0) ↔
        ¬ ((∃ g, f = .sub g) ∧ s.ctx.fullUncounted)) := by
  obtain ⟨s, hr, hs⟩ := reach_of_run (fun s x => syncBalanced s x = true) (1 : ULong lp64) 1
    (subCall true ++ [(0, .call (.postEVT (.ofID lp64 7) (some ⟨optIDSyncMode, 0⟩))), (0, .go), (0, .go),
      (0, .call (.subEVT ⟨2, 2, some [8]⟩))])
    (fun s : State lp64 => (s.nestedCall 0).any fun x => (next s (0, .go)).any fun s' : State lp64 =>
      s'.log.getLast? == some (.ret 0 .notEnoughResource) && x.1.entryDepth == 1 && s'.depth 0 == 1 &&
        (s'.frames 0).length == x.2.length) (by decide +kernel)
  simp only [Option.any_eq_true, Bool.and_eq_true, beq_iff_eq, Prod.exists] at hs
  obtain ⟨f, rest, hcall, s', hn, ⟨⟨hlog, hentry⟩, hdepth⟩, hlen⟩ := hs
  obtain ⟨hf, hapi, c, fs, rfl⟩ := State.nestedCall_eq_some hcall
  have hret : Returns s s' 0 f .notEnoughResource :=
    ⟨by rw [hf, (next_trans hn).2.frames_popped hf hapi hlen], hapi, hlog⟩
  exact ⟨s, s', f, c, fs, hf, hret, hentry, hdepth, call_restores_mutex_iff hr hn hret⟩

end PlatIF.Ioc
