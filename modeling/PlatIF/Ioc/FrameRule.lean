import PlatIF.Ioc.Inversion

/-!
# What a step leaves alone

The frame rules of `Trans`.  A step of `t` leaves the stack, the thread-specific key and the hold on the
context mutex of every other thread as they were (`Trans.frames_ne`, `Trans.tls_ne`, `Trans.depth_ne`).  The
base of another thread changes only when it is created or woken.
-/

namespace PlatIF.Ioc

variable {abi : Abi} {s s' s₁ : State abi} {t u : Tid} {a : Act abi} {i : ℕ}

/-! ### Projections of the composite updates -/

namespace State

variable (s : State abi) (t : Tid) (f : PostFrame abi) (rest : List (Frame abi)) (r : TosResult) (i : ℕ)

/-- A call that is not a replay looks at its own descriptor. -/
theorem desc_of_not_replay (hr : f.isReplay = false) : s.desc t f = f.pEvtDesc := by
  rw [desc, hr]

@[simp] theorem ret_eq : s.ret t rest r =
    { s with frames := Function.update s.frames t rest, log := s.log ++ [.ret t r] } := rfl

@[simp] theorem retire_eq : s.retire t i =
    { s with ctx := s.ctx.setSuber i { s.suber i with evtCached := (s.suber i).evtCached.pop },
             log := s.log ++ [.retire (s.sid i) t] } := rfl

/-- A returned `postEVT` differs from the state before only in the stack, the log and the base. -/
theorem retPost_eq : ∃ b, s.retPost t f rest r =
    { s with frames := Function.update s.frames t rest, log := s.log ++ [.ret t r], base := b } ∧
      ∀ u, u ≠ t → b u = s.base u := by
  unfold retPost
  split
  · split
    · exact ⟨_, rfl, fun u hu => Function.update_of_ne hu _ _⟩
    · exact ⟨_, rfl, fun _ _ => rfl⟩
  · exact ⟨_, rfl, fun _ _ => rfl⟩

@[simp] theorem retPost_ctx : (s.retPost t f rest r).ctx = s.ctx := by
  obtain ⟨b, h, -⟩ := retPost_eq s t f rest r
  rw [h]

@[simp] theorem retPost_frames :
    (s.retPost t f rest r).frames = Function.update s.frames t rest := by
  obtain ⟨b, h, -⟩ := retPost_eq s t f rest r
  rw [h]

@[simp] theorem retPost_tls : (s.retPost t f rest r).tls = s.tls := by
  obtain ⟨b, h, -⟩ := retPost_eq s t f rest r
  rw [h]

@[simp] theorem retPost_nextTid : (s.retPost t f rest r).nextTid = s.nextTid := by
  obtain ⟨b, h, -⟩ := retPost_eq s t f rest r
  rw [h]

@[simp] theorem retPost_halted : (s.retPost t f rest r).halted = s.halted := by
  obtain ⟨b, h, -⟩ := retPost_eq s t f rest r
  rw [h]

@[simp] theorem retPost_sid : (s.retPost t f rest r).sid = s.sid := by
  obtain ⟨b, h, -⟩ := retPost_eq s t f rest r
  rw [h]

@[simp] theorem retPost_nextSid : (s.retPost t f rest r).nextSid = s.nextSid := by
  obtain ⟨b, h, -⟩ := retPost_eq s t f rest r
  rw [h]

@[simp] theorem retPost_log : (s.retPost t f rest r).log = s.log ++ [.ret t r] := by
  obtain ⟨b, h, -⟩ := retPost_eq s t f rest r
  rw [h]

theorem retPost_base_ne (hu : u ≠ t) : (s.retPost t f rest r).base u = s.base u := by
  obtain ⟨b, h, hb⟩ := retPost_eq s t f rest r
  rw [h]
  exact hb u hu

/-- A replay returns into the drain loop, any other call leaves the base. -/
theorem retPost_base_self :
    (s.retPost t f rest r).base t = s.base t ∨
      ∃ i g d, f.isReplay = true ∧ s.base t = .async i g (.replay d) ∧
        (s.retPost t f rest r).base t = .async i g (.drained d r) := by
  unfold retPost
  split
  · rename_i hr
    split
    · rename_i i g d hb
      exact .inr ⟨i, g, d, hr, hb, by simp⟩
    · exact .inl rfl
  · exact .inl rfl

@[simp] theorem withThread_frames : (s.withThread i).frames = s.frames := by
  unfold withThread
  split <;> rfl

@[simp] theorem withThread_tls : (s.withThread i).tls = s.tls := by
  unfold withThread
  split <;> rfl

@[simp] theorem withThread_halted : (s.withThread i).halted = s.halted := by
  unfold withThread
  split <;> rfl

@[simp] theorem withThread_nextSid : (s.withThread i).nextSid = s.nextSid := by
  unfold withThread
  split <;> rfl

@[simp] theorem withThread_log : (s.withThread i).log = s.log := by
  unfold withThread
  split <;> rfl

/-- Starting a thread writes `ASyncThreadID` of its slot and nothing else of the context. -/
@[simp] theorem withThread_ctx : (s.withThread i).ctx = s.ctx.setSuber i { s.suber i with
    asyncThreadID := some ((s.suber i).asyncThreadID.getD s.nextTid) } := by
  cases hu : (s.suber i).asyncThreadID with
  | none =>
    rw [withThread_of_none hu]
    rfl
  | some u =>
    rw [withThread_of_some hu, Option.getD_some, ← hu]
    simp [suber]

theorem withThread_base (u : Tid) :
    (s.withThread i).base u = s.base u ∨
      (s.suber i).asyncThreadID = none ∧ u = s.nextTid ∧
        (s.withThread i).base u = .async i (s.sid i) .start := by
  cases hx : (s.suber i).asyncThreadID with
  | none =>
    rw [withThread_of_none hx]
    by_cases hu : u = s.nextTid
    · exact .inr ⟨rfl, hu, by simp [hu]⟩
    · exact .inl (by simp [hu])
  | some v =>
    rw [withThread_of_some hx]
    exact .inl rfl

end State

/-- A signal changes the base of one waiting thread and nothing else. -/
theorem State.Woken.eq (h : s.Woken i s₁) :
    ∃ b, s₁ = { s with base := b } ∧ ∀ u, b u = s.base u ∨
      ∃ g, s.base u = .async i g .waiting ∧ b u = .async i g .woken := by
  rcases h with rfl | ⟨v, g, hv, rfl⟩
  · exact ⟨_, rfl, fun _ => .inl rfl⟩
  · refine ⟨_, rfl, fun u => ?_⟩
    by_cases hu : u = v
    · subst hu
      exact .inr ⟨g, hv, by simp⟩
    · exact .inl (by simp [hu])

/-! ### The other threads -/

theorem Trans.frames_ne (h : Trans s t a s') (hu : u ≠ t) : s'.frames u = s.frames u := by
  cases h
  case unsubSignal hw | postSignal hw | postRetrySignal hw =>
    obtain ⟨b, rfl, -⟩ := hw.eq
    simp [hu]
  all_goals simp [hu]

theorem Trans.tls_ne (h : Trans s t a s') (hu : u ≠ t) : s'.tls u = s.tls u := by
  cases h
  case unsubSignal hw | postSignal hw | postRetrySignal hw =>
    obtain ⟨b, rfl, -⟩ := hw.eq
    simp
  all_goals simp [hu]

theorem Trans.depth_ne (h : Trans s t a s') (hu : u ≠ t) : s'.depth u = s.depth u := by
  cases h
  case unsubSignal hw | postSignal hw | postRetrySignal hw =>
    obtain ⟨b, rfl, -⟩ := hw.eq
    simp [State.depth]
  case subNoSlot hm hm' _ _ =>
    simp [State.depth, RecMutex.held_tryLock_ne hm hu, RecMutex.held_tryLock_ne hm' hu]
  case unsubLock hm _ | postLock hm _ => simp [State.depth, RecMutex.held_tryLock_ne hm hu]
  all_goals simp [State.depth, RecMutex.held_unlock_ne _ hu]

/-- What may happen to the base of a thread when another one takes a step. -/
inductive BaseNe (s s' : State abi) (u : Tid) : Prop
  | same (h : s'.base u = s.base u)
  | created {j : ℕ} (hu : u = s.nextTid) (hn : s'.nextTid = s.nextTid + 1)
      (hx : (s.suber j).asyncThreadID = none)
      (hx' : (s'.suber j).asyncThreadID = some u) (h : s'.base u = .async j (s.sid j) .start)
  | woken {j g : ℕ} (h : s.base u = .async j g .waiting) (h' : s'.base u = .async j g .woken)

theorem State.Woken.baseNe (hw : s.Woken i s₁) (u : Tid) (hb : s'.base = s₁.base) :
    BaseNe s s' u := by
  obtain ⟨b, rfl, hb'⟩ := hw.eq
  rcases hb' u with h | ⟨g, hg, h⟩
  · exact .same ((congrFun hb u).trans h)
  · exact .woken hg ((congrFun hb u).trans h)

theorem withThread_baseNe (u : Tid) (hb : s'.base u = (s.withThread i).base u)
    (hn : s'.nextTid = (s.withThread i).nextTid)
    (hx : (s'.suber i).asyncThreadID = ((s.withThread i).suber i).asyncThreadID) :
    BaseNe s s' u := by
  rcases State.withThread_base s i u with h | ⟨hi, hu, h⟩
  · exact .same (hb.trans h)
  · refine .created hu ?_ hi ?_ (hb.trans h)
    · rw [hn, withThread_of_none hi]
      rfl
    · rw [hx, withThread_suber, hi, hu]
      rfl

theorem Trans.base_ne (h : Trans s t a s') (hu : u ≠ t) : BaseNe s s' u := by
  cases h
  case unsubSignal hw | postSignal hw | postRetrySignal hw => exact hw.baseNe u rfl
  case postAccept i _ _ _ _ | postFull i _ _ _ _ _ | postRetry i _ _ _ _ _ _ | haltPush i _ _ =>
    exact withThread_baseNe (i := i) u rfl rfl (by simp [State.suber])
  all_goals exact .same (by simp [hu, State.retPost_base_ne])

/-- What may happen to the base and the thread-specific key of the thread that takes the step. -/
inductive BaseSelf (s s' : State abi) (t : Tid) : Prop
  | same (h : s'.base t = s.base t) (ht : s'.tls t = s.tls t)
  | started {j g : ℕ} (h : s.base t = .async j g .start) (h' : s'.base t = .async j g .top)
      (ht : s'.tls t = some j)
  | ran {j g : ℕ} {pc pc' : AsyncPc abi} (h : s.base t = .async j g pc) (hpc : pc ≠ .start)
      (h' : s'.base t = .async j g pc') (hpc' : pc' ≠ .start) (ht : s'.tls t = s.tls t)
  | ended {j g : ℕ} {pc : AsyncPc abi} (h : s.base t = .async j g pc) (hpc : pc ≠ .start)
      (h' : s'.base t = .gone) (ht : s'.tls t = s.tls t)

theorem retPost_baseSelf (s₁ : State abi) (p : PostFrame abi) (rest : List (Frame abi)) (r : TosResult)
    (hb : s₁.base = s.base) (ht : s₁.tls = s.tls) : BaseSelf s (s₁.retPost t p rest r) t := by
  rcases State.retPost_base_self s₁ t p rest r with h | ⟨i, g, d, -, h, h'⟩
  · exact .same (by rw [h, hb]) (by rw [State.retPost_tls, ht])
  · exact .ran (hb ▸ h) (by simp) h' (by simp) (by rw [State.retPost_tls, ht])

/-! ### The stack of the thread that takes the step -/

/-- What a step of `t` does to its stack. -/
inductive FramesStep (s s' : State abi) (t : Tid) (a : Act abi) : Prop
  | same (h : s'.frames t = s.frames t)
  | called {api : Api abi} (ha : a = .call api) (hu : s.userOnTop t)
      (h : s'.frames t = s.frameOf t api :: s.frames t)
  | returned {f : Frame abi} (h : s.frames t = f :: s'.frames t)
  | unsub {f f' : UnsubFrame} {rest : List (Frame abi)} (hf : s.frames t = .unsub f :: rest)
      (h : s'.frames t = .unsub f' :: rest)
  | post {f f' : PostFrame abi} {rest : List (Frame abi)} (hf : s.frames t = .post f :: rest)
      (h : s'.frames t = .post f' :: rest)
  | sync {f : PostFrame abi} {i : ℕ} {c : CbFrame abi} {rest : List (Frame abi)} {env : Env} (ha : a = .run env)
      (hf : s.frames t = .post f :: rest) (hp : f.pc = .loop i) (hi : i < s.ctx.maxSuberNum.toNat)
      (hl : (s.suber i).args.lists (s.desc t f) = true) (hs : s.isSync f = true) (hc : c.sid = s.sid i)
      (h : s'.frames t = .cb c :: .post { f with pc := .inCb i, tested := f.tested ++ [s.desc t f] } :: rest)
  | wrote {c : CbFrame abi} {f : PostFrame abi} {i : ℕ} {d : EvtDesc abi} {rest : List (Frame abi)} (ha : a = .write d)
      (hf : s.frames t = .cb c :: .post f :: rest) (hp : f.pc = .inCb i)
      (hr : f.isReplay = false) (h : s'.frames t = .cb c :: .post { f with pEvtDesc := d } :: rest)
  | cbReturned {c : CbFrame abi} {f f' : PostFrame abi} {rest : List (Frame abi)}
      (hf : s.frames t = .cb c :: .post f :: rest) (h : s'.frames t = .post f' :: rest)
  | delivered {c : CbFrame abi} (hf : s.frames t = []) (h : s'.frames t = [.cb c])
  | replayed {f : PostFrame abi} (hf : s.frames t = []) (hp : f.pc = .lock) (h : s'.frames t = [.post f])

theorem Trans.framesStep (h : Trans s t a s') : FramesStep s s' t a := by
  cases h
  case call api hu => exact .called rfl hu (by simp)
  case cbRetPost hf _ => exact .cbReturned hf (by simp; rfl)
  case cbWrite hf hp hr => exact .wrote rfl hf hp hr (by simp)
  case cbRetAsync hf _ => exact .returned (by simp [hf]; rfl)
  case subFull hf _ _ | subNoSlot hf _ _ _ _ | subFill hf _ _ _ | unsubNotFound hf _ _ _ |
      unsubEnd hf _ _ | unsubFreeDone hf _ _ | postNotFound hf _ _ _ | postBusy hf _ _ _ |
      postCache hf _ _ _ _ _ _ | postCacheFull hf _ _ _ _ _ _ | postEnd hf _ _ =>
    exact .returned (by simpa using hf)
  case unsubLock hf _ _ _ | unsubStop hf _ _ _ _ | unsubSkip hf _ _ _ | unsubSetFlag hf _ _ |
      unsubFreeNext hf _ _ _ | unsubKeepNext hf _ _ _ => exact .unsub hf (by simp; rfl)
  case unsubSignal hf _ hw =>
    obtain ⟨b, rfl, -⟩ := hw.eq
    exact .unsub hf (by simp; rfl)
  case postSignal hf _ hw | postRetrySignal hf _ hw =>
    obtain ⟨b, rfl, -⟩ := hw.eq
    exact .post hf (by simp; rfl)
  case postLock hf _ _ _ | postSkip hf _ _ _ | postASync hf _ _ _ _ | postAccept hf _ _ _ |
      postFull hf _ _ _ _ | postRetry hf _ _ _ _ _ => exact .post hf (by simp; rfl)
  case postSync hf hp hi hl hs => exact .sync rfl hf hp hi hl hs rfl (by simp; rfl)
  case asyncCall hf _ _ => exact .delivered hf (by simp; rfl)
  case asyncReplay hf _ _ => exact .replayed hf rfl (by simp; rfl)
  all_goals exact .same (by simp)

/-- A step that takes a call off the stack leaves what was below it. -/
theorem Trans.frames_popped (h : Trans s t a s') {f : Frame abi} (hf : s.frames t = f :: rest) (hapi : f.isApi = true)
    (hlen : (s'.frames t).length = rest.length) : s'.frames t = rest := by
  have hlen' : (s.frames t).length = (s'.frames t).length + 1 := by simp [hf, hlen]
  cases h.framesStep with
  | returned h =>
    rw [hf] at h
    exact (List.cons.inj h).2.symm
  | same h => simp [h] at hlen'
  | called _ _ h =>
    rw [h, List.length_cons] at hlen'
    omega
  | unsub h₁ h₂ | post h₁ h₂ | sync _ h₁ _ _ _ _ _ h₂ | delivered h₁ h₂ | replayed h₁ _ h₂ => simp [h₁, h₂] at hlen'
  | cbReturned h₁ | wrote _ h₁ =>
    rw [hf] at h₁
    obtain ⟨rfl, -⟩ := List.cons.inj h₁
    simp [Frame.isApi] at hapi

end PlatIF.Ioc
