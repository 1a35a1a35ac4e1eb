import PlatIF.Ioc.Section

/-!
# The fan-out of a post

What a `postEVT` call does at the subscriptions it visits.  Each call remembers its visits in order
(`PostFrame.visits`).

* `sound_reach` — the code keeps one `Result`, and the last visit decides it;
* `kind_reach` — a call visits either queues or callbacks;
* `pushed_reach` — the queues show exactly the visits that found room;
* `covers_reach` — the visits are those of the matching subscriptions: always for an ASYNC call, and for a
  SYNC call when no callback changes the table.
-/

namespace PlatIF.Ioc

variable {abi : Abi} {s s' : State abi} {t u : Tid} {a : Act abi} {i : ℕ}
  {rest : List (Frame abi)} {ok : State abi → Tid × Act abi → Prop} {maxSuberNum : ULong abi}
  {clients : ℕ}

/-! ### Visits -/

/-- What a visit writes to `Result`. -/
def Visit.outcome : Visit → TosResult
  | .queue true => .success
  | .queue false => .timeout
  | .callback r => r

/-- What a fan-out returns: the outcome of the last visit decides. -/
def fanOutResult (visits : List (ℕ × Visit)) : TosResult :=
  match visits.getLast? with
  | none => .noEvtSuber
  | some v => v.2.outcome

@[simp] theorem fanOutResult_append (vs : List (ℕ × Visit)) (v : ℕ × Visit) :
    fanOutResult (vs ++ [v]) = v.2.outcome := by
  simp [fanOutResult]

/-- A rule for what holds of every `postEVT` call of a thread: what the steps of that thread do to its
calls. -/
theorem post_step {P : PostFrame abi → Prop} (hP : ∀ p, .post p ∈ s.frames t → P p)
    (h : Trans s t a s')
    (fresh : ∀ p : PostFrame abi, p.pc = .lock → p.visits = [] → p.isCbProcEvtFound = false → p.tested = [] → P p)
    (locked : ∀ f rest, s.frames t = .post f :: rest → P f → f.pc = .lock →
      P { f with pc := .loop 0, table := s.ctx.pEvtSubers })
    (skip : ∀ f rest i, s.frames t = .post f :: rest → P f → f.pc = .loop i →
      i < s.ctx.maxSuberNum.toNat → (s.suber i).args.lists (s.desc t f) = false →
      P { f with pc := .loop (i + 1), tested := f.tested ++ [s.desc t f] })
    (enter : ∀ f rest i pc, s.frames t = .post f :: rest → P f → f.pc = .loop i →
      i < s.ctx.maxSuberNum.toNat → (s.suber i).args.lists (s.desc t f) = true →
      (pc = .inCb i ∧ s.isSync f = true ∨ pc = .push i ∧ s.isSync f = false) →
      P { f with pc := pc, tested := f.tested ++ [s.desc t f] })
    (wrote : ∀ c p rest i d, s.frames t = .cb c :: .post p :: rest → P p → p.pc = .inCb i → p.isReplay = false →
      a = .write d → P { p with pEvtDesc := d })
    (returned : ∀ c p rest i r, s.frames t = .cb c :: .post p :: rest → P p → p.pc = .inCb i →
      P { p with pc := .loop (i + 1), result := r, isCbProcEvtFound := true,
                 visits := p.visits ++ [(i, .callback r)] })
    (accept : ∀ f rest i, s.frames t = .post f :: rest → P f → f.pc = .push i →
      (s.suber i).evtQueue.hasRoom = true →
      P { f with pc := .signal i, result := .success, visits := f.visits ++ [(i, .queue true)] })
    (full : ∀ f rest i, s.frames t = .post f :: rest → P f → f.pc = .push i →
      (s.suber i).evtQueue.hasRoom = false → isNonBlock f.pOptions = true →
      P { f with pc := .loop (i + 1), result := .timeout, isCbProcEvtFound := true,
                 visits := f.visits ++ [(i, .queue false)] })
    (retry : ∀ f rest i pc, s.frames t = .post f :: rest → P f →
      (f.pc = .push i ∧ pc = .retry i ∨ f.pc = .retry i ∧ pc = .push i) → P { f with pc := pc })
    (signal : ∀ f rest i, s.frames t = .post f :: rest → P f → f.pc = .signal i →
      P { f with pc := .loop (i + 1), isCbProcEvtFound := true }) :
    ∀ p, .post p ∈ s'.frames t → P p := by
  intro p hp
  -- the top frame is the new one, the frames under it are old
  have htop : ∀ {f q rest}, s.frames t = f :: rest → P q → .post p ∈ Frame.post q :: rest → P p :=
    fun {f q rest} hf hq hp => by
      rcases List.mem_cons.mp hp with hp | hp
      · exact Frame.post.inj hp ▸ hq
      · exact hP p (hf ▸ List.mem_cons_of_mem f hp)
  have hmem : ∀ {f rest}, s.frames t = .post f :: rest → P f := fun hf => hP _ (by simp [hf])
  cases h
  case call api _ =>
    simp only [State.setFrames, Function.update_self, List.mem_cons] at hp
    rcases hp with hp | hp
    · cases api <;> simp only [State.frameOf, Frame.post.injEq, reduceCtorEq] at hp
      exact hp ▸ fresh _ rfl rfl rfl rfl
    · exact hP p hp
  case asyncReplay =>
    simp only [State.setFrames, State.setBase, Function.update_self, List.mem_singleton,
      Frame.post.injEq] at hp
    exact hp ▸ fresh _ rfl rfl rfl rfl
  case postLock hf hpc _ _ =>
    exact htop hf (locked _ _ hf (hmem hf) hpc) (by simpa using hp)
  case postSkip hf hpc hi hl =>
    exact htop hf (skip _ _ _ hf (hmem hf) hpc hi hl) (by simpa using hp)
  case postSync hf hpc hi hl hs =>
    exact htop hf (enter _ _ _ _ hf (hmem hf) hpc hi hl (.inl ⟨rfl, hs⟩)) (by simpa using hp)
  case postASync hf hpc hi hl hs =>
    exact htop hf (enter _ _ _ _ hf (hmem hf) hpc hi hl (.inr ⟨rfl, hs⟩)) (by simpa using hp)
  case cbRetPost r hf hpc =>
    have hq := returned _ _ _ _ r hf (hP _ (by simp [hf])) hpc
    simp only [State.setFrames, State.obs, Function.update_self] at hp
    rcases List.mem_cons.mp hp with hp | hp
    · exact Frame.post.inj hp ▸ hq
    · exact hP p (by simp [hf, hp])
  case cbWrite d hf hpc hr =>
    have hq := wrote _ _ _ _ d hf (hP _ (by simp [hf])) hpc hr rfl
    simp only [State.setFrames, Function.update_self, List.mem_cons, reduceCtorEq, false_or] at hp
    rcases hp with hp | hp
    · exact Frame.post.inj hp ▸ hq
    · exact hP p (by simp [hf, hp])
  case postAccept hf hpc _ hr => exact htop hf (accept _ _ _ hf (hmem hf) hpc hr) (by simpa using hp)
  case postFull hf hpc _ hr ho => exact htop hf (full _ _ _ hf (hmem hf) hpc hr ho) (by simpa using hp)
  case postRetry hf hpc _ _ _ _ =>
    exact htop hf (retry _ _ _ _ hf (hmem hf) (.inl ⟨hpc, rfl⟩)) (by simpa using hp)
  case postSignal hf hpc hw =>
    exact htop hf (signal _ _ _ hf (hmem hf) hpc) (by simpa using hp)
  case postRetrySignal hf hpc hw =>
    exact htop hf (retry _ _ _ _ hf (hmem hf) (.inr ⟨hpc, rfl⟩)) (by simpa using hp)
  -- the other steps push no call of `postEVT`
  all_goals
    refine hP p ?_
    clear fresh locked skip enter wrote returned accept full retry signal htop hmem hP
    simp_all

/-! ### The local variables say what the visits found -/

/-- `Result` and `IsCbProcEvt_Found` summarize the visits, which are at slots below the loop index. -/
def PostFrame.Sound (f : PostFrame abi) : Prop :=
  match f.pc with
  | .lock => f.visits = [] ∧ f.isCbProcEvtFound = false ∧ f.tested = []
  | .signal i => ∃ vs, f.visits = vs ++ [(i, .queue true)] ∧ f.result = .success ∧ ∀ v ∈ vs, v.1 < i
  | .loop i | .inCb i | .push i | .retry i =>
    f.value = fanOutResult f.visits ∧ ∀ v ∈ f.visits, v.1 < i

/-- A frame between two visits that has just made the visit `v` at slot `i`. -/
theorem sound_visited {f : PostFrame abi} {vs : List (ℕ × Visit)} {v : Visit}
    (hp : f.pc = .loop (i + 1)) (hv : f.visits = vs ++ [(i, v)]) (hr : f.result = v.outcome)
    (hfound : f.isCbProcEvtFound = true) (hlt : ∀ v ∈ vs, v.1 < i) : f.Sound := by
  simp only [PostFrame.Sound, hp, hv, fanOutResult_append, PostFrame.value, hfound, if_true, hr,
    true_and]
  intro w hw
  rcases List.mem_append.mp hw with hw | hw
  · exact (hlt w hw).trans (Nat.lt_succ_self i)
  · rw [List.mem_singleton.mp hw]
    exact Nat.lt_succ_self i

theorem sound_step (hP : ∀ p, .post p ∈ s.frames t → p.Sound) (h : Trans s t a s') :
    ∀ p, .post p ∈ s'.frames t → p.Sound := by
  refine post_step hP h ?fresh ?locked ?skip ?enter ?wrote ?returned ?accept ?full ?retry ?signal
  case fresh =>
    intro p hp hv hf ht
    simp only [PostFrame.Sound, hp]
    exact ⟨hv, hf, ht⟩
  case locked =>
    intro f rest _ hf hp
    simp only [PostFrame.Sound, hp] at hf
    simp [PostFrame.Sound, PostFrame.value, hf.1, hf.2.1, fanOutResult]
  case skip =>
    intro f rest i _ hf hp _ _
    simp only [PostFrame.Sound, hp] at hf
    exact ⟨hf.1, fun v hv => (hf.2 v hv).trans (Nat.lt_succ_self i)⟩
  case enter =>
    intro f rest i pc _ hf hp _ _ hpc
    simp only [PostFrame.Sound, hp] at hf
    rcases hpc with ⟨rfl, -⟩ | ⟨rfl, -⟩ <;> exact hf
  case wrote =>
    intro c p rest i d _ hf hp _ _
    simp only [PostFrame.Sound, hp] at hf
    simp only [PostFrame.Sound, hp]
    exact hf
  case returned =>
    intro c p rest i r _ hf hp
    simp only [PostFrame.Sound, hp] at hf
    exact sound_visited rfl rfl rfl rfl hf.2
  case accept =>
    intro f rest i _ hf hp _
    simp only [PostFrame.Sound, hp] at hf
    exact ⟨f.visits, rfl, rfl, hf.2⟩
  case full =>
    intro f rest i _ hf hp _ _
    simp only [PostFrame.Sound, hp] at hf
    exact sound_visited rfl rfl rfl rfl hf.2
  case retry =>
    intro f rest i pc _ hf hpc
    rcases hpc with ⟨hp, rfl⟩ | ⟨hp, rfl⟩ <;>
    · simp only [PostFrame.Sound, hp] at hf
      exact hf
  case signal =>
    intro f rest i _ hf hp
    simp only [PostFrame.Sound, hp] at hf
    obtain ⟨vs, hv, hr, hlt⟩ := hf
    exact sound_visited rfl hv hr rfl hlt

theorem sound_reach (h : Reach ok maxSuberNum clients s) :
    ∀ t p, .post p ∈ s.frames t → p.Sound :=
  h.induction (P := fun s => ∀ t p, .post p ∈ s.frames t → p.Sound)
    (fun t p hp => by simp [State.init] at hp)
    fun s s' t _ _ hP _ _ h u => by
      by_cases hu : u = t
      · rw [hu]
        exact sound_step (hP t) h
      · rw [h.frames_ne hu]
        exact hP u

/-! ### SYNC and ASYNC visits -/

/-- The visit called a callback. -/
def Visit.isCallback : Visit → Bool
  | .queue _ => false
  | .callback _ => true

/-- The visits of a call are all of its kind; `sync` is `IsSyncMode` of the context. -/
structure PostFrame.Kind (sync : Bool) (f : PostFrame abi) : Prop where
  visits : ∀ v ∈ f.visits, v.2.isCallback = (isSyncMode f.pOptions || sync)
  inCb : ∀ i, f.pc = .inCb i → (isSyncMode f.pOptions || sync) = true
  push : ∀ i, f.pc = .push i ∨ f.pc = .retry i → (isSyncMode f.pOptions || sync) = false

theorem kind_step {sync : Bool} (hy : s.ctx.isSyncMode = sync)
    (hP : ∀ p, .post p ∈ s.frames t → p.Kind sync) (h : Trans s t a s') :
    ∀ p, .post p ∈ s'.frames t → p.Kind sync := by
  subst hy
  have hadd : ∀ {vs : List (ℕ × Visit)} {v : ℕ × Visit} {b : Bool},
      (∀ v ∈ vs, v.2.isCallback = b) → v.2.isCallback = b → ∀ w ∈ vs ++ [v], w.2.isCallback = b :=
    fun hvs hv w hw => by
      rcases List.mem_append.mp hw with hw | hw
      · exact hvs w hw
      · rw [List.mem_singleton.mp hw]
        exact hv
  refine post_step hP h ?fresh ?locked ?skip ?enter ?wrote ?returned ?accept ?full ?retry ?signal
  case fresh =>
    intro p hp hv _ _
    exact ⟨by simp [hv], by simp [hp], by simp [hp]⟩
  case locked => exact fun f rest _ hf hp => ⟨hf.visits, by simp, by simp⟩
  case skip => exact fun f rest i _ hf hp _ _ => ⟨hf.visits, by simp, by simp⟩
  case enter =>
    intro f rest i pc _ hf hp _ _ hpc
    rcases hpc with ⟨rfl, hs⟩ | ⟨rfl, hs⟩
    · exact ⟨hf.visits, fun _ _ => hs, by simp⟩
    · exact ⟨hf.visits, by simp, fun _ _ => hs⟩
  case wrote => exact fun c p rest i d _ hf hp _ _ => ⟨hf.visits, hf.inCb, hf.push⟩
  case returned =>
    exact fun c p rest i r _ hf hp => ⟨hadd hf.visits (hf.inCb i hp).symm, by simp, by simp⟩
  case accept =>
    exact fun f rest i _ hf hp _ => ⟨hadd hf.visits (hf.push i (.inl hp)).symm, by simp, by simp⟩
  case full =>
    exact fun f rest i _ hf hp _ _ => ⟨hadd hf.visits (hf.push i (.inl hp)).symm, by simp, by simp⟩
  case retry =>
    intro f rest i pc _ hf hpc
    rcases hpc with ⟨hp, rfl⟩ | ⟨hp, rfl⟩
    · exact ⟨hf.visits, by simp, fun _ _ => hf.push i (.inl hp)⟩
    · exact ⟨hf.visits, by simp, fun _ _ => hf.push i (.inr hp)⟩
  case signal => exact fun f rest i _ hf hp => ⟨hf.visits, by simp, by simp⟩

theorem kind_reach (h : Reach ok maxSuberNum clients s) :
    ∀ t p, .post p ∈ s.frames t → p.Kind s.ctx.isSyncMode :=
  h.induction (P := fun s => ∀ t p, .post p ∈ s.frames t → p.Kind s.ctx.isSyncMode)
    (fun t p hp => by simp [State.init] at hp)
    fun s s' t _ _ hP _ _ h u => by
      rw [h.isSyncMode_eq]
      by_cases hu : u = t
      · rw [hu]
        exact kind_step rfl (hP t) h
      · rw [h.frames_ne hu]
        exact hP u

/-! ### The call on top of the stack -/

/-- The first slot that a call has yet to finish. -/
def PostPc.index : PostPc → ℕ
  | .lock => 0
  | .loop i | .inCb i | .push i | .retry i => i
  | .signal i => i + 1

/-- How a call of `postEVT` came to be as it is on top of the stack after a step of its thread. -/
inductive PostStep (s s' : State abi) (t : Tid) (a : Act abi) (f' : PostFrame abi)
    (rest : List (Frame abi)) : Prop
  | called (hp : f'.pc = .lock)
  | locked {f env m} (hf : s.frames t = .post f :: rest) (hp : f.pc = .lock) (hd : f'.pEvtDesc = f.pEvtDesc)
      (ht : f'.table = s.ctx.pEvtSubers) (hv : f'.visits = f.visits)
      (hs : s'.ctx.pEvtSubers = s.ctx.pEvtSubers) (ho : f'.pOptions = f.pOptions) (ha : a = .run env)
      (hm : RecMutex.tryLock s.ctx.mutex t = some m) (hr : f'.isReplay = f.isReplay) (hg : s'.sid = s.sid)
      (hl : s'.log = s.log)
  | moved {f} (hf : s.frames t = .post f :: rest) (hp : f.pc ≠ .lock) (hd : f'.pEvtDesc = f.pEvtDesc)
      (ho : f'.pOptions = f.pOptions) (ht : f'.table = f.table)
      (hv : ∀ j, (j, .queue true) ∈ f'.visits ↔ (j, .queue true) ∈ f.visits)
      (hs : ∀ j, (s'.suber j).args = (s.suber j).args ∧ (s'.suber j).evtQueue = (s.suber j).evtQueue)
      (hi : f.pc.index ≤ f'.pc.index) (hr : f'.isReplay = f.isReplay) (hg : s'.sid = s.sid) (hl : s'.log = s.log)
  | accepted {f i x} (hf : s.frames t = .post f :: rest) (hp : f.pc = .push i)
      (hd : f'.pEvtDesc = f.pEvtDesc) (ho : f'.pOptions = f.pOptions) (ht : f'.table = f.table)
      (hv : f'.visits = f.visits ++ [(i, .queue true)]) (hs : s'.ctx = s.ctx.setSuber i x)
      (ha : x.args = (s.suber i).args) (hq : x.evtQueue = (s.suber i).evtQueue.push (s.desc t f))
      (hi : f'.pc.index = i + 1) (hr : f'.isReplay = f.isReplay) (hg : s'.sid = s.sid)
      (hl : s'.log = s.log ++ [.accept (s.sid i) t f.isReplay (s.desc t f)])
  | returned {c p i r} (hf : s.frames t = .cb c :: .post p :: rest) (hp : p.pc = .inCb i) (ha : a = .ret r)
      (hd : f'.pEvtDesc = p.pEvtDesc) (ho : f'.pOptions = p.pOptions) (ht : f'.table = p.table)
      (hs : s'.ctx = s.ctx)

/-- Starting a thread keeps the arguments and the queues. -/
theorem withThread_slots (s : State abi) (i j : ℕ) :
    ((s.withThread i).suber j).args = (s.suber j).args ∧
      ((s.withThread i).suber j).evtQueue = (s.suber j).evtQueue := by
  by_cases hj : j = i <;> simp [State.suber, hj]

theorem Trans.postStep (hS : Stack (s.base t) (s.frames t)) (h : Trans s t a s') {f' : PostFrame abi}
    (hf' : s'.frames t = .post f' :: rest) : PostStep s s' t a f' rest := by
  cases h
  case call api _ =>
    simp only [State.setFrames, Function.update_self] at hf'
    obtain ⟨hf', -⟩ := List.cons.inj hf'
    cases api <;> simp only [State.frameOf, Frame.post.injEq, reduceCtorEq] at hf'
    exact .called (by rw [← hf'])
  case asyncReplay =>
    simp only [State.setFrames, State.setBase, Function.update_self, List.cons.injEq,
      Frame.post.injEq] at hf'
    exact .called (by rw [← hf'.1])
  case cbRetPost r hf hp =>
    simp only [State.setFrames, State.obs, Function.update_self, List.cons.injEq,
      Frame.post.injEq] at hf'
    obtain ⟨rfl, rfl⟩ := hf'
    exact .returned hf hp rfl rfl rfl rfl rfl
  case postLock hf hp hm _ =>
    simp only [State.setFrames, Function.update_self, List.cons.injEq, Frame.post.injEq] at hf'
    obtain ⟨rfl, rfl⟩ := hf'
    exact .locked hf hp rfl rfl rfl rfl rfl rfl hm rfl rfl rfl
  case postSkip hf hp _ _ | postASync hf hp _ _ _ =>
    simp only [State.setFrames, Function.update_self, List.cons.injEq, Frame.post.injEq] at hf'
    obtain ⟨rfl, rfl⟩ := hf'
    exact .moved hf (by simp [hp]) rfl rfl rfl (fun _ => .rfl) (fun _ => ⟨rfl, rfl⟩) (by simp [hp, PostPc.index])
      rfl rfl rfl
  case postAccept i hf hp _ _ =>
    simp only [State.setFrames, State.obs, Function.update_self, List.cons.injEq,
      Frame.post.injEq] at hf'
    obtain ⟨rfl, rfl⟩ := hf'
    exact .accepted (x := { (s.withThread i).suber i with
      evtQueue := (s.suber i).evtQueue.push _ }) hf hp rfl rfl rfl rfl (by simp) (withThread_slots s i i).1 rfl
      rfl rfl withThread_sid (by simp)
  case postFull i hf hp _ _ _ | postRetry i hf hp _ _ _ _ =>
    simp only [State.setFrames, Function.update_self, List.cons.injEq, Frame.post.injEq] at hf'
    obtain ⟨rfl, rfl⟩ := hf'
    exact .moved hf (by simp [hp]) rfl rfl rfl (by simp) (withThread_slots s i) (by simp [hp, PostPc.index])
      rfl withThread_sid (by simp)
  case postSignal hf hp hw | postRetrySignal hf hp hw =>
    obtain ⟨b, rfl, -⟩ := hw.eq
    simp only [State.setFrames, Function.update_self, List.cons.injEq, Frame.post.injEq] at hf'
    obtain ⟨rfl, rfl⟩ := hf'
    exact .moved hf (by simp [hp]) rfl rfl rfl (fun _ => .rfl) (fun _ => ⟨rfl, rfl⟩) (by simp [hp, PostPc.index])
      rfl rfl rfl
  case halt =>
    by_cases hp : f'.pc = .lock
    · exact .called hp
    · exact .moved hf' hp rfl rfl rfl (fun _ => .rfl) (fun _ => ⟨rfl, rfl⟩) le_rfl rfl rfl rfl
  case haltPush i hf hp =>
    simp only [State.halt, State.setSuber, State.setCtx, State.withThread_frames, hf, List.cons.injEq,
      Frame.post.injEq] at hf'
    obtain ⟨rfl, rfl⟩ := hf'
    refine .moved hf (by simp [hp]) rfl rfl rfl (fun _ => .rfl) (fun j => ?_) le_rfl rfl withThread_sid (by simp)
    by_cases hj : j = i <;> simp [State.suber, hj]
  case subFull hf _ _ | subNoSlot hf _ _ _ _ | subFill hf _ _ _ | unsubNotFound hf _ _ _ |
      unsubEnd hf _ _ | unsubFreeDone hf _ _ | postNotFound hf _ _ _ | postBusy hf _ _ _ |
      postCache hf _ _ _ _ _ _ | postCacheFull hf _ _ _ _ _ _ | postEnd hf _ _ =>
    simp at hf'
    rw [hf, hf'] at hS
    exact absurd (hS.below_api rfl) (by simp [Frame.isApi])
  all_goals simp_all

/-! ### The queues show the visits -/

/-- What producers write of a queue is the same in both. -/
structure SamePosted {w cap : ℕ} {α : Type} (q r : WrapRing w cap α) : Prop where
  postCnt : q.postCnt = r.postCnt
  cells : q.cells = r.cells

theorem SamePosted.symm {w cap : ℕ} {α : Type} {q r : WrapRing w cap α} (h : SamePosted q r) :
    SamePosted r q := ⟨h.postCnt.symm, h.cells.symm⟩

theorem SamePosted.trans {w cap : ℕ} {α : Type} {q r x : WrapRing w cap α} (h : SamePosted q r)
    (h' : SamePosted r x) : SamePosted q x := ⟨h.postCnt.trans h'.postCnt, h.cells.trans h'.cells⟩

theorem SamePosted.push {w cap : ℕ} [NeZero cap] {α : Type} {q r : WrapRing w cap α}
    (h : SamePosted q r) (x : α) : SamePosted (q.push x) (r.push x) := by
  obtain ⟨hp, hc⟩ := h
  exact ⟨by simp [hp], by simp [WrapRing.push, hp, hc]⟩

/-- A push shows in the counter. -/
theorem not_samePosted_push {q : WrapRing abi.ulongBits evtQueueMax (EvtDesc abi)} {d : EvtDesc abi} :
    ¬ SamePosted q (q.push d) := by
  rintro ⟨h, -⟩
  exact abi.one_ne_zero (by simpa using h.symm)

/-- The queue is the one that the call found in slot `j`, with a copy of its event: of what its pointer led to when it
is a replay. -/
def PostFrame.Pushed (f : PostFrame abi) (j : ℕ) (q : WrapRing abi.ulongBits evtQueueMax (EvtDesc abi)) : Prop :=
  ∃ d, (f.isReplay = false → d = f.pEvtDesc) ∧ SamePosted q ((f.table j).evtQueue.push d)

/-- The queue of slot `j` is as the visits of the call leave it. -/
def PostFrame.Shows (f : PostFrame abi) (j : ℕ) (q : WrapRing abi.ulongBits evtQueueMax (EvtDesc abi)) : Prop :=
  if (j, .queue true) ∈ f.visits then f.Pushed j q else SamePosted q (f.table j).evtQueue

variable {q q' : WrapRing abi.ulongBits evtQueueMax (EvtDesc abi)} {j : ℕ}

theorem PostFrame.not_pushed {f : PostFrame abi} (h : SamePosted q (f.table j).evtQueue) : ¬ f.Pushed j q := by
  rintro ⟨d, -, hd⟩
  exact not_samePosted_push (h.symm.trans hd)

/-- A queue is as it was found exactly where nothing was pushed. -/
theorem PostFrame.Shows.samePosted_table {f : PostFrame abi} (h : f.Shows j q) :
    SamePosted q (f.table j).evtQueue ↔ (j, .queue true) ∉ f.visits := by
  unfold PostFrame.Shows at h
  split at h
  · rename_i hm
    exact iff_of_false (fun hs => f.not_pushed hs h) (not_not.mpr hm)
  · rename_i hm
    exact iff_of_true h hm

/-- A queue holds one more event exactly where one was pushed. -/
theorem PostFrame.Shows.pushed {f : PostFrame abi} (h : f.Shows j q) : f.Pushed j q ↔ (j, .queue true) ∈ f.visits := by
  unfold PostFrame.Shows at h
  split at h
  · rename_i hm
    exact iff_of_true h hm
  · rename_i hm
    exact iff_of_false (f.not_pushed h) hm

theorem PostFrame.Shows.congr {f g : PostFrame abi} (h : f.Shows j q) (hq : SamePosted q' q)
    (hv : (j, .queue true) ∈ g.visits ↔ (j, .queue true) ∈ f.visits) (ht : g.table = f.table)
    (hd : g.pEvtDesc = f.pEvtDesc) (hr : g.isReplay = f.isReplay) : g.Shows j q' := by
  simp only [PostFrame.Shows, PostFrame.Pushed, hv, ht, hd, hr] at h ⊢
  split at h
  · rename_i hm
    obtain ⟨d, he, hd⟩ := h
    rw [if_pos hm]
    exact ⟨d, he, hq.trans hd⟩
  · rename_i hm
    rw [if_neg hm]
    exact hq.trans h

/-- The queues show the visits of every ASYNC call that is past its lock. -/
def PushedInv (s : State abi) : Prop :=
  ∀ t f rest, s.frames t = .post f :: rest → f.pc ≠ .lock → s.isSync f = false →
    ∀ j, f.Shows j (s.suber j).evtQueue

theorem pushed_self (hP : PushedInv s) (hS : Stack (s.base t) (s.frames t))
    (hV : ∀ p, .post p ∈ s.frames t → p.Sound)
    (hK : ∀ p, .post p ∈ s.frames t → p.Kind s.ctx.isSyncMode) (h : Trans s t a s')
    {f : PostFrame abi} (hf' : s'.frames t = .post f :: rest) (hp' : f.pc ≠ .lock)
    (hy : s'.isSync f = false) (j : ℕ) : f.Shows j (s'.suber j).evtQueue := by
  have hsync : ∀ {g : PostFrame abi}, f.pOptions = g.pOptions → s.isSync g = false := fun ho => by
    unfold State.isSync at *
    rwa [← ho, ← h.isSyncMode_eq]
  cases h.postStep hS hf' with
  | called hp => exact absurd hp hp'
  | locked hf hp hd ht hv hs =>
    have hS := hV _ (hf ▸ List.mem_cons_self)
    simp only [PostFrame.Sound, hp] at hS
    simp only [PostFrame.Shows, hv, hS.1, List.not_mem_nil, if_false, ht, State.suber, hs]
    exact ⟨rfl, rfl⟩
  | moved hf hp hd ho ht hv hs hi hr =>
    have hold := hP t _ _ hf hp (hsync ho) j
    rw [(hs j).2]
    exact hold.congr ⟨rfl, rfl⟩ (hv j) ht hd hr
  | @accepted g i x hf hp hd ho ht hv hs ha hq hi hr =>
    have hold := hP t _ _ hf (by simp [hp]) (hsync ho) j
    by_cases hj : j = i
    · subst hj
      have hS := hV _ (hf ▸ List.mem_cons_self)
      simp only [PostFrame.Sound, hp] at hS
      -- the slot was not visited before
      have hnew : (j, Visit.queue true) ∉ g.visits := fun hm => lt_irrefl j (hS.2 _ hm)
      have hfound := hold.samePosted_table.mpr hnew
      rw [PostFrame.Shows, if_pos (by simp [hv])]
      refine ⟨s.desc t g, fun hrep => ?_, ?_⟩
      · rw [hd, State.desc_of_not_replay s t g (hr ▸ hrep)]
      · simpa [ht, hs, hq, State.suber] using hfound.push (s.desc t g)
    · exact hold.congr (by simpa [hs, hj, State.suber] using ⟨rfl, rfl⟩) (by simp [hv, hj]) ht hd hr
  | returned hf hp ha hd ho ht hs =>
    have hk := (hK _ (hf ▸ List.mem_cons_of_mem _ List.mem_cons_self)).inCb _ hp
    have := hsync ho
    unfold State.isSync at this
    simp [this] at hk

theorem pushed_reach (h : Reach ok maxSuberNum clients s) : PushedInv s :=
  h.induction (fun t f rest hf => by simp [State.init] at hf)
    fun s s' t _ hr hP _ _ h u f rest hf hp hy j => by
      by_cases hu : u = t
      · subst hu
        exact pushed_self hP ((threadInv_reach hr).stack u) (sound_reach hr u) (kind_reach hr u) h hf hp
          hy j
      · rw [h.frames_ne hu] at hf
        have hL := lockInv_reach hr
        have hs := (h.sameTable hL hu (hL.post_holder hf hp)).slot j
        have hold := hP u f rest hf hp (by unfold State.isSync at *; rwa [← h.isSyncMode_eq]) j
        exact hold.congr ⟨hs.postCnt, hs.cells⟩ .rfl rfl rfl rfl

/-! ### The visits cover the matching subscriptions -/

/-- The step is not the return of a SYNC callback that leaves other subscriptions in the table than
`postEVT` found when it obtained the context mutex. -/
def syncKeepsTable (s : State abi) (x : Tid × Act abi) : Bool :=
  match s.frames x.1, x.2 with
  | .cb _ :: .post p :: _, .ret _ =>
    decide (∀ j, j < s.ctx.maxSuberNum.toNat → (s.suber j).args = (p.table j).args)
  | _, _ => true

/-- The call finds the subscriptions it has locked; with `sync`, a SYNC call does so too. -/
def KeptInv (sync : Bool) (s : State abi) : Prop :=
  ∀ t f rest, s.frames t = .post f :: rest → f.pc ≠ .lock → (s.isSync f = true → sync = true) →
    ∀ j, j < s.ctx.maxSuberNum.toNat → (s.suber j).args = (f.table j).args

theorem kept_self {sync : Bool} (hP : KeptInv sync s) (hS : Stack (s.base t) (s.frames t))
    (hK : ∀ p, .post p ∈ s.frames t → p.Kind s.ctx.isSyncMode)
    (hok : sync = true → syncKeepsTable s (t, a) = true) (h : Trans s t a s') {f : PostFrame abi}
    (hf' : s'.frames t = .post f :: rest) (hp' : f.pc ≠ .lock) (hy : s'.isSync f = true → sync = true)
    (j : ℕ) (hj : j < s.ctx.maxSuberNum.toNat) : (s'.suber j).args = (f.table j).args := by
  have hsync : ∀ {g : PostFrame abi}, f.pOptions = g.pOptions → s.isSync g = true → sync = true :=
    fun ho hg => hy (by unfold State.isSync at *; rwa [ho, h.isSyncMode_eq])
  cases h.postStep hS hf' with
  | called hp => exact absurd hp hp'
  | locked hf hp hd ht hv hs => rw [State.suber, hs, ht]
  | moved hf hp hd ho ht hv hs => rw [(hs j).1, ht, hP t _ _ hf hp (hsync ho) j hj]
  | @accepted g i x hf hp hd ho ht hv hs ha hq =>
    have hold := hP t _ _ hf (by simp [hp]) (hsync ho) j hj
    rw [ht, ← hold, State.suber, hs]
    by_cases hji : j = i
    · subst hji
      simpa using ha
    · simp [hji]
  | returned hf hp ha hd ho ht hs =>
    have hk := (hK _ (hf ▸ List.mem_cons_of_mem _ List.mem_cons_self)).inCb _ hp
    have hok := hok (hsync ho hk)
    subst ha
    simp only [syncKeepsTable, hf, decide_eq_true_eq] at hok
    rw [State.suber, hs, ht]
    exact hok j hj

theorem kept_reach {sync : Bool} (hok : ∀ s x, ok s x → sync = true → syncKeepsTable s x = true)
    (h : Reach ok maxSuberNum clients s) : KeptInv sync s :=
  h.induction (fun t f rest hf => by simp [State.init] at hf)
    fun s s' t _ hr hP ha _ h u f rest hf hp hy j hj => by
      rw [h.maxSuberNum_eq] at hj
      by_cases hu : u = t
      · subst hu
        exact kept_self hP ((threadInv_reach hr).stack u) (kind_reach hr u) (hok _ _ ha) h hf hp hy j hj
      · rw [h.frames_ne hu] at hf
        have hL := lockInv_reach hr
        rw [((h.sameTable hL hu (hL.post_holder hf hp)).slot j).args]
        exact hP u f rest hf hp (by unfold State.isSync at *; rwa [← h.isSyncMode_eq]) j hj

/-- Nobody changes the subscriptions under an ASYNC call. -/
theorem keptAsync_reach (h : Reach ok maxSuberNum clients s) : KeptInv false s :=
  kept_reach (fun _ _ _ h => by simp at h) h

/-- The event of the call: what `*pEvtDesc` was when it was first looked at. -/
def PostFrame.posted (f : PostFrame abi) : EvtDesc abi := f.tested.headD f.pEvtDesc

/-- The subscription in slot `j` listed the event when the call obtained the context mutex. -/
def PostFrame.listed (f : PostFrame abi) (j : ℕ) : Bool := (f.table j).args.lists f.posted

/-- The subscription in slot `j` listed then what `*pEvtDesc` is now. -/
def PostFrame.lists (f : PostFrame abi) (j : ℕ) : Bool := (f.table j).args.lists f.pEvtDesc

theorem KeptInv.lists {sync : Bool} (hK : KeptInv sync s) {f : PostFrame abi} (hf : s.frames t = .post f :: rest)
    (hp : f.pc ≠ .lock) (hy : s.isSync f = true → sync = true) {j : ℕ} (hj : j < s.ctx.maxSuberNum.toNat) :
    (s.suber j).args.lists f.pEvtDesc = f.lists j := by
  rw [hK t f rest hf hp hy j hj, PostFrame.lists]

/-- What `*pEvtDesc` was at the turn of slot `j`. -/
def PostFrame.atTurn (f : PostFrame abi) (j : ℕ) : EvtDesc abi := f.tested.getD j f.pEvtDesc

theorem PostFrame.atTurn_append {f g : PostFrame abi} {ds : List (EvtDesc abi)} {j : ℕ}
    (hg : g.tested = f.tested ++ ds) (hj : j < f.tested.length) : g.atTurn j = f.atTurn j := by
  simp only [PostFrame.atTurn, hg, List.getD_eq_getElem?_getD, List.getElem?_append_left hj,
    List.getElem?_eq_getElem hj, Option.getD_some]

theorem PostFrame.atTurn_tested {f g : PostFrame abi} {d : EvtDesc abi} (hi : f.tested.length = i)
    (hg : g.tested = f.tested ++ [d]) : g.atTurn i = d := by
  simp [PostFrame.atTurn, hg, ← hi]

/-- The subscription in slot `j` lists what `*pEvtDesc` was at its turn. -/
def PostFrame.matched (f : PostFrame abi) (j : ℕ) : Bool := (f.table j).args.lists (f.atTurn j)

/-- The slots tested so far match as before when one more is tested. -/
theorem PostFrame.filter_matched {f g : PostFrame abi} {n : ℕ} {ds : List (EvtDesc abi)} (hn : n ≤ f.tested.length)
    (ht : g.table = f.table) (hg : g.tested = f.tested ++ ds) :
    (List.range n).filter g.matched = (List.range n).filter f.matched := by
  refine List.filter_congr fun j hj => ?_
  rw [PostFrame.matched, PostFrame.matched, ht, PostFrame.atTurn_append hg ((List.mem_range.mp hj).trans_le hn)]

/-- The visits are those of the matching subscriptions below the loop index, in the order of the table. -/
def PostFrame.Covers (n : ℕ) (f : PostFrame abi) : Prop :=
  match f.pc with
  | .lock => f.visits = [] ∧ f.tested = []
  | .loop i => i ≤ n ∧ f.tested.length = i ∧ f.visits.map Prod.fst = (List.range i).filter f.matched
  | .inCb i | .push i | .retry i =>
    i < n ∧ f.tested.length = i + 1 ∧ f.matched i = true ∧ f.visits.map Prod.fst = (List.range i).filter f.matched
  | .signal i => i < n ∧ f.tested.length = i + 1 ∧ f.visits.map Prod.fst = (List.range (i + 1)).filter f.matched

/-- One more visit covers one more matching subscription. -/
theorem covers_visited {f : PostFrame abi} {v : Visit} (hl : f.matched i = true)
    (hv : f.visits.map Prod.fst = (List.range i).filter f.matched) :
    (f.visits ++ [(i, v)]).map Prod.fst = (List.range (i + 1)).filter f.matched := by
  rw [List.range_succ, List.filter_append, List.map_append, hv]
  simp [hl]

theorem covers_skipped {f : PostFrame abi} (hl : f.matched i = false)
    (hv : f.visits.map Prod.fst = (List.range i).filter f.matched) :
    f.visits.map Prod.fst = (List.range (i + 1)).filter f.matched := by
  rw [List.range_succ, List.filter_append, hv]
  simp [hl]

/-- What the next slot matches once it is tested. -/
theorem PostFrame.matched_tested {f g : PostFrame abi} {d : EvtDesc abi} (hi : f.tested.length = i)
    (ht : g.table = f.table) (hg : g.tested = f.tested ++ [d]) : g.matched i = (f.table i).args.lists d := by
  rw [PostFrame.matched, ht, PostFrame.atTurn_tested hi hg]

theorem covers_step {sync : Bool} {n : ℕ} (hn : s.ctx.maxSuberNum.toNat = n) (hK : KeptInv sync s)
    (hP : ∀ p, .post p ∈ s.frames t → (s.isSync p = true → sync = true) → p.Covers n)
    (h : Trans s t a s') :
    ∀ p, .post p ∈ s'.frames t → (s.isSync p = true → sync = true) → p.Covers n := by
  subst hn
  have hargs : ∀ {f rest i}, s.frames t = .post f :: rest → f.pc = .loop i →
      (s.isSync f = true → sync = true) → i < s.ctx.maxSuberNum.toNat → (s.suber i).args = (f.table i).args :=
    fun hf hp hy hi => hK t _ _ hf (by simp [hp]) hy _ hi
  refine post_step hP h ?fresh ?locked ?skip ?enter ?wrote ?returned ?accept ?full ?retry ?signal
  case fresh =>
    intro p hp hv _ ht _
    simp only [PostFrame.Covers, hp]
    exact ⟨hv, ht⟩
  case locked =>
    intro f rest _ hf hp hy
    have hf := hf hy
    simp only [PostFrame.Covers, hp] at hf
    simp [PostFrame.Covers, hf]
  case skip =>
    intro f rest i hf hc hp hi hl hy
    have hc := hc hy
    rw [hargs hf hp hy hi] at hl
    simp only [PostFrame.Covers, hp] at hc
    obtain ⟨-, hlen, hv⟩ := hc
    refine ⟨hi, by simp [hlen], covers_skipped ?_ ?_⟩
    · exact (PostFrame.matched_tested (g := { f with tested := f.tested ++ [s.desc t f] }) hlen rfl rfl).trans hl
    · exact hv.trans
        (PostFrame.filter_matched (g := { f with tested := f.tested ++ [s.desc t f] }) hlen.ge rfl rfl).symm
  case enter =>
    intro f rest i pc hf hc hp hi hl hpc hy
    have hc := hc hy
    rw [hargs hf hp hy hi] at hl
    simp only [PostFrame.Covers, hp] at hc
    obtain ⟨-, hlen, hv⟩ := hc
    have hv' : f.visits.map Prod.fst = (List.range i).filter
        { f with pc := pc, tested := f.tested ++ [s.desc t f] }.matched :=
      hv.trans (PostFrame.filter_matched (g := { f with tested := f.tested ++ [s.desc t f] }) hlen.ge rfl rfl).symm
    have hlen' : (f.tested ++ [s.desc t f]).length = i + 1 := by simp [hlen]
    have hm : { f with pc := pc, tested := f.tested ++ [s.desc t f] }.matched i = true :=
      (PostFrame.matched_tested (g := { f with tested := f.tested ++ [s.desc t f] }) hlen rfl rfl).trans hl
    rcases hpc with ⟨rfl, -⟩ | ⟨rfl, -⟩ <;> exact ⟨hi, hlen', hm, hv'⟩
  case wrote =>
    intro c p rest i d _ hc hp _ _ hy
    have hc := hc hy
    simp only [PostFrame.Covers, hp] at hc ⊢
    obtain ⟨hi, hlen, hm, hv⟩ := hc
    refine ⟨hi, hlen, ?_, hv.trans ?_⟩
    · have hlt : i < p.tested.length := by omega
      have he : { p with pc := .inCb i, pEvtDesc := d }.atTurn i = p.atTurn i :=
        PostFrame.atTurn_append (List.append_nil _).symm hlt
      rw [PostFrame.matched, he]
      exact hm
    · have hle : i ≤ p.tested.length := by omega
      exact (PostFrame.filter_matched (g := { p with pEvtDesc := d }) hle rfl (List.append_nil _).symm).symm
  case returned =>
    intro c p rest i r _ hc hp hy
    have hc := hc hy
    simp only [PostFrame.Covers, hp] at hc
    obtain ⟨hi, hlen, hl, hv⟩ := hc
    exact ⟨hi, hlen, covers_visited hl hv⟩
  case accept =>
    intro f rest i _ hc hp _ hy
    have hc := hc hy
    simp only [PostFrame.Covers, hp] at hc
    obtain ⟨hi, hlen, hl, hv⟩ := hc
    exact ⟨hi, hlen, covers_visited hl hv⟩
  case full =>
    intro f rest i _ hc hp _ _ hy
    have hc := hc hy
    simp only [PostFrame.Covers, hp] at hc
    obtain ⟨hi, hlen, hl, hv⟩ := hc
    exact ⟨hi, hlen, covers_visited hl hv⟩
  case retry =>
    intro f rest i pc _ hc hpc hy
    have hc := hc hy
    rcases hpc with ⟨hp, rfl⟩ | ⟨hp, rfl⟩ <;>
    · simp only [PostFrame.Covers, hp] at hc
      exact hc
  case signal =>
    intro f rest i _ hc hp hy
    have hc := hc hy
    simp only [PostFrame.Covers, hp] at hc
    exact hc

theorem covers_reach {sync : Bool} (hok : ∀ s x, ok s x → sync = true → syncKeepsTable s x = true)
    (h : Reach ok maxSuberNum clients s) :
    ∀ t p, .post p ∈ s.frames t → (s.isSync p = true → sync = true) → p.Covers maxSuberNum.toNat :=
  h.induction (P := fun s => ∀ t p, .post p ∈ s.frames t → (s.isSync p = true → sync = true) →
      p.Covers maxSuberNum.toNat)
    (fun t p hp => by simp [State.init] at hp)
    fun s s' t _ hr hP _ _ h u p hp hy => by
      have hy : s.isSync p = true → sync = true := fun hs => hy (by
        unfold State.isSync at *
        rwa [h.isSyncMode_eq])
      by_cases hu : u = t
      · subst hu
        exact covers_step (by rw [maxSuberNum_reach hr]) (kept_reach hok hr) (hP u) h p hp hy
      · rw [h.frames_ne hu] at hp
        exact hP u p hp hy

/-! ### The descriptor stays as it was posted -/

/-- The step is not the write of another `EvtID` by a SYNC callback. -/
def keepsEvtID (s : State abi) (x : Tid × Act abi) : Bool :=
  match s.frames x.1, x.2 with
  | .cb _ :: .post p :: _, .write d => d.evtID == p.pEvtDesc.evtID
  | _, _ => true

/-- Every slot so far was compared with the `EvtID` that the descriptor has now. -/
def PostFrame.Steady (f : PostFrame abi) : Prop := ∀ d ∈ f.tested, d.evtID = f.pEvtDesc.evtID

theorem EvtSubArgs.lists_congr {x : EvtSubArgs} {d e : EvtDesc abi} (h : d.evtID = e.evtID) : x.lists d = x.lists e := by
  simp only [EvtSubArgs.lists, h]

theorem PostFrame.Steady.posted {f : PostFrame abi} (h : f.Steady) : f.posted.evtID = f.pEvtDesc.evtID := by
  unfold PostFrame.posted
  cases hl : f.tested with
  | nil => rfl
  | cons d ds => exact h d (by simp [hl])

theorem PostFrame.Steady.listed {f : PostFrame abi} (h : f.Steady) : f.listed = f.lists :=
  funext fun _ => EvtSubArgs.lists_congr h.posted

/-- Then the slots that match are the slots that listed the event. -/
theorem PostFrame.Steady.matched {f : PostFrame abi} (h : f.Steady) : f.matched = f.listed := by
  rw [h.listed]
  funext j
  refine EvtSubArgs.lists_congr ?_
  rw [PostFrame.atTurn, List.getD_eq_getElem?_getD]
  cases hj : f.tested[j]? with
  | none => rfl
  | some d => exact h d (List.mem_of_getElem? hj)

theorem PostFrame.Steady.tested {f g : PostFrame abi} {d : EvtDesc abi} (h : f.Steady)
    (hg : g.tested = f.tested ++ [d]) (hd : d.evtID = f.pEvtDesc.evtID) (hp : g.pEvtDesc = f.pEvtDesc) : g.Steady := by
  intro e he
  rw [hg, List.mem_append, List.mem_singleton] at he
  rw [hp]
  rcases he with he | rfl
  · exact h e he
  · exact hd

/-- Calls for which `keep` holds test what their caller posted; `keep` says why no callback of theirs writes another
`EvtID`, and why what a replay looks at stays as it was. -/
theorem steady_step (keep : PostFrame abi → Prop)
    (hkeep : ∀ p q : PostFrame abi, keep q → q.pOptions = p.pOptions → q.isReplay = p.isReplay → keep p)
    (hdesc : ∀ f rest i, s.frames t = .post f :: rest → keep f → f.pc = .loop i →
      (s.desc t f).evtID = f.pEvtDesc.evtID)
    (hwrite : ∀ c p rest i d, s.frames t = .cb c :: .post p :: rest → keep p → p.pc = .inCb i → p.isReplay = false →
      a = .write d → d.evtID = p.pEvtDesc.evtID)
    (hP : ∀ p, .post p ∈ s.frames t → keep p → p.Steady) (h : Trans s t a s') :
    ∀ p, .post p ∈ s'.frames t → keep p → p.Steady := by
  refine post_step hP h ?fresh ?locked ?skip ?enter ?wrote ?returned ?accept ?full ?retry ?signal
  case fresh =>
    intro p _ _ _ ht _ d hd
    simp [ht] at hd
  case locked => exact fun f rest _ hf _ hk => hf (hkeep f _ hk rfl rfl)
  case skip =>
    intro f rest i hf hs hp _ _ hk
    have hk := hkeep f _ hk rfl rfl
    exact (hs hk).tested rfl (hdesc f rest i hf hk hp) rfl
  case enter =>
    intro f rest i pc hf hs hp _ _ _ hk
    have hk := hkeep f _ hk rfl rfl
    exact (hs hk).tested rfl (hdesc f rest i hf hk hp) rfl
  case wrote =>
    intro c p rest i d hf hs hp hr ha hk e he
    have hk := hkeep p _ hk rfl rfl
    exact (hs hk e he).trans (hwrite c p rest i d hf hk hp hr ha).symm
  case returned => exact fun c p rest i r _ hs _ hk => hs (hkeep p _ hk rfl rfl)
  case accept => exact fun f rest i _ hs _ _ hk => hs (hkeep f _ hk rfl rfl)
  case full => exact fun f rest i _ hs _ _ _ hk => hs (hkeep f _ hk rfl rfl)
  case retry => exact fun f rest i pc _ hs _ hk => hs (hkeep f _ hk rfl rfl)
  case signal => exact fun f rest i _ hs _ hk => hs (hkeep f _ hk rfl rfl)

/-- The descriptor of a call that is no replay stays as it was posted, if the call is ASYNC or its callbacks do not write
another `EvtID`. -/
theorem steady_reach {sync : Bool} (hok : ∀ s x, ok s x → sync = true → keepsEvtID s x = true)
    (h : Reach ok maxSuberNum clients s) :
    ∀ t p, .post p ∈ s.frames t → p.isReplay = false ∧ (s.isSync p = true → sync = true) → p.Steady :=
  h.induction (P := fun s => ∀ t p, .post p ∈ s.frames t → p.isReplay = false ∧ (s.isSync p = true → sync = true) →
      p.Steady)
    (fun t p hp => by simp [State.init] at hp)
    fun s s' t a hr hP ha _ h u p hp hk => by
      have hsync : ∀ q, s'.isSync q = s.isSync q := fun q => by
        unfold State.isSync
        rw [h.isSyncMode_eq]
      rw [hsync] at hk
      by_cases hu : u = t
      · subst hu
        refine steady_step (fun q => q.isReplay = false ∧ (s.isSync q = true → sync = true))
          (fun p q hk ho hr => ⟨hr ▸ hk.1, fun hs => hk.2 ?_⟩) (fun f rest i _ hk _ => ?_)
          (fun c p rest i d hf hk hp _ hd => ?_) (hP u) h p hp hk
        · unfold State.isSync at *
          rwa [ho]
        · rw [State.desc_of_not_replay s u f hk.1]
        · have hy := hk.2 ((kind_reach hr u p (hf ▸ List.mem_cons_of_mem _ List.mem_cons_self)).inCb i hp)
          subst hd
          simpa [keepsEvtID, hf] using hok _ _ ha hy
      · rw [h.frames_ne hu] at hp
        exact hP u p hp hk

/-- No callback runs under an ASYNC call. -/
theorem steadyAsync_reach (h : Reach ok maxSuberNum clients s) {f : PostFrame abi} (hf : .post f ∈ s.frames t)
    (hr : f.isReplay = false) (hy : s.isSync f = false) : f.Steady := by
  have hsync : s.isSync f = true → false = true := fun hs => by simp [hy] at hs
  exact steady_reach (fun _ _ _ h => by simp at h) h t f hf ⟨hr, hsync⟩

theorem coversAsync_reach (h : Reach ok maxSuberNum clients s) {f : PostFrame abi} (hf : .post f ∈ s.frames t)
    (hy : s.isSync f = false) : f.Covers maxSuberNum.toNat := by
  have hsync : s.isSync f = true → false = true := fun hs => by simp [hy] at hs
  exact covers_reach (fun _ _ _ h => by simp at h) h t f hf hsync

end PlatIF.Ioc
