import PlatIF.Ioc.FrameRule

/-!
# The shape of the call stacks

Which frames may stand on which: an API call stands on user code, a callback on the SYNC fan-out that made
it or alone on its async thread, a replay alone on the drain loop.  `Stack` says so of one thread, and
`stack_trans` that every step keeps it.

* `ThreadInv.stack` — every thread is well stacked;
* `ThreadInv.fresh` — thread ids not given out yet belong to no thread;
* `ThreadInv.tls` — the thread-specific key names the slot of a started async thread, and no other thread
  has one.
-/

namespace PlatIF.Ioc

variable {abi : Abi} {s s' s₁ : State abi} {t u : Tid} {a : Act abi} {i : ℕ}

/-- Program points of an async thread with no call in progress. -/
def AsyncPc.idle : AsyncPc abi → Prop
  | .inCb _ => False
  | .replay _ => False
  | _ => True

/-- Stacks on which user code runs. -/
inductive UserStack (b : Base abi) : List (Frame abi) → Prop
  | client (hb : b = .client) : UserStack b []
  | async {f i g d} (hb : b = .async i g (.inCb d)) (hi : f.suberIdx = i) : UserStack b [.cb f]
  | sync {f p rest i} (hp : p.pc = .inCb i) (hi : f.suberIdx = i) (hr : p.isReplay = false)
      (h : UserStack b rest) : UserStack b (.cb f :: .post p :: rest)
  | replay {f p i j g d} (hp : p.pc = .inCb i) (hi : f.suberIdx = i) (hr : p.isReplay = true)
      (hb : b = .async j g (.replay d)) (hd : p.pEvtDesc = d.desc) (ho : p.pOptions = some optNonBlock) :
      UserStack b [.cb f, .post p]

/-- The stack of a thread with base `b`. -/
inductive Stack (b : Base abi) : List (Frame abi) → Prop
  | user {fs} (h : UserStack b fs) : Stack b fs
  | sub {f rest} (h : UserStack b rest) : Stack b (.sub f :: rest)
  | unsub {f rest} (h : UserStack b rest) : Stack b (.unsub f :: rest)
  | post {p rest} (hp : ∀ i, p.pc ≠ .inCb i) (hr : p.isReplay = false) (h : UserStack b rest) :
      Stack b (.post p :: rest)
  | replay {p j g d} (hp : ∀ i, p.pc ≠ .inCb i) (hr : p.isReplay = true)
      (hb : b = .async j g (.replay d)) (hd : p.pEvtDesc = d.desc) (ho : p.pOptions = some optNonBlock) :
      Stack b [.post p]
  | idle {i g pc} (hb : b = .async i g pc) (hpc : pc.idle) : Stack b []
  | gone (hb : b = .gone) : Stack b []

/-! ### Reading a stack -/

section

variable {b : Base abi} {rest : List (Frame abi)}

theorem Stack.of_sub {f} (h : Stack b (.sub f :: rest)) : UserStack b rest := by
  cases h with
  | user h => cases h
  | sub h => exact h

theorem Stack.of_unsub {f} (h : Stack b (.unsub f :: rest)) : UserStack b rest := by
  cases h with
  | user h => cases h
  | unsub h => exact h

/-- A `postEVT` call on top is an ordinary one, or the replay of the drain loop. -/
theorem Stack.of_post {p} (h : Stack b (.post p :: rest)) :
    (∀ i, p.pc ≠ .inCb i) ∧
      (p.isReplay = false ∧ UserStack b rest ∨
        p.isReplay = true ∧ rest = [] ∧ ∃ j g d, b = .async j g (.replay d) ∧ p.pEvtDesc = d.desc ∧
          p.pOptions = some optNonBlock) := by
  cases h with
  | user h => cases h
  | post hp hr h => exact ⟨hp, .inl ⟨hr, h⟩⟩
  | replay hp hr hb hd ho => exact ⟨hp, .inr ⟨hr, rfl, _, _, _, hb, hd, ho⟩⟩

theorem Stack.replay_options {p} (h : Stack b (.post p :: rest)) (hr : p.isReplay = true) :
    p.pOptions = some optNonBlock := by
  obtain ⟨-, ⟨hr', -⟩ | ⟨-, -, -, -, -, -, -, ho⟩⟩ := h.of_post
  · simp [hr] at hr'
  · exact ho

theorem Stack.of_cb {f} (h : Stack b (.cb f :: rest)) : UserStack b (.cb f :: rest) := by
  cases h with
  | user h => exact h

theorem UserStack.top_not_api {f} (h : UserStack b (f :: rest)) : f.isApi = false := by
  cases h <;> rfl

/-- Below a call stands user code. -/
theorem Stack.below_api {f g} (h : Stack b (f :: g :: rest)) (hf : f.isApi = true) :
    g.isApi = false := by
  cases f with
  | cb f => simp [Frame.isApi] at hf
  | sub f => exact h.of_sub.top_not_api
  | unsub f => exact h.of_unsub.top_not_api
  | post f =>
    obtain ⟨-, ⟨-, hu⟩ | ⟨-, hn, -⟩⟩ := h.of_post
    · exact hu.top_not_api
    · simp at hn

theorem Stack.of_nil (h : Stack b []) :
    b = .client ∨ b = .gone ∨ ∃ i g pc, b = .async i g pc ∧ pc.idle := by
  cases h with
  | user h =>
    cases h with
    | client hb => exact .inl hb
  | idle hb hpc => exact .inr (.inr ⟨_, _, _, hb, hpc⟩)
  | gone hb => exact .inr (.inl hb)

/-- A thread that waits on a condition has no call in progress. -/
theorem Stack.of_idle {g pc} (h : Stack (.async i g pc) rest) (hpc : pc.idle) : rest = [] := by
  have hu : ∀ {fs}, UserStack (.async i g pc) fs → fs = [] := by
    intro fs hu
    induction hu with
    | client => rfl
    | async hb hi =>
      cases hb
      exact hpc.elim
    | sync hp hi hr h ih =>
      subst ih
      cases h with
      | client hb => cases hb
    | replay hp hi hr hb =>
      cases hb
      exact hpc.elim
  have hn : ¬ UserStack (.async i g pc) [] := by
    intro h
    cases h with
    | client hb => cases hb
  cases h with
  | user h => exact hu h
  | sub h => exact absurd (hu h ▸ h) hn
  | unsub h => exact absurd (hu h ▸ h) hn
  | post hp hr h => exact absurd (hu h ▸ h) hn
  | replay hp hr hb =>
    cases hb
    exact hpc.elim
  | idle => rfl
  | gone hb => rfl

theorem Stack.of_gone (h : Stack (.gone : Base abi) rest) : rest = [] := by
  have hu : ∀ {fs}, ¬ UserStack (.gone : Base abi) fs := by
    intro fs hu
    induction hu with
    | client hb => cases hb
    | async hb => cases hb
    | sync hp hi hr h ih => exact ih
    | replay hp hi hr hb => cases hb
  cases h with
  | user h => exact absurd h hu
  | sub h => exact absurd h hu
  | unsub h => exact absurd h hu
  | post hp hr h => exact absurd h hu
  | replay hp hr hb => cases hb
  | idle hb => cases hb
  | gone => rfl

end

/-! ### Every step keeps the shape -/

/-- What holds of the threads in every reachable state. -/
structure ThreadInv (s : State abi) : Prop where
  stack : ∀ t, Stack (s.base t) (s.frames t)
  fresh : ∀ t, s.nextTid ≤ t → s.base t = .gone ∧ s.tls t = none
  tls : ∀ t i g pc, s.base t = .async i g pc → pc ≠ .start → s.tls t = some i
  async : ∀ t i, s.tls t = some i → s.base t = .gone ∨ ∃ g pc, s.base t = .async i g pc ∧ pc ≠ .start

theorem stack_init (maxSuberNum : ULong abi) (clients : ℕ) :
    ThreadInv (State.init maxSuberNum clients) where
  stack t := by
    by_cases h : t < clients
    · exact .user (.client (by simp [State.init, h]))
    · exact .gone (by simp [State.init, h])
  fresh t ht := by
    have h : ¬ t < clients := Nat.not_lt.mpr ht
    simp [State.init, h]
  tls t i g pc hb := by
    by_cases h : t < clients <;> simp [State.init, h] at hb
  async t i h := by simp [State.init] at h

/-- A thread with a call in progress is not the one a signal wakes. -/
theorem State.Woken.base_self (hw : s.Woken i s₁) (hS : Stack (s.base t) (s.frames t))
    (hne : s.frames t ≠ []) : s₁.base t = s.base t := by
  obtain ⟨b, rfl, hb⟩ := hw.eq
  rcases hb t with h | ⟨g, hg, -⟩
  · exact h
  · rw [hg] at hS
    exact absurd (hS.of_idle trivial) hne

theorem State.withThread_base_self (hne : t ≠ s.nextTid) :
    (s.withThread i).base t = s.base t := by
  rcases State.withThread_base s i t with h | ⟨-, h, -⟩
  · exact h
  · exact absurd h hne

theorem ThreadInv.ne_nextTid (hT : ThreadInv s) (hne : s.frames t ≠ []) : t ≠ s.nextTid := by
  rintro rfl
  have hS := hT.stack s.nextTid
  rw [(hT.fresh _ le_rfl).1] at hS
  exact hne hS.of_gone

/-- A thread with the key of a slot that has something in progress runs the async loop of that slot. -/
theorem ThreadInv.async_of_tls (hT : ThreadInv s) (hne : s.frames t ≠ []) (ht : s.tls t = some i) :
    ∃ g pc, s.base t = .async i g pc := by
  rcases hT.async t i ht with hb | ⟨g, pc, hb, -⟩
  · have hS := hT.stack t
    rw [hb] at hS
    exact absurd hS.of_gone hne
  · exact ⟨g, pc, hb⟩

/-- A thread without a key that has something in progress is an ordinary one. -/
theorem ThreadInv.client_of_tls (hT : ThreadInv s) (hne : s.frames t ≠ []) (ht : s.tls t = none) :
    s.base t = .client := by
  have hS := hT.stack t
  cases hb : s.base t with
  | client => rfl
  | gone =>
    rw [hb] at hS
    exact absurd hS.of_gone hne
  | async i g pc =>
    rw [hb] at hS
    by_cases hpc : pc = .start
    · subst hpc
      exact absurd (hS.of_idle trivial) hne
    · simp [hT.tls t i g pc hb hpc] at ht

/-- The replaced top frame keeps the place of the one it replaces. -/
theorem Stack.post_next {b : Base abi} {p q : PostFrame abi} {rest : List (Frame abi)}
    (h : Stack b (.post p :: rest)) (hr : q.isReplay = p.isReplay) (hd : q.pEvtDesc = p.pEvtDesc)
    (ho : q.pOptions = p.pOptions) (hq : ∀ i, q.pc ≠ .inCb i) : Stack b (.post q :: rest) := by
  obtain ⟨-, ⟨hp, hu⟩ | ⟨hp, rfl, j, g, d, hb, hd', ho'⟩⟩ := h.of_post
  · exact .post hq (hr.trans hp) hu
  · exact .replay hq (hr.trans hp) hb (hd.trans hd') (ho.trans ho')

/-- A `postEVT` call returns to user code or into the drain loop. -/
theorem Stack.retPost {p : PostFrame abi} {rest : List (Frame abi)} {r : TosResult}
    (s₁ : State abi) (h : Stack (s₁.base t) (.post p :: rest)) :
    Stack ((s₁.retPost t p rest r).base t) rest := by
  obtain ⟨-, ⟨hp, hu⟩ | ⟨hp, rfl, j, g, d, hb, -, -⟩⟩ := h.of_post
  · rcases State.retPost_base_self s₁ t p rest r with h' | ⟨-, -, -, hp', -⟩
    · rw [h']
      exact .user hu
    · rw [hp] at hp'
      exact absurd hp' Bool.false_ne_true
  · rw [show (s₁.retPost t p [] r).base t = .async j g (.drained d r) by
      simp [State.retPost, hp, hb]]
    exact .idle rfl trivial

/-- The thread that takes the step stays well stacked. -/
theorem stack_self (hT : ThreadInv s) (h : Trans s t a s') : Stack (s'.base t) (s'.frames t) := by
  have hS := hT.stack t
  cases h
  case call api hu =>
    have hU : UserStack (s.base t) (s.frames t) := by
      rcases hu with ⟨hf, hb⟩ | ⟨f, rest, hf⟩
      · rw [hf]
        exact .client hb
      · rw [hf] at hS ⊢
        exact hS.of_cb
    cases api with
    | subEVT => simpa [State.frameOf] using Stack.sub hU
    | unsubEVT => simpa [State.frameOf] using Stack.unsub hU
    | postEVT => simpa [State.frameOf] using Stack.post (by simp) rfl hU
  case cbRetPost r hf hp =>
    rw [hf] at hS
    simp only [State.setFrames, State.obs, Function.update_self]
    cases hS.of_cb with
    | sync _ _ hr h => exact .post (by simp) hr h
    | replay _ _ hr hb hd ho => exact .replay (by simp) hr hb hd ho
  case cbWrite hf hp hr =>
    rw [hf] at hS
    simp only [State.setFrames, Function.update_self]
    cases hS.of_cb with
    | sync hp' hi _ h => exact .user (.sync hp' hi hr h)
    | replay _ _ hr' => simp [hr] at hr'
  case cbRetAsync r hf hb =>
    simp only [State.setFrames, State.setBase, State.obs, Function.update_self]
    exact .idle rfl trivial
  case subFull hf _ _ | subNoSlot hf _ _ _ _ | subFill hf _ _ _ =>
    rw [hf] at hS
    simpa using Stack.user hS.of_sub
  case unsubNotFound hf _ _ _ | unsubEnd hf _ _ | unsubFreeDone hf _ _ =>
    rw [hf] at hS
    simpa using Stack.user hS.of_unsub
  case unsubLock hf _ _ _ | unsubStop hf _ _ _ _ | unsubSkip hf _ _ _ | unsubSetFlag hf _ _ |
      unsubFreeNext hf _ _ _ | unsubKeepNext hf _ _ _ =>
    rw [hf] at hS
    simpa using Stack.unsub hS.of_unsub
  case unsubSignal hf _ hw =>
    have hb := hw.base_self hS (by simp [hf])
    rw [hf, ← hb] at hS
    simpa using Stack.unsub hS.of_unsub
  case postSignal hf _ hw | postRetrySignal hf _ hw =>
    have hb := hw.base_self hS (by simp [hf])
    rw [hf, ← hb] at hS
    simp only [State.setFrames, Function.update_self]
    exact hS.post_next rfl rfl rfl (by simp)
  case postLock hf _ _ _ | postSkip hf _ _ _ | postASync hf _ _ _ _ =>
    rw [hf] at hS
    simp only [State.setFrames, State.setMutex, State.setCtx, Function.update_self]
    exact hS.post_next rfl rfl rfl (by simp)
  case postAccept hf _ _ _ | postFull hf _ _ _ _ | postRetry hf _ _ _ _ _ =>
    have hb := State.withThread_base_self (i := ‹_›) (hT.ne_nextTid (t := t) (by simp [hf]))
    rw [hf, ← hb] at hS
    simp only [State.setFrames, State.setSuber, State.setCtx, State.obs, Function.update_self]
    exact hS.post_next rfl rfl rfl (by simp)
  case haltPush hf _ =>
    have hb := State.withThread_base_self (i := ‹_›) (hT.ne_nextTid (t := t) (by simp [hf]))
    simp only [State.halt, State.setSuber, State.setCtx, State.withThread_frames, hb]
    exact hS
  case postSync hf _ _ _ _ =>
    rw [hf] at hS
    obtain ⟨-, ⟨hp, hu⟩ | ⟨hp, rfl, j, g, d, hb, hd, ho⟩⟩ := hS.of_post
    · simp only [State.setFrames, State.obs, Function.update_self]
      exact .user (.sync rfl rfl hp hu)
    · simp only [State.setFrames, State.obs, Function.update_self]
      exact .user (.replay rfl rfl hp hb hd ho)
  case postNotFound hf _ _ _ | postBusy hf _ _ _ | postCacheFull hf _ _ _ _ _ _ =>
    rw [hf] at hS
    simpa using hS.retPost s
  case postCache hf _ _ _ _ _ _ | postEnd hf _ _ =>
    rw [hf] at hS
    simp only [State.retPost_frames, Function.update_self]
    exact Stack.retPost _ (by simpa using hS)
  case asyncReplay hf hb hc =>
    simp only [State.setBase, State.setFrames, Function.update_self]
    exact .replay (by simp) rfl rfl rfl rfl
  case asyncCall hf hb ho =>
    simp only [State.setBase, State.setFrames, State.obs, Function.update_self]
    exact .user (.async rfl rfl)
  case asyncExit hf _ _ _ _ _ => simpa [hf] using Stack.gone rfl
  case asyncStart hf _ | asyncWait hf _ _ _ _ _ | asyncTake hf _ _ _ _ | asyncWake hf _ |
      asyncDrain hf _ _ | asyncTop hf _ _ | asyncRetire hf _ | asyncRedo hf _ _ _ =>
    simp only [State.setTls, State.setBase, State.setSuber, State.setCtx, State.retire_eq,
      Function.update_self, hf]
    exact .idle rfl trivial
  case halt => simpa using hS
  case haltRetire hf hb _ _ => simpa using hS

theorem base_self (hT : ThreadInv s) (h : Trans s t a s') : BaseSelf s s' t := by
  have hS := hT.stack t
  cases h
  case unsubSignal hf _ hw | postSignal hf _ hw | postRetrySignal hf _ hw =>
    have hb := hw.base_self hS (by simp [hf])
    obtain ⟨b, rfl, -⟩ := hw.eq
    exact .same hb rfl
  case postAccept hf _ _ _ | postFull hf _ _ _ _ | postRetry hf _ _ _ _ _ | haltPush hf _ =>
    have hb := State.withThread_base_self (i := ‹_›) (hT.ne_nextTid (t := t) (by simp [hf]))
    exact .same hb (by simp)
  case postNotFound | postBusy | postCacheFull | postCache | postEnd =>
    exact retPost_baseSelf _ _ _ _ rfl rfl
  case asyncStart hf hb => exact .started hb (by simp) (by simp)
  case asyncExit hf hb hp _ _ _ =>
    exact .ended hb (by rcases hp with rfl | rfl <;> simp) (by simp) (by simp)
  case asyncWait hf hb hp _ _ _ | asyncTake hf hb hp _ _ =>
    exact .ran hb (by rcases hp with rfl | rfl <;> simp) (Function.update_self ..) (by simp) rfl
  case cbRetAsync hf hb | asyncWake hf hb | asyncCall hf hb _ | asyncDrain hf hb _ | asyncReplay hf hb _ |
      asyncTop hf hb _ | asyncRetire hf hb | asyncRedo hf hb _ _ =>
    exact .ran hb (by simp) (Function.update_self ..) (by simp) rfl
  all_goals exact .same (by simp) (by simp)

theorem Trans.nextTid_le (h : Trans s t a s') : s.nextTid ≤ s'.nextTid := by
  have hw : ∀ i, s.nextTid ≤ (s.withThread i).nextTid := fun i => by
    unfold State.withThread
    split <;> simp
  cases h
  case unsubSignal hw | postSignal hw | postRetrySignal hw =>
    obtain ⟨b, rfl, -⟩ := hw.eq
    exact le_rfl
  case postAccept | postFull | postRetry | haltPush => exact hw _
  all_goals simp

theorem stack_trans (hT : ThreadInv s) (h : Trans s t a s') : ThreadInv s' where
  stack u := by
    by_cases hu : u = t
    · rw [hu]
      exact stack_self hT h
    · have hS := hT.stack u
      rw [h.frames_ne hu]
      cases h.base_ne hu with
      | same hb => rwa [hb]
      | created hn _ _ _ hb =>
        rw [(hT.fresh u hn.ge).1] at hS
        rw [hb, hS.of_gone]
        exact .idle rfl trivial
      | woken hb hb' =>
        rw [hb] at hS
        rw [hb', hS.of_idle trivial]
        exact .idle rfl trivial
  fresh u hn := by
    have hn' := h.nextTid_le.trans hn
    by_cases hu : u = t
    · subst hu
      obtain ⟨hb, ht⟩ := hT.fresh u hn'
      cases base_self hT h with
      | same h' ht' => exact ⟨h'.trans hb, ht'.trans ht⟩
      | started h' | ran h' | ended h' => simp [hb] at h'
    · rw [h.tls_ne hu]
      refine ⟨?_, (hT.fresh u hn').2⟩
      cases h.base_ne hu with
      | same hb => exact hb.trans (hT.fresh u hn').1
      | created hu' hs _ _ _ =>
        exact absurd (hs.ge.trans (hn.trans hu'.le)) (Nat.not_succ_le_self _)
      | woken hb _ => simp [(hT.fresh u hn').1] at hb
  tls u i g pc hb hpc := by
    by_cases hu : u = t
    · subst hu
      cases base_self hT h with
      | same h' ht => exact ht.trans (hT.tls u i g pc (h' ▸ hb) hpc)
      | started h₁ h₂ ht =>
        rw [hb] at h₂
        cases h₂
        exact ht
      | ran h₁ hp h₂ _ ht =>
        rw [hb] at h₂
        cases h₂
        exact ht.trans (hT.tls u i g _ h₁ hp)
      | ended _ _ h₂ => simp [h₂] at hb
    · rw [h.tls_ne hu]
      cases h.base_ne hu with
      | same hb' => exact hT.tls u i g pc (hb' ▸ hb) hpc
      | created _ _ _ _ hb' =>
        rw [hb] at hb'
        cases hb'
        exact absurd rfl hpc
      | woken h₁ h₂ =>
        rw [hb] at h₂
        cases h₂
        exact hT.tls u i g _ h₁ (by simp)
  async u i ht := by
    by_cases hu : u = t
    · subst hu
      cases base_self hT h with
      | same h' ht' => rw [h']; exact hT.async u i (ht' ▸ ht)
      | started h₁ h₂ ht' =>
        rw [ht] at ht'
        cases ht'
        exact .inr ⟨_, _, h₂, by simp⟩
      | ran h₁ hp h₂ hp' ht' =>
        rw [ht', hT.tls u _ _ _ h₁ hp] at ht
        cases ht
        exact .inr ⟨_, _, h₂, hp'⟩
      | ended _ _ h₂ => exact .inl h₂
    · rw [h.tls_ne hu] at ht
      cases h.base_ne hu with
      | same hb => rw [hb]; exact hT.async u i ht
      | created hu' _ _ _ _ => simp [(hT.fresh u hu'.ge).2] at ht
      | woken h₁ h₂ =>
        rcases hT.async u i ht with h' | ⟨g, pc, h', -⟩
        · simp [h'] at h₁
        · rw [h'] at h₁
          cases h₁
          exact .inr ⟨_, _, h₂, by simp⟩

/-- **Every reachable state is well stacked.** -/
theorem threadInv_reach {ok : State abi → Tid × Act abi → Prop} {maxSuberNum : ULong abi} {clients : ℕ}
    (h : Reach ok maxSuberNum clients s) : ThreadInv s :=
  h.induction (stack_init maxSuberNum clients) fun _ _ _ _ _ hT _ _ h => stack_trans hT h

end PlatIF.Ioc
