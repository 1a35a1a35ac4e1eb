import PlatIF.Ioc.CacheSafe
import PlatIF.Ioc.Count
import PlatIF.Ioc.Delivery
import PlatIF.Ioc.LockBalance

/-!
# Runs with polite callbacks

A callback that runs on an async thread may make the thread wait for the context mutex, and then nobody else can go on
who waits for that thread.  A polite callback posts without blocking, and calls nothing else of the API.  When also
every subscription has a callback, no key is null and `malloc` does not fail, much less can happen:

* `politeInv_reach` — what the calls in progress are like;
* `uncached_reach` — nothing is ever cached, so no async thread comes into its drain loop to stay;
* `heldInv_reach` — the context mutex is held by the calls in progress and by nothing else.
-/

namespace PlatIF.Ioc

variable {abi : Abi} {s s' : State abi} {t u : Tid} {a : Act abi} {i g n : ℕ} {d : EvtDesc abi}
  {rest : List (Frame abi)} {maxSuberNum : ULong abi} {clients : ℕ}

/-! ### The condition -/

/-- The thread runs the loop of a slot. -/
def Base.isAsync : Base abi → Bool
  | .async .. => true
  | _ => false

/-- The call subscribes with a callback, or unsubscribes by a key that a free slot does not have. -/
def Api.counted : Api abi → Prop
  | .subEVT args => args.cbProcEvtF ≠ NULL
  | .unsubEVT args => args ≠ some nullKey
  | .postEVT .. => True

/-- The call is a post without blocking. -/
def Api.nonBlock : Api abi → Bool
  | .postEVT _ o => isNonBlock o
  | _ => false

instance (api : Api abi) : Decidable api.counted :=
  match api with
  | .subEVT _ => inferInstanceAs (Decidable (_ ≠ _))
  | .unsubEVT _ => inferInstanceAs (Decidable (_ ≠ _))
  | .postEVT .. => inferInstanceAs (Decidable True)

/-- Callbacks on async threads post without blocking and call nothing else; subscriptions have callbacks and keys are
not null; `malloc` does not fail. -/
def polite (s : State abi) (x : Tid × Act abi) : Prop :=
  match x.2 with
  | .call api => api.counted ∧ ((s.base x.1).isAsync = true → api.nonBlock = true)
  | .run env => env.malloc = true
  | _ => True

instance (s : State abi) (x : Tid × Act abi) : Decidable (polite s x) :=
  match x with
  | (_, .call _) => @instDecidableAnd _ _ inferInstance instDecidableForall
  | (_, .run _) => inferInstanceAs (Decidable (_ = _))
  | (_, .ret _) | (_, .write _) | (_, .timeout) | (_, .wake) | (_, .signal _) => .isTrue trivial

/-! ### The calls in progress -/

/-- A call that a polite run can have on a thread. -/
def Frame.polite (b : Base abi) : Frame abi → Prop
  | .sub f => b.isAsync = false ∧ f.pEvtSubArgs.cbProcEvtF ≠ NULL
  | .unsub f => b.isAsync = false ∧ f.pEvtUnsubArgs ≠ some nullKey
  | .post f => b.isAsync = true → isNonBlock f.pOptions = true
  | .cb _ => True

/-- All calls in progress are like that. -/
def PoliteInv (s : State abi) : Prop := ∀ t f, f ∈ s.frames t → f.polite (s.base t)

theorem polite_frameOf {api : Api abi} (hok : polite s (t, .call api)) : (s.frameOf t api).polite (s.base t) := by
  obtain ⟨hc, hn⟩ := hok
  have hno : ∀ {b : Base abi}, (b.isAsync = true → false = true) → b.isAsync = false := fun h => by
    simpa using h
  cases api with
  | subEVT args => exact ⟨hno hn, hc⟩
  | unsubEVT args => exact ⟨hno hn, hc⟩
  | postEVT d o => exact hn

theorem politeInv_self (hP : ∀ f ∈ s.frames t, f.polite (s.base t)) (hok : polite s (t, a)) (h : Trans s t a s') :
    ∀ f ∈ s'.frames t, f.polite (s.base t) := by
  -- what is left of the stack is as it was
  have hrest : ∀ {g rest f}, s.frames t = g :: rest → f ∈ rest → f.polite (s.base t) := fun hf hm =>
    hP _ (hf ▸ List.mem_cons_of_mem _ hm)
  have hunsub : ∀ {g rest}, s.frames t = .unsub g :: rest → (s.base t).isAsync = false ∧ g.pEvtUnsubArgs ≠ some nullKey :=
    fun {g _} hf => hP (.unsub g) (hf ▸ List.mem_cons_self)
  have hpost : ∀ {g rest}, s.frames t = .post g :: rest → (s.base t).isAsync = true → isNonBlock g.pOptions = true :=
    fun {g _} hf => hP (.post g) (hf ▸ List.mem_cons_self)
  intro f hm
  cases h
  case call api hu =>
    simp only [State.setFrames, Function.update_self, List.mem_cons] at hm
    rcases hm with rfl | hm
    · exact polite_frameOf hok
    · exact hP f hm
  case cbRetPost hf _ =>
    simp only [State.setFrames, State.obs, Function.update_self, List.mem_cons] at hm
    rcases hm with rfl | hm
    · exact (hP (.post _) (hf ▸ List.mem_cons_of_mem _ List.mem_cons_self) :)
    · exact hrest hf (List.mem_cons_of_mem _ hm)
  case cbWrite hf _ _ =>
    simp only [State.setFrames, Function.update_self, List.mem_cons] at hm
    rcases hm with rfl | rfl | hm
    · trivial
    · exact (hP (.post _) (hf ▸ List.mem_cons_of_mem _ List.mem_cons_self) :)
    · exact hrest hf (List.mem_cons_of_mem _ hm)
  case unsubLock hf _ _ _ | unsubStop hf _ _ _ _ | unsubSkip hf _ _ _ | unsubSetFlag hf _ _ |
      unsubFreeNext hf _ _ _ | unsubKeepNext hf _ _ _ =>
    simp only [State.setFrames, State.setMutex, State.setSuber, State.setCtx, State.freeSlot, State.detach,
      Function.update_self, List.mem_cons] at hm
    rcases hm with rfl | hm
    · exact (hunsub hf :)
    · exact hrest hf hm
  case postLock hf _ _ _ | postSkip hf _ _ _ | postASync hf _ _ _ _ | postAccept hf _ _ _ | postFull hf _ _ _ _ |
      postRetry hf _ _ _ _ _ =>
    simp only [State.setFrames, State.setMutex, State.setSuber, State.setCtx, State.obs, Function.update_self,
      List.mem_cons] at hm
    rcases hm with rfl | hm
    · exact (hpost hf :)
    · exact hrest hf hm
  case unsubSignal hf _ _ =>
    simp only [State.setFrames, Function.update_self, List.mem_cons] at hm
    rcases hm with rfl | hm
    · exact (hunsub hf :)
    · exact hrest hf hm
  case postSignal hf _ _ | postRetrySignal hf _ _ =>
    simp only [State.setFrames, Function.update_self, List.mem_cons] at hm
    rcases hm with rfl | hm
    · exact (hpost hf :)
    · exact hrest hf hm
  case postSync hf _ _ _ _ =>
    simp only [State.setFrames, State.obs, Function.update_self, List.mem_cons] at hm
    rcases hm with rfl | rfl | hm
    · trivial
    · exact (hpost hf :)
    · exact hrest hf hm
  case subFull hf _ _ | subNoSlot hf _ _ _ _ | subFill hf _ _ _ | unsubNotFound hf _ _ _ |
      unsubEnd hf _ _ | unsubFreeDone hf _ _ | postNotFound hf _ _ _ | postBusy hf _ _ _ |
      postCache hf _ _ _ _ _ _ | postCacheFull hf _ _ _ _ _ _ | postEnd hf _ _ =>
    exact hrest hf (by simpa using hm)
  case asyncCall =>
    simp only [State.setFrames, State.obs, Function.update_self, List.mem_singleton] at hm
    subst hm
    trivial
  case asyncReplay =>
    simp only [State.setFrames, Function.update_self, List.mem_singleton] at hm
    subst hm
    exact fun _ => isNonBlock_optNonBlock
  case cbRetAsync => simp at hm
  -- the other steps leave the stack
  all_goals exact hP f (by simpa using hm)

/-- A thread with something in progress is an async thread as it was before. -/
theorem Trans.isAsync_eq (hT : ThreadInv s) (h : Trans s t a s') (hne : s'.frames u ≠ []) :
    (s'.base u).isAsync = (s.base u).isAsync := by
  have hS := (stack_trans hT h).stack u
  cases h.base_next hT u with
  | same h => rw [h]
  | moved h h' =>
    rw [h, h']
    rfl
  | ended _ h' =>
    rw [h'] at hS
    exact absurd hS.of_gone hne
  | created _ _ _ h' =>
    rw [h'] at hS
    exact absurd (hS.of_idle trivial) hne

theorem politeInv_trans (hT : ThreadInv s) (hP : PoliteInv s) (hok : polite s (t, a)) (h : Trans s t a s') :
    PoliteInv s' := by
  intro u f hm
  have hf : f.polite (s.base u) := by
    by_cases hu : u = t
    · subst hu
      exact politeInv_self (hP u) hok h f hm
    · rw [h.frames_ne hu] at hm
      exact hP u f hm
  have hb := h.isAsync_eq hT (List.ne_nil_of_mem hm)
  cases f with
  | cb f => trivial
  | sub f | unsub f | post f => simpa only [Frame.polite, hb] using hf

theorem politeInv_reach (h : Reach polite maxSuberNum clients s) : PoliteInv s :=
  h.induction (fun _ _ hm => by simp [State.init] at hm) fun _ _ _ _ hr hP hok _ h =>
    politeInv_trans (threadInv_reach hr) hP hok h

/-! ### The calls of async threads -/

theorem PoliteInv.of_sub (hP : PoliteInv s) {f : SubFrame} (hf : s.frames t = .sub f :: rest) :
    (s.base t).isAsync = false ∧ f.pEvtSubArgs.cbProcEvtF ≠ NULL :=
  hP t (.sub f) (hf ▸ List.mem_cons_self)

theorem PoliteInv.of_unsub (hP : PoliteInv s) {f : UnsubFrame} (hf : s.frames t = .unsub f :: rest) :
    (s.base t).isAsync = false ∧ f.pEvtUnsubArgs ≠ some nullKey :=
  hP t (.unsub f) (hf ▸ List.mem_cons_self)

theorem PoliteInv.of_post (hP : PoliteInv s) {f : PostFrame abi} (hf : s.frames t = .post f :: rest)
    (hb : (s.base t).isAsync = true) : isNonBlock f.pOptions = true :=
  hP t (.post f) (hf ▸ List.mem_cons_self) hb

/-- No async thread joins itself, since none calls `unsubEVT`. -/
theorem PoliteInv.noSelfUnsub (hP : PoliteInv s) (hI : SlotInv s) (hT : ThreadInv s) (x : Tid × Act abi) :
    noSelfUnsub s x = true := by
  obtain ⟨t, a⟩ := x
  unfold Ioc.noSelfUnsub
  split
  · rename_i f rest hf
    split
    · rw [bne_iff_ne]
      intro hx
      have hb := (hP.of_unsub hf).1
      have hS := hT.stack t
      rcases (hI.thread _ t hx).base with h0 | ⟨g, pc, h0⟩
      · rw [h0] at hS
        simp [hS.of_gone] at hf
      · simp [h0, Base.isAsync] at hb
    · rfl
  · rfl

/-- The subscriber count is right. -/
theorem PoliteInv.callsCount (hP : PoliteInv s) {x : Tid × Act abi} (hok : polite s x) : callsCount s x := by
  obtain ⟨t, a⟩ := x
  unfold Ioc.callsCount
  split
  · rename_i hf ha
    simp only at ha
    subst ha
    exact ⟨hok, .inl (hP.of_sub hf).2⟩
  · rename_i hf _
    exact fun _ hk => absurd hk (hP.of_unsub hf).2
  · trivial

theorem noSelfUnsub_of_polite (h : Reach polite maxSuberNum clients s) :
    Reach (fun s x => noSelfUnsub s x = true) maxSuberNum clients s :=
  (Runs.ReachUnder.strengthen (P := fun s => Reach polite maxSuberNum clients s) .refl
    (fun _ x hr hP _ => (politeInv_reach hP).noSelfUnsub (slotInv_reach hr) (threadInv_reach hr) x)
    (fun _ _ x _ hP hok hn => hP.tail x hok hn) h).1

theorem callsCount_of_polite (h : Reach polite maxSuberNum clients s) : Reach callsCount maxSuberNum clients s :=
  (Runs.ReachUnder.strengthen (P := fun s => Reach polite maxSuberNum clients s) .refl
    (fun _ _ _ hP hok => (politeInv_reach hP).callsCount hok)
    (fun _ _ x _ hP hok hn => hP.tail x hok hn) h).1

/-! ### Nothing is cached -/

/-- A post without blocking is not cached. -/
theorem nonBlock_keeps {f : PostFrame abi} (hf : s.frames t = .post f :: rest) (hp : f.pc = .lock)
    (ho : isNonBlock f.pOptions = true) (hn : next s (t, a) = some s') : s'.ctx.pEvtSubers = s.ctx.pEvtSubers := by
  have hh := (next_trans hn).1
  simp only [next, State.step, hh, hf, State.postStep, hp, State.postLock, ho, Option.isSome_none, Bool.false_eq_true,
    if_false, if_true] at hn
  split at hn
  · split at hn <;>
    · obtain rfl := Option.some.inj hn
      simp
  · obtain rfl := Option.some.inj hn
    simp
  · split at hn
    · obtain rfl := Option.some.inj hn
      simp
    · simp at hn
  · simp at hn

theorem uncached_reach (h : Reach polite maxSuberNum clients s) : ∀ i, (s.suber i).evtCached.contents = [] := by
  refine h.invariant (P := fun s => ∀ i, (s.suber i).evtCached.contents = [])
    (fun i => WrapRing.contents_of_eq rfl) fun s s' x hr hU _ hn i => ?_
  obtain ⟨t, a⟩ := x
  cases cacheStep_reach (noSelfUnsub_of_polite hr) hn i with
  | same h => rw [h, hU]
  | stored hf hp ht _ h =>
    -- the caller is an async thread, which posts without blocking
    obtain ⟨g, pc, hb⟩ := (threadInv_reach hr).async_of_tls (by simp [hf]) ht
    have ho := (politeInv_reach hr).of_post hf (by rw [hb]; rfl)
    rw [State.suber, nonBlock_keeps hf hp ho hn]
    exact hU i
  | retired _ _ h => simp [hU] at h
  | refilled _ _ h => exact h

/-- No thread replays a cached entry. -/
theorem entry_of_polite (h : Reach polite maxSuberNum clients s) (hh : s.halted = none) (u : Tid) :
    (s.base u).entry = none := by
  obtain ⟨hC, hH⟩ := cache_reach (fun _ _ h => h) (owned_reach (noSelfUnsub_of_polite h)).1
  by_contra hne
  obtain ⟨⟨i, p⟩, he⟩ := Option.ne_none_iff_exists'.mp hne
  have hcons := ((hC i).pop (hH hh u i p he).head).2.1
  simp [uncached_reach h] at hcons

/-! ### The context mutex -/

/-- The context mutex is held as often as the calls in progress hold it. -/
def HeldInv (s : State abi) : Prop := ∀ t, s.depth t = holdCount (s.frames t)

/-- `subEVT` finds a free slot whenever the count says that there is one. -/
theorem CountInv.exists_free (hC : CountInv s) (hL : LockInv s) {f : SubFrame} (hf : s.frames t = .sub f :: rest)
    {m : RecMutex Tid} (hm : RecMutex.tryLock s.ctx.mutex t = some m) (hc : ¬ s.ctx.curSuberNum ≥ s.ctx.maxSuberNum) :
    s.ctx.allocSubers.freeSuberIdx ≠ none := by
  intro hi
  obtain ⟨hlt, -, hfull⟩ := Ctx.fullUncounted_of_none hc hi
  rcases hC.count with hall | hcount
  · exact not_unsubAll_of_holder hL (fun u hu => eq_of_tryLock hm hu) (by simp [hf]) hall
  · rw [Ctx.occupiedNum_eq_max.mpr hfull] at hcount
    rw [BitVec.lt_def, hcount] at hlt
    exact lt_irrefl _ hlt

theorem heldInv_self (hL : LockInv s) (hC : CountInv s) (hh : s.depth t = holdCount (s.frames t))
    (h : Trans s t a s') : s'.depth t = holdCount (s'.frames t) := by
  cases h
  case unsubSignal hf hp hw | postSignal hf hp hw | postRetrySignal hf hp hw =>
    obtain ⟨b, rfl, -⟩ := hw.eq
    simpa [State.depth, hf, hp, Frame.holds_unsub, Frame.holds_post] using hh
  case subNoSlot hf hm _ hc hi => exact absurd hi (hC.exists_free hL hf hm hc)
  case unsubLock hf hp hm _ | postLock hf hp hm _ =>
    have h₁ := RecMutex.held_tryLock hm
    simp [State.depth, hf, hp, Frame.holds_unsub, Frame.holds_post] at hh ⊢
    omega
  case unsubEnd hf hp _ | postEnd hf hp _ =>
    simp [State.depth, hf, hp, Frame.holds_unsub, Frame.holds_post, RecMutex.held_unlock] at hh ⊢
    omega
  case unsubFreeDone hf hs _ =>
    simp [State.depth, hf, hs.pc_ne, Frame.holds_unsub, RecMutex.held_unlock] at hh ⊢
    omega
  case unsubFreeNext hf hs _ _ | unsubKeepNext hf hs _ _ =>
    simpa [State.depth, hf, hs.pc_ne, Frame.holds_unsub] using hh
  -- the other steps neither lock nor unlock, and keep the number of frames that hold
  all_goals simp [State.depth, Frame.holds_unsub, Frame.holds_post, *] at hh ⊢

theorem heldInv_reach (h : Reach polite maxSuberNum clients s) : HeldInv s := by
  refine (callsCount_of_polite h).induction (fun _ => rfl) fun s s' t _ hr hH _ _ h u => ?_
  by_cases hu : u = t
  · subst hu
    exact heldInv_self (lockInv_reach hr) (countInv_reach hr) (hH u) h
  · rw [h.frames_ne hu, h.depth_ne hu]
    exact hH u

/-- A thread that holds the context mutex has a call in progress. -/
theorem HeldInv.frames_ne_nil (hH : HeldInv s) (hd : 0 < s.depth t) : s.frames t ≠ [] := by
  intro hf
  have := hH t
  rw [hf, holdCount_nil] at this
  omega

end PlatIF.Ioc
