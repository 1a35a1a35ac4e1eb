import PlatIF.Ioc.Cache
import PlatIF.Ioc.Count
import PlatIF.Ioc.SlotOwner

/-!
# Where a callback comes from

A callback that runs was called through two pointers in a slot, for an event that came through a queue, or straight from
a post.  Both go back to one call of `subEVT`: its pointers, and an event that it asked for.

* `Made` — a subscription was made on the way to a state;
* `RouteInv` — slots, queues, hands and callbacks go back to subscriptions;
* `callback_routed` — the law, for every callback in progress.
-/

namespace PlatIF.Ioc

variable {abi : Abi} {s s' : State abi} {t u : Tid} {a : Act abi} {i g : ℕ} {d : EvtDesc abi} {x y : EvtSubArgs}
  {c : CbFrame abi} {ok : State abi → Tid × Act abi → Prop} {maxSuberNum : ULong abi} {clients : ℕ}

/-- On the way to `s` a call of `subEVT` with the arguments `x` filled slot `i` with subscription `g`. -/
def Made (ok : State abi → Tid × Act abi → Prop) (maxSuberNum : ULong abi) (clients : ℕ) (s : State abi) (g i : ℕ)
    (x : EvtSubArgs) : Prop :=
  ∃ s₁ s₂ t a, Reach ok maxSuberNum clients s₁ ∧ ok s₁ (t, a) ∧ next s₁ (t, a) = some s₂ ∧
    Subscribes s₁ s₂ t x i g ∧ Runs.ReachUnder next ok s₂ s

theorem Made.step (h : Made ok maxSuberNum clients s g i x) (hok : ok s (t, a)) (hn : next s (t, a) = some s') :
    Made ok maxSuberNum clients s' g i x := by
  obtain ⟨s₁, s₂, t₁, a₁, hr, hok₁, hn₁, hsub, hrun⟩ := h
  exact ⟨s₁, s₂, t₁, a₁, hr, hok₁, hn₁, hsub, hrun.tail (t, a) hok hn⟩

/-- The slot has the pointers of the subscription, and lists no more than it asked for. -/
structure EvtSubArgs.Copies (y x : EvtSubArgs) (abi : Abi) : Prop where
  cbProcEvtF : y.cbProcEvtF = x.cbProcEvtF
  pCbPriv : y.pCbPriv = x.pCbPriv
  lists : ∀ d : EvtDesc abi, y.lists d = true → x.lists d = true

/-- `subEVT` copies the identifiers, if it gets the memory for them. -/
theorem copies_filled (x : EvtSubArgs) (malloc : Bool) (abi : Abi) :
    EvtSubArgs.Copies { x with pEvtIDs := if malloc then some (x.pEvtIDs.getD []) else none } x abi := by
  refine ⟨rfl, rfl, fun d hd => ?_⟩
  cases malloc with
  | false => simp [EvtSubArgs.lists] at hd
  | true =>
    cases hx : x.pEvtIDs with
    | none => simp [EvtSubArgs.lists, hx] at hd
    | some ids => simpa [EvtSubArgs.lists, hx] using hd

/-- The callback in progress is one of the subscription `x`, for an event that it asked for. -/
structure CbFrame.CalledFor (c : CbFrame abi) (x : EvtSubArgs) : Prop where
  cbProcEvtF : c.cbProcEvtF = x.cbProcEvtF
  pCbPriv : c.pCbPriv = x.pCbPriv
  lists : x.lists c.pEvtDesc = true

/-- What there is in slots, queues, hands and stacks goes back to subscriptions. -/
structure RouteInv (ok : State abi → Tid × Act abi → Prop) (maxSuberNum : ULong abi) (clients : ℕ) (s : State abi) :
    Prop where
  slot : ∀ i, (s.suber i).occupied → ∃ x, Made ok maxSuberNum clients s (s.sid i) i x ∧ (s.suber i).args.Copies x abi
  queue : ∀ i, (s.suber i).occupied → ∀ d, d ∈ (s.suber i).evtQueue.contents → (s.suber i).args.lists d = true
  hand : ∀ u i g d, s.base u = .async i g (.call d) → (s.suber i).args.lists d = true
  callback : ∀ u c, .cb c ∈ s.frames u → ∃ x, Made ok maxSuberNum clients s c.sid c.suberIdx x ∧ c.CalledFor x

/-! ### Callbacks -/

/-- A callback that is called now is called through its slot. -/
structure CbFrame.Through (c : CbFrame abi) (s : State abi) : Prop where
  cbProcEvtF : c.cbProcEvtF = (s.suber c.suberIdx).args.cbProcEvtF
  pCbPriv : c.pCbPriv = (s.suber c.suberIdx).args.pCbPriv
  sid : c.sid = s.sid c.suberIdx
  occupied : (s.suber c.suberIdx).occupied
  source : (s.suber c.suberIdx).args.lists c.pEvtDesc = true ∨
    ∃ u g, s.base u = .async c.suberIdx g (.call c.pEvtDesc)

/-- A callback in progress was in progress before, or is called now. -/
theorem Trans.callback (h : Trans s t a s') (hc : .cb c ∈ s'.frames u) : .cb c ∈ s.frames u ∨ c.Through s := by
  by_cases hu : u = t
  · subst hu
    have htail : ∀ {f : Frame abi} {rest : List (Frame abi)}, s.frames u = f :: rest → .cb c ∈ rest →
        .cb c ∈ s.frames u := fun hf hmem => hf ▸ List.mem_cons_of_mem _ hmem
    cases h
    case call api _ =>
      refine .inl ((List.mem_cons.mp (by simpa using hc)).resolve_left fun h => ?_)
      cases api <;> simp [State.frameOf] at h
    case cbRetPost hf _ =>
      exact .inl (htail hf (List.mem_cons_of_mem _ (by simpa using hc)))
    case cbRetAsync => simp at hc
    case subFull hf _ _ | subNoSlot hf _ _ _ _ | subFill hf _ _ _ | unsubNotFound hf _ _ _ |
        unsubEnd hf _ _ | unsubFreeDone hf _ _ | postNotFound hf _ _ _ | postBusy hf _ _ _ |
        postCache hf _ _ _ _ _ _ | postCacheFull hf _ _ _ _ _ _ | postEnd hf _ _ =>
      exact .inl (htail hf (by simpa using hc))
    case unsubLock hf _ _ _ | unsubStop hf _ _ _ _ | unsubSkip hf _ _ _ | unsubSetFlag hf _ _ |
        unsubFreeNext hf _ _ _ | unsubKeepNext hf _ _ _ | postLock hf _ _ _ | postSkip hf _ _ _ |
        postASync hf _ _ _ _ | postAccept hf _ _ _ | postFull hf _ _ _ _ | postRetry hf _ _ _ _ _ =>
      exact .inl (htail hf (by simpa using hc))
    case unsubSignal hf _ hw | postSignal hf _ hw | postRetrySignal hf _ hw =>
      obtain ⟨b, rfl, -⟩ := hw.eq
      exact .inl (htail hf (by simpa using hc))
    case postSync i hf hp hi hl hs =>
      simp only [State.obs, State.setFrames, Function.update_self, List.mem_cons, Frame.cb.injEq, reduceCtorEq,
        false_or] at hc
      rcases hc with rfl | hmem
      · exact .inr ⟨rfl, rfl, rfl, EvtSubArgs.cb_ne_null_of_lists hl, .inl hl⟩
      · exact .inl (htail hf hmem)
    case asyncCall hf hb ho =>
      simp only [State.obs, State.setFrames, Function.update_self, List.mem_singleton, Frame.cb.injEq] at hc
      subst hc
      exact .inr ⟨rfl, rfl, rfl, ho, .inr ⟨_, _, hb⟩⟩
    case asyncReplay => simp at hc
    case cbWrite hf _ _ =>
      simp only [State.setFrames, Function.update_self, List.mem_cons, reduceCtorEq, false_or] at hc
      exact .inl (by simpa [hf] using hc)
    all_goals exact .inl (by simpa using hc)
  · exact .inl (h.frames_ne hu ▸ hc)

/-! ### Every step keeps the invariant -/

/-- The step that fills a slot makes the subscription. -/
theorem ArgsStep.subscribes (hA : ArgsStep s s' t a) (hs : s'.sid i = s.nextSid) (ho : ¬ (s.suber i).occupied)
    (ho' : (s'.suber i).occupied) :
    ∃ x, Subscribes s s' t x i s.nextSid ∧ (s'.suber i).args.Copies x abi := by
  have hsame : (s'.suber i).args ≠ (s.suber i).args := fun he => ho (by simpa only [Suber.occupied, he] using ho')
  have hfreed : ∀ k, (s'.suber k).args = (s.suber k).freed.args →
      (∀ j, j ≠ k → (s'.suber j).args = (s.suber j).args) → False := by
    intro k hx hne
    by_cases hik : i = k
    · subst hik
      rw [Suber.occupied, hx] at ho'
      exact Suber.freed_occupied _ ho'
    · exact hsame (hne i hik)
  cases hA with
  | @fill env f rest k hf ha hc hk hfree hx hne hcur =>
    obtain rfl : i = k := by
      by_contra hik
      exact hsame (hne i hik)
    exact ⟨f.pEvtSubArgs, ⟨⟨f, rest, hf, rfl⟩, rfl, hs⟩, hx ▸ copies_filled f.pEvtSubArgs env.malloc abi⟩
  | same ha | clear hf hp hi ha => exact absurd (ha i) hsame
  | freeNext hf hst hn hf' hx hne | freeDone hf hst hk hf' hx hne => exact (hfreed _ hx hne).elim

/-- What is queued for a subscription was queued before, or is pushed now. -/
theorem SlotEffect.queued (h : SlotEffect s s' t i) (ho' : (s'.suber i).occupied)
    (hd : d ∈ (s'.suber i).evtQueue.contents) :
    (s'.suber i).args = (s.suber i).args ∧
      (d ∈ (s.suber i).evtQueue.contents ∨ ∃ f rest, s.frames t = .post f :: rest ∧ f.pc = .push i ∧ d = s.desc t f) := by
  cases h with
  | same h | flagged _ _ _ h | kept _ _ _ h | cached h =>
    rw [h] at hd ⊢
    exact ⟨rfl, .inl hd⟩
  | filled _ _ h => simp [h.evtQueue, WrapRing.contents, WrapRing.pending] at hd
  | freed _ _ h =>
    rw [h] at ho'
    exact absurd ho' (Suber.freed_occupied _)
  | started _ _ h => exact ⟨h.args, .inl (h.evtQueue ▸ hd)⟩
  | took _ hne h =>
    rw [h] at hd ⊢
    have hpop := WrapRing.contents_pop (s.suber i).evtQueue fun h0 => by
      rw [(WrapRing.isEmpty_iff_pending _).mpr h0] at hne
      simp at hne
    exact ⟨rfl, .inl (hpop ▸ List.mem_cons_of_mem _ hd)⟩
  | accepted hf hp hroom h =>
    have hpow : evtQueueMax < 2 ^ abi.ulongBits := lt_of_lt_of_le (by decide) abi.pow_le
    rw [h] at hd ⊢
    rw [WrapRing.contents_push (one_dvd _) hpow _ _ ((WrapRing.hasRoom_iff _).mp hroom), List.mem_append,
      List.mem_singleton] at hd
    exact ⟨rfl, hd.imp_right fun hd => ⟨_, _, hf, hp, hd⟩⟩

/-- A slot that is taken before and after a step has the arguments that it had. -/
theorem SlotEffect.args (h : SlotEffect s s' t i) (ho : (s.suber i).occupied) (ho' : (s'.suber i).occupied) :
    (s'.suber i).args = (s.suber i).args := by
  cases h with
  | same h | flagged _ _ _ h | kept _ _ _ h | cached h | took _ _ h | accepted _ _ _ h => rw [h]
  | started _ _ h => exact h.args
  | filled hfree => exact absurd ho hfree
  | freed _ _ h =>
    rw [h] at ho'
    exact absurd ho' (Suber.freed_occupied _)

/-- A thread that keeps what it has taken stands at the same call. -/
theorem BaseNext.call_of_taken (h : BaseNext s s' u) (htk : (s'.base u).taken = (s.base u).taken)
    (hb : s'.base u = .async i g (.call d)) : s.base u = .async i g (.call d) := by
  rw [hb] at htk
  cases h with
  | same h => rw [← h, hb]
  | @moved j k pc pc' h h' =>
    rw [hb] at h'
    obtain ⟨rfl, rfl, rfl⟩ := Base.async.inj h'
    rw [h] at htk ⊢
    cases pc <;> simp_all [Base.taken]
  | ended h h' => simp [hb] at h'
  | created hu hx hx' h' => simp [hb] at h'

/-- What a thread has in its hand it had before, or takes now from the head of its queue. -/
theorem Effect.inHand (h : Effect s s' t) (hstep : Trans s t a s') (hT : ThreadInv s)
    (hb : s'.base u = .async i g (.call d)) :
    s.base u = .async i g (.call d) ∨
      s.RunsOn u i ∧ (s.suber i).evtQueue.isEmpty = false ∧ d = (s.suber i).evtQueue.front := by
  have hsame : (s'.base u).taken = (s.base u).taken → s.base u = .async i g (.call d) := fun htk =>
    (hstep.base_next hT u).call_of_taken htk hb
  cases h
  case quiet h | flagged h | freed h | kept h | started h => exact .inl (hsame (h.taken u))
  case filled hb' => exact .inl (hb' ▸ hb)
  case accepted ht | stored ht | retired ht => exact .inl (hsame (ht u))
  case took j k pc hf hb₀ hpc he hc hs hn hl hb' =>
    rw [hb'] at hb
    by_cases hu : u = t
    · subst hu
      rw [Function.update_self] at hb
      obtain ⟨rfl, rfl, hd⟩ := Base.async.inj hb
      exact .inr ⟨⟨_, _, hb₀⟩, he, (AsyncPc.call.inj hd).symm⟩
    · exact .inl (by rwa [Function.update_of_ne hu] at hb)
  case called hb' =>
    rw [hb'] at hb
    by_cases hu : u = t
    · subst hu
      simp at hb
    · exact .inl (by rwa [Function.update_of_ne hu] at hb)

theorem routeInv_trans (hr : Reach slotOwnerOk maxSuberNum clients s) (hok : slotOwnerOk s (t, a))
    (hn : next s (t, a) = some s') (hR : RouteInv slotOwnerOk maxSuberNum clients s) :
    RouteInv slotOwnerOk maxSuberNum clients s' := by
  have hr' : Reach slotOwnerOk maxSuberNum clients s' := hr.tail (t, a) hok hn
  have hT := threadInv_reach hr
  have hA := allocInv_reach hr
  have hI := slotInv_reach hr
  have h := (next_trans hn).2
  have he := h.effect hT hA
  constructor
  case slot =>
    intro i ho'
    rcases he.live ho' with ⟨hs, -⟩ | ⟨hs, ho, hargs⟩
    · have ho : ¬ (s.suber i).occupied := by
        cases he.slot i with
        | filled hfree => exact hfree
        | same h hsid | flagged _ _ _ h hsid | freed _ _ h hsid | kept _ _ _ h hsid | started _ _ h _ _ hsid
        | accepted _ _ _ h _ _ hsid | took _ _ h hsid | cached h hsid =>
          have := hI.sid_lt i
          omega
      obtain ⟨x, hsub, hcopy⟩ := (h.argsStep hA).subscribes hs ho ho'
      exact ⟨x, ⟨s, s', t, a, hr, hok, hn, hs ▸ hsub, .refl⟩, hcopy⟩
    · obtain ⟨x, hmade, hcopy⟩ := hR.slot i ho
      exact ⟨x, hs ▸ hmade.step hok hn, hargs ▸ hcopy⟩
  case queue =>
    intro i ho' d hd
    obtain ⟨hargs, hd | ⟨f, rest, hf, hp, rfl⟩⟩ := (he.slot i).queued ho' hd
    · exact hargs ▸ hR.queue i (by simpa only [Suber.occupied, hargs] using ho') d hd
    · rw [hargs, desc_of_noReuse (fun _ _ h => h.1) hr (next_trans hn).1 hf]
      exact lists_of_slot (fun _ _ h => h.1) hr hf (by rw [hp]; rfl)
  case hand =>
    intro u i g d hb
    have ho' := occupied_of_call hr' hb
    rcases he.inHand h hT hb with hb | ⟨hrun, hne, rfl⟩
    · exact (he.slot i).args (occupied_of_call hr hb) ho' ▸ hR.hand u i g d hb
    · -- a thread finds nothing in the queue of a slot that is free
      have ho : (s.suber i).occupied := by
        by_contra ho
        rw [(idleInv_reach hr u i hrun ho).1] at hne
        cases hne
      refine (he.slot i).args ho ho' ▸ hR.queue i ho _ ?_
      rw [WrapRing.contents_pop _ fun h0 => by simp [(WrapRing.isEmpty_iff_pending _).mpr h0] at hne]
      exact List.mem_cons_self
  case callback =>
    intro u c hc
    rcases h.callback hc with hc | hc
    · obtain ⟨x, hmade, hfor⟩ := hR.callback u c hc
      exact ⟨x, hmade.step hok hn, hfor⟩
    · obtain ⟨x, hmade, hcopy⟩ := hR.slot c.suberIdx hc.occupied
      refine ⟨x, hc.sid ▸ hmade.step hok hn, hc.cbProcEvtF.trans hcopy.cbProcEvtF, hc.pCbPriv.trans hcopy.pCbPriv,
        hcopy.lists _ ?_⟩
      rcases hc.source with hl | ⟨u, g, hb⟩
      · exact hl
      · exact hR.hand u _ g _ hb

theorem routeInv_init : RouteInv ok maxSuberNum clients (.init maxSuberNum clients) where
  slot i ho := absurd rfl ho
  queue i ho := absurd rfl ho
  hand u i g d hb := (State.init_base_ne _ _ _ _ _ _ hb).elim
  callback u c hc := by simp [State.init] at hc

theorem routeInv_reach (h : Reach slotOwnerOk maxSuberNum clients s) : RouteInv slotOwnerOk maxSuberNum clients s :=
  Runs.ReachUnder.invariant routeInv_init (fun _ _ _ hr hR hok hn => routeInv_trans hr hok hn hR) h

/-! ### The law -/

/-- **Routing.**  Whatever the threads do, a callback in progress was called for one call of `subEVT`: through the
pointers that it gave, and for an event that it asked for.  This holds for the callbacks of an async thread and for
those of a SYNC post. -/
theorem callback_routed (h : Reach slotOwnerOk maxSuberNum clients s) (hc : .cb c ∈ s.frames u) :
    ∃ x, Made slotOwnerOk maxSuberNum clients s c.sid c.suberIdx x ∧ c.CalledFor x :=
  (routeInv_reach h).callback u c hc

theorem State.cb_mem_of_topCb (h : s.topCb u = some c) : .cb c ∈ s.frames u := by
  unfold State.topCb at h
  split at h
  · rename_i hf
    rw [hf, Option.some.inj h]
    exact List.mem_cons_self
  · cases h

/-- The first callback of a run is one of the first subscription. -/
theorem callback_routed_first :
    ∃ (s : State lp64) (c : CbFrame lp64) (x : EvtSubArgs), .cb c ∈ s.frames 1 ∧ c.sid = 1 ∧
      Made slotOwnerOk 1 1 s 1 c.suberIdx x ∧ c.CalledFor x := by
  obtain ⟨s, hr, hs⟩ := reach_of_run slotOwnerOk (1 : ULong lp64) 1 (firstCallback 0)
    (fun s => (s.topCb 1).any fun c => c.sid == 1) (by decide +kernel)
  simp only [Option.any_eq_true, beq_iff_eq] at hs
  obtain ⟨c, htop, hsid⟩ := hs
  have hc := State.cb_mem_of_topCb htop
  obtain ⟨x, hmade, hfor⟩ := callback_routed hr hc
  exact ⟨s, c, x, hc, hsid, hsid ▸ hmade, hfor⟩

end PlatIF.Ioc
