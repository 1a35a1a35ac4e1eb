import PlatIF.Ioc.Delivery

/-!
# Unsubscribing is a barrier

After `unsubEVT` has taken a subscription out of its slot, nothing of it is left: all that was accepted for it
has been delivered, its callback runs nowhere and is never called again, and the next subscription in the slot
starts from zero (`unsub_barrier`).

* `Stack.cb_mem` — where callbacks stand on a stack;
* `CbInv` — a callback that an async thread runs belongs to the subscription the thread works for;
* `Removed` — what is true of a subscription from its removal on.
-/

namespace PlatIF.Ioc

variable {abi : Abi} {s s' s₁ : State abi} {t u : Tid} {a : Act abi} {i g : ℕ} {c : CbFrame abi}
  {rest : List (Frame abi)} {maxSuberNum : ULong abi} {clients : ℕ}

/-! ### Callbacks in progress -/

/-- A callback on a stack of user code is at its bottom, run by the async loop, or a SYNC post waits for it. -/
theorem UserStack.cb_mem {b : Base abi} {fs : List (Frame abi)} (h : UserStack b fs) (hc : .cb c ∈ fs) :
    (∃ d g, b = .async c.suberIdx g (.inCb d) ∧ fs.getLast? = some (.cb c)) ∨
      ∃ p i, .post p ∈ fs ∧ p.pc = .inCb i := by
  induction h with
  | client hb => simp at hc
  | @async f i g d hb hi =>
    obtain rfl : c = f := by simpa using hc
    subst hi
    exact .inl ⟨d, g, hb, rfl⟩
  | sync hp _ _ _ _ => exact .inr ⟨_, _, by simp, hp⟩
  | replay hp _ _ _ _ _ => exact .inr ⟨_, _, by simp, hp⟩

theorem getLast?_cons_of_some {x f : Frame abi} (h : rest.getLast? = some f) :
    (x :: rest).getLast? = some f := by
  simp [List.getLast?_cons, h]

/-- Under an API call the bottom of the stack is the bottom of what the call stands on. -/
theorem getLast?_of_api {x : Frame abi} (hx : x.isApi = true) (h : (x :: rest).getLast? = some (.cb c)) :
    rest.getLast? = some (.cb c) := by
  rw [List.getLast?_cons, Option.some.injEq] at h
  cases hr : rest.getLast? with
  | none =>
    rw [hr, Option.getD_none] at h
    simp [h, Frame.isApi] at hx
  | some f =>
    rw [hr, Option.getD_some] at h
    rw [h]

theorem Stack.cb_mem {b : Base abi} {fs : List (Frame abi)} (h : Stack b fs) (hc : .cb c ∈ fs) :
    (∃ d g, b = .async c.suberIdx g (.inCb d) ∧ fs.getLast? = some (.cb c)) ∨
      ∃ p i, .post p ∈ fs ∧ p.pc = .inCb i := by
  have hunder : ∀ {x : Frame abi} {rest}, UserStack b rest → x.isApi = true → .cb c ∈ x :: rest →
      (∃ d g, b = .async c.suberIdx g (.inCb d) ∧ (x :: rest).getLast? = some (.cb c)) ∨
        ∃ p i, .post p ∈ x :: rest ∧ p.pc = .inCb i := fun {x rest} hu hx hc => by
    have hc' : .cb c ∈ rest := by
      rcases List.mem_cons.mp hc with rfl | hc
      · simp [Frame.isApi] at hx
      · exact hc
    rcases hu.cb_mem hc' with ⟨d, g, hb, hl⟩ | ⟨p, i, hp, hpc⟩
    · exact .inl ⟨d, g, hb, getLast?_cons_of_some hl⟩
    · exact .inr ⟨p, i, List.mem_cons_of_mem _ hp, hpc⟩
  cases h with
  | user h => exact h.cb_mem hc
  | sub h => exact hunder h rfl hc
  | unsub h => exact hunder h rfl hc
  | post _ _ h => exact hunder h rfl hc
  | replay => simp at hc
  | idle => simp at hc
  | gone => simp at hc

/-- The callback at the bottom of a stack was there before, or the async loop just called it. -/
theorem Trans.bottom (h : Trans s t a s') (hc : (s'.frames t).getLast? = some (.cb c)) :
    (s.frames t).getLast? = some (.cb c) ∨
      ∃ i g d, s.base t = .async i g (.call d) ∧ c.sid = s.sid i ∧ (s.suber i).occupied := by
  cases h
  case call api _ =>
    simp only [State.setFrames, Function.update_self] at hc
    exact .inl (getLast?_of_api (by cases api <;> rfl) hc)
  case asyncCall i g d hf hb ho =>
    simp only [State.setFrames, State.setBase, State.obs, Function.update_self, List.getLast?_singleton,
      Option.some.injEq, Frame.cb.injEq] at hc
    exact .inr ⟨i, g, d, hb, by rw [← hc], ho⟩
  case asyncReplay => simp at hc
  case cbRetAsync => simp at hc
  case cbRetPost hf _ =>
    simp only [State.setFrames, State.obs, Function.update_self] at hc
    rw [hf]
    exact .inl (getLast?_cons_of_some (getLast?_cons_of_some (getLast?_of_api rfl hc)))
  case cbWrite hf _ _ =>
    simp only [State.setFrames, Function.update_self, List.getLast?_cons_cons] at hc
    rw [hf]
    exact .inl (getLast?_cons_of_some (getLast?_cons_of_some (getLast?_of_api rfl hc)))
  case postSync hf _ _ _ _ =>
    simp only [State.setFrames, State.obs, Function.update_self, List.getLast?_cons_cons] at hc
    rw [hf]
    exact .inl (getLast?_cons_of_some (getLast?_of_api rfl hc))
  case subFull hf _ _ | subNoSlot hf _ _ _ _ | subFill hf _ _ _ | unsubNotFound hf _ _ _ |
      unsubEnd hf _ _ | unsubFreeDone hf _ _ | postNotFound hf _ _ _ | postBusy hf _ _ _ |
      postCache hf _ _ _ _ _ _ | postCacheFull hf _ _ _ _ _ _ | postEnd hf _ _ =>
    rw [hf]
    exact .inl (getLast?_cons_of_some (by simpa using hc))
  case unsubSignal hf _ hw | postSignal hf _ hw | postRetrySignal hf _ hw =>
    obtain ⟨b, rfl, -⟩ := hw.eq
    simp only [State.setFrames, Function.update_self] at hc
    rw [hf]
    exact .inl (getLast?_cons_of_some (getLast?_of_api rfl hc))
  case unsubLock hf _ _ _ | unsubStop hf _ _ _ _ | unsubSkip hf _ _ _ | unsubSetFlag hf _ _ |
      unsubFreeNext hf _ _ _ | unsubKeepNext hf _ _ _ | postLock hf _ _ _ | postSkip hf _ _ _ |
      postASync hf _ _ _ _ | postAccept hf _ _ _ | postFull hf _ _ _ _ | postRetry hf _ _ _ _ _ =>
    simp only [State.setFrames, State.setMutex, State.setCtx, State.setSuber, State.freeSlot, State.detach,
      State.obs, Function.update_self] at hc
    rw [hf]
    exact .inl (getLast?_cons_of_some (getLast?_of_api rfl hc))
  all_goals exact .inl (by simpa using hc)

/-- The callback that the async loop runs belongs to the subscription its thread works for. -/
def CbInv (s : State abi) : Prop :=
  ∀ u c, (s.frames u).getLast? = some (.cb c) → ∀ i g pc, s.base u = .async i g pc → c.sid = g

theorem cbInv_trans (hT : ThreadInv s) (hO : OwnInv s) (hC : CbInv s) (h : Trans s t a s') :
    CbInv s' := by
  intro u c hc i g pc hb
  have hold : (s.frames u).getLast? = some (.cb c) → c.sid = g := fun hc => by
    cases h.base_next hT u with
    | same h' => exact hC u c hc i g pc (h' ▸ hb)
    | moved h₁ h₂ =>
      rw [hb] at h₂
      cases h₂
      exact hC u c hc i g _ h₁
    | ended _ h₂ => simp [hb] at h₂
    | created hu =>
      have hS := hT.stack u
      rw [(hT.fresh u hu.ge).1] at hS
      simp [hS.of_gone] at hc
  by_cases hu : u = t
  · subst hu
    rcases h.bottom hc with hc | ⟨j, k, d, hb₀, hs, -⟩
    · exact hold hc
    · rw [hs]
      cases h.base_next hT u with
      | same h' =>
        rw [h', hb₀] at hb
        cases hb
        exact (hO.sid u i g _ hb₀).symm
      | moved h₁ h₂ =>
        rw [hb₀] at h₁
        cases h₁
        rw [hb] at h₂
        cases h₂
        exact (hO.sid u i g _ hb₀).symm
      | ended _ h₂ => simp [hb] at h₂
      | created hu => simp [(hT.fresh u hu.ge).1] at hb₀
  · rw [h.frames_ne hu] at hc
    exact hold hc

theorem cbInv_reach (h : Reach (fun s x => noReuse s x = true) maxSuberNum clients s) : CbInv s :=
  h.induction (fun u c hc => by simp [State.init] at hc) fun _ _ _ _ hr hC _ _ h =>
    cbInv_trans (threadInv_reach hr) (ownInv_reach (fun _ _ h => h) hr) hC h

/-! ### After the removal -/

/-- The calls of the callback of subscription `g`, by an async thread or a SYNC post. -/
def invocations (g : ℕ) (log : List (Obs abi)) : List (Tid × EvtDesc abi) :=
  log.filterMap fun
    | .deliver g' t d | .syncCall g' t d => if g' = g then some (t, d) else none
    | _ => none

/-- Subscription `g` is in no slot, its callback is not running, and its number is not given again. -/
structure Removed (g : ℕ) (s : State abi) : Prop where
  lt : g < s.nextSid
  free : ∀ i, s.sid i = g → ¬ (s.suber i).occupied
  quiet : ∀ u c, .cb c ∈ s.frames u → c.sid ≠ g

/-- A callback on the stack was there before, or was just called for a taken slot. -/
theorem Trans.cb_new (h : Trans s t a s') (hc : .cb c ∈ s'.frames t) :
    .cb c ∈ s.frames t ∨
      ∃ i, (s.suber i).occupied ∧ c.sid = s.sid i ∧ ∀ f rest, s.frames t ≠ .unsub f :: rest := by
  cases h
  case call api _ =>
    cases api <;> exact .inl (by simpa [State.frameOf] using hc)
  case asyncCall i g d hf hb ho =>
    simp only [State.setFrames, State.setBase, State.obs, Function.update_self, List.mem_singleton,
      Frame.cb.injEq] at hc
    exact .inr ⟨i, ho, by rw [hc], by simp [hf]⟩
  case postSync i hf _ _ hl _ =>
    simp only [State.setFrames, State.obs, Function.update_self, List.mem_cons, Frame.cb.injEq,
      reduceCtorEq, false_or] at hc
    rcases hc with hc | hc
    · exact .inr ⟨i, EvtSubArgs.cb_ne_null_of_lists hl, by rw [hc], by simp [hf]⟩
    · exact .inl (by simp [hf, hc])
  case unsubSignal hf _ hw | postSignal hf _ hw | postRetrySignal hf _ hw =>
    obtain ⟨b, rfl, -⟩ := hw.eq
    exact .inl (by simpa [hf] using hc)
  all_goals
    refine .inl ?_
    simp_all

theorem removed_trans (hD : Removed g s) (h : Trans s t a s') (he : Effect s s' t) : Removed g s' where
  lt := hD.lt.trans_le he.nextSid_le
  free i hi := by
    rcases he.sid with ⟨hs, -, ho⟩ | ⟨k, -, hs, -, -, hslot⟩
    · exact fun h' => hD.free i (hs ▸ hi) (ho i h')
    · have hik : i ≠ k := fun hik => by
        have := hD.lt
        rw [hs, hik, Function.update_self] at hi
        omega
      rw [hslot i hik]
      rw [hs, Function.update_of_ne hik] at hi
      exact hD.free i hi
  quiet u c hc := by
    by_cases hu : u = t
    · subst hu
      rcases h.cb_new hc with hc | ⟨i, ho, hs, -⟩
      · exact hD.quiet u c hc
      · exact fun hg => hD.free i (hs.symm.trans hg) ho
    · rw [h.frames_ne hu] at hc
      exact hD.quiet u c hc

theorem invocations_append (l os : List (Obs abi)) : invocations g (l ++ os) = invocations g l ++ invocations g os :=
  List.filterMap_append

/-- A step that logs no call of the callback. -/
theorem invocations_of_log {os : List (Obs abi)} (hl : s'.log = s.log ++ os) (ho : invocations g os = []) :
    invocations g s'.log = invocations g s.log := by
  rw [hl, invocations_append, ho, List.append_nil]

/-- The callback of a removed subscription is not called. -/
theorem Removed.invocations_eq (hD : Removed g s) (h : Trans s t a s') :
    invocations g s'.log = invocations g s.log := by
  have hne : ∀ {i}, (s.suber i).occupied → s.sid i ≠ g := fun ho hs => hD.free _ hs ho
  cases h
  case asyncCall ho => exact invocations_of_log rfl (by simp [invocations, hne ho])
  case postSync hl _ => exact invocations_of_log rfl (by simp [invocations, hne (EvtSubArgs.cb_ne_null_of_lists hl)])
  case unsubSignal hw | postSignal hw | postRetrySignal hw =>
    obtain ⟨b, rfl, -⟩ := hw.eq
    rfl
  case unsubFreeNext | unsubFreeDone =>
    simp only [invocations, State.setFrames, State.freeSlot, State.ret_eq, State.setCtx, List.filterMap_append]
    split <;> simp
  case postNotFound | postBusy | postCacheFull | postEnd => exact invocations_of_log (by simp; rfl) rfl
  case postCache | subFill | postAccept | haltRetire => simp [invocations]
  case postFull | postRetry | haltPush => simp
  case subFull | subNoSlot | unsubNotFound | unsubEnd | cbRetPost | cbRetAsync | asyncRetire =>
    exact invocations_of_log rfl rfl
  all_goals rfl

/-- Nothing is accepted for a removed subscription. -/
theorem Removed.ledger_eq (hD : Removed g s) (hH : HolderInv s) (he : Effect s s' t) :
    accepted g s'.log = accepted g s.log ∧ delivered g s'.log = delivered g s.log := by
  have hne : ∀ {i}, (s.suber i).occupied → s.sid i ≠ g := fun ho hs => hD.free _ hs ho
  have hsame : flow s'.log = flow s.log →
      accepted g s'.log = accepted g s.log ∧ delivered g s'.log = delivered g s.log := fun hl =>
    ⟨congrArg Ledger.accepted (ledger_same hl g), congrArg Ledger.delivered (ledger_same hl g)⟩
  have hother : ∀ {o : Obs abi}, flow s'.log = flow s.log ++ [o] → o.about ≠ some g →
      accepted g s'.log = accepted g s.log ∧ delivered g s'.log = delivered g s.log := fun hl ho =>
    ⟨congrArg Ledger.accepted (ledger_other hl ho), congrArg Ledger.delivered (ledger_other hl ho)⟩
  cases he
  case quiet h | flagged h | freed h | kept h | started h => exact hsame h.flow
  case filled hl _ => exact hsame hl
  case took hl _ => exact hsame hl
  case accepted k _ hf hp _ _ _ _ _ _ hl _ =>
    have hocc := (hH.post t _ _ k hf (by rw [hp]; rfl)).occupied
    exact hother hl (by simpa [Obs.about] using hne hocc)
  case called ho _ _ _ hl _ => exact hother hl (by simpa [Obs.about] using hne ho)
  case stored hl _ | retired hl _ =>
    rw [accepted_of_flow hl, delivered_of_flow hl]
    simp [accepted, delivered]

/-- A subscription that another thread takes out of its slot is removed at once. -/
theorem removed_of_freed (hr : Reach (fun s x => noSelfUnsub s x = true) maxSuberNum clients s)
    (hok : noSelfUnsub s (t, a) = true) (h : Trans s t a s') (ho : (s.suber i).occupied)
    (hfree : ¬ (s'.suber i).occupied) (hcb : ∀ c, .cb c ∈ s.frames t → c.sid ≠ s.sid i) :
    Removed (s.sid i) s' := by
  have hT := threadInv_reach hr
  have hL := lockInv_reach hr
  have hI := slotInv_reach hr
  have he := h.effect hT (allocInv_reach hr)
  obtain ⟨hr', hW⟩ := owned_reach hr
  obtain ⟨f, rest, hf, hst⟩ := he.freed_at ho hfree
  have hstop : ∀ u, ¬ s.RunsOn u i := fun u => hW.stopped hok hf hst
  have hd := hL.unsub_holder hf hst.pc_ne
  -- no thread is in a callback of the subscription
  have hquiet : ∀ u c, .cb c ∈ s.frames u → c.sid ≠ s.sid i := fun u c hc hs => by
    by_cases hu : u = t
    · exact hcb c (hu ▸ hc) hs
    · rcases (hT.stack u).cb_mem hc with ⟨d, g, hb, hl⟩ | ⟨p, j, hp, hpc⟩
      · have hg := cbInv_reach hr' u c hl _ _ _ hb
        have hsid := (ownInv_reach (fun _ _ h => h) hr').sid u _ _ _ hb
        have hslot := hI.sid_inj i c.suberIdx (by rw [← hs, hg, hsid]) (hI.sid_pos i ho)
        exact hstop u ⟨g, _, hslot ▸ hb⟩
      · have hu' := hL.holder hp (by simp [Frame.holds_post, hpc])
        exact hu (RecMutex.held_unique hu' hd)
  refine ⟨(hI.sid_lt i).trans_le he.nextSid_le, fun j hj hj' => ?_, fun u c hc => ?_⟩
  · obtain rfl : i = j := by
      rcases he.sid with ⟨hs, -⟩ | ⟨k, -, hs, -⟩
      · exact hI.sid_inj i j (by rw [← hj, hs]) (hI.sid_pos i ho)
      · have := hI.sid_lt i
        rw [hs, Function.update_apply] at hj
        split at hj
        · omega
        · exact hI.sid_inj i j hj.symm (hI.sid_pos i ho)
    exact hfree hj'
  · by_cases hu : u = t
    · subst hu
      rcases h.cb_new hc with hc | ⟨-, -, -, hne⟩
      · exact hquiet u c hc
      · exact absurd hf (hne f rest)
    · rw [h.frames_ne hu] at hc
      exact hquiet u c hc

/-! ### The barrier -/

/-- What slot `j` holds and counts is about the subscription in it, and its exit flag is set only by a call
that stops this subscription. -/
structure OwnAccount (s : State abi) (j : ℕ) : Prop where
  channel : accepted (s.sid j) s.log =
    delivered (s.sid j) s.log ++ s.inHand j ++ (s.suber j).evtQueue.contents
  evtPostCnt : (s.suber j).evtQueue.postCnt = BitVec.ofNat _ (accepted (s.sid j) s.log).length
  evtProcCnt : (s.suber j).evtQueue.procCnt =
    BitVec.ofNat _ (delivered (s.sid j) s.log ++ s.inHand j).length
  evtPostCachedCnt : (s.suber j).evtCached.postCnt = BitVec.ofNat _ (stores (s.sid j) s.log).length
  evtProcCachedCnt : (s.suber j).evtCached.procCnt = BitVec.ofNat _ (retires (s.sid j) s.log).length
  flag : (s.suber j).shouldExitASyncThread = true →
    ∃ u f rest, s.frames u = .unsub f :: rest ∧ f.pc.flagged = true ∧ f.pc.slot = some j

theorem ownAccount (hr : Reach (fun s x => noSelfUnsub s x = true) maxSuberNum clients s) {j : ℕ}
    (ho : (s.suber j).occupied) : OwnAccount s j := by
  have hC := countersInv_reach hr j
  have hF := (flowInv_reach hr).channel j
  refine ⟨hF, hC.evtPostCnt, ?_, hC.evtPostCachedCnt, hC.evtProcCachedCnt,
    fun hx => flagInv_reach hr j hx ho⟩
  -- the post counter is ahead of the other by what is queued
  have hpost := (s.suber j).evtQueue.postCnt_eq
  have hlen := congrArg List.length hF
  rw [List.length_append, WrapRing.contents_length] at hlen
  rw [hC.evtPostCnt, hlen, BitVec.ofNat_add] at hpost
  exact (add_right_cancel hpost).symm

/-- **Unsubscribing is a barrier.**  Let a step of `t` take the subscription `s.sid i` out of its slot, with
`t` not inside a callback of it.  In every state from then on: all that was ever accepted for it has been
delivered, once and in order; its callback is not running and has not been called again; and every live
subscription, one in the same slot too, is another one that holds and counts only what is its own. -/
theorem unsub_barrier (hr : Reach (fun s x => noSelfUnsub s x = true) maxSuberNum clients s)
    (hok : noSelfUnsub s (t, a) = true) (hn : next s (t, a) = some s₁) (ho : (s.suber i).occupied)
    (hfree : ¬ (s₁.suber i).occupied) (hcb : ∀ c, .cb c ∈ s.frames t → c.sid ≠ s.sid i)
    (hs : Runs.ReachUnder next (fun s x => noSelfUnsub s x = true) s₁ s') :
    accepted (s.sid i) s'.log = accepted (s.sid i) s₁.log ∧
      delivered (s.sid i) s'.log = accepted (s.sid i) s'.log ∧
      (∀ u c, .cb c ∈ s'.frames u → c.sid ≠ s.sid i) ∧
      invocations (s.sid i) s'.log = invocations (s.sid i) s₁.log ∧
      ∀ j, (s'.suber j).occupied → s'.sid j ≠ s.sid i ∧ OwnAccount s' j := by
  have hr₁ : Reach (fun s x => noSelfUnsub s x = true) maxSuberNum clients s₁ := hr.tail _ hok hn
  obtain ⟨-, h⟩ := next_trans hn
  have hR₁ := removed_of_freed hr hok h ho hfree hcb
  have hsid : s₁.sid i = s.sid i := by
    rcases (h.effect (threadInv_reach hr) (allocInv_reach hr)).sid with ⟨hs, -⟩ | ⟨k, hk, hs, -⟩
    · rw [hs]
    · have hik : i ≠ k := fun hik => hk (hik ▸ ho)
      rw [hs, Function.update_of_ne hik]
  have hdel : delivered (s.sid i) s₁.log = accepted (s.sid i) s₁.log := by
    have hnone : (s₁.suber i).asyncThreadID = none := by
      by_contra hx
      obtain ⟨u, hu⟩ := Option.ne_none_iff_exists'.mp hx
      exact hfree ((slotInv_reach hr₁).thread i u hu).occupied
    have hF := (flowInv_reach hr₁).channel i
    rw [State.inHand_of_none hnone, (flowInv_reach hr₁).idle i hnone, hsid] at hF
    exact hF.all_delivered.symm
  have hrun : Reach (fun s x => noSelfUnsub s x = true) maxSuberNum clients s' ∧ Removed (s.sid i) s' ∧
      accepted (s.sid i) s'.log = accepted (s.sid i) s₁.log ∧
      delivered (s.sid i) s'.log = delivered (s.sid i) s₁.log ∧
      invocations (s.sid i) s'.log = invocations (s.sid i) s₁.log := by
    refine hs.invariant (P := fun s₂ => Reach (fun s x => noSelfUnsub s x = true) maxSuberNum clients s₂ ∧
        Removed (s.sid i) s₂ ∧ accepted (s.sid i) s₂.log = accepted (s.sid i) s₁.log ∧
        delivered (s.sid i) s₂.log = delivered (s.sid i) s₁.log ∧
        invocations (s.sid i) s₂.log = invocations (s.sid i) s₁.log)
      ⟨hr₁, hR₁, rfl, rfl, rfl⟩ fun s₂ s₃ x _ hP hx hn₂ => ?_
    obtain ⟨hr₂, hR₂, ha, hd, hi⟩ := hP
    obtain ⟨-, h₂⟩ := next_trans hn₂
    have he₂ := h₂.effect (threadInv_reach hr₂) (allocInv_reach hr₂)
    obtain ⟨ha', hd'⟩ := hR₂.ledger_eq (holderInv_reach hr₂) he₂
    exact ⟨hr₂.tail _ hx hn₂, removed_trans hR₂ h₂ he₂, ha'.trans ha, hd'.trans hd,
      (hR₂.invocations_eq h₂).trans hi⟩
  obtain ⟨hr', hR, ha, hd, hi⟩ := hrun
  refine ⟨ha, by rw [hd, ha, hdel], hR.quiet, hi, fun j hj => ⟨fun hjg => hR.free j hjg hj, ?_⟩⟩
  exact ownAccount hr' hj

/-- A subscription whose one event was delivered is removed; another one is made in its slot, for the same event, and its
callback runs. -/
theorem unsub_barrier_refilled :
    ∃ s₁ s' : State lp64, ¬ (s₁.suber 0).occupied ∧ s'.sid 0 = 2 ∧ accepted 2 s'.log = [.ofID lp64 7] ∧
      (s'.topCb 2).map CbFrame.sid = some 2 ∧
      accepted 1 s'.log = [.ofID lp64 7] ∧ delivered 1 s'.log = [.ofID lp64 7] ∧
      (∀ u c, .cb c ∈ s'.frames u → c.sid ≠ 1) ∧ invocations 1 s'.log = invocations 1 s₁.log ∧ OwnAccount s' 0 := by
  obtain ⟨s, hr, hs⟩ := reach_of_run (fun s x => noSelfUnsub s x = true) (1 : ULong lp64) 1
    ([(0, .call (.subEVT ⟨1, 1, some [7]⟩)), (0, .go),
      (0, .call (.postEVT (.ofID lp64 7) none)), (0, .go), (0, .go), (0, .go), (0, .signal none), (0, .go),
      (1, .go), (1, .go), (1, .go), (1, .ret .success), (1, .go), (1, .go), (1, .go),
      (0, .call (.unsubEVT (some ⟨1, 1⟩))), (0, .go), (0, .go), (0, .go), (0, .signal (some 1)), (1, .go)])
    (fun s => (s.onlyFrame 0).any fun f : Frame lp64 => (next s (0, .go)).any fun s₁ : State lp64 =>
      (Runs.runUnder next (fun s x => noSelfUnsub s x = true)
        [(0, .call (.subEVT ⟨2, 2, some [7]⟩)), (0, .go), (0, .call (.postEVT (.ofID lp64 7) none)), (0, .go), (0, .go),
          (0, .go), (0, .signal none), (2, .go), (2, .go), (2, .go)] s₁).any fun s' : State lp64 =>
        f.isApi && s.sid 0 == 1 && noSelfUnsub s (0, .go) && decide (s.suber 0).occupied &&
          decide (¬ (s₁.suber 0).occupied) && decide (accepted 1 s₁.log = [.ofID lp64 7]) && s'.sid 0 == 2 &&
          decide (accepted 2 s'.log = [.ofID lp64 7]) && decide (s'.suber 0).occupied &&
          decide ((s'.topCb 2).map CbFrame.sid = some 2)) (by decide +kernel)
  simp only [Option.any_eq_true, State.onlyFrame_eq_some, Bool.and_eq_true, beq_iff_eq, decide_eq_true_eq] at hs
  obtain ⟨f, hf, s₁, hn, s', hrun, ⟨⟨⟨⟨⟨⟨⟨⟨⟨hapi, hsid⟩, hok⟩, ho⟩, hfree⟩, hacc⟩, hsid'⟩, hacc'⟩, ho'⟩, hcb⟩⟩ := hs
  have hno : ∀ c, .cb c ∉ s.frames 0 := by
    intro c hc
    rw [hf, List.mem_singleton] at hc
    simp [← hc, Frame.isApi] at hapi
  obtain ⟨ha, hd, hquiet, hi, hlive⟩ :=
    unsub_barrier hr hok hn ho hfree (by simp [hno]) (Runs.runUnder_reach hrun)
  rw [hsid] at ha hd hquiet hi
  exact ⟨s₁, s', hfree, hsid', hacc', hcb, ha.trans hacc, hd.trans (ha.trans hacc), hquiet, hi, (hlive 0 ho').2⟩

end PlatIF.Ioc
