import PlatIF.Ioc.PostSchedule

/-!
# What a history leaves behind

A post from a quiescent state does what the subscriptions decide, and of all that its history has left behind it sees two
things only: whether the context mutex is free for it, and whether the table has been allocated.

* `outcome_iff` — the outcomes of a post from a quiescent state;
* `post_history_iff` — when the next post does not tell two histories apart;
* `post_tells_histories_apart` — a post before and after a subscription that has come and gone.
-/

namespace PlatIF.Ioc

variable {abi : Abi} {s s₀ s₁ s₂ : State abi} {p u : Tid} {i n : ℕ} {d e : EvtDesc abi} {r : TosResult}
  {maxSuberNum : ULong abi} {clients : ℕ} {o : Option Options} {ok : State abi → Tid × Act abi → Prop}
  {x y : PostRun abi}
  {ans : Called abi → TosResult}

/-! ### The law -/

/-- **What the subscriptions decide comes about**, and the callbacks of an ASYNC post come in any order. -/
theorem Outcome.of_eq (h₀ : Reach ok maxSuberNum clients s₀) (hq : s₀.Quiet) (hb : s₀.base p = .client)
    {L calls : List (Called abi)} (ho : s₀.postOutcome p d o ans = some (r, L)) (hp : calls.Perm L)
    (hs : s₀.syncs o = true → calls = L) : Outcome s₀ p d o ans r calls := by
  have hN₀ := maxSuberNum_reach h₀
  have hy₀ := isSyncMode_reach h₀
  have hrest := fun u => hq.rests (threadInv_reach h₀) u
  have hcall : Ioc.next s₀ (p, .call (.postEVT d o)) = some _ := next_call hq.running (hrest p).1 hb
  have hI : (PostRun.start _).Inv s₀ p maxSuberNum clients d o ans := PostRun.inv_start h₀ hq hb hcall
  obtain ⟨x, hx, hh, hf, honly⟩ := hI.returns hN₀ hy₀ (by simp [ho]) hq.running
  have hIx := hI.trans hN₀ hy₀ hx
  obtain ⟨hA, n, due, hst, hsv⟩ := hIx.underway hh
  cases hst with
  | entering hf' | going hf' | calling hf' => simp [hf] at hf'
  | back _ hn hr ho' =>
    simp only [ho, Option.some.injEq, Prod.mk.injEq] at ho'
    obtain ⟨rfl, rfl⟩ := ho'
    -- nobody else has moved
    have hR : x.Resting := by
      refine ⟨hh, fun u => ?_, fun u i e hu => ?_⟩
      · by_cases hu : u = p
        · rw [hu, hf]
        · rw [honly.frames u hu]
          simpa [PostRun.start, hu] using (hrest u).1
      · exact State.not_holds_of_rests (hrest u).2 ((honly.holds u i e).mp hu)
    have hdue : ∀ i, i < maxSuberNum.toNat → ((x.state.suber i).evtQueue.contents ≠ [] ↔ i ∈ due) := fun i hi => by
      have hfl := hsv.flight i hi
      generalize hb : decide (i ∈ due) = b at hfl
      cases hfl with
      | landed h => simp [h, of_decide_eq_false hb]
      | queued h => simp [h, of_decide_eq_true hb]
      | inHand _ hu => exact absurd hu (hR.holds _ i d)
    obtain ⟨done, hcalls, hperm, hsync⟩ := hsv.called
    obtain ⟨l, hl, hcalls'⟩ : ∃ l : List ℕ, l.Perm due ∧ x.calls ++ l.map (s₀.calledAt d) = calls := by
      cases hy : s₀.syncs o with
      | true =>
        rw [hy] at hsv
        refine ⟨[], by rw [hsv.due_nil], ?_⟩
        rw [List.map_nil, List.append_nil, hcalls, hsync hy, hs hy]
      | false =>
        have hnil : x.calls = [] := honly.calls hy
        rw [hnil] at hcalls
        obtain rfl := List.map_eq_nil_iff.mp hcalls.symm
        -- the callbacks name their slots
        have hback : ∀ c ∈ calls, s₀.calledAt d c.suberIdx = c := fun c hc => by
          obtain ⟨i, -, rfl⟩ := List.mem_map.mp (hp.subset hc)
          rfl
        refine ⟨calls.map Called.suberIdx, ?_, ?_⟩
        · have hslots := hp.map Called.suberIdx
          rw [List.map_map] at hslots
          exact (hslots.trans (by simp [Function.comp_def, State.calledAt])).trans hperm.symm
        · rw [hnil, List.nil_append, List.map_map]
          exact (List.map_congr_left hback).trans (List.map_id _)
    obtain ⟨y, hy, hquiet, hres⟩ := deliver_all hN₀ hy₀ l (hl.nodup_iff.mpr hsv.due_sublist.1)
      (fun i hi => (State.mem_matching.mp (hsv.due_sublist.2 i (hl.subset hi))).1.trans_le hn) hIx hR
      fun i hi => (hdue i hi).trans hl.mem_iff.symm
    exact ⟨_, y, hcall, hx.trans hy, hquiet, PostRun.result_eq hy hr, by rw [hres, hcalls']⟩

/-- **The outcomes of a post from a quiescent state** are those that the subscriptions decide: an ASYNC post has its
callbacks called in any order, a SYNC post in the order of the slots. -/
theorem outcome_iff (h₀ : Reach ok maxSuberNum clients s₀) (hq : s₀.Quiet) (hb : s₀.base p = .client)
    {calls : List (Called abi)} : Outcome s₀ p d o ans r calls ↔
      ∃ L, s₀.postOutcome p d o ans = some (r, L) ∧ calls.Perm L ∧ (s₀.syncs o = true → calls = L) := by
  constructor
  · intro h
    exact h.eq h₀ hq hb
  · rintro ⟨L, ho, hp, hs⟩
    exact .of_eq h₀ hq hb ho hp hs

/-! ### Two histories -/

/-- The next post of the event does not tell the two states apart: it returns the same result and causes the same
callbacks, in any order in which it can cause them from the other state.  The callbacks only answer, as in `Outcome`. -/
structure SamePost (s₁ s₂ : State abi) (p₁ p₂ : Tid) (d : EvtDesc abi) (o : Option Options) : Prop where
  result : ∀ ans r₁ r₂ calls₁ calls₂, Outcome s₁ p₁ d o ans r₁ calls₁ → Outcome s₂ p₂ d o ans r₂ calls₂ →
    r₁ = r₂ ∧ calls₁.Perm calls₂
  outcomes : ∀ ans r calls, Outcome s₁ p₁ d o ans r calls ↔ Outcome s₂ p₂ d o ans r calls

theorem State.subscription_of_lists (h : (s.suber i).args.lists d = true) :
    s.subscription i = some (s.suber i).args :=
  if_pos ⟨EvtSubArgs.cb_ne_null_of_lists h, EvtSubArgs.ids_of_lists h⟩

theorem State.args_of_subscription {x : EvtSubArgs} (h : s.subscription i = some x) : (s.suber i).args = x := by
  rw [State.subscription] at h
  split at h
  · exact Option.some.inj h
  · simp at h

theorem SameLive.symm (h : SameLive s₁ s₂) (hN : s₁.ctx.maxSuberNum = s₂.ctx.maxSuberNum) : SameLive s₂ s₁ :=
  fun i hi => (h i (hN ▸ hi)).symm

/-- A subscription that lists the event has the same arguments in both. -/
theorem SameLive.args (h : SameLive s₁ s₂) (hi : i < s₁.ctx.maxSuberNum.toNat)
    (hl : (s₁.suber i).args.lists d = true) : (s₂.suber i).args = (s₁.suber i).args :=
  State.args_of_subscription ((h i hi).symm.trans (State.subscription_of_lists hl))

theorem SameLive.matching (h : SameLive s₁ s₂) (hN : s₁.ctx.maxSuberNum = s₂.ctx.maxSuberNum) :
    s₁.matching d s₁.ctx.maxSuberNum.toNat = s₂.matching d s₂.ctx.maxSuberNum.toNat := by
  rw [State.matching, State.matching, ← hN]
  refine List.filter_congr fun i hi => ?_
  rw [List.mem_range] at hi
  rw [Bool.eq_iff_iff]
  constructor
  · intro hl
    rwa [h.args hi hl]
  · intro hl
    rwa [(h.symm hN).args (hN ▸ hi) hl]

/-- The same subscriptions decide the same outcome. -/
theorem SameLive.postOutcome (h : SameLive s₁ s₂) (hN : s₁.ctx.maxSuberNum = s₂.ctx.maxSuberNum)
    (hy : s₁.ctx.isSyncMode = s₂.ctx.isSyncMode) {p₁ p₂ : Tid} (hl : s₁.lockable p₁ = s₂.lockable p₂)
    (ha : s₁.lockable p₁ = true → s₁.ctx.isAlloced = s₂.ctx.isAlloced) :
    s₁.postOutcome p₁ d o ans = s₂.postOutcome p₂ d o ans := by
  have hcall : ∀ i ∈ s₁.matching d s₁.ctx.maxSuberNum.toNat, s₁.calledAt d i = s₂.calledAt d i := fun i hi => by
    obtain ⟨hi, hl⟩ := State.mem_matching.mp hi
    rw [State.calledAt, State.calledAt, h.args hi hl]
  have hvisit : ∀ i ∈ s₁.matching d s₁.ctx.maxSuberNum.toNat, s₁.visitAt d o ans i = s₂.visitAt d o ans i :=
    fun i hi => by
      rw [State.visitAt, State.visitAt, hcall i hi, State.syncs, hy, State.syncs]
  cases hl₁ : s₁.lockable p₁ with
  | false => rw [State.postOutcome, State.postOutcome, ← hl, hl₁]; rfl
  | true =>
    rw [State.postOutcome, State.postOutcome, ← hl, hl₁, ← ha hl₁, List.map_congr_left hcall, List.map_congr_left hvisit,
      h.matching hN]

/-- A post that obtains the mutex and calls nothing has found no subscription. -/
theorem State.postOutcome_nil (hl : s.lockable p = true) (h : s.postOutcome p d o ans = some (r, [])) :
    s.ctx.isAlloced = true ∧ r = .noEvtSuber ∨ s.ctx.isAlloced = false ∧ r = .notFound := by
  cases ha : s.ctx.isAlloced with
  | true =>
    rw [State.postOutcome_fanOut hl ha, Option.some.injEq, Prod.mk.injEq, List.map_eq_nil_iff] at h
    rw [h.2] at h
    exact .inl ⟨rfl, h.1.symm⟩
  | false =>
    rw [State.postOutcome_notFound hl ha, Option.some.injEq, Prod.mk.injEq] at h
    exact .inr ⟨rfl, h.1.symm⟩

theorem State.exists_postOutcome (hl : s.lockable p = true) (d : EvtDesc abi) (o : Option Options)
    (ans : Called abi → TosResult) : ∃ r L, s.postOutcome p d o ans = some (r, L) := by
  cases ha : s.ctx.isAlloced with
  | true => exact ⟨_, _, State.postOutcome_fanOut hl ha⟩
  | false => exact ⟨_, _, State.postOutcome_notFound hl ha⟩

section

variable {p₁ p₂ : Tid} {clients₁ clients₂ : ℕ} {ok₁ ok₂ : State abi → Tid × Act abi → Prop}

/-- Where a post can obtain the mutex and the other has all its outcomes, the other can obtain it too. -/
theorem lockable_of_outcomes (ans : Called abi → TosResult) (h₁ : Reach ok₁ maxSuberNum clients₁ s₁)
    (h₂ : Reach ok₂ maxSuberNum clients₂ s₂)
    (hq₁ : s₁.Quiet) (hq₂ : s₂.Quiet) (hb₁ : s₁.base p₁ = .client) (hb₂ : s₂.base p₂ = .client)
    (himp : ∀ r calls, Outcome s₁ p₁ d o ans r calls → Outcome s₂ p₂ d o ans r calls)
    (hl : s₁.lockable p₁ = true) : s₂.lockable p₂ = true := by
  obtain ⟨r, L, ho⟩ := State.exists_postOutcome hl d o ans
  obtain ⟨L', ho', hp, -⟩ := (himp r L (.of_eq h₁ hq₁ hb₁ ho (.refl L) fun _ => rfl)).eq h₂ hq₂ hb₂
  by_contra hl'
  rw [State.postOutcome, if_neg hl'] at ho'
  split at ho'
  · simp only [Option.some.injEq, Prod.mk.injEq] at ho'
    obtain ⟨rfl, rfl⟩ := ho'
    rw [hp.eq_nil] at ho
    rcases State.postOutcome_nil hl ho with ⟨-, h⟩ | ⟨-, h⟩ <;> simp at h
  · simp at ho'

theorem not_isAlloced_of_outcomes (ans : Called abi → TosResult) (h₁ : Reach ok₁ maxSuberNum clients₁ s₁)
    (h₂ : Reach ok₂ maxSuberNum clients₂ s₂)
    (hq₁ : s₁.Quiet) (hq₂ : s₂.Quiet) (hb₁ : s₁.base p₁ = .client) (hb₂ : s₂.base p₂ = .client)
    (himp : ∀ r calls, Outcome s₁ p₁ d o ans r calls → Outcome s₂ p₂ d o ans r calls)
    (hl₁ : s₁.lockable p₁ = true) (hl₂ : s₂.lockable p₂ = true) (ha : s₁.ctx.isAlloced = false) :
    s₂.ctx.isAlloced = false := by
  have hout := himp .notFound [] (.of_eq h₁ hq₁ hb₁ (State.postOutcome_notFound hl₁ ha) .nil fun _ => rfl)
  obtain ⟨L, ho, hp, -⟩ := hout.eq h₂ hq₂ hb₂
  rw [hp.symm.eq_nil] at ho
  rcases State.postOutcome_nil hl₂ ho with ⟨-, h⟩ | ⟨h, -⟩
  · simp at h
  · exact h

/-- **Two histories.**  They end quiescent with the same live subscriptions, slot by slot.  The next post of an event by
an ordinary thread does not tell them apart exactly if the context mutex is free for it after both or after none, and,
where it is free, the table is allocated after both or after none. -/
theorem post_history_iff (h₁ : Reach ok₁ maxSuberNum clients₁ s₁) (h₂ : Reach ok₂ maxSuberNum clients₂ s₂)
    (hq₁ : s₁.Quiet) (hq₂ : s₂.Quiet) (hb₁ : s₁.base p₁ = .client) (hb₂ : s₂.base p₂ = .client)
    (hs : SameLive s₁ s₂) (d : EvtDesc abi) (o : Option Options) : SamePost s₁ s₂ p₁ p₂ d o ↔
      s₁.lockable p₁ = s₂.lockable p₂ ∧ (s₁.lockable p₁ = true → s₁.ctx.isAlloced = s₂.ctx.isAlloced) := by
  constructor
  · intro h
    have hl : s₁.lockable p₁ = s₂.lockable p₂ := by
      rw [Bool.eq_iff_iff]
      constructor
      · exact lockable_of_outcomes (fun _ => .success) h₁ h₂ hq₁ hq₂ hb₁ hb₂ fun r calls =>
          (h.outcomes _ r calls).mp
      · exact lockable_of_outcomes (fun _ => .success) h₂ h₁ hq₂ hq₁ hb₂ hb₁ fun r calls =>
          (h.outcomes _ r calls).mpr
    refine ⟨hl, fun hl₁ => ?_⟩
    have hl₂ := hl ▸ hl₁
    rw [Bool.eq_iff_iff, ← not_iff_not, Bool.not_eq_true, Bool.not_eq_true]
    constructor
    · exact not_isAlloced_of_outcomes (fun _ => .success) h₁ h₂ hq₁ hq₂ hb₁ hb₂
        (fun r calls => (h.outcomes _ r calls).mp) hl₁ hl₂
    · exact not_isAlloced_of_outcomes (fun _ => .success) h₂ h₁ hq₂ hq₁ hb₂ hb₁
        (fun r calls => (h.outcomes _ r calls).mpr) hl₂ hl₁
  · rintro ⟨hl, ha⟩
    have hN := (maxSuberNum_reach h₁).trans (maxSuberNum_reach h₂).symm
    have hy := (isSyncMode_reach h₁).trans (isSyncMode_reach h₂).symm
    have ho : ∀ ans, s₁.postOutcome p₁ d o ans = s₂.postOutcome p₂ d o ans := fun ans =>
      hs.postOutcome hN hy hl ha
    refine ⟨fun ans r₁ r₂ calls₁ calls₂ h h' => ?_, fun ans r calls => ?_⟩
    · obtain ⟨L, ho₁, hp₁, -⟩ := h.eq h₁ hq₁ hb₁
      obtain ⟨L', ho₂, hp₂, -⟩ := h'.eq h₂ hq₂ hb₂
      rw [ho, ho₂, Option.some.injEq, Prod.mk.injEq] at ho₁
      obtain ⟨rfl, rfl⟩ := ho₁
      exact ⟨rfl, hp₁.trans hp₂.symm⟩
    · rw [outcome_iff h₁ hq₁ hb₁, outcome_iff h₂ hq₂ hb₂, ho, State.syncs, hy]
      rfl

end

/-- Event `7`, posted before anybody has subscribed, and after a subscription has come and gone: the table that the first
`subEVT` allocates is seen in the result. -/
theorem post_tells_histories_apart :
    ∃ s₁ s₂ : State lp64, Reach (fun _ _ => True) (initMaxSuberNum lp64) 1 s₁ ∧
      Reach (fun _ _ => True) (initMaxSuberNum lp64) 1 s₂ ∧ s₁.Quiet ∧ s₂.Quiet ∧ s₁.base 0 = .client ∧
      s₂.base 0 = .client ∧ SameLive s₁ s₂ ∧
      Outcome s₁ 0 (.ofID lp64 7) none (fun _ => .success) .notFound [] ∧
      Outcome s₂ 0 (.ofID lp64 7) none (fun _ => .success) .noEvtSuber [] ∧
      ¬ SamePost s₁ s₂ 0 0 (.ofID lp64 7) none := by
  have hr₁ : Reach (fun _ _ => True) (initMaxSuberNum lp64) 1 (State.init (initMaxSuberNum lp64) 1) := .refl
  obtain ⟨s₂, hr₂, hs₂⟩ := reach_of_run (fun _ _ => True) (initMaxSuberNum lp64) 1
    [(0, .call (.subEVT ⟨1, 1, some [7]⟩)), (0, .go), (0, .call (.unsubEVT (some ⟨1, 1⟩))), (0, .go), (0, .go)]
    (fun s : State lp64 => decide s.Quiet && decide (s.base 0 = .client) &&
      decide (∀ i : ℕ, i < 32 → s.subscription i = none) &&
      decide (s.postOutcome 0 (.ofID lp64 7) none (fun _ => .success) = some (.noEvtSuber, []))) (by decide +kernel)
  simp only [Bool.and_eq_true, decide_eq_true_eq] at hs₂
  obtain ⟨⟨⟨hq₂, hb₂⟩, hnone⟩, ho₂⟩ := hs₂
  have hq₁ : (State.init (initMaxSuberNum lp64) 1).Quiet := by decide +kernel
  have hlive : SameLive (State.init (initMaxSuberNum lp64) 1) s₂ := fun i hi => (hnone i hi).symm
  have h₁ : Outcome (State.init (initMaxSuberNum lp64) 1) 0 (.ofID lp64 7) none (fun _ => .success) .notFound [] :=
    .of_eq hr₁ hq₁ rfl rfl .nil fun _ => rfl
  have h₂ : Outcome s₂ 0 (.ofID lp64 7) none (fun _ => .success) .noEvtSuber [] :=
    .of_eq hr₂ hq₂ hb₂ ho₂ .nil fun _ => rfl
  refine ⟨_, s₂, hr₁, hr₂, hq₁, hq₂, rfl, hb₂, hlive, h₁, h₂, fun h => ?_⟩
  have hres := (h.result _ _ _ _ _ h₁ h₂).1
  simp at hres

/-- Two subscriptions alike, of which one has been served before: its slot has a thread and has counted an event. -/
theorem post_history_iff_served :
    ∃ s₁ s₂ : State lp64, (s₁.suber 0).asyncThreadID = none ∧ (s₂.suber 0).asyncThreadID = some 1 ∧
      (s₁.suber 0).args.lists (.ofID lp64 7) = true ∧ SamePost s₁ s₂ 0 0 (.ofID lp64 7) none := by
  have hlast : ∀ s : State lp64, (decide s.Quiet && decide (s.base 0 = .client) &&
      decide (s.subscription 0 = some ⟨1, 1, some [7]⟩) && s.lockable 0 && s.ctx.isAlloced) = true →
      s.Quiet ∧ s.base 0 = .client ∧ s.subscription 0 = some ⟨1, 1, some [7]⟩ ∧ s.lockable 0 = true ∧
        s.ctx.isAlloced = true := fun s h => by
    simpa only [Bool.and_eq_true, decide_eq_true_eq, and_assoc] using h
  obtain ⟨s₁, hr₁, hs₁⟩ := reach_of_run (fun _ _ => True) (1 : ULong lp64) 1
    [(0, .call (.subEVT ⟨1, 1, some [7]⟩)), (0, .go)]
    (fun s : State lp64 => (decide s.Quiet && decide (s.base 0 = .client) &&
      decide (s.subscription 0 = some ⟨1, 1, some [7]⟩) && s.lockable 0 && s.ctx.isAlloced) &&
      decide ((s.suber 0).asyncThreadID = none) && (s.suber 0).args.lists (.ofID lp64 7)) (by decide +kernel)
  obtain ⟨s₂, hr₂, hs₂⟩ := reach_of_run (fun _ _ => True) (1 : ULong lp64) 1
    [(0, .call (.subEVT ⟨1, 1, some [7]⟩)), (0, .go), (0, .call (.postEVT (.ofID lp64 7) none)), (0, .go), (0, .go),
      (0, .go), (0, .signal none), (0, .go), (1, .go), (1, .go), (1, .go), (1, .ret .success)]
    (fun s : State lp64 => (decide s.Quiet && decide (s.base 0 = .client) &&
      decide (s.subscription 0 = some ⟨1, 1, some [7]⟩) && s.lockable 0 && s.ctx.isAlloced) &&
      decide ((s.suber 0).asyncThreadID = some 1)) (by decide +kernel)
  rw [Bool.and_eq_true, Bool.and_eq_true, decide_eq_true_eq] at hs₁
  rw [Bool.and_eq_true, decide_eq_true_eq] at hs₂
  obtain ⟨hq₁, hb₁, hsub₁, hl₁, ha₁⟩ := hlast s₁ hs₁.1.1
  obtain ⟨hq₂, hb₂, hsub₂, hl₂, ha₂⟩ := hlast s₂ hs₂.1
  have hlive : SameLive s₁ s₂ := fun i hi => by
    rw [maxSuberNum_reach hr₁] at hi
    obtain rfl : i = 0 := Nat.lt_one_iff.mp hi
    rw [hsub₁, hsub₂]
  exact ⟨s₁, s₂, hs₁.1.2, hs₂.2, hs₁.2, (post_history_iff hr₁ hr₂ hq₁ hq₂ hb₁ hb₂ hlive (.ofID lp64 7) none).mpr
    ⟨hl₁.trans hl₂.symm, fun _ => ha₁.trans ha₂.symm⟩⟩

end PlatIF.Ioc
