import PlatIF.Ioc.Effect

/-!
# The slots and their threads

What holds of the slots in every run, whatever the callbacks do.

* `slotInv_reach` — the thread that a slot names was started for it, and the slot is taken; subscriptions have
  numbers of their own;
* `flagInv_reach` — the exit flag of a taken slot is set only while a call of `unsubEVT` stops its thread;
* `goneInv_reach` — the thread of a slot ends only with nothing left in its queue;
* `Effect.live` — a subscription stays in its slot with the arguments it was made with.
-/

namespace PlatIF.Ioc

variable {abi : Abi} {s s' s₁ : State abi} {t u : Tid} {a : Act abi} {i g : ℕ}
  {rest : List (Frame abi)} {ok : State abi → Tid × Act abi → Prop} {maxSuberNum : ULong abi}
  {clients : ℕ}

/-! ### Bases from step to step -/

/-- What a step does to the base of a thread. -/
inductive BaseNext (s s' : State abi) (u : Tid) : Prop
  | same (h : s'.base u = s.base u)
  | moved {j k : ℕ} {pc pc' : AsyncPc abi} (h : s.base u = .async j k pc) (h' : s'.base u = .async j k pc')
  | ended {j k : ℕ} {pc : AsyncPc abi} (h : s.base u = .async j k pc) (h' : s'.base u = .gone)
  | created {j : ℕ} (hu : u = s.nextTid) (hx : (s.suber j).asyncThreadID = none)
      (hx' : (s'.suber j).asyncThreadID = some u) (h' : s'.base u = .async j (s.sid j) .start)

theorem Trans.base_next (hT : ThreadInv s) (h : Trans s t a s') (u : Tid) : BaseNext s s' u := by
  by_cases hu : u = t
  · subst hu
    cases base_self hT h with
    | same h _ => exact .same h
    | started h h' _ => exact .moved h h'
    | ran h _ h' _ _ => exact .moved h h'
    | ended h _ h' _ => exact .ended h h'
  · cases h.base_ne hu with
    | same h => exact .same h
    | created hu _ hx hx' h => exact .created hu hx hx' h
    | woken h h' => exact .moved h h'

/-- Thread `u` runs the async loop of slot `i`. -/
def State.RunsOn (s : State abi) (u : Tid) (i : ℕ) : Prop := ∃ g pc, s.base u = .async i g pc

theorem State.init_not_runsOn {maxSuberNum : ULong abi} {clients : ℕ} (u : Tid) (i : ℕ) :
    ¬ (State.init maxSuberNum clients).RunsOn u i := by
  rintro ⟨g, pc, hb⟩
  exact State.init_base_ne maxSuberNum clients u i g pc hb

/-- A thread that runs on a slot ran on it before, or was just started for it. -/
theorem Trans.runsOn (hT : ThreadInv s) (h : Trans s t a s') (hr : s'.RunsOn u i) :
    s.RunsOn u i ∨ (s.suber i).asyncThreadID = none ∧ (s'.suber i).asyncThreadID = some u := by
  obtain ⟨g, pc, hb⟩ := hr
  cases h.base_next hT u with
  | same h => exact .inl ⟨g, pc, h ▸ hb⟩
  | moved h h' =>
    rw [hb] at h'
    cases h'
    exact .inl ⟨_, _, h⟩
  | ended h h' => simp [hb] at h'
  | created hu hx hx' h' =>
    rw [hb] at h'
    cases h'
    exact .inr ⟨hx, hx'⟩

/-- A thread that has run on a slot still does, or has ended. -/
theorem Trans.runsOn_next (hT : ThreadInv s) (h : Trans s t a s') (hu : u < s.nextTid)
    (hr : s.base u = .gone ∨ s.RunsOn u i) : s'.base u = .gone ∨ s'.RunsOn u i := by
  cases h.base_next hT u with
  | same h => simpa only [State.RunsOn, h] using hr
  | moved h h' =>
    rcases hr with hr | ⟨g, pc, hr⟩
    · simp [hr] at h
    · rw [hr] at h
      cases h
      exact .inr ⟨_, _, h'⟩
  | ended h h' => exact .inl h'
  | created hu' => exact absurd hu' (Nat.ne_of_lt hu)

/-! ### Slots and their threads -/

/-- What holds of a slot with a thread. -/
structure Threaded (s : State abi) (i : ℕ) (u : Tid) : Prop where
  lt : u < s.nextTid
  occupied : (s.suber i).occupied
  ids : (s.suber i).args.pEvtIDs ≠ none
  base : s.base u = .gone ∨ s.RunsOn u i

/-- What holds of the slots in every reachable state. -/
structure SlotInv (s : State abi) : Prop where
  thread : ∀ i u, (s.suber i).asyncThreadID = some u → Threaded s i u
  sid_lt : ∀ i, s.sid i < s.nextSid
  sid_pos : ∀ i, (s.suber i).occupied → s.sid i ≠ 0
  sid_run : ∀ u i, s.RunsOn u i → s.sid i ≠ 0
  sid_inj : ∀ i j, s.sid i = s.sid j → s.sid i ≠ 0 → i = j
  room : ∀ i, (s.suber i).evtQueue.pending ≤ evtQueueMax

/-- What a step does to slot `j`. -/
inductive SlotEffect (s s' : State abi) (t : Tid) (j : ℕ) : Prop
  | same (h : s'.suber j = s.suber j) (hs : s'.sid j = s.sid j)
  | filled (hfree : ¬ (s.suber j).occupied) (hj : j < s.ctx.maxSuberNum.toNat) (h : (s'.suber j).Blank)
      (hs : s'.sid j = s.nextSid)
  | flagged {f f' : UnsubFrame} {rest : List (Frame abi)} (hf : s.frames t = .unsub f :: rest)
      (hf' : s'.frames t = .unsub f' :: rest) (hp' : f'.pc = .signal j)
      (h : s'.suber j = { s.suber j with shouldExitASyncThread := true }) (hs : s'.sid j = s.sid j)
  | freed {f : UnsubFrame} {rest : List (Frame abi)} (hf : s.frames t = .unsub f :: rest) (hst : s.slotStopped t f j)
      (h : s'.suber j = (s.suber j).freed) (hs : s'.sid j = s.sid j)
  | kept {f : UnsubFrame} {rest : List (Frame abi)} (hf : s.frames t = .unsub f :: rest) (hst : s.slotStopped t f j)
      (hids : (s.suber j).args.pEvtIDs = none) (h : s'.suber j = { s.suber j with asyncThreadID := none })
      (hs : s'.sid j = s.sid j)
  | started {f : PostFrame abi} {rest : List (Frame abi)} (hf : s.frames t = .post f :: rest) (hp : f.pc = .push j)
      (h : Started s j (s'.suber j)) (hb : s'.base = (s.withThread j).base)
      (hn : s'.nextTid = (s.withThread j).nextTid) (hs : s'.sid j = s.sid j)
  | accepted {f : PostFrame abi} {rest : List (Frame abi)} (hf : s.frames t = .post f :: rest) (hp : f.pc = .push j)
      (hr : (s.suber j).evtQueue.hasRoom = true)
      (h : s'.suber j = { s.suber j with asyncThreadID := some ((s.suber j).asyncThreadID.getD s.nextTid),
                                         evtQueue := (s.suber j).evtQueue.push (s.desc t f) })
      (hb : s'.base = (s.withThread j).base) (hn : s'.nextTid = (s.withThread j).nextTid) (hs : s'.sid j = s.sid j)
  | took (hr : s.RunsOn t j) (he : (s.suber j).evtQueue.isEmpty = false)
      (h : s'.suber j = { s.suber j with evtQueue := (s.suber j).evtQueue.pop }) (hs : s'.sid j = s.sid j)
  | cached {q : WrapRing abi.ulongBits evtCachedMax (EvtDesc abi)} (h : s'.suber j = { s.suber j with evtCached := q })
      (hs : s'.sid j = s.sid j)

theorem Effect.slot (h : Effect s s' t) (j : ℕ) : SlotEffect s s' t j := by
  cases h
  case quiet hc h => exact .same (by rw [State.suber, hc]) (by rw [h.sid])
  case called hc hs _ _ _ => exact .same (by rw [State.suber, hc]) (by rw [hs])
  case filled i x hf hi hfree hx _ hc hs _ _ _ =>
    by_cases hj : j = i
    · subst hj
      exact .filled hfree hi (by simpa [State.suber, hc] using hx) (by simp [hs])
    · exact .same (by simp [State.suber, hc, hj]) (by simp [hs, hj])
  case flagged i _ hf _ hf' hc h =>
    by_cases hj : j = i
    · subst hj
      exact .flagged hf hf' rfl (by simp [State.suber, hc]) (by rw [h.sid])
    · exact .same (by simp [State.suber, hc, hj]) (by rw [h.sid])
  case freed i _ hf hst hc h =>
    by_cases hj : j = i
    · subst hj
      exact .freed hf hst (by simp [State.suber, hc]) (by rw [h.sid])
    · exact .same (by simp [State.suber, hc, hj]) (by rw [h.sid])
  case kept i _ hf hst hids hc h =>
    by_cases hj : j = i
    · subst hj
      exact .kept hf hst hids (by simp [State.suber, hc]) (by rw [h.sid])
    · exact .same (by simp [State.suber, hc, hj]) (by rw [h.sid])
  case started i _ x hf hp hx hc hb hn h =>
    by_cases hj : j = i
    · subst hj
      exact .started hf hp (by simpa [State.suber, hc] using hx) hb hn (by rw [h.sid])
    · exact .same (by simp [State.suber, hc, hj]) (by rw [h.sid])
  case accepted i _ hf hp hr hc hb hn hs _ _ _ =>
    by_cases hj : j = i
    · subst hj
      exact .accepted hf hp hr (by simp [State.suber, hc]) hb hn (by rw [hs])
    · exact .same (by simp [State.suber, hc, hj]) (by rw [hs])
  case took i g pc _ hb _ he hc hs _ _ _ =>
    by_cases hj : j = i
    · subst hj
      exact .took ⟨g, pc, hb⟩ he (by simp [State.suber, hc]) (by rw [hs])
    · exact .same (by simp [State.suber, hc, hj]) (by rw [hs])
  case stored i _ _ _ _ _ hc hs _ _ _ | retired i _ _ _ _ _ _ hc hs _ _ _ =>
    by_cases hj : j = i
    · subst hj
      exact .cached (by simp [State.suber, hc]; rfl) (by rw [hs])
    · exact .same (by simp [State.suber, hc, hj]) (by rw [hs])

/-- What a step does to the thread of a slot: nothing, or it is let go, or a first one is started. -/
inductive ThreadEffect (s s' : State abi) (t : Tid) (j : ℕ) : Prop
  | same (h : (s'.suber j).asyncThreadID = (s.suber j).asyncThreadID)
      (ha : (s'.suber j).args = (s.suber j).args)
  | letGo (h : (s'.suber j).asyncThreadID = none)
      (hx : s'.sid j = s.nextSid ∨ ¬ (s'.suber j).occupied ∨ (s.suber j).args.pEvtIDs = none)
  | fresh {f : PostFrame abi} {rest : List (Frame abi)} (hf : s.frames t = .post f :: rest)
      (hp : f.pc = .push j) (h : (s.suber j).asyncThreadID = none)
      (h' : (s'.suber j).asyncThreadID = some s.nextTid) (ha : (s'.suber j).args = (s.suber j).args)
      (hb : s'.base s.nextTid = .async j (s.sid j) .start) (hn : s'.nextTid = s.nextTid + 1)

theorem threadEffect_post {f : PostFrame abi} (hf : s.frames t = .post f :: rest) (hp : f.pc = .push i)
    (hx : (s'.suber i).asyncThreadID = some ((s.suber i).asyncThreadID.getD s.nextTid))
    (ha : (s'.suber i).args = (s.suber i).args) (hb : s'.base = (s.withThread i).base)
    (hn : s'.nextTid = (s.withThread i).nextTid) : ThreadEffect s s' t i := by
  cases hu : (s.suber i).asyncThreadID with
  | none =>
    rw [withThread_of_none hu] at hb hn
    exact .fresh hf hp hu (by rw [hx, hu]; rfl) ha (by simp [hb]) hn
  | some u => exact .same (by rw [hx, hu]; rfl) ha

theorem Effect.thread (h : Effect s s' t) (j : ℕ) : ThreadEffect s s' t j := by
  cases h.slot j with
  | same h | flagged _ _ _ h | took _ _ h | cached h => exact .same (by rw [h]) (by rw [h])
  | filled _ _ h hs => exact .letGo h.asyncThreadID (.inl hs)
  | freed _ _ h =>
    refine .letGo (by rw [h]; rfl) (.inr (.inl ?_))
    rw [h]
    exact Suber.freed_occupied _
  | kept _ _ hids h => exact .letGo (by rw [h]) (.inr (.inr hids))
  | started hf hp h hb hn => exact threadEffect_post hf hp h.asyncThreadID h.args hb hn
  | accepted hf hp _ h hb hn => exact threadEffect_post hf hp (by rw [h]) (by rw [h]) hb hn

theorem Threaded.next (hT : ThreadInv s) (h : Trans s t a s') (hx : Threaded s i u)
    (ha : (s'.suber i).args = (s.suber i).args) : Threaded s' i u where
  lt := hx.lt.trans_le h.nextTid_le
  occupied := by simpa only [Suber.occupied, ha] using hx.occupied
  ids := ha ▸ hx.ids
  base := h.runsOn_next hT hx.lt hx.base

theorem slotInv_thread (hT : ThreadInv s) (hH : HolderInv s) (hI : SlotInv s) (h : Trans s t a s')
    (he : Effect s s' t) {j : ℕ} (hx : (s'.suber j).asyncThreadID = some u) : Threaded s' j u := by
  cases he.thread j with
  | same hj ha => exact (hI.thread j u (hj ▸ hx)).next hT h ha
  | letGo hj => simp [hj] at hx
  | fresh hf hp _ hj ha hb hn =>
    obtain rfl : s.nextTid = u := by simpa [hj] using hx
    obtain ⟨d, hl⟩ := (hH.post t _ _ j hf (by rw [hp]; rfl)).listed
    refine ⟨by rw [hn]; exact Nat.lt_succ_self _, ?_, ?_, .inr ⟨_, _, hb⟩⟩
    · rw [Suber.occupied, ha]
      exact EvtSubArgs.cb_ne_null_of_lists hl
    · rw [ha]
      exact EvtSubArgs.ids_of_lists hl

/-- What a step does to the number of the subscription in a slot. -/
theorem Effect.sid (h : Effect s s' t) : (s'.sid = s.sid ∧ s'.nextSid = s.nextSid ∧
      ∀ j, (s'.suber j).occupied → (s.suber j).occupied) ∨
    ∃ i, ¬ (s.suber i).occupied ∧ s'.sid = Function.update s.sid i s.nextSid ∧
      s'.nextSid = s.nextSid + 1 ∧ (s'.suber i).Blank ∧ ∀ j, j ≠ i → s'.suber j = s.suber j := by
  cases h
  case quiet hc h => exact .inl ⟨h.sid, h.nextSid, fun j => by simp [State.suber, hc]⟩
  case called hc hs hn _ _ => exact .inl ⟨hs, hn, fun j => by simp [State.suber, hc]⟩
  case filled i x hf hi hfree hx _ hc hs hn _ _ =>
    exact .inr ⟨i, hfree, hs, hn, by simpa [State.suber, hc] using hx,
      fun j hj => by simp [State.suber, hc, hj]⟩
  case freed i _ _ _ hc h =>
    refine .inl ⟨h.sid, h.nextSid, fun j hj => ?_⟩
    by_cases hji : j = i
    · subst hji
      simp [State.suber, hc] at hj
    · simpa [State.suber, hc, hji] using hj
  case flagged i _ _ _ _ hc h | kept i _ _ _ _ hc h =>
    refine .inl ⟨h.sid, h.nextSid, fun j hj => ?_⟩
    by_cases hji : j = i <;> simpa [State.suber, hc, hji, Suber.occupied] using hj
  case started i _ x _ _ hx hc _ _ h =>
    refine .inl ⟨h.sid, h.nextSid, fun j hj => ?_⟩
    by_cases hji : j = i <;> simpa [State.suber, hc, hji, Suber.occupied, hx.args] using hj
  case accepted i _ _ _ _ hc _ _ hs hg _ _ | took i _ _ _ _ _ _ hc hs hg _ _ |
      stored i _ _ _ _ _ hc hs hg _ _ | retired i _ _ _ _ _ _ hc hs hg _ _ =>
    refine .inl ⟨hs, hg, fun j hj => ?_⟩
    by_cases hji : j = i <;> simpa [State.suber, hc, hji, Suber.occupied] using hj

/-- Numbers of subscriptions only grow. -/
theorem Effect.nextSid_le (h : Effect s s' t) : s.nextSid ≤ s'.nextSid := by
  rcases h.sid with ⟨-, hn, -⟩ | ⟨_, -, -, hn, -⟩ <;> omega

/-- What a step does to a queue. -/
theorem Effect.room (h : Effect s s' t) (hI : ∀ i, (s.suber i).evtQueue.pending ≤ evtQueueMax) (j : ℕ) :
    (s'.suber j).evtQueue.pending ≤ evtQueueMax := by
  have hold := hI j
  cases h.slot j with
  | same h | flagged _ _ _ h | kept _ _ _ h | cached h | freed _ _ h =>
    rw [h]
    exact hold
  | filled _ _ h => simp [h.evtQueue, WrapRing.pending]
  | started _ _ h =>
    rw [h.evtQueue]
    exact hold
  | accepted _ _ hr h =>
    have hlt := (WrapRing.hasRoom_iff _).mp hr
    have hpow : evtQueueMax < 2 ^ abi.ulongBits := lt_of_lt_of_le (by decide) abi.pow_le
    rw [h, WrapRing.pending_push _ _ (Nat.lt_of_le_of_lt hlt hpow)]
    exact hlt
  | took _ he h =>
    have hne : (s.suber j).evtQueue.pending ≠ 0 := fun h0 => by
      simp [(WrapRing.isEmpty_iff_pending _).mpr h0] at he
    have hpop := WrapRing.pending_pop_le _ hne
    rw [h]
    exact hpop.le.trans hold

/-- A queue that was empty and is not any more was pushed to. -/
theorem Effect.pushed (h : Effect s s' t) {j : ℕ} (he : (s.suber j).evtQueue.isEmpty = true)
    (he' : (s'.suber j).evtQueue.isEmpty = false) :
    ∃ f rest, s.frames t = .post f :: rest ∧ f.pc = .push j := by
  have hkeep : (s'.suber j).evtQueue = (s.suber j).evtQueue → ∃ f rest, s.frames t = .post f :: rest ∧ f.pc = .push j :=
    fun hq => by simp [hq, he] at he'
  cases h.slot j with
  | same h | flagged _ _ _ h | kept _ _ _ h | cached h => exact hkeep (by rw [h])
  | freed _ _ h => exact hkeep (by rw [h]; rfl)
  | filled _ _ h => simp [h.evtQueue, WrapRing.isEmpty] at he'
  | started hf hp | accepted hf hp => exact ⟨_, _, hf, hp⟩
  | took _ hne => simp [he] at hne

/-- A post that stands at a push leaves the queue as it is, or comes to signal. -/
theorem Trans.push_next (h : Trans s t a s') {f : PostFrame abi} (hf : s.frames t = .post f :: rest)
    (hp : f.pc = .push i) : (s'.suber i).evtQueue = (s.suber i).evtQueue ∨
      ∃ f', s'.frames t = .post f' :: rest ∧ f'.pc = .signal i := by
  have hw : ∀ {q fs}, s.frames t = .post q :: fs → f = q ∧ rest = fs := fun h => by simpa using hf.symm.trans h
  cases h
  case postAccept hf' hp' _ _ =>
    obtain ⟨rfl, rfl⟩ := hw hf'
    obtain rfl : i = _ := PostPc.push.inj (hp.symm.trans hp')
    exact .inr ⟨_, by simp; rfl, rfl⟩
  case postFull k hf' _ _ _ _ | postRetry k hf' _ _ _ _ _ | haltPush k hf' _ =>
    refine .inl ?_
    by_cases hk : i = k <;> simp [State.suber, hk]
  case halt => exact .inl rfl
  -- the other steps have another frame on top, or stand at another point
  all_goals
    exfalso
    clear hw
    simp_all [State.userOnTop]

theorem slotInv_trans (hT : ThreadInv s) (hH : HolderInv s) (hI : SlotInv s) (h : Trans s t a s')
    (he : Effect s s' t) : SlotInv s' where
  thread _ _ hx := slotInv_thread hT hH hI h he hx
  room := he.room hI.room
  sid_lt j := by
    have := hI.sid_lt j
    rcases he.sid with ⟨hs, hn, -⟩ | ⟨i, -, hs, hn, -, -⟩
    · rwa [hs, hn]
    · rw [hs, hn, Function.update_apply]
      split <;> omega
  sid_pos j ho := by
    rcases he.sid with ⟨hs, -, hocc⟩ | ⟨i, -, hs, -, -, hslot⟩
    · rw [hs]
      exact hI.sid_pos j (hocc j ho)
    · rw [hs, Function.update_apply]
      split
      · have := hI.sid_lt i
        omega
      · rename_i hj
        exact hI.sid_pos j (hslot j hj ▸ ho)
  sid_run u j hr := by
    have h0 : s.sid j ≠ 0 := by
      rcases h.runsOn hT hr with hr | ⟨hn, hx⟩
      · exact hI.sid_run u j hr
      · cases he.thread j with
        | same hj => rw [hj, hn] at hx; simp at hx
        | letGo hj => simp [hj] at hx
        | fresh hf hp =>
          exact hI.sid_pos j ((hH.post t _ _ j hf (by rw [hp]; rfl)).occupied)
    rcases he.sid with ⟨hs, -, -⟩ | ⟨i, -, hs, -, -, -⟩
    · rwa [hs]
    · rw [hs, Function.update_apply]
      split
      · have := hI.sid_lt i
        omega
      · exact h0
  sid_inj j k hjk h0 := by
    rcases he.sid with ⟨hs, -, -⟩ | ⟨i, -, hs, -, -, -⟩
    · rw [hs] at hjk h0
      exact hI.sid_inj j k hjk h0
    · -- the new number is above all others
      have hj := hI.sid_lt j
      have hk := hI.sid_lt k
      rw [hs, Function.update_apply, Function.update_apply] at hjk
      rw [hs, Function.update_apply] at h0
      by_cases hji : j = i <;> by_cases hki : k = i <;> simp only [hji, hki, if_true, if_false] at hjk h0 ⊢
      · subst hji
        omega
      · subst hki
        omega
      · exact hI.sid_inj j k hjk h0

theorem slotInv_reach (h : Reach ok maxSuberNum clients s) : SlotInv s := by
  refine h.induction ⟨?_, ?_, ?_, ?_, ?_, ?_⟩ fun _ _ _ _ hr hI _ _ h =>
    slotInv_trans (threadInv_reach hr) (holderInv_reach hr) hI h
      (h.effect (threadInv_reach hr) (allocInv_reach hr))
  · exact fun i u hx => by simp [State.suber, State.init, Ctx.init, Suber.zero] at hx
  · exact fun _ => Nat.zero_lt_one
  · exact fun i ho => by simp [State.suber, State.init, Ctx.init, Suber.zero, Suber.occupied] at ho
  · exact fun u i hr => absurd hr (State.init_not_runsOn u i)
  · exact fun _ _ _ h0 => absurd rfl h0
  · exact fun i => by simp [State.suber, State.init, Ctx.init, Suber.zero, WrapRing.pending]

/-! ### The exit flag -/

/-- The exit flag of a taken slot is set only while a call of `unsubEVT` stops its thread. -/
def FlagInv (s : State abi) : Prop :=
  ∀ i, (s.suber i).shouldExitASyncThread = true → (s.suber i).occupied →
    ∃ u f rest, s.frames u = .unsub f :: rest ∧ f.pc.flagged = true ∧ f.pc.slot = some i

/-- A call that has set the flag goes on to join the thread, and then lets the slot go. -/
theorem Trans.flagged_next (h : Trans s t a s') {f : UnsubFrame} (hf : s.frames t = .unsub f :: rest)
    (hp : f.pc.flagged = true) (hi : f.pc.slot = some i) :
    (∃ f', s'.frames t = .unsub f' :: rest ∧ f'.pc.flagged = true ∧ f'.pc.slot = some i) ∨
      (s'.suber i = (s.suber i).freed ∨ (s.suber i).args.pEvtIDs = none) := by
  have hw : ∀ {g r}, s.frames t = .unsub g :: r → g = f ∧ r = rest := fun h => by
    simpa using h.symm.trans hf
  have hstop : ∀ {j}, s.slotStopped t f j → j = i := fun hs => by
    rcases hs with ⟨hs, -⟩ | ⟨hs, -⟩
    · simp [hs, UnsubPc.slot] at hi
    · simpa [hs, UnsubPc.slot] using hi
  cases h
  case unsubSignal hf' hpc _ =>
    obtain ⟨rfl, rfl⟩ := hw hf'
    rw [hpc] at hi
    exact .inl ⟨_, Function.update_self .., rfl, hi⟩
  case unsubFreeNext hf' hs _ _ | unsubFreeDone hf' hs _ =>
    obtain ⟨rfl, rfl⟩ := hw hf'
    obtain rfl := hstop hs
    exact .inr (.inl (by simp [State.suber]))
  case unsubKeepNext hf' hs _ hids =>
    obtain ⟨rfl, rfl⟩ := hw hf'
    obtain rfl := hstop hs
    exact .inr (.inr hids)
  case halt => exact .inl ⟨f, hf, hp, hi⟩
  case unsubStop hf' hpc _ _ _ | unsubSkip hf' hpc _ _ | unsubEnd hf' hpc _ | unsubSetFlag hf' hpc _ |
      unsubLock hf' hpc _ _ | unsubNotFound hf' hpc _ _ =>
    obtain ⟨rfl, rfl⟩ := hw hf'
    simp [hpc, UnsubPc.flagged] at hp
  -- the other steps have another frame on top
  all_goals
    clear hw hstop hp hi
    exfalso
    simp_all [State.userOnTop]

/-- An exit flag that is set after a step was set before, or is set by the step. -/
theorem Effect.flag_set (h : Effect s s' t) {j : ℕ} (hx : (s'.suber j).shouldExitASyncThread = true) :
    (s.suber j).shouldExitASyncThread = true ∨ ∃ f rest, s'.frames t = .unsub f :: rest ∧ f.pc = .signal j := by
  cases h.slot j with
  | same h | kept _ _ _ h | cached h | freed _ _ h | accepted _ _ _ h | took _ _ h =>
    rw [h] at hx
    exact .inl hx
  | filled _ _ h => simp [h.flag] at hx
  | flagged _ hf' hp' => exact .inr ⟨_, _, hf', hp'⟩
  | started _ _ h => exact .inl (h.flag ▸ hx)

/-- What a step does to the exit flag of a slot that stays taken. -/
theorem Effect.flag (h : Effect s s' t) {j : ℕ} (hx : (s'.suber j).shouldExitASyncThread = true)
    (ho : (s'.suber j).occupied) :
    ((s.suber j).shouldExitASyncThread = true ∧ (s.suber j).occupied) ∨
      ∃ f rest, s'.frames t = .unsub f :: rest ∧ f.pc = .signal j := by
  refine (h.flag_set hx).imp_left fun hx₀ => ⟨hx₀, ?_⟩
  rcases h.sid with ⟨-, -, hocc⟩ | ⟨i, -, -, -, hb, hslot⟩
  · exact hocc j ho
  · -- a slot that was just filled has no flag
    have hj : j ≠ i := by
      rintro rfl
      simp [hb.flag] at hx
    rwa [← hslot j hj]

theorem flagInv_trans (hH : HolderInv s) (hI : SlotInv s) (hF : FlagInv s) (h : Trans s t a s')
    (he : Effect s s' t) : FlagInv s' := by
  intro j hx ho
  rcases he.flag hx ho with ⟨hx0, ho0⟩ | ⟨f, rest, hf, hp⟩
  · obtain ⟨u, f, rest, hf, hp, hi⟩ := hF j hx0 ho0
    by_cases hu : u = t
    · subst hu
      rcases h.flagged_next hf hp hi with ⟨f', hf', hp', hi'⟩ | hfree | hids
      · exact ⟨u, f', rest, hf', hp', hi'⟩
      · rw [hfree] at ho
        exact absurd ho (Suber.freed_occupied _)
      · -- a slot with a thread has identifiers
        obtain ⟨v, hv⟩ := (hH.unsub u f rest j hf hi).thread
        exact absurd hids (hI.thread j v hv).ids
    · exact ⟨u, f, rest, by rw [h.frames_ne hu, hf], hp, hi⟩
  · exact ⟨t, f, rest, hf, by rw [hp]; rfl, by rw [hp]; rfl⟩

theorem flagInv_reach (h : Reach ok maxSuberNum clients s) : FlagInv s :=
  h.induction (fun i hx => by simp [State.suber, State.init, Ctx.init, Suber.zero] at hx)
    fun _ _ _ _ hr hF _ _ h => flagInv_trans (holderInv_reach hr) (slotInv_reach hr) hF h
      (h.effect (threadInv_reach hr) (allocInv_reach hr))

/-- No event is pushed into a queue whose thread is being stopped. -/
theorem FlagInv.push_flag (hF : FlagInv s) (hL : LockInv s) (hH : HolderInv s) {f : PostFrame abi}
    (hf : s.frames t = .post f :: rest) (hp : f.pc = .push i) :
    (s.suber i).shouldExitASyncThread = false := by
  by_contra hx
  have ho := (hH.post t f rest i hf (by rw [hp]; rfl)).occupied
  obtain ⟨u, g, rest', hg, -, hi⟩ := hF i (by simpa using hx) ho
  have ht := hL.post_holder hf (by simp [hp])
  have hu := hL.unsub_holder hg (UnsubPc.slot_ne_lock hi)
  rw [RecMutex.held_unique hu ht, hf] at hg
  simp at hg

theorem retPost_gone (s₁ : State abi) {f : PostFrame abi} {r : TosResult}
    (h : (s₁.retPost t f rest r).base t = .gone) : s₁.base t = .gone := by
  rcases State.retPost_base_self s₁ t f rest r with h' | ⟨i, g, d, -, -, h'⟩
  · rw [← h', h]
  · simp [h] at h'

/-- An async thread ends only at the head of its loop, when it is told to and its queue is empty. -/
theorem Trans.ended (hT : ThreadInv s) (h : Trans s t a s') {pc : AsyncPc abi} (hb : s.base u = .async i g pc)
    (hb' : s'.base u = .gone) : (pc = .top ∨ pc = .woken) ∧ (s.suber i).shouldExitASyncThread = true ∧
      (s.suber i).evtQueue.isEmpty = true ∧ s'.ctx = s.ctx := by
  by_cases hu : u = t
  · subst hu
    have hS := hT.stack u
    cases h
    case asyncExit hf' hb₀ hp _ hs he =>
      rw [hb] at hb₀
      cases hb₀
      exact ⟨hp, hs, he, rfl⟩
    case unsubSignal hf _ hw | postSignal hf _ hw | postRetrySignal hf _ hw =>
      have := hw.base_self hS (by simp [hf])
      simp_all
    case postAccept hf _ _ _ | postFull hf _ _ _ _ | postRetry hf _ _ _ _ _ | haltPush hf _ =>
      have := State.withThread_base_self (i := ‹_›) (hT.ne_nextTid (t := u) (by simp [hf]))
      simp_all
    case postNotFound | postBusy | postCacheFull | postCache | postEnd =>
      have h0 := retPost_gone _ hb'
      simp [hb] at h0
    all_goals simp_all
  · cases h.base_ne hu with
    | same h => simp [h, hb] at hb'
    | created _ _ _ _ h => simp [h] at hb'
    | woken _ h => simp [h] at hb'

/-- The slot of a thread that has ended waits to be joined, with nothing left in its queue. -/
def GoneInv (s : State abi) : Prop :=
  ∀ i u, (s.suber i).asyncThreadID = some u → s.base u = .gone →
    (s.suber i).shouldExitASyncThread = true ∧ (s.suber i).evtQueue.isEmpty = true

theorem goneInv_trans (hT : ThreadInv s) (hL : LockInv s) (hH : HolderInv s) (hI : SlotInv s)
    (hF : FlagInv s) (hG : GoneInv s) (h : Trans s t a s') (he : Effect s s' t) : GoneInv s' := by
  intro j u hx hb
  -- the thread was there before, and had ended or ends now
  have hold : (s.suber j).asyncThreadID = some u := by
    cases he.thread j with
    | same hj => exact hj ▸ hx
    | letGo hj _ => simp [hj] at hx
    | fresh _ _ _ hj _ hb' =>
      obtain rfl : s.nextTid = u := by simpa [hj] using hx
      simp [hb] at hb'
  rcases (hI.thread j u hold).base with h0 | ⟨g, pc, h0⟩
  · obtain ⟨hf0, he0⟩ := hG j u hold h0
    cases he.slot j with
    | same h | kept _ _ _ h | cached h | freed _ _ h =>
      rw [h]
      exact ⟨hf0, he0⟩
    | filled hfree => exact absurd (hI.thread j u hold).occupied hfree
    | flagged _ _ _ h =>
      rw [h]
      exact ⟨rfl, he0⟩
    | started _ _ h => exact ⟨h.flag.trans hf0, by rw [h.evtQueue]; exact he0⟩
    | accepted hf hp => simp [hF.push_flag hL hH hf hp] at hf0
    | took _ hne => simp [he0] at hne
  · obtain ⟨-, hf0, he0, hc⟩ := h.ended hT h0 hb
    rw [State.suber, hc]
    exact ⟨hf0, he0⟩

theorem goneInv_reach (h : Reach ok maxSuberNum clients s) : GoneInv s :=
  h.induction (fun i u hx => by simp [State.suber, State.init, Ctx.init, Suber.zero] at hx)
    fun _ _ _ _ hr hG _ _ h => goneInv_trans (threadInv_reach hr) (lockInv_reach hr) (holderInv_reach hr)
      (slotInv_reach hr) (flagInv_reach hr) hG h (h.effect (threadInv_reach hr) (allocInv_reach hr))

/-! ### Live subscriptions -/

/-- A subscription that is live after a step is the new one, or was live before with the same arguments. -/
theorem Effect.live (h : Effect s s' t) {j : ℕ} (ho : (s'.suber j).occupied) :
    s'.sid j = s.nextSid ∧ j < s.ctx.maxSuberNum.toNat ∨
      s'.sid j = s.sid j ∧ (s.suber j).occupied ∧ (s'.suber j).args = (s.suber j).args := by
  have hkeep : s'.sid j = s.sid j → (s'.suber j).args = (s.suber j).args →
      s'.sid j = s.sid j ∧ (s.suber j).occupied ∧ (s'.suber j).args = (s.suber j).args := fun hs ha =>
    ⟨hs, by simpa only [Suber.occupied, ha] using ho, ha⟩
  cases h.slot j with
  | same h hs | flagged _ _ _ h hs | kept _ _ _ h hs | cached h hs | took _ _ h hs | accepted _ _ _ h _ _ hs =>
    exact .inr (hkeep hs (by rw [h]))
  | filled _ hj _ hs => exact .inl ⟨hs, hj⟩
  | freed _ _ h =>
    rw [h] at ho
    exact absurd ho (Suber.freed_occupied _)
  | started _ _ h _ _ hs => exact .inr (hkeep hs h.args)

/-- Subscriptions are in the slots of the table. -/
theorem occupied_lt_reach (h : Reach ok maxSuberNum clients s) :
    ∀ j, (s.suber j).occupied → j < maxSuberNum.toNat :=
  h.induction (P := fun s => ∀ j, (s.suber j).occupied → j < maxSuberNum.toNat)
    (fun j ho => by simp [State.suber, State.init, Ctx.init, Suber.zero, Suber.occupied] at ho)
    fun s s' t _ hr hP _ _ h j ho => by
      rcases (h.effect (threadInv_reach hr) (allocInv_reach hr)).live ho with ⟨-, hj⟩ | ⟨-, ho, -⟩
      · rwa [maxSuberNum_reach hr] at hj
      · exact hP j ho

/-- Async threads run on the slots of the table. -/
theorem runsOn_lt_reach (h : Reach ok maxSuberNum clients s) : ∀ u i, s.RunsOn u i → i < maxSuberNum.toNat :=
  h.induction (P := fun s => ∀ u i, s.RunsOn u i → i < maxSuberNum.toNat)
    (fun u i hr => absurd hr (State.init_not_runsOn u i))
    fun s s' t _ hr hP _ _ h u i hu => by
      have hT := threadInv_reach hr
      have he := h.effect hT (allocInv_reach hr)
      rcases h.runsOn hT hu with hu | ⟨-, hx⟩
      · exact hP u i hu
      · -- a thread is started for a slot that is taken
        have ho := ((slotInv_trans hT (holderInv_reach hr) (slotInv_reach hr) h he).thread i u hx).occupied
        rcases he.live ho with ⟨-, hi⟩ | ⟨-, ho, -⟩
        · rwa [maxSuberNum_reach hr] at hi
        · exact occupied_lt_reach hr i ho

end PlatIF.Ioc
