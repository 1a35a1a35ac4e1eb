import PlatIF.Ioc.Ownership

/-!
# The thread of a slot stays with its subscription

A callback may unsubscribe its own subscription: the join of the thread with itself fails at once, the slot is
freed, and the thread goes on when the callback returns.  It does no harm while nobody refills the slot before
it has ended (`noReuse`) and it finds no further event to deliver (`selfUnsubEmpty`).

* `idleInv_reach` — a thread whose slot was freed under it has nothing to hand over, and nothing queued;
* `slot_owner` — the law for every run whose steps are like that;
* `slot_owner_lost` — what happens otherwise.
-/

namespace PlatIF.Ioc

variable {abi : Abi} {s s' s₁ s₂ : State abi} {t u : Tid} {a : Act abi} {i g : ℕ} {x : EvtSubArgs}
  {rest : List (Frame abi)} {ok : State abi → Tid × Act abi → Prop} {maxSuberNum : ULong abi}
  {clients : ℕ}

/-- The step is not that of an async thread that joins itself in `unsubEVT` with an event in its queue. -/
def selfUnsubEmpty (s : State abi) (x : Tid × Act abi) : Bool :=
  match s.frames x.1 with
  | .unsub f :: _ =>
    match f.pc with
    | .join i => (s.suber i).asyncThreadID != some x.1 || (s.suber i).evtQueue.isEmpty
    | _ => true
  | _ => true

/-- The two conditions under which the thread of a slot stays with its subscription. -/
def slotOwnerOk (s : State abi) (x : Tid × Act abi) : Prop :=
  noReuse s x = true ∧ selfUnsubEmpty s x = true

instance (s : State abi) (x : Tid × Act abi) : Decidable (slotOwnerOk s x) :=
  inferInstanceAs (Decidable (_ ∧ _))

/-! ### Threads without a subscription -/

/-- A thread that runs on a free slot has nothing to hand over, and its queue is empty. -/
def IdleInv (s : State abi) : Prop :=
  ∀ u i, s.RunsOn u i → ¬ (s.suber i).occupied →
    (s.suber i).evtQueue.isEmpty = true ∧ (s.base u).taken = []

/-- A thread that is in a call has handed over what it took. -/
theorem Stack.taken_eq_nil (hS : Stack (s.base t) (s.frames t)) (hne : s.frames t ≠ []) :
    (s.base t).taken = [] := by
  cases hb : s.base t with
  | async i g pc =>
    cases pc with
    | call d =>
      rw [hb] at hS
      exact absurd (hS.of_idle trivial) hne
    | _ => rfl
  | _ => rfl

/-- A slot with a running thread is freed by that thread, which then has nothing to hand over. -/
theorem OwnInv.idle_of_freed (hT : ThreadInv s) (hO : OwnInv s) (hok : selfUnsubEmpty s (t, a) = true)
    (he : Effect s s' t) (hr : s.RunsOn u i) (ho : (s.suber i).occupied)
    (hn : ¬ (s'.suber i).occupied) : (s.suber i).evtQueue.isEmpty = true ∧ (s.base u).taken = [] := by
  obtain ⟨f, rest, hf, hst⟩ := he.freed_at ho hn
  have hx := (hO.owner u i hr).resolve_right (not_not.mpr ho)
  rcases hst with ⟨-, -, -, hnone⟩ | ⟨hp, hj⟩
  · simp [hx] at hnone
  · have hu : u = t := by
      obtain ⟨g, pc, hb⟩ := hr
      simpa [State.joinReady, hx, hb] using hj
    subst hu
    have hq : (s.suber i).evtQueue.isEmpty = true := by
      simpa [selfUnsubEmpty, hf, hp, hx] using hok
    exact ⟨hq, (hT.stack u).taken_eq_nil (by simp [hf])⟩

theorem idleInv_trans (hT : ThreadInv s) (hA : AllocInv s) (hH : HolderInv s) (hI : SlotInv s)
    (hI' : SlotInv s') (hO : OwnInv s) (hD : IdleInv s) (hok : slotOwnerOk s (t, a))
    (h : Trans s t a s') (he : Effect s s' t) : IdleInv s' := by
  intro u i hr hn
  have hr₀ : s.RunsOn u i := by
    rcases h.runsOn hT hr with hr₀ | ⟨-, hx⟩
    · exact hr₀
    · exact absurd (hI'.thread i u hx).occupied hn
  have hold : (s.suber i).evtQueue.isEmpty = true ∧ (s.base u).taken = [] := by
    by_cases ho : (s.suber i).occupied
    · exact hO.idle_of_freed hT hok.2 he hr₀ ho hn
    · exact hD u i hr₀ ho
  obtain ⟨hq, htk⟩ := hold
  cases he
  case quiet hc h => exact ⟨by rw [State.suber, hc]; exact hq, (h.taken u).trans htk⟩
  case filled k x _ _ _ _ _ hc hs _ _ hb =>
    have hik : i ≠ k := fun hik => noReuse_fresh hA hI hT hok.1 h (by simp [hs, hik]) hr₀
    exact ⟨by simpa [State.suber, hc, hik] using hq, by rw [hb]; exact htk⟩
  case accepted k rest hf hp _ hc _ _ _ _ _ htk' =>
    have hik : i ≠ k := fun hik => by
      subst hik
      have hocc := (hH.post t _ _ i hf (by rw [hp]; rfl)).occupied
      exact hn (by simpa [State.suber, hc, Suber.occupied] using hocc)
    exact ⟨by simpa [State.suber, hc, hik] using hq, (htk' u).trans htk⟩
  case took k g pc hf hb _ hne hc _ _ _ hb' =>
    have hik : i ≠ k := fun hik => by simp [← hik, hq] at hne
    have hut : u ≠ t := by
      rintro rfl
      obtain ⟨g', pc', hb₀⟩ := hr₀
      rw [hb] at hb₀
      exact hik (Base.async.inj hb₀).1.symm
    exact ⟨by simpa [State.suber, hc, hik] using hq, by rw [hb', Function.update_of_ne hut]; exact htk⟩
  case called k g d hf hb _ hc _ _ _ hb' =>
    have hut : u ≠ t := by
      rintro rfl
      simp [hb, Base.taken] at htk
    exact ⟨by rw [State.suber, hc]; exact hq, by rw [hb', Function.update_of_ne hut]; exact htk⟩
  case flagged k _ _ _ _ hc h | freed k _ _ _ hc h | kept k _ _ _ _ hc h =>
    refine ⟨?_, (h.taken u).trans htk⟩
    by_cases hik : i = k
    · subst hik
      simpa [State.suber, hc, Suber.freed, Suber.clearArgs] using hq
    · simpa [State.suber, hc, hik] using hq
  case started k _ x _ _ hx hc _ _ h =>
    refine ⟨?_, (h.taken u).trans htk⟩
    by_cases hik : i = k
    · subst hik
      simpa [State.suber, hc, hx.evtQueue] using hq
    · simpa [State.suber, hc, hik] using hq
  case stored k _ _ _ _ _ hc _ _ _ htk' | retired k _ _ _ _ _ _ hc _ _ _ htk' =>
    refine ⟨?_, (htk' u).trans htk⟩
    by_cases hik : i = k
    · subst hik
      simpa [State.suber, hc] using hq
    · simpa [State.suber, hc, hik] using hq

theorem idleInv_reach (h : Reach slotOwnerOk maxSuberNum clients s) : IdleInv s := by
  refine Runs.ReachUnder.invariant (P := IdleInv) ?_ (fun s s' x hr hD hok hn => ?_) h
  · exact fun u i hr => absurd hr (State.init_not_runsOn u i)
  · have hT := threadInv_reach hr
    have hA := allocInv_reach hr
    have h := (next_trans hn).2
    exact idleInv_trans hT hA (holderInv_reach hr) (slotInv_reach hr) (slotInv_reach (hr.tail x hok hn))
      (ownInv_reach (fun _ _ h => h.1) hr) hD hok h (h.effect hT hA)

/-- A thread hands an event over only while its slot is taken. -/
theorem occupied_of_call (h : Reach slotOwnerOk maxSuberNum clients s) {d : EvtDesc abi}
    (hb : s.base u = .async i g (.call d)) : (s.suber i).occupied := by
  by_contra ho
  have := (idleInv_reach h u i ⟨g, _, hb⟩ ho).2
  simp [hb, Base.taken] at this

/-! ### The arguments of a subscription -/

/-- In the step from `s` to `s'` a call of `subEVT` with the arguments `x` on thread `t` fills slot `i`; the new
subscription has the number `g`. -/
structure Subscribes (s s' : State abi) (t : Tid) (x : EvtSubArgs) (i g : ℕ) : Prop where
  call : ∃ f rest, s.frames t = .sub f :: rest ∧ f.pEvtSubArgs = x
  number : s.nextSid = g
  slot : s'.sid i = g

theorem Subscribes.args (hI : SlotInv s) (he : Effect s s' t) (h : Subscribes s s' t x i g) :
    g < s'.nextSid ∧ (s'.suber i).args.cbProcEvtF = x.cbProcEvtF := by
  obtain ⟨⟨f, rest, hf, rfl⟩, rfl, hs⟩ := h
  have hlt := hI.sid_lt i
  cases he
  case filled f' k y hf' _ _ _ ha hc hs' hn _ _ =>
    rw [hf] at hf'
    obtain ⟨rfl, -⟩ : f = f' ∧ _ := by simpa using hf'
    have hik : i = k := by
      by_contra hik
      rw [hs', Function.update_of_ne hik] at hs
      omega
    subst hik
    exact ⟨by omega, by simpa [State.suber, hc] using ha⟩
  case quiet h | flagged h | freed h | kept h | started h =>
    rw [h.sid] at hs
    omega
  case accepted hs' _ _ _ | took hs' _ _ _ | called hs' _ _ _ | stored hs' _ _ _ | retired hs' _ _ _ =>
    rw [hs'] at hs
    omega

/-- The callback of a subscription is the one it was made with for as long as it is in its slot. -/
theorem Subscribes.kept (hr : Reach ok maxSuberNum clients s) {p : Ptr} (hlt : g < s.nextSid)
    (hp : (s.suber i).args.cbProcEvtF = p) (hs : Runs.ReachUnder next ok s s') :
    s'.sid i = g → (s'.suber i).occupied → (s'.suber i).args.cbProcEvtF = p := by
  have hrun : Reach ok maxSuberNum clients s' ∧ g < s'.nextSid ∧
      (s'.sid i = g → (s'.suber i).occupied → (s'.suber i).args.cbProcEvtF = p) := by
    refine hs.invariant (P := fun s' => Reach ok maxSuberNum clients s' ∧ g < s'.nextSid ∧
      (s'.sid i = g → (s'.suber i).occupied → (s'.suber i).args.cbProcEvtF = p))
      ⟨hr, hlt, fun _ _ => hp⟩ fun s₁ s₂ y _ hP hy hn => ?_
    obtain ⟨hr₁, hlt₁, hp₁⟩ := hP
    have he := (next_trans hn).2.effect (threadInv_reach hr₁) (allocInv_reach hr₁)
    refine ⟨hr₁.tail y hy hn, hlt₁.trans_le he.nextSid_le, fun hg ho => ?_⟩
    rcases he.live ho with ⟨hnew, -⟩ | ⟨hsid, ho₁, hargs⟩
    · omega
    · rw [hargs]
      exact hp₁ (hsid ▸ hg) ho₁
  exact hrun.2.2

/-! ### The law -/

/-- What the step from `.call d` does: the callback is called through the pointer in the slot. -/
theorem call_step {d : EvtDesc abi} (hT : ThreadInv s) (hb : s.base u = .async i g (.call d))
    (ho : (s.suber i).occupied) (hn : next s (u, a) = some s') :
    s'.halted = none ∧ ∃ c : CbFrame abi, s'.frames u = [.cb c] ∧
      c.cbProcEvtF = (s.suber i).args.cbProcEvtF ∧ c.pCbPriv = (s.suber i).args.pCbPriv ∧ c.sid = s.sid i := by
  have hS := hT.stack u
  rw [hb] at hS
  have hf := hS.of_idle trivial
  have hh := (next_trans hn).1
  simp only [next, State.step, hf, hb, hh, Option.isSome_none, Bool.false_eq_true, if_false] at hn
  cases a <;> simp only [State.asyncStep, reduceCtorEq, Option.some.injEq] at hn
  subst hn
  rw [State.asyncCall, if_neg ho]
  exact ⟨hh, _, Function.update_self .., rfl, rfl, rfl⟩

/-- **Slots and threads.**  In every reachable state a slot has one async thread at most; a thread works for the
subscription it was created for, which is still the last one in its slot; and the callback it calls is not null:
it is the one that subscription was made with. -/
theorem slot_owner (hr : Reach slotOwnerOk maxSuberNum clients s) :
    (∀ u v i, s.RunsOn u i → s.RunsOn v i → u = v) ∧
    (∀ u i g pc, s.base u = .async i g pc → s.sid i = g) ∧
    ∀ u i g d a s', s.base u = .async i g (.call d) → next s (u, a) = some s' →
      s'.halted = none ∧ ∃ c : CbFrame abi, s'.frames u = [.cb c] ∧ c.sid = g ∧ c.cbProcEvtF ≠ NULL ∧
        ∀ s₁ s₂ t a₁ x, Reach slotOwnerOk maxSuberNum clients s₁ → slotOwnerOk s₁ (t, a₁) →
          next s₁ (t, a₁) = some s₂ → Subscribes s₁ s₂ t x i g → Runs.ReachUnder next slotOwnerOk s₂ s →
          c.cbProcEvtF = x.cbProcEvtF := by
  have hT := threadInv_reach hr
  have hO := ownInv_reach (fun _ _ h => h.1) hr
  refine ⟨hO.unique, fun u i g pc hb => (hO.sid u i g pc hb).symm, fun u i g d a s' hb hn => ?_⟩
  have ho := occupied_of_call hr hb
  have hg := (hO.sid u i g _ hb).symm
  obtain ⟨hh, c, hf, hcb, -, hsid⟩ := call_step hT hb ho hn
  refine ⟨hh, c, hf, hsid.trans hg, by rw [hcb]; exact ho, fun s₁ s₂ t a₁ x hr₁ hok hn₁ hsub hrun => ?_⟩
  obtain ⟨hlt, hx⟩ := hsub.args (slotInv_reach hr₁)
    ((next_trans hn₁).2.effect (threadInv_reach hr₁) (allocInv_reach hr₁))
  rw [hcb]
  exact Subscribes.kept (hr₁.tail (t, a₁) hok hn₁) hlt hx hrun hg ho

/-- Thread `0` posts an event to the subscription in slot `0`, which `skips` slots follow. -/
def clientPost (id : EvtID) (skips : ℕ) : List (Tid × Act lp64) :=
  ([(0, .call (.postEVT (.ofID lp64 id) none)), (0, .go), (0, .go), (0, .go), (0, .signal none)] :
    List (Tid × Act lp64)) ++
    List.replicate (skips + 1) (0, .go)

/-- A subscription is made, its first event is delivered, and the callback runs on thread `1`. -/
def firstCallback (skips : ℕ) : List (Tid × Act lp64) :=
  [(0, .call (.subEVT ⟨1, 1, some [7, 8]⟩)), (0, .go)] ++ clientPost 7 skips ++ [(1, .go), (1, .go), (1, .go)]

/-- The callback unsubscribes its own subscription. -/
def selfUnsub : List (Tid × Act lp64) :=
  [(1, .call (.unsubEVT (some ⟨1, 1⟩))), (1, .go), (1, .go), (1, .go), (1, .signal none), (1, .go)]

/-- A callback that unsubscribes its own subscription leaves the queued event to a call through the null pointer.
One that then subscribes again leaves two threads on one slot, the older one for a subscription that is gone. -/
theorem slot_owner_lost :
    (∃ (s s' : State lp64) (d : EvtDesc lp64), Reach (fun _ _ => True) (initMaxSuberNum lp64) 1 s ∧
      s.base 1 = .async 0 1 (.call d) ∧ (s.suber 0).args.cbProcEvtF = NULL ∧
      next s (1, .go) = some s' ∧ s'.halted = some .nullCall) ∧
    ∃ s : State lp64, Reach (fun _ _ => True) (initMaxSuberNum lp64) 1 s ∧ s.RunsOn 1 0 ∧ s.RunsOn 2 0 ∧
      (∃ pc, s.base 1 = .async 0 1 pc) ∧ s.sid 0 = 2 := by
  constructor
  · obtain ⟨s, hr, hs⟩ := reach_of_run (fun _ _ => True) (initMaxSuberNum lp64) 1
      (firstCallback 31 ++ clientPost 8 31 ++ selfUnsub ++ [(1, .ret .success), (1, .go), (1, .go), (1, .go)])
      (fun s => (next s (1, .go)).any fun s' => decide (s.base 1 = .async 0 1 (.call (.ofID lp64 8))) &&
        decide ((s.suber 0).args.cbProcEvtF = NULL) && s'.halted == some .nullCall) (by decide +kernel)
    simp only [Option.any_eq_true, Bool.and_eq_true, beq_iff_eq, decide_eq_true_eq] at hs
    obtain ⟨s', hn, ⟨hb, hnull⟩, hh⟩ := hs
    exact ⟨s, s', _, hr, hb, hnull, hn, hh⟩
  · obtain ⟨s, hr, hs⟩ := reach_of_run (fun _ _ => True) (initMaxSuberNum lp64) 1
      (firstCallback 31 ++ selfUnsub ++ [(1, .call (.subEVT ⟨1, 1, some [7]⟩)), (1, .go),
        (0, .call (.postEVT (.ofID lp64 7) none)), (0, .go), (0, .go), (0, .go)])
      (fun s => decide (s.base 1 = .async 0 1 (.inCb (.ofID lp64 7))) && decide (s.base 2 = .async 0 2 .start) &&
        s.sid 0 == 2) (by decide +kernel)
    simp only [Bool.and_eq_true, beq_iff_eq, decide_eq_true_eq] at hs
    obtain ⟨⟨hb, hb'⟩, hsid⟩ := hs
    exact ⟨s, hr, ⟨_, _, hb⟩, ⟨_, _, hb'⟩, ⟨_, hb⟩, hsid⟩

/-- A callback unsubscribes itself with nothing queued, its thread ends, and the thread of the next subscription in
the slot comes to its callback. -/
theorem slot_owner_next :
    ∃ (s s' : State lp64) (d : EvtDesc lp64), s.base 2 = .async 0 2 (.call d) ∧ next s (2, .go) = some s' ∧
      (∀ u v i, s.RunsOn u i → s.RunsOn v i → u = v) ∧
      s'.halted = none ∧ ∃ c : CbFrame lp64, s'.frames 2 = [.cb c] ∧ c.sid = 2 ∧ c.cbProcEvtF ≠ NULL := by
  obtain ⟨s, hr, hs⟩ := reach_of_run slotOwnerOk (1 : ULong lp64) 1
    (firstCallback 0 ++ selfUnsub ++ [(1, .ret .success), (1, .go), (1, .go), (1, .go),
      (0, .call (.subEVT ⟨2, 2, some [7]⟩)), (0, .go),
      (0, .call (.postEVT (.ofID lp64 7) none)), (0, .go), (0, .go), (0, .go), (2, .go), (2, .go)])
    (fun s => (next s (2, .go)).any fun _ => decide (s.base 2 = .async 0 2 (.call (.ofID lp64 7))))
    (by decide +kernel)
  simp only [Option.any_eq_true, decide_eq_true_eq] at hs
  obtain ⟨s', hn, hb⟩ := hs
  obtain ⟨hu, -, hcall⟩ := slot_owner hr
  obtain ⟨hh, c, hf, hg, hne, -⟩ := hcall 2 0 2 _ .go s' hb hn
  exact ⟨s, s', _, hb, hn, hu, hh, c, hf, hg, hne⟩

end PlatIF.Ioc
