import PlatIF.Ioc.History
import PlatIF.Lib.Channel

/-!
# Every accepted event is delivered once, in order

Along runs in which no callback unsubscribes its own subscription, the queue of a slot with its async thread
is a lossless channel (`Conserved`): what was pushed for the subscription in the slot is what its callback
was given, then what its thread has in hand, then what is queued (`flowInv_reach`).  The counters of the
queue may wrap as often as they like.

* `FlowInv.old` — a subscription that has left its slot was given everything;
* `delivery_exactly_once` — the law for a live subscription.
-/

namespace PlatIF.Ioc

variable {abi : Abi} {s s' : State abi} {t u : Tid} {a : Act abi} {i g : ℕ}
  {rest : List (Frame abi)} {maxSuberNum : ULong abi} {clients : ℕ}

/-- The event that the thread of slot `i` has taken and not yet handed to the callback. -/
def State.inHand (s : State abi) (i : ℕ) : List (EvtDesc abi) :=
  match (s.suber i).asyncThreadID with
  | some u => (s.base u).taken
  | none => []

theorem State.inHand_of_none (h : (s.suber i).asyncThreadID = none) : s.inHand i = [] := by
  rw [State.inHand, h]

theorem State.inHand_of_some (h : (s.suber i).asyncThreadID = some u) :
    s.inHand i = (s.base u).taken := by
  rw [State.inHand, h]

/-- The events of every slot flow through a lossless channel. -/
structure FlowInv (s : State abi) : Prop where
  channel : ∀ i, Conserved (ledger (s.sid i) s.log).accepted (ledger (s.sid i) s.log).delivered
    (s.inHand i) (s.suber i).evtQueue.contents
  idle : ∀ i, (s.suber i).asyncThreadID = none → (s.suber i).evtQueue.contents = []
  old : ∀ g, (∀ i, s.sid i ≠ g) → (ledger g s.log).accepted = (ledger g s.log).delivered

theorem inHand_congr (hx : (s'.suber i).asyncThreadID = (s.suber i).asyncThreadID)
    (hb : ∀ u, (s.suber i).asyncThreadID = some u → (s'.base u).taken = (s.base u).taken) :
    s'.inHand i = s.inHand i := by
  cases hu : (s.suber i).asyncThreadID with
  | none => rw [State.inHand_of_none hu, State.inHand_of_none (hx.trans hu)]
  | some u => rw [State.inHand_of_some hu, State.inHand_of_some (hx.trans hu), hb u hu]

/-- A thread that was just started has nothing in hand. -/
theorem inHand_started (hT : ThreadInv s)
    (hx : (s'.suber i).asyncThreadID = some ((s.suber i).asyncThreadID.getD s.nextTid))
    (hb : ∀ u, (s'.base u).taken = (s.base u).taken) : s'.inHand i = s.inHand i := by
  cases hu : (s.suber i).asyncThreadID with
  | none =>
    rw [hu, Option.getD_none] at hx
    rw [State.inHand_of_none hu, State.inHand_of_some hx, hb, (hT.fresh _ le_rfl).1]
    rfl
  | some u => exact inHand_congr (by rw [hx, hu]; rfl) fun v _ => hb v

/-- The thread in a slot is not the one of another slot. -/
theorem SlotInv.thread_ne (hI : SlotInv s) {j : ℕ} (hr : s.RunsOn t i) (hj : j ≠ i)
    (hx : (s.suber j).asyncThreadID = some u) : u ≠ t := by
  rintro rfl
  obtain ⟨g, pc, hb⟩ := hr
  rcases (hI.thread j u hx).base with h | ⟨g', pc', h⟩
  · simp [h] at hb
  · rw [hb] at h
    cases h
    exact hj rfl

/-- A step that keeps the subscriptions, what was accepted and delivered, the queues and what the threads
have in hand. -/
theorem FlowInv.of_same (hF : FlowInv s) (hs : s'.sid = s.sid)
    (hl : ∀ g, (ledger g s'.log).accepted = (ledger g s.log).accepted ∧
      (ledger g s'.log).delivered = (ledger g s.log).delivered)
    (hq : ∀ i, (s'.suber i).evtQueue = (s.suber i).evtQueue) (hh : ∀ i, s'.inHand i = s.inHand i)
    (hi : ∀ i, (s'.suber i).asyncThreadID = none → (s.suber i).evtQueue.contents = []) :
    FlowInv s' := by
  refine ⟨fun i => ?_, fun i hx => ?_, fun g hg => ?_⟩
  · rw [hs, (hl _).1, (hl _).2, hh, hq]
    exact hF.channel i
  · rw [hq]
    exact hi i hx
  · rw [(hl g).1, (hl g).2]
    exact hF.old g (hs ▸ hg)

/-- A slot that is let go has nothing in hand and nothing queued. -/
theorem FlowInv.stopped (hF : FlowInv s) (hI : SlotInv s) (hG : GoneInv s) (hW : OwnedInv s)
    (hok : noSelfUnsub s (t, a) = true) {f : UnsubFrame} (hf : s.frames t = .unsub f :: rest)
    (hs : s.slotStopped t f i) : s.inHand i = [] ∧ (s.suber i).evtQueue.contents = [] := by
  cases hx : (s.suber i).asyncThreadID with
  | none => exact ⟨State.inHand_of_none hx, hF.idle i hx⟩
  | some u =>
    have hgone := (hI.thread i u hx).base.resolve_right (hW.stopped hok hf hs)
    refine ⟨?_, (WrapRing.isEmpty_iff_contents _).mp (hG i u hx hgone).2⟩
    rw [State.inHand_of_some hx, hgone]
    rfl

/-- A new subscription starts with an empty channel, and its predecessor was given everything. -/
theorem FlowInv.filled {k : ℕ} (hF : FlowInv s) (hI : SlotInv s) (hR : FreshInv s)
    (hfree : ¬ (s.suber k).occupied) (hx : (s'.suber k).Blank)
    (hother : ∀ i, i ≠ k → s'.suber i = s.suber i) (hs : s'.sid = Function.update s.sid k s.nextSid)
    (hl : flow s'.log = flow s.log) (hb : s'.base = s.base) : FlowInv s' := by
  have hnone : (s.suber k).asyncThreadID = none := by
    by_contra hx
    obtain ⟨u, hu⟩ := Option.ne_none_iff_exists'.mp hx
    exact hfree (hI.thread k u hu).occupied
  have hlast : (ledger (s.sid k) s.log).accepted = (ledger (s.sid k) s.log).delivered := by
    have := hF.channel k
    rw [State.inHand_of_none hnone, hF.idle k hnone] at this
    exact this.all_delivered
  refine ⟨fun i => ?channel, fun i hx' => ?idle, fun g hg => ?old⟩
  case channel =>
    rw [ledger_same hl]
    by_cases hi : i = k
    · rw [hi, hs, Function.update_self, hR _ le_rfl, State.inHand_of_none hx.asyncThreadID, hx.evtQueue,
        WrapRing.contents_of_eq rfl]
      exact .empty
    · have hh : s'.inHand i = s.inHand i :=
        inHand_congr (by rw [hother i hi]) fun u _ => by rw [hb]
      rw [hs, Function.update_of_ne hi, hother i hi, hh]
      exact hF.channel i
  case idle =>
    by_cases hi : i = k
    · rw [hi, hx.evtQueue, WrapRing.contents_of_eq rfl]
    · rw [hother i hi] at hx' ⊢
      exact hF.idle i hx'
  case old =>
    rw [ledger_same hl]
    by_cases hgk : s.sid k = g
    · exact hgk ▸ hlast
    · refine hF.old g fun i => ?_
      by_cases hi : i = k
      · exact hi ▸ hgk
      · simpa [hs, hi] using hg i

/-- A push appends to the channel of the slot. -/
theorem FlowInv.accepted {k : ℕ} {b : Bool} {d : EvtDesc abi} {x : Suber abi} (hF : FlowInv s)
    (hI : SlotInv s) (hT : ThreadInv s) (h0 : s.sid k ≠ 0) (hr : (s.suber k).evtQueue.hasRoom = true)
    (hc : s'.ctx.pEvtSubers = Function.update s.ctx.pEvtSubers k x)
    (hx : x.asyncThreadID = some ((s.suber k).asyncThreadID.getD s.nextTid))
    (hq : x.evtQueue = (s.suber k).evtQueue.push d) (hs : s'.sid = s.sid)
    (hl : flow s'.log = flow s.log ++ [.accept (s.sid k) t b d])
    (hb : ∀ u, (s'.base u).taken = (s.base u).taken) : FlowInv s' := by
  have hother : ∀ i, i ≠ k → s'.suber i = s.suber i := fun i hi => by simp [State.suber, hc, hi]
  have hself : s'.suber k = x := by simp [State.suber, hc]
  refine ⟨fun i => ?channel, fun i hnone => ?idle, fun g hg => ?old⟩
  case channel =>
    rw [hs]
    by_cases hi : i = k
    · subst hi
      have hh : s'.inHand i = s.inHand i := inHand_started hT (by rw [hself, hx]) hb
      have hpow : evtQueueMax < 2 ^ abi.ulongBits := lt_of_lt_of_le (by decide) abi.pow_le
      rw [ledger_accept hl, hh, hself, hq,
        WrapRing.contents_push (one_dvd _) hpow _ _ ((WrapRing.hasRoom_iff _).mp hr)]
      exact (hF.channel i).accept _
    · have hne : s.sid k ≠ s.sid i := fun h => hi (hI.sid_inj k i h h0).symm
      have hh : s'.inHand i = s.inHand i := inHand_congr (by rw [hother i hi]) fun u _ => hb u
      rw [ledger_other hl (by simpa [Obs.about] using hne), hh, hother i hi]
      exact hF.channel i
  case idle =>
    by_cases hi : i = k
    · simp [hi, hself, hx] at hnone
    · rw [hother i hi] at hnone ⊢
      exact hF.idle i hnone
  case old =>
    rw [hs] at hg
    rw [ledger_other hl (by simpa [Obs.about] using hg k)]
    exact hF.old g hg

/-- The thread of a slot takes the head of the queue into its hand. -/
theorem FlowInv.took {k g : ℕ} {pc : AsyncPc abi} (hF : FlowInv s) (hI : SlotInv s) (hW : OwnedInv s)
    (hb : s.base t = .async k g pc) (hpc : pc = .top ∨ pc = .woken)
    (he : (s.suber k).evtQueue.isEmpty = false)
    (hc : s'.ctx.pEvtSubers = Function.update s.ctx.pEvtSubers k
      { s.suber k with evtQueue := (s.suber k).evtQueue.pop })
    (hs : s'.sid = s.sid) (hl : flow s'.log = flow s.log)
    (hb' : s'.base = Function.update s.base t (.async k g (.call (s.suber k).evtQueue.front))) :
    FlowInv s' := by
  have hr : s.RunsOn t k := ⟨g, pc, hb⟩
  have hx := hW t k hr
  have hother : ∀ i, i ≠ k → s'.suber i = s.suber i := fun i hi => by simp [State.suber, hc, hi]
  have hself : s'.suber k = { s.suber k with evtQueue := (s.suber k).evtQueue.pop } := by
    simp [State.suber, hc]
  refine ⟨fun i => ?channel, fun i hnone => ?idle, fun g hg => ?old⟩
  case channel =>
    rw [hs, ledger_same hl]
    by_cases hi : i = k
    · subst hi
      have hold := hF.channel i
      have hne : (s.suber i).evtQueue.pending ≠ 0 := fun h0 => by
        simp [(WrapRing.isEmpty_iff_pending _).mpr h0] at he
      have hhand : s.inHand i = [] := by
        rw [State.inHand_of_some hx, hb]
        rcases hpc with rfl | rfl <;> rfl
      rw [hhand, WrapRing.contents_pop _ hne] at hold
      rw [State.inHand_of_some (by rw [hself]; exact hx), hb', Function.update_self, hself]
      exact hold.take
    · have hh : s'.inHand i = s.inHand i := inHand_congr (by rw [hother i hi]) fun u hu => by
        rw [hb', Function.update_of_ne (hI.thread_ne hr hi hu)]
      rw [hh, hother i hi]
      exact hF.channel i
  case idle =>
    by_cases hi : i = k
    · rw [hi, hself] at hnone
      simp [hx] at hnone
    · rw [hother i hi] at hnone ⊢
      exact hF.idle i hnone
  case old =>
    rw [ledger_same hl]
    exact hF.old g (hs ▸ hg)

/-- The thread of a slot hands the event to the callback. -/
theorem FlowInv.called {k g : ℕ} {d : EvtDesc abi} (hF : FlowInv s) (hI : SlotInv s) (hW : OwnedInv s)
    (hb : s.base t = .async k g (.call d)) (hc : s'.ctx.pEvtSubers = s.ctx.pEvtSubers) (hs : s'.sid = s.sid)
    (hl : flow s'.log = flow s.log ++ [.deliver (s.sid k) t d])
    (hb' : s'.base = Function.update s.base t (.async k g (.inCb d))) : FlowInv s' := by
  have hr : s.RunsOn t k := ⟨g, _, hb⟩
  have hx := hW t k hr
  have hslot : ∀ i, s'.suber i = s.suber i := fun i => by rw [State.suber, hc]
  refine ⟨fun i => ?channel, fun i hnone => ?idle, fun g hg => ?old⟩
  case channel =>
    rw [hs, hslot]
    by_cases hi : i = k
    · subst hi
      have hold := hF.channel i
      rw [State.inHand_of_some hx, hb] at hold
      rw [ledger_deliver hl, State.inHand_of_some (by rw [hslot]; exact hx), hb', Function.update_self]
      exact hold.deliver
    · have hne : s.sid k ≠ s.sid i := fun h => hi (hI.sid_inj k i h (hI.sid_run t k hr)).symm
      have hh : s'.inHand i = s.inHand i := inHand_congr (by rw [hslot]) fun u hu => by
        rw [hb', Function.update_of_ne (hI.thread_ne hr hi hu)]
      rw [ledger_other hl (by simpa [Obs.about] using hne), hh]
      exact hF.channel i
  case idle =>
    rw [hslot] at hnone ⊢
    exact hF.idle i hnone
  case old =>
    rw [hs] at hg
    rw [ledger_other hl (by simpa [Obs.about] using hg k)]
    exact hF.old g hg

theorem flowInv_trans (hT : ThreadInv s) (hH : HolderInv s) (hI : SlotInv s) (hR : FreshInv s)
    (hG : GoneInv s) (hW : OwnedInv s) (hF : FlowInv s) (hok : noSelfUnsub s (t, a) = true) (he : Effect s s' t) :
    FlowInv s' := by
  cases he
  case quiet hc h =>
    exact hF.of_same h.sid (fun g => by rw [ledger_same h.flow]; exact ⟨rfl, rfl⟩) (fun i => by rw [State.suber, hc])
      (fun i => inHand_congr (by rw [State.suber, hc]) fun u _ => h.taken u)
      (fun i => by rw [State.suber, hc]; exact hF.idle i)
  case flagged k _ _ _ _ hc h =>
    have hslot : ∀ i, (s'.suber i).asyncThreadID = (s.suber i).asyncThreadID ∧
        (s'.suber i).evtQueue = (s.suber i).evtQueue := fun i => by
      by_cases hi : i = k <;> simp [State.suber, hc, hi]
    exact hF.of_same h.sid (fun g => by rw [ledger_same h.flow]; exact ⟨rfl, rfl⟩) (fun i => (hslot i).2)
      (fun i => inHand_congr (hslot i).1 fun u _ => h.taken u)
      (fun i hx => hF.idle i ((hslot i).1 ▸ hx))
  case stored k _ _ _ _ _ hc hs hn hl hb | retired k _ _ _ _ _ _ hc hs hn hl hb =>
    have hslot : ∀ i, (s'.suber i).asyncThreadID = (s.suber i).asyncThreadID ∧
        (s'.suber i).evtQueue = (s.suber i).evtQueue := fun i => by
      by_cases hi : i = k <;> simp [State.suber, hc, hi]
    exact hF.of_same hs (fun g => by rw [ledger_of_flow hl]; simp [accepted, delivered]) (fun i => (hslot i).2)
      (fun i => inHand_congr (hslot i).1 fun u _ => hb u) (fun i hx => hF.idle i ((hslot i).1 ▸ hx))
  case freed k _ hf hst hc h =>
    obtain ⟨hhand, hempty⟩ := hF.stopped hI hG hW hok hf hst
    refine hF.of_same h.sid (fun g => by rw [ledger_same h.flow]; exact ⟨rfl, rfl⟩) ?_ ?_ ?_
    · intro i
      by_cases hi : i = k <;> simp [State.suber, hc, hi, Suber.freed, Suber.clearArgs]
    · intro i
      by_cases hi : i = k
      · rw [hi, hhand, State.inHand_of_none (by simp [State.suber, hc, Suber.freed])]
      · exact inHand_congr (by simp [State.suber, hc, hi]) fun u _ => h.taken u
    · intro i hx
      by_cases hi : i = k
      · rw [hi, hempty]
      · exact hF.idle i (by simpa [State.suber, hc, hi] using hx)
  case kept k _ hf hst _ hc h =>
    obtain ⟨hhand, hempty⟩ := hF.stopped hI hG hW hok hf hst
    refine hF.of_same h.sid (fun g => by rw [ledger_same h.flow]; exact ⟨rfl, rfl⟩) ?_ ?_ ?_
    · intro i
      by_cases hi : i = k <;> simp [State.suber, hc, hi]
    · intro i
      by_cases hi : i = k
      · rw [hi, hhand, State.inHand_of_none (by simp [State.suber, hc])]
      · exact inHand_congr (by simp [State.suber, hc, hi]) fun u _ => h.taken u
    · intro i hx
      by_cases hi : i = k
      · rw [hi, hempty]
      · exact hF.idle i (by simpa [State.suber, hc, hi] using hx)
  case started k _ x _ _ hx hc _ _ h =>
    refine hF.of_same h.sid (fun g => by rw [ledger_same h.flow]; exact ⟨rfl, rfl⟩) ?_ ?_ ?_
    · intro i
      by_cases hi : i = k <;> simp [State.suber, hc, hi, hx.evtQueue]
    · intro i
      by_cases hi : i = k
      · exact inHand_started hT (by simp [State.suber, hc, hi, hx.asyncThreadID]) h.taken
      · exact inHand_congr (by simp [State.suber, hc, hi]) fun u _ => h.taken u
    · intro i hn
      by_cases hi : i = k
      · simp [State.suber, hc, hi, hx.asyncThreadID] at hn
      · exact hF.idle i (by simpa [State.suber, hc, hi] using hn)
  case filled k x _ _ hfree hx _ hc hs _ hl hb =>
    exact hF.filled hI hR hfree (by simpa [State.suber, hc] using hx)
      (fun i hi => by simp [State.suber, hc, hi]) hs hl hb
  case accepted k _ hf hp hr hc _ _ hs _ hl hb =>
    have hocc := (hH.post t _ _ k hf (by rw [hp]; rfl)).occupied
    exact hF.accepted hI hT (hI.sid_pos k hocc) hr hc rfl rfl hs hl hb
  case took k g pc hf hb hpc he hc hs _ hl hb' => exact hF.took hI hW hb hpc he hc hs hl hb'
  case called k g d hf hb _ hc hs _ hl hb' => exact hF.called hI hW hb hc hs hl hb'

theorem flowInv_reach (h : Reach (fun s x => noSelfUnsub s x = true) maxSuberNum clients s) :
    FlowInv s := by
  refine h.induction ⟨fun i => ?_, fun i _ => ?_, fun _ _ => rfl⟩
    fun _ _ _ _ hr hF hok _ h => flowInv_trans (threadInv_reach hr) (holderInv_reach hr)
      (slotInv_reach hr) (freshInv_reach hr) (goneInv_reach hr) (owned_reach hr).2 hF hok
      (h.effect (threadInv_reach hr) (allocInv_reach hr))
  · rw [State.inHand_of_none rfl, WrapRing.contents_of_eq rfl]
    exact .empty
  · exact WrapRing.contents_of_eq rfl

/-- **Exactly once, in order.**  What the callback of a subscription was given by its async thread is a
prefix of what was accepted for it; what was accepted and not yet taken is what is queued, and that is
`EvtPostCnt - EvtProcCnt` events, at most one, for all values of the counters. -/
theorem delivery_exactly_once
    (hr : Reach (fun s x => noSelfUnsub s x = true) maxSuberNum clients s) (i : ℕ) :
    delivered (s.sid i) s.log <+: accepted (s.sid i) s.log ∧
      accepted (s.sid i) s.log =
        delivered (s.sid i) s.log ++ s.inHand i ++ (s.suber i).evtQueue.contents ∧
      (s.suber i).evtQueue.contents.length =
        ((s.suber i).evtQueue.postCnt - (s.suber i).evtQueue.procCnt).toNat ∧
      ((s.suber i).evtQueue.postCnt - (s.suber i).evtQueue.procCnt).toNat ≤ 1 := by
  have hF := (flowInv_reach hr).channel i
  refine ⟨hF.isPrefix, hF, ?_, (slotInv_reach hr).room i⟩
  rw [WrapRing.contents_length]
  rfl

/-- Two posts of which the first was delivered and the second is queued. -/
theorem delivery_exactly_once_two :
    ∃ s : State lp64, (accepted 1 s.log).length = 2 ∧ s.sid 0 = 1 ∧
      delivered (s.sid 0) s.log <+: accepted (s.sid 0) s.log ∧
      accepted (s.sid 0) s.log =
        delivered (s.sid 0) s.log ++ s.inHand 0 ++ (s.suber 0).evtQueue.contents ∧
      (s.suber 0).evtQueue.contents.length =
        ((s.suber 0).evtQueue.postCnt - (s.suber 0).evtQueue.procCnt).toNat ∧
      ((s.suber 0).evtQueue.postCnt - (s.suber 0).evtQueue.procCnt).toNat ≤ 1 := by
  obtain ⟨s, hr, hs⟩ := reach_of_run (fun s x => noSelfUnsub s x = true) (1 : ULong lp64) 1
    ([(0, .call (.subEVT ⟨1, 1, some [7, 8]⟩)), (0, .go),
      (0, .call (.postEVT (.ofID lp64 7) none)), (0, .go), (0, .go), (0, .go), (0, .signal none), (0, .go),
      (1, .go), (1, .go), (1, .go),
      (0, .call (.postEVT (.ofID lp64 8) none)), (0, .go), (0, .go), (0, .go)])
    (fun s => (accepted 1 s.log).length == 2 && s.sid 0 == 1) (by decide +kernel)
  simp only [Bool.and_eq_true, beq_iff_eq] at hs
  exact ⟨s, hs.1, hs.2, delivery_exactly_once hr 0⟩

end PlatIF.Ioc
