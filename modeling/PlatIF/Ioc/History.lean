import Mathlib.Tactic.Simps.Basic
import PlatIF.Ioc.Ownership

/-!
# Counters and history

What the log says of one subscription is its `Ledger`.  A step that moves an event writes to one ledger and
leaves the others alone (`ledger_other`), and a subscription that is still to come has an empty one
(`freshInv_reach`).  The post counter of a queue and both counters of a cache count, modulo their width, the
ledger of the subscription in the slot (`countersInv_reach`), so a subscription never sees the counts of an
earlier one in the same slot.
-/

namespace PlatIF.Ioc

variable {abi : Abi} {s s' : State abi} {t : Tid} {i g k n : ℕ} {d : EvtDesc abi}
  {o : Obs abi} {rest : List (Frame abi)} {ok : State abi → Tid × Act abi → Prop}
  {maxSuberNum : ULong abi} {clients : ℕ}

/-- The history of one subscription. -/
@[ext] structure Ledger (abi : Abi) where
  accepted : List (EvtDesc abi)
  delivered : List (EvtDesc abi)
  stores : List (ℕ × EvtDesc abi)
  retires : List Tid

/-- What the log says of subscription `g`. -/
@[simps] def ledger (g : ℕ) (log : List (Obs abi)) : Ledger abi :=
  ⟨accepted g log, delivered g log, stores g log, retires g log⟩

/-- The subscription whose event a log entry moves. -/
def Obs.about : Obs abi → Option ℕ
  | .accept g _ _ _ | .deliver g _ _ | .store g _ _ | .retire g _ => some g
  | _ => none

theorem ledger_of_flow {l l' os : List (Obs abi)} (h : flow l' = flow l ++ os) :
    ledger g l' = ⟨accepted g l ++ accepted g os, delivered g l ++ delivered g os,
      stores g l ++ stores g os, retires g l ++ retires g os⟩ := by
  simp only [ledger, accepted_of_flow h, delivered_of_flow h, stores_of_flow h, retires_of_flow h]

theorem ledger_same (hl : flow s'.log = flow s.log) (g : ℕ) : ledger g s'.log = ledger g s.log := by
  have hl : flow s'.log = flow s.log ++ [] := by simpa using hl
  rw [ledger_of_flow hl]
  simp [ledger, accepted, delivered, stores, retires]

theorem ledger_about (ho : o.about ≠ some g) : ledger g [o] = ⟨[], [], [], []⟩ := by
  cases o with
  | accept g' | deliver g' | store g' | retire g' =>
    have hne : g' ≠ g := fun he => ho (congrArg some he)
    simp only [ledger, accepted, delivered, stores, retires, List.filterMap_cons, List.filterMap_nil, if_neg hne]
  | _ => rfl

/-- An entry about another subscription. -/
theorem ledger_other (hl : flow s'.log = flow s.log ++ [o]) (ho : o.about ≠ some g) :
    ledger g s'.log = ledger g s.log := by
  obtain ⟨h1, h2, h3, h4⟩ := Ledger.mk.inj (ledger_about ho)
  rw [ledger_of_flow hl, h1, h2, h3, h4]
  simp only [List.append_nil, ledger]

theorem ledger_accept {b : Bool} (hl : flow s'.log = flow s.log ++ [.accept g t b d]) :
    ledger g s'.log = { ledger g s.log with accepted := accepted g s.log ++ [d] } := by
  rw [ledger_of_flow hl]
  simp [ledger, accepted, delivered, stores, retires]

theorem ledger_deliver (hl : flow s'.log = flow s.log ++ [.deliver g t d]) :
    ledger g s'.log = { ledger g s.log with delivered := delivered g s.log ++ [d] } := by
  rw [ledger_of_flow hl]
  simp [ledger, accepted, delivered, stores, retires]

theorem ledger_store (hl : flow s'.log = flow s.log ++ [.store g n d]) :
    ledger g s'.log = { ledger g s.log with stores := stores g s.log ++ [(n, d)] } := by
  rw [ledger_of_flow hl]
  simp [ledger, accepted, delivered, stores, retires]

theorem ledger_retire (hl : flow s'.log = flow s.log ++ [.retire g t]) :
    ledger g s'.log = { ledger g s.log with retires := retires g s.log ++ [t] } := by
  rw [ledger_of_flow hl]
  simp [ledger, accepted, delivered, stores, retires]

/-- What a step writes to the ledgers: nothing, or one entry about the subscription in one slot. -/
theorem Effect.flow (hT : ThreadInv s) (hH : HolderInv s) (hI : SlotInv s) (h : Effect s s' t) :
    Ioc.flow s'.log = Ioc.flow s.log ∨
      ∃ k o, Ioc.flow s'.log = Ioc.flow s.log ++ [o] ∧ o.about = some (s.sid k) ∧ s.sid k ≠ 0 ∧ s'.sid = s.sid := by
  cases h
  case quiet h | flagged h | freed h | kept h | started h => exact .inl h.flow
  case filled hl _ => exact .inl hl
  case took hl _ => exact .inl hl
  case accepted k _ hf hp _ _ _ _ hs _ hl _ =>
    have hocc := (hH.post t _ _ k hf (by rw [hp]; rfl)).occupied
    exact .inr ⟨k, _, hl, rfl, hI.sid_pos k hocc, hs⟩
  case called k g d hf hb ho _ hs _ hl _ => exact .inr ⟨k, _, hl, rfl, hI.sid_pos k ho, hs⟩
  case stored k rest hf hp ht _ _ hs _ hl _ =>
    have hrun : s.RunsOn t k := hT.async_of_tls (by simp [hf]) ht
    exact .inr ⟨k, _, hl, rfl, hI.sid_run t k hrun, hs⟩
  case retired k g d r hf hb _ _ hs _ hl _ =>
    exact .inr ⟨k, _, hl, rfl, hI.sid_run t k ⟨g, _, hb⟩, hs⟩

/-- What is logged about a subscription is about a real one. -/
theorem Effect.about_ne_zero (hT : ThreadInv s) (hH : HolderInv s) (hI : SlotInv s) (h : Effect s s' t)
    (hl : Ioc.flow s'.log = Ioc.flow s.log ++ [o]) (ho : o.about = some g) : g ≠ 0 := by
  rcases h.flow hT hH hI with hl' | ⟨k, o', hl', ho', h0, -⟩
  · rw [hl'] at hl
    simp at hl
  · obtain rfl : o' = o := by simpa using hl'.symm.trans hl
    rw [ho'] at ho
    exact Option.some.inj ho ▸ h0

/-- Nothing is logged of a subscription that is still to come. -/
def FreshInv (s : State abi) : Prop := ∀ g, s.nextSid ≤ g → ledger g s.log = ⟨[], [], [], []⟩

theorem freshInv_trans (hT : ThreadInv s) (hH : HolderInv s) (hI : SlotInv s) (hR : FreshInv s)
    (he : Effect s s' t) : FreshInv s' := by
  intro g hg
  have hg' := he.nextSid_le.trans hg
  rcases he.flow hT hH hI with hl | ⟨k, o, hl, ho, -⟩
  · rw [ledger_same hl]
    exact hR g hg'
  · have := hI.sid_lt k
    rw [ledger_other hl (by rw [ho]; simp; omega)]
    exact hR g hg'

theorem freshInv_reach (h : Reach ok maxSuberNum clients s) : FreshInv s :=
  h.induction (fun _ _ => rfl) fun _ _ _ _ hr hR _ _ h =>
    freshInv_trans (threadInv_reach hr) (holderInv_reach hr) (slotInv_reach hr) hR
      (h.effect (threadInv_reach hr) (allocInv_reach hr))

/-- The counters of a slot count the ledger of its subscription. -/
structure CountersOk (x : Suber abi) (l : Ledger abi) : Prop where
  evtPostCnt : x.evtQueue.postCnt = BitVec.ofNat _ l.accepted.length
  evtPostCachedCnt : x.evtCached.postCnt = BitVec.ofNat _ l.stores.length
  evtProcCachedCnt : x.evtCached.procCnt = BitVec.ofNat _ l.retires.length

/-- The counters of every slot count the ledger of its subscription. -/
def CountersInv (s : State abi) : Prop := ∀ i, CountersOk (s.suber i) (ledger (s.sid i) s.log)

theorem ofNat_length_append {w : ℕ} {α : Type} (l : List α) (x : α) :
    BitVec.ofNat w (l ++ [x]).length = BitVec.ofNat w l.length + 1 := by
  rw [List.length_append, BitVec.ofNat_add]
  rfl

theorem CountersOk.congr {x y : Suber abi} {l : Ledger abi} (h : CountersOk x l)
    (hq : y.evtQueue.postCnt = x.evtQueue.postCnt) (hc : y.evtCached = x.evtCached) : CountersOk y l :=
  ⟨hq.trans h.evtPostCnt, by rw [hc]; exact h.evtPostCachedCnt, by rw [hc]; exact h.evtProcCachedCnt⟩

theorem countersInv_trans (hT : ThreadInv s) (hH : HolderInv s) (hI : SlotInv s) (hR : FreshInv s)
    (hC : CountersInv s) (he : Effect s s' t) : CountersInv s' := by
  intro j
  have hold := hC j
  have hsame : s'.sid j = s.sid j → Ioc.flow s'.log = Ioc.flow s.log →
      ledger (s'.sid j) s'.log = ledger (s.sid j) s.log := fun hs hl => by rw [hs, ledger_same hl]
  -- an entry about the subscription in slot `k` says nothing of the one in another slot
  have hother : ∀ {k o}, j ≠ k → s'.sid = s.sid → Ioc.flow s'.log = Ioc.flow s.log ++ [o] →
      o.about = some (s.sid k) → ledger (s'.sid j) s'.log = ledger (s.sid j) s.log :=
    fun {k o} hj hs hl ho => by
      rw [hs, ledger_other hl]
      rw [ho]
      exact fun h => hj (hI.sid_inj k j (Option.some.inj h) (he.about_ne_zero hT hH hI hl ho)).symm
  cases he
  case called k g d _ _ _ hc hs _ hl _ =>
    rw [show s'.suber j = s.suber j by rw [State.suber, hc]]
    by_cases hj : j = k
    · subst hj
      rw [hs, ledger_deliver hl]
      exact ⟨hold.evtPostCnt, hold.evtPostCachedCnt, hold.evtProcCachedCnt⟩
    · rw [hother hj hs hl rfl]
      exact hold
  case accepted k _ _ _ _ hc _ _ hs _ hl _ =>
    by_cases hj : j = k
    · subst hj
      rw [hs, ledger_accept hl]
      refine ⟨?_, by simpa [State.suber, hc] using hold.evtPostCachedCnt,
        by simpa [State.suber, hc] using hold.evtProcCachedCnt⟩
      rw [ofNat_length_append]
      simpa [State.suber, hc] using hold.evtPostCnt
    · rw [hother hj hs hl rfl, show s'.suber j = s.suber j by simp [State.suber, hc, hj]]
      exact hold
  case stored k _ _ _ _ _ hc hs _ hl _ =>
    by_cases hj : j = k
    · subst hj
      rw [hs, ledger_store hl]
      refine ⟨by simpa [State.suber, hc] using hold.evtPostCnt, ?_,
        by simpa [State.suber, hc] using hold.evtProcCachedCnt⟩
      rw [ofNat_length_append]
      simpa [State.suber, hc] using hold.evtPostCachedCnt
    · rw [hother hj hs hl rfl, show s'.suber j = s.suber j by simp [State.suber, hc, hj]]
      exact hold
  case retired k _ _ _ _ _ _ hc hs _ hl _ =>
    by_cases hj : j = k
    · subst hj
      rw [hs, ledger_retire hl]
      refine ⟨by simpa [State.suber, hc] using hold.evtPostCnt,
        by simpa [State.suber, hc] using hold.evtPostCachedCnt, ?_⟩
      rw [ofNat_length_append]
      simpa [State.suber, hc] using hold.evtProcCachedCnt
    · rw [hother hj hs hl rfl, show s'.suber j = s.suber j by simp [State.suber, hc, hj]]
      exact hold
  case quiet hc h =>
    rw [hsame (congrFun h.sid j) h.flow]
    exact hold.congr (by rw [State.suber, hc]) (by rw [State.suber, hc])
  case flagged k _ _ _ _ hc h | freed k _ _ _ hc h | kept k _ _ _ _ hc h =>
    rw [hsame (congrFun h.sid j) h.flow]
    by_cases hj : j = k
    · exact hold.congr (by simp [State.suber, hc, hj, Suber.freed, Suber.clearArgs])
        (by simp [State.suber, hc, hj, Suber.freed, Suber.clearArgs])
    · exact hold.congr (by simp [State.suber, hc, hj]) (by simp [State.suber, hc, hj])
  case started k _ x _ _ hx hc _ _ h =>
    rw [hsame (congrFun h.sid j) h.flow]
    by_cases hj : j = k
    · exact hold.congr (by simp [State.suber, hc, hj, hx.evtQueue]) (by simp [State.suber, hc, hj, hx.evtCached])
    · exact hold.congr (by simp [State.suber, hc, hj]) (by simp [State.suber, hc, hj])
  case took k _ _ _ _ _ _ hc hs _ hl _ =>
    rw [hsame (congrFun hs j) hl]
    by_cases hj : j = k
    · exact hold.congr (by simp [State.suber, hc, hj]) (by simp [State.suber, hc, hj])
    · exact hold.congr (by simp [State.suber, hc, hj]) (by simp [State.suber, hc, hj])
  case filled k x _ _ _ hx _ hc hs _ hl _ =>
    by_cases hj : j = k
    · rw [hj, hs, Function.update_self, ledger_same hl, hR _ le_rfl, show s'.suber k = x by simp [State.suber, hc]]
      exact ⟨by rw [hx.evtQueue]; rfl, by rw [hx.evtCached]; rfl, by rw [hx.evtCached]; rfl⟩
    · rw [hsame (by simp [hs, hj]) hl, show s'.suber j = s.suber j by simp [State.suber, hc, hj]]
      exact hold

theorem countersInv_reach (h : Reach ok maxSuberNum clients s) : CountersInv s :=
  h.induction (fun _ => ⟨rfl, rfl, rfl⟩) fun _ _ _ _ hr hC _ _ h =>
    countersInv_trans (threadInv_reach hr) (holderInv_reach hr) (slotInv_reach hr) (freshInv_reach hr) hC
      (h.effect (threadInv_reach hr) (allocInv_reach hr))

end PlatIF.Ioc
