import PlatIF.Ioc.Count
import PlatIF.Ioc.Polite

/-!
# The threads of the subscriptions

A thread is started when a slot gets its first event, and joined when its subscription is removed.  As long as no callback
removes its own subscription, none is lost on the way: those that have not ended are the ones that taken slots name.

* `State.asyncThreads_subset` — every one of them is named by a slot;
* `threads_accounted` — so that there are no more of them than subscriptions, and as many as slots that name one whenever
  no `unsubEVT` is stopping a thread.
-/

namespace PlatIF.Ioc

variable {abi : Abi} {s : State abi} {t u : Tid} {i j : ℕ} {maxSuberNum : ULong abi} {clients : ℕ}

/-- The async threads that have not ended. -/
def State.asyncThreads (s : State abi) : Finset ℕ :=
  (Finset.range s.nextTid).filter fun u => (s.base u).isAsync = true

/-- The slots that name a thread. -/
def State.threadSlots (s : State abi) : Finset ℕ :=
  (Finset.range s.ctx.maxSuberNum.toNat).filter fun i => (s.suber i).asyncThreadID ≠ none

/-- The thread that slot `i` names. -/
def State.slotThread (s : State abi) (i : ℕ) : Tid := (s.suber i).asyncThreadID.getD 0

/-- A call of `unsubEVT` is stopping the thread of slot `i`. -/
def State.Stopping (s : State abi) (i : ℕ) : Prop :=
  ∃ u f rest, s.frames u = .unsub f :: rest ∧ f.pc.flagged = true ∧ f.pc.slot = some i

/-- How the threads and the slots belong together. -/
structure Accounted (s : State abi) : Prop where
  /-- A thread that has not ended is the one that its slot names, and the slot is taken. -/
  named : ∀ u i, s.RunsOn u i → (s.suber i).occupied ∧ (s.suber i).asyncThreadID = some u
  /-- The thread that a slot names works on that slot, until an `unsubEVT` stops it. -/
  runs : ∀ i u, (s.suber i).asyncThreadID = some u → s.RunsOn u i ∨ s.base u = .gone ∧ s.Stopping i
  le : s.asyncThreads.card ≤ s.ctx.occupiedNum ∧ s.ctx.occupiedNum ≤ s.ctx.maxSuberNum.toNat
  eq : (∀ i, ¬ s.Stopping i) → s.asyncThreads.card = s.threadSlots.card

theorem State.isAsync_iff : (s.base u).isAsync = true ↔ ∃ i, s.RunsOn u i := by
  unfold Base.isAsync State.RunsOn
  cases s.base u with
  | async i g pc => exact iff_of_true rfl ⟨i, g, pc, rfl⟩
  | gone | client => simp

theorem State.mem_threadSlots : i ∈ s.threadSlots ↔
    i < s.ctx.maxSuberNum.toNat ∧ (s.suber i).asyncThreadID ≠ none := by
  rw [State.threadSlots, Finset.mem_filter, Finset.mem_range]

/-- A slot that names a thread is taken. -/
theorem State.threadSlots_card_le (hI : SlotInv s) : s.threadSlots.card ≤ s.ctx.occupiedNum := by
  refine Finset.card_le_card fun i hi => ?_
  obtain ⟨hlt, hx⟩ := State.mem_threadSlots.mp hi
  obtain ⟨u, hx⟩ := Option.ne_none_iff_exists'.mp hx
  rw [Finset.mem_filter, Finset.mem_range]
  exact ⟨hlt, (hI.thread i u hx).occupied⟩

/-- Every thread is named by a slot. -/
theorem State.asyncThreads_subset (hW : OwnedInv s) (hlt : ∀ u i, s.RunsOn u i → i < s.ctx.maxSuberNum.toNat) :
    s.asyncThreads ⊆ s.threadSlots.image s.slotThread := by
  intro u hu
  obtain ⟨i, hr⟩ := State.isAsync_iff.mp (Finset.mem_filter.mp hu).2
  have hx := hW u i hr
  rw [Finset.mem_image]
  exact ⟨i, State.mem_threadSlots.mpr ⟨hlt u i hr, by simp [hx]⟩, by simp [State.slotThread, hx]⟩

/-- Where no thread is being stopped, the slots name different threads, and these run. -/
theorem State.asyncThreads_eq (hT : ThreadInv s) (hW : OwnedInv s)
    (hlt : ∀ u i, s.RunsOn u i → i < s.ctx.maxSuberNum.toNat)
    (hruns : ∀ i u, (s.suber i).asyncThreadID = some u → s.RunsOn u i) :
    s.asyncThreads.card = s.threadSlots.card := by
  have hslot : ∀ i ∈ s.threadSlots, s.RunsOn (s.slotThread i) i := by
    intro i hi
    obtain ⟨u, hx⟩ := Option.ne_none_iff_exists'.mp (State.mem_threadSlots.mp hi).2
    have hr := hruns i u hx
    rwa [State.slotThread, hx]
  have himage : s.asyncThreads = s.threadSlots.image s.slotThread := by
    refine Finset.Subset.antisymm (State.asyncThreads_subset hW hlt) fun u hu => ?_
    obtain ⟨i, hi, rfl⟩ := Finset.mem_image.mp hu
    have hr := hslot i hi
    rw [State.asyncThreads, Finset.mem_filter, Finset.mem_range]
    refine ⟨?_, State.isAsync_iff.mpr ⟨i, hr⟩⟩
    by_contra hge
    obtain ⟨g, pc, hb⟩ := hr
    simp [(hT.fresh _ (Nat.not_lt.mp hge)).1] at hb
  rw [himage]
  refine Finset.card_image_of_injOn fun i hi j hj hij => ?_
  obtain ⟨g, pc, hb⟩ := hslot i hi
  obtain ⟨g', pc', hb'⟩ := hslot j hj
  have hij : s.slotThread i = s.slotThread j := hij
  rw [hij, hb'] at hb
  exact (Base.async.inj hb).1.symm

/-- **The threads are accounted for.**  In every run in which no callback removes its own subscription, each thread that
has not ended works for the taken slot that names it, so that there are never more than subscriptions; and a slot that
names a thread has it running unless an `unsubEVT` is stopping it. -/
theorem threads_accounted (h : Reach (fun s x => noSelfUnsub s x = true) maxSuberNum clients s) : Accounted s := by
  have hT := threadInv_reach h
  have hI := slotInv_reach h
  have hW := (owned_reach h).2
  have hlt : ∀ u i, s.RunsOn u i → i < s.ctx.maxSuberNum.toNat := fun u i hr => by
    rw [maxSuberNum_reach h]
    exact runsOn_lt_reach h u i hr
  have hruns : ∀ i u, (s.suber i).asyncThreadID = some u → s.RunsOn u i ∨ s.base u = .gone ∧ s.Stopping i := by
    intro i u hx
    rcases (hI.thread i u hx).base with hgone | hr
    · have hflag := (goneInv_reach h i u hx hgone).1
      exact .inr ⟨hgone, flagInv_reach h i hflag (hI.thread i u hx).occupied⟩
    · exact .inl hr
  constructor
  case named =>
    intro u i hr
    have hx := hW u i hr
    exact ⟨(hI.thread i u hx).occupied, hx⟩
  case runs => exact hruns
  case le =>
    refine ⟨?_, s.ctx.occupiedNum_le⟩
    calc s.asyncThreads.card ≤ (s.threadSlots.image s.slotThread).card :=
          Finset.card_le_card (State.asyncThreads_subset hW hlt)
      _ ≤ s.threadSlots.card := Finset.card_image_le
      _ ≤ s.ctx.occupiedNum := State.threadSlots_card_le hI
  case eq =>
    intro hno
    refine State.asyncThreads_eq hT hW hlt fun i u hx => ?_
    exact (hruns i u hx).resolve_right fun hs => hno i hs.2

/-- Two subscriptions, of which one has been served: there is one thread, and it waits for the next event. -/
theorem threads_accounted_served : ∃ s : State lp64,
    s.base 1 = .async 0 1 .waiting ∧ s.ctx.occupiedNum = 2 ∧ s.asyncThreads = {1} ∧ Accounted s := by
  obtain ⟨s, hr, hs⟩ := reach_of_run (fun s x => noSelfUnsub s x = true) (2 : ULong lp64) 1
    [(0, .call (.subEVT ⟨1, 1, some [7]⟩)), (0, .go), (0, .call (.subEVT ⟨2, 2, some [8]⟩)), (0, .go),
      (0, .call (.postEVT (.ofID lp64 7) none)), (0, .go), (0, .go), (0, .go), (0, .signal none), (0, .go), (0, .go),
      (1, .go), (1, .go), (1, .go), (1, .ret .success), (1, .go), (1, .go), (1, .go)]
    (fun s : State lp64 => decide (s.base 1 = .async 0 1 .waiting) && decide (s.ctx.occupiedNum = 2) &&
      decide (s.asyncThreads = {1})) (by decide +kernel)
  simp only [Bool.and_eq_true, decide_eq_true_eq] at hs
  exact ⟨s, hs.1.1, hs.1.2, hs.2, threads_accounted hr⟩

end PlatIF.Ioc
