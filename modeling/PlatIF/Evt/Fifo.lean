import PlatIF.Evt.Queue
import PlatIF.Lib.Runs

/-!
# The event queue is a bounded FIFO

`EvtQueue.Fifo` relates a queue to what it has ever accepted and given out.  The two critical sections keep it, for
every depth and however often the indices have wrapped.

* `Fifo.init`, `Fifo.post`, `Fifo.take` — the zeroed queue and the sections;
* `Section`, `QueueRun` — the interleavings of the sections by themselves;
* `ring_refines_fifo` — what holds after any of them, with the 16-bit fields spelled out.
-/

namespace PlatIF.Evt

variable {abi : Abi}

/-- The queue `q`, as the ring `r`, has accepted and given out these descriptors. -/
structure EvtQueue.Fifo (q : EvtQueue abi) (r : IndexRing (EvtDesc abi)) (accepted taken : List (EvtDesc abi)) :
    Prop where
  repr : q.Repr r
  content : accepted = taken ++ r.contents
  seqID : q.seqID = BitVec.ofNat 32 accepted.length
  seqIDs : ∀ i d, accepted[i]? = some d → d.seqID = BitVec.ofNat 32 i

namespace EvtQueue

variable {q : EvtQueue abi} {r : IndexRing (EvtDesc abi)} {accepted taken : List (EvtDesc abi)}

theorem Fifo.length (h : q.Fifo r accepted taken) : accepted.length = taken.length + r.num := by
  rw [h.content, List.length_append, IndexRing.contents_length]

theorem Fifo.init {n : BitVec 16} (hn : n ≠ 0) :
    ∃ r, (EvtQueue.init n : EvtQueue abi).Fifo r [] [] ∧ r.cap = n.toNat := by
  have hpos : 0 < n.toNat := Nat.pos_of_ne_zero fun h0 => hn (BitVec.eq_of_toNat_eq (by simpa using h0))
  exact ⟨_, ⟨Repr.init hpos, rfl, rfl, fun i d h => by simp at h⟩, rfl⟩

theorem post_eq (hfull : q.isFull = false) (id : EvtOperID abi) (d : EvtDesc abi) :
    (q.post id d).2.2 = { d with evtPuberID := id, seqID := q.seqID } ∧
      (q.post id d).2.1.seqID = q.seqID + 1 := by
  simp [EvtQueue.post, hfull]

/-- It stores what it stamped at the tail, and nothing else. -/
theorem post_stores (hfull : q.isFull = false) (id : EvtOperID abi) (d : EvtDesc abi) :
    (q.post id d).2.1.evtDescQueue =
      Function.update q.evtDescQueue q.curEvtTail.toNat { d with evtPuberID := id, seqID := q.seqID } := by
  simp [EvtQueue.post, hfull]

/-- An accepted post appends the descriptor it stamped. -/
theorem Fifo.post (h : q.Fifo r accepted taken) (hfull : q.isFull = false) (id : EvtOperID abi) (d : EvtDesc abi) :
    (q.post id d).2.1.Fifo (r.push (h.repr.hasRoom hfull) (q.post id d).2.2)
      (accepted ++ [(q.post id d).2.2]) taken where
  repr := (h.repr.post hfull id d).2
  content := by rw [IndexRing.contents_push, h.content, List.append_assoc]
  seqID := by
    rw [(post_eq hfull id d).2, h.seqID, List.length_append, List.length_singleton, BitVec.ofNat_add]
    rfl
  seqIDs i d' hd := by
    rcases Nat.lt_trichotomy i accepted.length with hlt | rfl | hgt
    · rw [List.getElem?_append_left hlt] at hd
      exact h.seqIDs i d' hd
    · rw [List.getElem?_concat_length, Option.some.injEq] at hd
      rw [← hd, (post_eq hfull id d).1, h.seqID]
    · rw [List.getElem?_eq_none (by simp; omega)] at hd
      simp at hd

/-- A take gives out the oldest descriptor that was accepted and not given out yet. -/
theorem Fifo.take (h : q.Fifo r accepted taken) (hne : q.curEvtNum ≠ 0) :
    q.take.2.Fifo r.pop accepted (taken ++ [q.evtDescQueue q.take.1]) ∧
      accepted[taken.length]? = some (q.evtDescQueue q.take.1) := by
  obtain ⟨hslot, hnum, hrepr⟩ := h.repr.take hne
  have hfront : q.evtDescQueue q.take.1 = r.front := by rw [hslot, h.repr.cells]
  have hcontent : accepted = taken ++ q.evtDescQueue q.take.1 :: r.pop.contents := by
    rw [h.content, IndexRing.contents_pop r hnum, hfront]
  refine ⟨⟨hrepr, by rw [hcontent, List.append_assoc]; rfl, h.seqID, h.seqIDs⟩, ?_⟩
  rw [hcontent, List.getElem?_append_right le_rfl, Nat.sub_self]
  rfl

/-- A write to the cell that the last take gave up does not show, unless the ring is full. -/
theorem Fifo.writeFreed (h : q.Fifo r accepted taken) (hroom : r.num < r.cap) (d : EvtDesc abi) :
    (q.writeSlot r.freed d).Fifo { r with cells := Function.update r.cells r.freed d } accepted taken where
  repr := h.repr.writeSlot _ d
  content := by rw [h.content, IndexRing.contents_write_freed r hroom]
  seqID := h.seqID
  seqIDs := h.seqIDs

end EvtQueue

/-! ### Interleavings of the sections -/

/-- A critical section on the queue. -/
inductive Section (abi : Abi) where
  | enqueue (evtPuberID : EvtOperID abi) (d : EvtDesc abi)
  | dequeue

/-- A queue with what it has accepted and given out so far. -/
structure QueueRun (abi : Abi) where
  queue : EvtQueue abi
  accepted : List (EvtDesc abi)
  dequeued : List (EvtDesc abi)

/-- The next section; the processor waits while the queue is empty. -/
def QueueRun.next (x : QueueRun abi) : Section abi → Option (QueueRun abi)
  | .enqueue id d =>
    match x.queue.post id d with
    | (.success, q, d') => some ⟨q, x.accepted ++ [d'], x.dequeued⟩
    | (_, q, _) => some { x with queue := q }
  | .dequeue =>
    if x.queue.curEvtNum = 0 then none
    else some ⟨x.queue.take.2, x.accepted, x.dequeued ++ [x.queue.evtDescQueue x.queue.take.1]⟩

/-- The zeroed queue of depth `n`. -/
def QueueRun.init (n : BitVec 16) : QueueRun abi := ⟨.init n, [], []⟩

/-- Every run of sections, from the zeroed queue. -/
abbrev QueueRun.Reach (n : BitVec 16) (x : QueueRun abi) : Prop :=
  Runs.ReachUnder QueueRun.next (fun _ _ => True) (QueueRun.init n) x

theorem QueueRun.next_fifo {x x' : QueueRun abi} {a : Section abi} {r : IndexRing (EvtDesc abi)}
    (h : x.queue.Fifo r x.accepted x.dequeued) (hn : x.next a = some x') :
    ∃ r', x'.queue.Fifo r' x'.accepted x'.dequeued ∧ r'.cap = r.cap := by
  cases a with
  | enqueue id d =>
    cases hfull : x.queue.isFull with
    | true =>
      simp only [QueueRun.next, EvtQueue.post_of_full hfull, Option.some.injEq] at hn
      exact ⟨r, hn ▸ h, rfl⟩
    | false =>
      have hpost := (h.repr.post hfull id d).1
      have hfifo := h.post hfull id d
      rw [QueueRun.next] at hn
      rcases hp : x.queue.post id d with ⟨res, q', d'⟩
      simp only [hp] at hpost hfifo hn
      subst hpost
      simp only [Option.some.injEq] at hn
      exact ⟨r.push (h.repr.hasRoom hfull) d', hn ▸ hfifo, rfl⟩
  | dequeue =>
    rw [QueueRun.next] at hn
    split at hn
    · simp at hn
    · rename_i hne
      simp only [Option.some.injEq] at hn
      exact ⟨r.pop, hn ▸ (h.take hne).1, rfl⟩

theorem QueueRun.reach_fifo {n : BitVec 16} (hn : n ≠ 0) {x : QueueRun abi} (hr : x.Reach n) :
    ∃ r, x.queue.Fifo r x.accepted x.dequeued ∧ r.cap = n.toNat := by
  refine hr.invariant (P := fun x => ∃ r, x.queue.Fifo r x.accepted x.dequeued ∧ r.cap = n.toNat)
    (EvtQueue.Fifo.init hn) fun x x' a _ hP _ hstep => ?_
  obtain ⟨r, h, hcap⟩ := hP
  obtain ⟨r', h', hcap'⟩ := QueueRun.next_fifo h hstep
  exact ⟨r', h', hcap'.trans hcap⟩

/-- **The ring refines a bounded FIFO.**  For every depth from 1 to 65535 and every interleaving of the sections. -/
theorem ring_refines_fifo {n : BitVec 16} (hn : n ≠ 0) {x : QueueRun abi} (hr : x.Reach n) :
    -- the indices
    (x.queue.curEvtNum.toNat ≤ n.toNat ∧ x.queue.curEvtHead.toNat < n.toNat ∧ x.queue.curEvtTail.toNat < n.toNat ∧
      x.queue.curEvtTail.toNat = (x.queue.curEvtHead.toNat + x.queue.curEvtNum.toNat) % n.toNat) ∧
    -- the contents
    x.accepted = x.dequeued ++ (List.range x.queue.curEvtNum.toNat).map
      (fun k => x.queue.evtDescQueue ((x.queue.curEvtHead.toNat + k) % n.toNat)) ∧
    (∀ i d, x.accepted[i]? = some d → d.seqID = BitVec.ofNat 32 i) ∧
    -- a post
    (∀ id d, ((x.queue.post id d).1 = .tooManyPubedEvents ↔ x.queue.curEvtNum.toNat = n.toNat) ∧
      ((x.queue.post id d).1 = .tooManyPubedEvents → (x.queue.post id d).2 = (x.queue, d)) ∧
      ((x.queue.post id d).1 ≠ .tooManyPubedEvents → (x.queue.post id d).1 = .success ∧
        (x.queue.post id d).2.1.curEvtNum.toNat = x.queue.curEvtNum.toNat + 1 ∧
        (x.queue.post id d).2.1.curEvtTail.toNat = (x.queue.curEvtTail.toNat + 1) % n.toNat ∧
        -- the caller's descriptor is stamped and stored
        (x.queue.post id d).2.2 = { d with evtPuberID := id, seqID := x.queue.seqID } ∧
        (x.queue.post id d).2.1.evtDescQueue = Function.update x.queue.evtDescQueue x.queue.curEvtTail.toNat
          { d with evtPuberID := id, seqID := x.queue.seqID } ∧
        (x.queue.post id d).2.1.seqID = x.queue.seqID + 1)) ∧
    -- a take
    (x.queue.curEvtNum ≠ 0 → x.queue.take.2.curEvtNum.toNat + 1 = x.queue.curEvtNum.toNat ∧
      x.queue.take.2.curEvtHead.toNat = (x.queue.curEvtHead.toNat + 1) % n.toNat ∧
      x.accepted[x.dequeued.length]? = some (x.queue.evtDescQueue x.queue.take.1)) := by
  obtain ⟨r, h, hcap⟩ := QueueRun.reach_fifo hn hr
  have hR := h.repr
  have hdepth : x.queue.evtDescNumInQueue.toNat = n.toNat := hR.cap.trans hcap
  refine ⟨⟨?_, ?_, ?_, ?_⟩, ?_, h.seqIDs, fun id d => ⟨?_, ?_, ?_⟩, fun hne => ⟨?_, ?_, (h.take hne).2⟩⟩
  · exact hR.num ▸ hcap ▸ r.num_le
  · exact hR.head ▸ hcap ▸ r.head_lt
  · exact hR.tail ▸ hcap ▸ r.index_lt _
  · rw [hR.tail, hR.head, hR.num, ← hcap]
    rfl
  · rw [h.content, IndexRing.contents, hR.num, hR.head, hR.cells, ← hcap]
    rfl
  · rw [hR.num, ← hcap, ← hR.isFull]
    cases hfull : x.queue.isFull with
    | true => simp [EvtQueue.post_of_full hfull]
    | false => simp [(hR.post hfull id d).1]
  · intro hres
    cases hfull : x.queue.isFull with
    | true => rw [EvtQueue.post_of_full hfull]
    | false => simp [(hR.post hfull id d).1] at hres
  · intro hres
    cases hfull : x.queue.isFull with
    | true => simp [EvtQueue.post_of_full hfull] at hres
    | false =>
      obtain ⟨hok, hR'⟩ := hR.post hfull id d
      obtain ⟨hstamp, hseq⟩ := EvtQueue.post_eq hfull id d
      refine ⟨hok, by rw [hR'.num, hR.num]; rfl, ?_, hstamp, EvtQueue.post_stores hfull id d, hseq⟩
      rw [hR'.tail, hR.tail, ← hcap]
      simp [IndexRing.tail, IndexRing.index, Nat.add_assoc]
  · obtain ⟨-, hnum, hR'⟩ := hR.take hne
    rw [hR'.num, hR.num]
    exact Nat.succ_pred_eq_of_ne_zero hnum
  · obtain ⟨-, -, hR'⟩ := hR.take hne
    rw [hR'.head, hR.head, ← hcap]
    rfl

/-- The ring of one place, after it has been filled, emptied and filled again. -/
theorem ring_refines_fifo_one :
    ∃ x : QueueRun lp64, x.accepted.length = 2 ∧ x.dequeued.length = 1 ∧
      (∀ id d, (x.queue.post id d).1 = .tooManyPubedEvents ↔ x.queue.curEvtNum.toNat = 1) := by
  obtain ⟨x, hr, hx⟩ : ∃ x : QueueRun lp64, x.Reach 1 ∧
      decide (x.accepted.length = 2 ∧ x.dequeued.length = 1) = true :=
    Runs.exists_reach_of_runUnder [.enqueue 0 default, .dequeue, .enqueue 0 default] _ (by decide +kernel)
  obtain ⟨hacc, hdeq⟩ := of_decide_eq_true hx
  exact ⟨x, hacc, hdeq, fun id d => ((ring_refines_fifo (by decide) hr).2.2.2.1 id d).1⟩

end PlatIF.Evt
