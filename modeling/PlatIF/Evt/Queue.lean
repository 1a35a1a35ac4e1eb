import PlatIF.Evt.Types
import PlatIF.Lib.IndexRing

/-!
# The event queue

`_TOS_EvtQueue_T` with its two critical sections: the one in which `__PLT_EVT_doPostEvtSRT` stores a descriptor, and
the one in which the processor thread takes a pointer to the oldest one.

The indices are 16-bit fields that are advanced with a remainder by a 32-bit depth.  `EvtQueue.Repr` relates a queue
to a ring of natural numbers, and the sections to `push` and `pop`.
-/

namespace PlatIF.Evt

variable {abi : Abi}

/-- `_TOS_EvtQueue_T`, without its lock, condition and thread id. -/
structure EvtQueue (abi : Abi) where
  seqID : BitVec 32
  curEvtNum : BitVec 16
  curEvtHead : BitVec 16
  curEvtTail : BitVec 16
  /-- An `int32_t` in the source, set from a `uint16_t`. -/
  evtDescNumInQueue : BitVec 32
  evtDescQueue : ℕ → EvtDesc abi

namespace EvtQueue

/-- The zeroed queue, with its depth set. -/
def init (mayEvtDescQueueNumMax : BitVec 16) : EvtQueue abi where
  seqID := 0
  curEvtNum := 0
  curEvtHead := 0
  curEvtTail := 0
  evtDescNumInQueue := mayEvtDescQueueNumMax.setWidth 32
  evtDescQueue := fun _ => default

/-- `(Idx + 1) % EvtDescNumInQueue`: computed as `int`, stored as `uint16_t`. -/
def nextIdx (idx : BitVec 16) (n : BitVec 32) : BitVec 16 := ((idx.setWidth 32 + 1) % n).setWidth 16

variable (q : EvtQueue abi)

/-- `CurEvtNum == EvtDescNumInQueue`. -/
def isFull : Bool := q.curEvtNum.setWidth 32 == q.evtDescNumInQueue

/-- The section of `__PLT_EVT_doPostEvtSRT`: result, queue, and the caller's descriptor. -/
def post (evtPuberID : EvtOperID abi) (d : EvtDesc abi) : TosResult × EvtQueue abi × EvtDesc abi :=
  if q.isFull then (.tooManyPubedEvents, q, d)
  else
    let d := { d with evtPuberID := evtPuberID, seqID := q.seqID }
    (.success,
     { q with seqID := q.seqID + 1,
              evtDescQueue := Function.update q.evtDescQueue q.curEvtTail.toNat d,
              curEvtTail := nextIdx q.curEvtTail q.evtDescNumInQueue,
              curEvtNum := q.curEvtNum + 1 },
     d)

/-- The section of the processor thread: the index of the slot that `pEvtDesc` points to, and the queue. -/
def take : ℕ × EvtQueue abi :=
  (q.curEvtHead.toNat,
   { q with curEvtHead := nextIdx q.curEvtHead q.evtDescNumInQueue, curEvtNum := q.curEvtNum - 1 })

/-- A write through a pointer into the queue. -/
def writeSlot (slot : ℕ) (d : EvtDesc abi) : EvtQueue abi :=
  { q with evtDescQueue := Function.update q.evtDescQueue slot d }

/-- The descriptors that are queued, oldest first. -/
def contents : List (EvtDesc abi) :=
  (List.range q.curEvtNum.toNat).map fun k =>
    q.evtDescQueue ((q.curEvtHead.toNat + k) % q.evtDescNumInQueue.toNat)

/-! ### The ring behind the queue -/

/-- The queue is the ring `r`. -/
structure Repr (r : IndexRing (EvtDesc abi)) : Prop where
  cap : q.evtDescNumInQueue.toNat = r.cap
  head : q.curEvtHead.toNat = r.head
  tail : q.curEvtTail.toNat = r.tail
  num : q.curEvtNum.toNat = r.num
  cells : q.evtDescQueue = r.cells
  depth : r.cap < 2 ^ 16

variable {q} {r : IndexRing (EvtDesc abi)}

theorem Repr.contents (h : q.Repr r) : q.contents = r.contents := by
  rw [EvtQueue.contents, IndexRing.contents, h.num, h.head, h.cap, h.cells]
  rfl

theorem toNat_nextIdx {idx : BitVec 16} {n : BitVec 32} (hn : 0 < n.toNat) (hn' : n.toNat < 2 ^ 16) :
    (nextIdx idx n).toNat = (idx.toNat + 1) % n.toNat := by
  have hidx := idx.isLt
  have hsum : (idx.setWidth 32 + 1).toNat = idx.toNat + 1 := by
    rw [BitVec.toNat_add, BitVec.toNat_setWidth, Nat.mod_eq_of_lt (by omega : idx.toNat < 2 ^ 32)]
    exact Nat.mod_eq_of_lt (by simp; omega)
  have hmod : (idx.toNat + 1) % n.toNat < n.toNat := Nat.mod_lt _ hn
  rw [nextIdx, BitVec.toNat_setWidth, BitVec.toNat_umod, hsum]
  exact Nat.mod_eq_of_lt (by omega)

theorem Repr.isFull (h : q.Repr r) : q.isFull = true ↔ r.num = r.cap := by
  have hnum := q.curEvtNum.isLt
  rw [EvtQueue.isFull, beq_iff_eq, ← BitVec.toNat_inj, BitVec.toNat_setWidth,
    Nat.mod_eq_of_lt (by omega), h.num, h.cap]

theorem Repr.hasRoom (h : q.Repr r) (hfull : q.isFull = false) : r.num < r.cap := by
  have hne : r.num ≠ r.cap := fun he => by simp [h.isFull.mpr he] at hfull
  exact lt_of_le_of_ne r.num_le hne

/-- A depth of at least one gives an empty ring. -/
theorem Repr.init {n : BitVec 16} (hn : 0 < n.toNat) :
    (EvtQueue.init n : EvtQueue abi).Repr
      { cap := n.toNat, head := 0, num := 0, cells := fun _ => default, head_lt := hn, num_le := Nat.zero_le _ } where
  cap := by
    have := n.isLt
    simp only [EvtQueue.init, BitVec.toNat_setWidth]
    exact Nat.mod_eq_of_lt (by omega)
  head := rfl
  tail := by simp [EvtQueue.init, IndexRing.tail, IndexRing.index]
  num := rfl
  cells := rfl
  depth := n.isLt

/-- **A post that finds room is a push.** -/
theorem Repr.post (h : q.Repr r) (hfull : q.isFull = false) (id : EvtOperID abi) (d : EvtDesc abi) :
    (q.post id d).1 = .success ∧
      (q.post id d).2.1.Repr (r.push (h.hasRoom hfull) (q.post id d).2.2) := by
  have hroom := h.hasRoom hfull
  have hpost : q.post id d = (.success, { q with
      seqID := q.seqID + 1,
      evtDescQueue := Function.update q.evtDescQueue q.curEvtTail.toNat { d with evtPuberID := id, seqID := q.seqID },
      curEvtTail := nextIdx q.curEvtTail q.evtDescNumInQueue,
      curEvtNum := q.curEvtNum + 1 }, { d with evtPuberID := id, seqID := q.seqID }) := by
    simp [EvtQueue.post, hfull]
  rw [hpost]
  refine ⟨rfl, ⟨h.cap, h.head, ?_, ?_, ?_, h.depth⟩⟩
  · rw [toNat_nextIdx (h.cap ▸ Nat.zero_lt_of_lt hroom) (h.cap ▸ h.depth), h.tail, h.cap]
    simp [IndexRing.tail, IndexRing.index, Nat.add_assoc]
  · rw [BitVec.toNat_add, h.num]
    have := h.depth
    exact Nat.mod_eq_of_lt (by simp; omega)
  · simp [IndexRing.push, h.tail, h.cells]

/-- A post that finds no room changes nothing. -/
theorem post_of_full (hfull : q.isFull = true) (id : EvtOperID abi) (d : EvtDesc abi) :
    q.post id d = (.tooManyPubedEvents, q, d) := by
  simp [EvtQueue.post, hfull]

/-- **A take is a pop.** -/
theorem Repr.take (h : q.Repr r) (hne : q.curEvtNum ≠ 0) :
    q.take.1 = r.head ∧ r.num ≠ 0 ∧ q.take.2.Repr r.pop := by
  have hnum : r.num ≠ 0 := fun h0 => hne (BitVec.eq_of_toNat_eq (by simpa [h.num] using h0))
  have hcap : 0 < q.evtDescNumInQueue.toNat := h.cap ▸ Nat.zero_lt_of_lt r.head_lt
  refine ⟨h.head, hnum, ⟨h.cap, ?_, ?_, ?_, h.cells, h.depth⟩⟩
  · exact (toNat_nextIdx hcap (h.cap ▸ h.depth)).trans (by rw [h.head, h.cap]; rfl)
  · rw [IndexRing.tail, IndexRing.pop_index, IndexRing.pop_num, Nat.sub_add_cancel (Nat.pos_of_ne_zero hnum)]
    exact h.tail
  · have hle : (1 : BitVec 16) ≤ q.curEvtNum := by
      rw [BitVec.le_def, h.num]
      exact Nat.pos_of_ne_zero hnum
    exact (BitVec.toNat_sub_of_le hle).trans (by rw [h.num]; rfl)

/-- A write to a slot that is not in use leaves the contents alone. -/
theorem Repr.writeSlot (h : q.Repr r) (slot : ℕ) (d : EvtDesc abi) :
    (q.writeSlot slot d).Repr { r with cells := Function.update r.cells slot d } where
  cap := h.cap
  head := h.head
  tail := h.tail
  num := h.num
  cells := by simp [EvtQueue.writeSlot, h.cells]
  depth := h.depth

end EvtQueue

end PlatIF.Evt
