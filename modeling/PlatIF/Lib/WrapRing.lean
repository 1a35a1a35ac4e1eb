import Mathlib.Data.BitVec
import Mathlib.Data.List.Basic
import Mathlib.Data.Fin.Basic
import Mathlib.Data.Nat.ModEq
import Mathlib.Algebra.Ring.Basic
import Mathlib.Tactic.Ring
import Mathlib.Tactic.Common

/-!
# A ring addressed by two free-running counters

A ring of `cap` cells with a count of the elements ever stored and a count of the elements ever removed,
both of `w` bits and both allowed to wrap.  The next element goes to the cell `postCnt % cap` and the
oldest one is in the cell `procCnt % cap`; the number stored is the wrapping difference of the counters.

When `cap` divides `2 ^ w` a wrap of a counter does not disturb the cell order, and the ring is a bounded
FIFO: `contents` is the list it stands for, `push` appends to it and `pop` removes its head
(`contents_push`, `contents_pop`).  Neither statement bounds the counters.
-/

namespace PlatIF

/-- A ring of `cap` cells between two counters of `w` bits. -/
structure WrapRing (w cap : ℕ) (α : Type*) where
  postCnt : BitVec w
  procCnt : BitVec w
  cells : Fin cap → α

namespace WrapRing

variable {w cap : ℕ} {α : Type*}

/-- The cell a counter value addresses. -/
def cellOf (cap : ℕ) [NeZero cap] (c : BitVec w) : Fin cap := Fin.ofNat cap c.toNat

/-- The wrapping number of stored elements. -/
def pending (r : WrapRing w cap α) : ℕ := (r.postCnt - r.procCnt).toNat

/-- The two counters agree. -/
def isEmpty (r : WrapRing w cap α) : Bool := r.postCnt == r.procCnt

/-- There is room for one more element. -/
def hasRoom (r : WrapRing w cap α) : Bool := r.pending < cap

/-- Store `a` in the next cell. -/
def push [NeZero cap] (r : WrapRing w cap α) (a : α) : WrapRing w cap α :=
  { r with cells := Function.update r.cells (cellOf cap r.postCnt) a, postCnt := r.postCnt + 1 }

/-- The oldest cell. -/
def front [NeZero cap] (r : WrapRing w cap α) : α := r.cells (cellOf cap r.procCnt)

/-- Drop the oldest cell. -/
def pop (r : WrapRing w cap α) : WrapRing w cap α := { r with procCnt := r.procCnt + 1 }

/-- The stored elements, oldest first. -/
def contents [NeZero cap] (r : WrapRing w cap α) : List α :=
  (List.range r.pending).map fun k => r.cells (cellOf cap (r.procCnt + BitVec.ofNat w k))

@[simp] theorem push_procCnt [NeZero cap] (r : WrapRing w cap α) (a : α) : (r.push a).procCnt = r.procCnt := rfl

@[simp] theorem push_postCnt [NeZero cap] (r : WrapRing w cap α) (a : α) :
    (r.push a).postCnt = r.postCnt + 1 := rfl

@[simp] theorem pop_postCnt (r : WrapRing w cap α) : r.pop.postCnt = r.postCnt := rfl

@[simp] theorem pop_procCnt (r : WrapRing w cap α) : r.pop.procCnt = r.procCnt + 1 := rfl

@[simp] theorem pop_cells (r : WrapRing w cap α) : r.pop.cells = r.cells := rfl

theorem contents_length [NeZero cap] (r : WrapRing w cap α) : r.contents.length = r.pending := by
  simp [contents]

theorem isEmpty_iff_pending (r : WrapRing w cap α) : r.isEmpty = true ↔ r.pending = 0 := by
  rw [isEmpty, beq_iff_eq, pending]
  constructor
  · intro h
    simp [h]
  · intro h
    have hz : r.postCnt - r.procCnt = 0 := BitVec.eq_of_toNat_eq (by simpa using h)
    exact sub_eq_zero.mp hz

theorem isEmpty_iff_contents [NeZero cap] (r : WrapRing w cap α) : r.isEmpty = true ↔ r.contents = [] := by
  rw [isEmpty_iff_pending, ← contents_length, List.length_eq_zero_iff]

theorem hasRoom_iff (r : WrapRing w cap α) : r.hasRoom = true ↔ r.pending < cap := by
  simp [hasRoom]

/-- A ring whose counters agree holds nothing. -/
theorem contents_of_eq [NeZero cap] {r : WrapRing w cap α} (h : r.postCnt = r.procCnt) : r.contents = [] :=
  (isEmpty_iff_contents r).mp (by simp [isEmpty, h])

/-! ### Counter arithmetic -/

theorem toNat_add_one {c : BitVec w} {n : ℕ} (hn : n + 1 < 2 ^ w) (h : c.toNat = n) :
    (c + 1).toNat = n + 1 := by
  have h1 : 1 < 2 ^ w := by omega
  rw [BitVec.toNat_add, h, show (1 : BitVec w).toNat = 1 % 2 ^ w from BitVec.toNat_ofNat _ _,
    Nat.mod_eq_of_lt h1, Nat.mod_eq_of_lt hn]

theorem toNat_sub_one {c : BitVec w} {n : ℕ} (h : c.toNat = n + 1) : (c - 1).toNat = n := by
  have h1 : (1 : BitVec w).toNat = 1 := by
    have := c.isLt
    rw [show (1 : BitVec w).toNat = 1 % 2 ^ w from BitVec.toNat_ofNat _ _, Nat.mod_eq_of_lt (by omega)]
  rw [BitVec.toNat_sub_of_le (by rw [BitVec.le_def]; omega), h, h1]
  exact Nat.add_sub_cancel n 1

theorem pending_push [NeZero cap] (r : WrapRing w cap α) (a : α) (h : r.pending + 1 < 2 ^ w) :
    (r.push a).pending = r.pending + 1 := by
  rw [pending, push_postCnt, push_procCnt,
    show r.postCnt + 1 - r.procCnt = (r.postCnt - r.procCnt) + 1 by ring]
  exact toNat_add_one h rfl

theorem pending_pop (r : WrapRing w cap α) (h : r.pending ≠ 0) :
    r.pop.pending + 1 = r.pending := by
  have hlt : r.pop.pending + 1 < 2 ^ w ∨ r.pop.pending + 1 = 2 ^ w := by
    have := (r.pop.postCnt - r.pop.procCnt).isLt
    simp only [pending]
    omega
  have hadd : r.postCnt - r.procCnt = (r.pop.postCnt - r.pop.procCnt) + 1 := by
    rw [pop_postCnt, pop_procCnt]
    ring
  rcases hlt with hlt | heq
  · calc r.pop.pending + 1 = (r.pop.postCnt - r.pop.procCnt + 1).toNat := (toNat_add_one hlt rfl).symm
      _ = r.pending := by rw [pending, hadd]
  · -- the difference would have wrapped to zero, so nothing was stored
    exfalso
    apply h
    rw [pending, hadd, BitVec.toNat_add]
    rcases Nat.lt_or_ge 1 (2 ^ w) with h1 | h1
    · rw [show (1 : BitVec w).toNat = 1 % 2 ^ w from BitVec.toNat_ofNat _ _, Nat.mod_eq_of_lt h1]
      simp only [pending] at heq
      rw [heq, Nat.mod_self]
    · have : 2 ^ w = 1 := by have := Nat.two_pow_pos w; omega
      rw [this]
      exact Nat.mod_one _

theorem cellOf_add [NeZero cap] (hdvd : cap ∣ 2 ^ w) (c : BitVec w) (k : ℕ) :
    cellOf cap (c + BitVec.ofNat w k) = Fin.ofNat cap (c.toNat + k) := by
  apply Fin.ext
  simp only [cellOf, Fin.val_ofNat, BitVec.toNat_add, BitVec.toNat_ofNat]
  rw [Nat.mod_mod_of_dvd _ hdvd, Nat.add_mod, Nat.mod_mod_of_dvd _ hdvd, ← Nat.add_mod]

theorem postCnt_eq (r : WrapRing w cap α) :
    r.postCnt = r.procCnt + BitVec.ofNat w r.pending := by
  rw [pending, BitVec.ofNat_toNat, BitVec.setWidth_eq]
  ring

/-- The next free cell is none of the cells in use. -/
theorem cellOf_post_ne [NeZero cap] (hdvd : cap ∣ 2 ^ w) (r : WrapRing w cap α) (hroom : r.pending < cap)
    {k : ℕ} (hk : k < r.pending) :
    cellOf cap (r.procCnt + BitVec.ofNat w k) ≠ cellOf cap r.postCnt := by
  rw [postCnt_eq r, cellOf_add hdvd, cellOf_add hdvd]
  intro h
  have hv : (r.procCnt.toNat + k) % cap = (r.procCnt.toNat + r.pending) % cap := by
    simpa only [Fin.val_ofNat] using congrArg Fin.val h
  have hm : k ≡ r.pending [MOD cap] := Nat.ModEq.add_left_cancel' r.procCnt.toNat hv
  have : k = r.pending := Nat.ModEq.eq_of_lt_of_lt hm (by omega) hroom
  omega

/-! ### The ring is a bounded FIFO -/

/-- **Push appends.** -/
theorem contents_push [NeZero cap] (hdvd : cap ∣ 2 ^ w) (hcap : cap < 2 ^ w) (r : WrapRing w cap α) (a : α)
    (hroom : r.pending < cap) : (r.push a).contents = r.contents ++ [a] := by
  rw [contents, pending_push r a (by omega), List.range_succ, List.map_append]
  congr 1
  · apply List.map_congr_left
    intro k hk
    rw [List.mem_range] at hk
    simp only [push]
    exact Function.update_of_ne (cellOf_post_ne hdvd r hroom hk) _ _
  · simp only [List.map_cons, List.map_nil, push_procCnt, ← postCnt_eq r]
    simp [push]

/-- **Pop removes the head.** -/
theorem contents_pop [NeZero cap] (r : WrapRing w cap α) (h : r.pending ≠ 0) :
    r.contents = r.front :: r.pop.contents := by
  rw [contents, contents, ← pending_pop r h, List.range_succ_eq_map, List.map_cons, List.map_map]
  congr 1
  · simp [front]
  · apply List.map_congr_left
    intro k _
    simp only [Function.comp_apply, pop_cells, pop_procCnt]
    congr 2
    rw [Nat.succ_eq_add_one, BitVec.ofNat_add, add_assoc, add_comm (1 : BitVec w)]
    rfl

theorem pending_pop_le (r : WrapRing w cap α) (h : r.pending ≠ 0) : r.pop.pending < r.pending := by
  have := pending_pop r h
  omega

end WrapRing

end PlatIF
