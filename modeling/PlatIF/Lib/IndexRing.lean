import Mathlib.Data.Nat.ModEq
import Mathlib.Data.List.Basic
import Mathlib.Logic.Function.Basic
import Mathlib.Tactic.Common

/-!
# A ring addressed by a head and a number of elements

A ring of `cap` cells that stores `num` elements from the cell `head` on, with wrap around.  The bounds of the two
fields are part of the type.

* `contents` is the list the ring stands for: `push` appends to it, `pop` removes its head;
* `freed` is the cell that the last `pop` gave up.  A reader may still look at it after the pop, so the question is
  which push writes to it: only the one that fills the ring (`tail_eq_freed_iff`).
-/

namespace PlatIF

/-- A ring of `cap` cells, of which `num` from `head` on are in use. -/
structure IndexRing (α : Type*) where
  cap : ℕ
  head : ℕ
  num : ℕ
  cells : ℕ → α
  head_lt : head < cap
  num_le : num ≤ cap

namespace IndexRing

variable {α : Type*} (r : IndexRing α)

/-- The cell `k` places after the head. -/
def index (k : ℕ) : ℕ := (r.head + k) % r.cap

/-- The cell the next element goes to. -/
abbrev tail : ℕ := r.index r.num

/-- The cell before the head. -/
abbrev freed : ℕ := r.index (r.cap - 1)

/-- The oldest element. -/
abbrev front : α := r.cells r.head

/-- The stored elements, oldest first. -/
def contents : List α := (List.range r.num).map fun k => r.cells (r.index k)

/-- Store `a`. -/
def push (h : r.num < r.cap) (a : α) : IndexRing α :=
  { r with num := r.num + 1, cells := Function.update r.cells r.tail a, num_le := h }

theorem index_lt (k : ℕ) : r.index k < r.cap :=
  Nat.mod_lt _ (Nat.zero_lt_of_lt r.head_lt)

/-- Drop the oldest element. -/
def pop : IndexRing α :=
  { r with head := r.index 1, num := r.num - 1, head_lt := r.index_lt 1,
           num_le := (Nat.sub_le _ _).trans r.num_le }

@[simp] theorem push_cap (h : r.num < r.cap) (a : α) : (r.push h a).cap = r.cap := rfl

@[simp] theorem push_head (h : r.num < r.cap) (a : α) : (r.push h a).head = r.head := rfl

@[simp] theorem push_num (h : r.num < r.cap) (a : α) : (r.push h a).num = r.num + 1 := rfl

@[simp] theorem push_index (h : r.num < r.cap) (a : α) (k : ℕ) : (r.push h a).index k = r.index k := rfl

@[simp] theorem pop_cap : r.pop.cap = r.cap := rfl

@[simp] theorem pop_head : r.pop.head = r.index 1 := rfl

@[simp] theorem pop_num : r.pop.num = r.num - 1 := rfl

@[simp] theorem pop_cells : r.pop.cells = r.cells := rfl

theorem contents_length : r.contents.length = r.num := by
  simp [contents]

theorem index_zero : r.index 0 = r.head := Nat.mod_eq_of_lt r.head_lt

theorem pop_index (k : ℕ) : r.pop.index k = r.index (k + 1) := by
  simp only [index, pop_head, pop_cap, Nat.mod_add_mod]
  congr 1
  omega

/-- Places less than `cap` apart are different cells. -/
theorem index_inj {j k : ℕ} (hj : j < r.cap) (hk : k < r.cap) : r.index j = r.index k ↔ j = k := by
  refine ⟨fun h => ?_, congrArg r.index⟩
  have hm : j ≡ k [MOD r.cap] := Nat.ModEq.add_left_cancel' r.head h
  exact Nat.ModEq.eq_of_lt_of_lt hm hj hk

/-! ### The ring is a bounded FIFO -/

/-- **Push appends.** -/
theorem contents_push (h : r.num < r.cap) (a : α) : (r.push h a).contents = r.contents ++ [a] := by
  rw [contents, push_num, List.range_succ, List.map_append]
  congr 1
  · apply List.map_congr_left
    intro k hk
    have hk' : k < r.num := List.mem_range.mp hk
    have hne : r.index k ≠ r.tail := fun he => by
      have := (r.index_inj (hk'.trans h) h).mp he
      omega
    exact Function.update_of_ne hne _ _
  · simp [push, index]

/-- **Pop removes the head.** -/
theorem contents_pop (h : r.num ≠ 0) : r.contents = r.front :: r.pop.contents := by
  obtain ⟨n, hn⟩ := Nat.exists_eq_succ_of_ne_zero h
  rw [contents, contents, pop_num, hn, List.range_succ_eq_map, List.map_cons, List.map_map, index_zero]
  congr 1
  apply List.map_congr_left
  intro k _
  rw [Function.comp_apply, pop_index, pop_cells]

/-! ### The cell that was given up -/

theorem pop_freed : r.pop.freed = r.head := by
  have hcap : 0 < r.cap := Nat.zero_lt_of_lt r.head_lt
  rw [freed, pop_index, pop_cap, Nat.sub_add_cancel hcap, index, Nat.add_mod_right,
    Nat.mod_eq_of_lt r.head_lt]

/-- **Only the push that fills the ring writes to the cell that was given up.** -/
theorem tail_eq_freed_iff (h : r.num < r.cap) : r.tail = r.freed ↔ r.num + 1 = r.cap := by
  rw [r.index_inj h (Nat.sub_lt (Nat.zero_lt_of_lt h) Nat.one_pos)]
  omega

theorem push_cells_freed (h : r.num < r.cap) (a : α) (hne : r.num + 1 ≠ r.cap) :
    (r.push h a).cells r.freed = r.cells r.freed :=
  Function.update_of_ne (fun he => hne ((r.tail_eq_freed_iff h).mp he.symm)) _ _

theorem push_cells_freed_of_full (h : r.num < r.cap) (a : α) (hfull : r.num + 1 = r.cap) :
    (r.push h a).cells r.freed = a := by
  rw [← (r.tail_eq_freed_iff h).mpr hfull]
  exact Function.update_self ..

/-- A write to that cell does not show in the contents, unless the ring is full. -/
theorem contents_write_freed (h : r.num < r.cap) (a : α) :
    ({ r with cells := Function.update r.cells r.freed a } : IndexRing α).contents = r.contents := by
  apply List.map_congr_left
  intro k hk
  have hk' : k < r.num := List.mem_range.mp hk
  have hne : r.index k ≠ r.freed := fun he => by
    have := (r.index_inj (hk'.trans h) (Nat.sub_lt (Nat.zero_lt_of_lt h) Nat.one_pos)).mp he
    omega
  exact Function.update_of_ne hne _ _

end IndexRing

end PlatIF
