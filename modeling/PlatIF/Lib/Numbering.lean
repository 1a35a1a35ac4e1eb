import Mathlib.Data.BitVec
import Mathlib.Data.List.Basic
import Mathlib.Tactic.Common

/-!
# Numbers by position and numbers by owner

Every element of a list has an owner and a number of `w` bits.  `Numbered` says that the numbers are `0, 1, 2, ...` modulo
`2 ^ w` in the order of the list, and `OwnNumbered` that those of each owner are.  The list takes turns when a multiple of
`2 ^ w` elements of other owners stands before each element (`Turns`).

* `ownNumbered_snoc`, `Turns.snoc_iff` — one more element;
* `ownNumbered_iff_turns` — a numbered list is numbered for each owner exactly when it takes turns.
-/

namespace PlatIF.Numbering

variable {α κ : Type*} [DecidableEq κ] {w : ℕ} (owner : α → κ) (num : α → BitVec w)

/-- `0, 1, 2, ...`, modulo `2 ^ w`. -/
def numbers (w n : ℕ) : List (BitVec w) := (List.range n).map (BitVec.ofNat w)

/-- The numbers of the elements that `k` owns, in order. -/
def ownNums (k : κ) (l : List α) : List (BitVec w) := (l.filter fun a => owner a = k).map num

/-- How many elements others than `k` own. -/
def others (k : κ) (l : List α) : ℕ := l.countP fun a => owner a ≠ k

/-- The numbers are consecutive along the list. -/
def Numbered (l : List α) : Prop := l.map num = numbers w l.length

/-- The numbers of each owner are consecutive. -/
def OwnNumbered (l : List α) : Prop := ∀ k, ownNums owner num k l = numbers w (ownNums owner num k l).length

/-- Elements of other owners stand before each element by multiples of `2 ^ w`. -/
def Turns (w : ℕ) (l : List α) : Prop := ∀ n a, l[n]? = some a → 2 ^ w ∣ others owner (owner a) (l.take n)

variable {owner num} {l : List α} {a : α}

theorem numbers_succ (n : ℕ) : numbers w (n + 1) = numbers w n ++ [BitVec.ofNat w n] := by
  simp [numbers, List.range_succ]

theorem numbered_of_getElem? (h : ∀ n a, l[n]? = some a → num a = BitVec.ofNat w n) : Numbered num l := by
  apply List.ext_getElem?
  intro n
  simp only [numbers, List.getElem?_map]
  rcases Nat.lt_or_ge n l.length with hlt | hge
  · rw [List.getElem?_eq_getElem hlt, List.getElem?_range hlt]
    exact congrArg some (h n _ (List.getElem?_eq_getElem hlt))
  · rw [List.getElem?_eq_none hge, List.getElem?_eq_none (by simpa using hge)]
    rfl

theorem Numbered.snoc (h : Numbered num (l ++ [a])) : Numbered num l ∧ num a = BitVec.ofNat w l.length := by
  simp only [Numbered, List.map_append, List.map_cons, List.map_nil, List.length_append, List.length_singleton,
    numbers_succ] at h
  obtain ⟨h1, h2⟩ := List.append_inj' h rfl
  exact ⟨h1, List.singleton_inj.mp h2⟩

/-- A number more is the next one. -/
theorem numbers_snoc_iff {xs : List (BitVec w)} {x : BitVec w} :
    xs ++ [x] = numbers w (xs ++ [x]).length ↔ xs = numbers w xs.length ∧ x = BitVec.ofNat w xs.length := by
  rw [List.length_append, List.length_singleton, numbers_succ]
  constructor
  · intro h
    obtain ⟨h1, h2⟩ := List.append_inj' h rfl
    exact ⟨h1, List.singleton_inj.mp h2⟩
  · rintro ⟨h1, rfl⟩
    rw [← h1]

theorem ownNums_snoc (k : κ) :
    ownNums owner num k (l ++ [a]) = ownNums owner num k l ++ if owner a = k then [num a] else [] := by
  by_cases h : owner a = k <;> simp [ownNums, h]

/-- **One more element keeps the numbers of the owners** when its number counts the earlier ones of its owner. -/
theorem ownNumbered_snoc : OwnNumbered owner num (l ++ [a]) ↔
    OwnNumbered owner num l ∧ num a = BitVec.ofNat w (ownNums owner num (owner a) l).length := by
  have hown : ownNums owner num (owner a) (l ++ [a]) = ownNums owner num (owner a) l ++ [num a] := by
    rw [ownNums_snoc, if_pos rfl]
  have hother : ∀ k, owner a ≠ k → ownNums owner num k (l ++ [a]) = ownNums owner num k l := by
    intro k hk
    rw [ownNums_snoc, if_neg hk, List.append_nil]
  constructor
  · intro h
    have ha := h (owner a)
    rw [hown, numbers_snoc_iff] at ha
    refine ⟨fun k => ?_, ha.2⟩
    by_cases hk : owner a = k
    · exact hk ▸ ha.1
    · have hk' := h k
      rwa [hother k hk] at hk'
  · rintro ⟨h, ha⟩ k
    by_cases hk : owner a = k
    · subst hk
      rw [hown, numbers_snoc_iff]
      exact ⟨h _, ha⟩
    · rw [hother k hk]
      exact h k

/-- An element is owned by one or by others. -/
theorem length_eq_own_add_others (k : κ) : l.length = (ownNums owner num k l).length + others owner k l := by
  rw [ownNums, others, List.length_map, ← List.countP_eq_length_filter]
  simpa using List.length_eq_countP_add_countP (fun a => decide (owner a = k))

theorem Turns.snoc_iff : Turns owner w (l ++ [a]) ↔ Turns owner w l ∧ 2 ^ w ∣ others owner (owner a) l := by
  constructor
  · intro h
    refine ⟨fun n b hb => ?_, ?_⟩
    · have hlt : n < l.length := (List.getElem?_eq_some_iff.mp hb).1
      have hn := h n b (by rw [List.getElem?_append_left hlt]; exact hb)
      rwa [List.take_append_of_le_length hlt.le] at hn
    · have hn := h l.length a (by simp)
      rwa [List.take_left] at hn
  · rintro ⟨h, ha⟩ n b hb
    rcases Nat.lt_trichotomy n l.length with hlt | rfl | hgt
    · rw [List.getElem?_append_left hlt] at hb
      rw [List.take_append_of_le_length hlt.le]
      exact h n b hb
    · rw [List.getElem?_concat_length, Option.some.injEq] at hb
      rw [List.take_left, ← hb]
      exact ha
    · rw [List.getElem?_eq_none (by simp; omega)] at hb
      simp at hb

theorem ofNat_add_eq_iff (m n : ℕ) : BitVec.ofNat w (m + n) = BitVec.ofNat w m ↔ 2 ^ w ∣ n := by
  constructor
  · intro h
    have hmod := congrArg BitVec.toNat h
    simp only [BitVec.toNat_ofNat] at hmod
    have hm : m + n ≡ m + 0 [MOD 2 ^ w] := hmod
    exact (Nat.modEq_zero_iff_dvd).mp (Nat.ModEq.add_left_cancel' m hm)
  · rintro ⟨c, rfl⟩
    apply BitVec.eq_of_toNat_eq
    simp

/-- **Numbers by position are numbers by owner exactly when the list takes turns.** -/
theorem ownNumbered_iff_turns (h : Numbered num l) : OwnNumbered owner num l ↔ Turns owner w l := by
  induction l using List.reverseRecOn with
  | nil => exact iff_of_true (fun k => rfl) (fun n a hn => by simp at hn)
  | append_singleton l a ih =>
    obtain ⟨hl, ha⟩ := h.snoc
    have hlen : l.length = (ownNums owner num (owner a) l).length + others owner (owner a) l :=
      length_eq_own_add_others (owner a)
    rw [ownNumbered_snoc, Turns.snoc_iff, ih hl, ha, hlen, ofNat_add_eq_iff]

end PlatIF.Numbering
