import Mathlib.Data.List.Basic

/-!
# Lists in blocks

A list is in blocks when it is built by appending elements that are new or repeat the last one, so that equal
elements stand together.  Any two elements of such a list have an order: all occurrences of the one stand before all
occurrences of the other (`Blocks.inOrder_or`).  Sublists inherit the order (`InOrder.sublist`).
-/

namespace PlatIF

variable {α : Type*} {l l' : List α} {x y z : α}

/-- No `x` stands after a `y`. -/
def InOrder (l : List α) (x y : α) : Prop := l.Pairwise fun a b => ¬ (a = y ∧ b = x)

theorem InOrder.sublist (h : InOrder l x y) (hs : l'.Sublist l) : InOrder l' x y :=
  List.Pairwise.sublist hs h

theorem InOrder.append (h : InOrder l x y) (hz : z = x → y ∉ l) : InOrder (l ++ [z]) x y := by
  refine List.pairwise_append.mpr ⟨h, List.pairwise_singleton _ _, fun a ha b hb hab => ?_⟩
  obtain ⟨rfl, rfl⟩ := hab
  exact hz (List.mem_singleton.mp hb).symm ha

theorem inOrder_of_not_mem (hy : y ∉ l) : InOrder l x y :=
  List.Pairwise.imp_of_mem (fun ha _ _ hab => hy (hab.1 ▸ ha)) (List.pairwise_of_forall fun _ _ => trivial)

/-- An element that stands last has the other one nowhere before it. -/
theorem InOrder.not_mem_of_getLast (h : InOrder l x y) (hne : x ≠ y) (hl : l.getLast? = some x) : y ∉ l := by
  intro hy
  obtain ⟨l', rfl⟩ := List.getLast?_eq_some_iff.mp hl
  rcases List.mem_append.mp hy with hy | hy
  · exact (List.pairwise_append.mp h).2.2 y hy x (List.mem_singleton_self x) ⟨rfl, rfl⟩
  · exact hne (List.mem_singleton.mp hy).symm

/-- A list in which equal elements stand together. -/
inductive Blocks : List α → Prop
  | nil : Blocks []
  | snoc {l : List α} {z : α} (h : Blocks l) (hz : z ∉ l ∨ l.getLast? = some z) : Blocks (l ++ [z])

/-- The appended element is in order with any other one. -/
theorem InOrder.snoc (h : InOrder l z y ∨ InOrder l y z) (hne : z ≠ y) (hz : z ∉ l ∨ l.getLast? = some z) :
    InOrder (l ++ [z]) z y ∨ InOrder (l ++ [z]) y z := by
  have hlater : InOrder l y z → InOrder (l ++ [z]) y z := fun h => h.append fun hzy => absurd hzy hne
  rcases hz with hz | hz
  · exact .inr (hlater (inOrder_of_not_mem hz))
  · rcases h with h | h
    · exact .inl (h.append fun _ => h.not_mem_of_getLast hne hz)
    · exact .inr (hlater h)

/-- **Two elements of a list in blocks are in order.** -/
theorem Blocks.inOrder_or (h : Blocks l) (hne : x ≠ y) : InOrder l x y ∨ InOrder l y x := by
  induction h with
  | nil => exact .inl .nil
  | @snoc l z _ hz ih =>
    by_cases hzx : z = x
    · subst hzx
      exact InOrder.snoc ih hne hz
    · by_cases hzy : z = y
      · subst hzy
        exact (InOrder.snoc ih.symm hne.symm hz).symm
      · exact ih.imp (fun h => h.append fun h => absurd h hzx) fun h => h.append fun h => absurd h hzy

end PlatIF
