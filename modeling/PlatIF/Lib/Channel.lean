import Mathlib.Data.List.Infix

/-!
# A lossless channel

What it means that a channel loses, repeats and reorders nothing: the values ever accepted are the values
delivered so far, then the ones in the hand of the receiver, then the ones still queued.  The three moves of
such a channel keep this, and what has been delivered is at any time a prefix of what has been accepted.
-/

namespace PlatIF

variable {α : Type*} {accepted delivered hand queue : List α} {a : α}

/-- Accepted values are delivered, in hand or queued, in this order. -/
def Conserved (accepted delivered hand queue : List α) : Prop :=
  accepted = delivered ++ hand ++ queue

namespace Conserved

theorem empty : Conserved ([] : List α) [] [] [] := rfl

theorem accept (h : Conserved accepted delivered hand queue) (a : α) :
    Conserved (accepted ++ [a]) delivered hand (queue ++ [a]) := by
  rw [Conserved, h, List.append_assoc]

theorem take (h : Conserved accepted delivered [] (a :: queue)) :
    Conserved accepted delivered [a] queue := by
  simpa [Conserved] using h

theorem deliver (h : Conserved accepted delivered [a] queue) :
    Conserved accepted (delivered ++ [a]) [] queue := by
  simpa [Conserved] using h

theorem isPrefix (h : Conserved accepted delivered hand queue) : delivered <+: accepted :=
  ⟨hand ++ queue, by rw [h, List.append_assoc]⟩

/-- A channel with nothing in hand and nothing queued has delivered everything. -/
theorem all_delivered (h : Conserved accepted delivered [] []) : accepted = delivered := by
  simpa [Conserved] using h

end Conserved

end PlatIF
