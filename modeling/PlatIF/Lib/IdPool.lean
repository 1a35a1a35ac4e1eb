import Mathlib.Data.Finset.Basic

/-!
# A pool of ids

What an allocator of ids does: it hands out an id of its stock that is not out, says that all of them are out, refuses
for another reason, or takes an id back.  The state is the set of the ids that are out.

* `Step.full_iff` — the pool says that it is empty exactly when all the ids are out;
* `Step.fresh` — an id that is handed out is of the stock and was not out.
-/

namespace PlatIF.IdPool

variable {ι : Type*}

/-- An operation with its outcome. -/
inductive Op (ι : Type*) where
  | alloc (id : ι)
  | full
  | refused
  | free (id : ι)

variable [DecidableEq ι]

/-- The operation is done with the ids of `out` out, and leaves those of the second set out. -/
inductive Step (stock out : Finset ι) : Op ι → Finset ι → Prop
  | alloc {id : ι} (hs : id ∈ stock) (hf : id ∉ out) : Step stock out (.alloc id) (insert id out)
  | full (h : stock ⊆ out) : Step stock out .full out
  | refused (h : ¬ stock ⊆ out) : Step stock out .refused out
  | free {id : ι} : Step stock out (.free id) (out.erase id)

variable {stock out out' : Finset ι} {op : Op ι} {id : ι}

theorem Step.full_iff (h : Step stock out op out') (hop : ∀ id, op ≠ .free id) : op = .full ↔ stock ⊆ out := by
  cases h with
  | alloc hid hf => simpa using fun hsub : stock ⊆ out => hf (hsub hid)
  | full hsub => simpa using hsub
  | refused hsub => simpa using hsub
  | free => exact absurd rfl (hop _)

theorem Step.fresh (h : Step stock out (.alloc id) out') : id ∈ stock ∧ id ∉ out := by
  cases h with
  | alloc hs hf => exact ⟨hs, hf⟩

end PlatIF.IdPool
