import Mathlib.Data.BitVec

/-!
# ThinkOS base types

The result codes of `TOS_BaseObjectTypes.h` that the two event modules return, the width of `ULONG_T`,
and pointers.
-/

namespace PlatIF

/-- `TOS_Result_T`.  The enumeration gives one code several names; `success` is also `TOS_NO` and
`already` is also `TOS_YES`.  `other` stands for the codes no modelled function returns by itself
(a callback may return any of them). -/
inductive TosResult where
  | success
  | already
  | error
  | notImplemented
  | notFound
  | notEnoughMemory
  | notEnoughResource
  | notReged
  | tooManyReged
  | badState
  | tooManyPubedEvents
  | noEvtSuber
  | timeout
  | bug
  | notTestedBug
  | other (code : ℤ)
  deriving DecidableEq, Repr

/-- The target: the width of `unsigned long`, which C makes at least 32 bits. -/
structure Abi where
  ulongBits : ℕ
  ulongBits_ge : 32 ≤ ulongBits

/-- `ULONG_T`. -/
abbrev ULong (abi : Abi) := BitVec abi.ulongBits

/-- The LP64 target the build files name. -/
def lp64 : Abi := ⟨64, by decide⟩

theorem Abi.pow_le (abi : Abi) : 2 ^ 32 ≤ 2 ^ abi.ulongBits :=
  Nat.pow_le_pow_right (by decide) abi.ulongBits_ge

theorem Abi.one_ne_zero (abi : Abi) : (1 : BitVec abi.ulongBits) ≠ 0 := by
  intro h
  have h1 : 1 < 2 ^ abi.ulongBits := lt_of_lt_of_le (by decide) abi.pow_le
  have h2 := congrArg BitVec.toNat h
  simp [Nat.mod_eq_of_lt h1] at h2

/-- A pointer or a function pointer, as its address. -/
abbrev Ptr := ℕ

/-- `NULL`. -/
abbrev NULL : Ptr := 0

/-- A thread id. -/
abbrev Tid := ℕ

end PlatIF
