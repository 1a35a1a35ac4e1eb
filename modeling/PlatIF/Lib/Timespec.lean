import Mathlib.Data.BitVec
import Mathlib.Algebra.Order.Ring.Int
import Mathlib.Tactic.NormNum

/-!
# Points in time in words of a fixed width

A time of seconds and nanoseconds, each a signed word of `w` bits, with the carry by signed division that C code writes.

* `Timespec.ns` — the time meant, in nanoseconds;
* `Timespec.reached_iff` — the comparison field by field is the comparison of the times meant;
* `Timespec.addNs_exact_iff` — when adding nanoseconds is exact.
-/

namespace PlatIF

/-- Seconds and nanoseconds as signed words. -/
structure Timespec (w : ℕ) where
  sec : BitVec w
  nsec : BitVec w
  deriving DecidableEq

namespace Timespec

variable {w : ℕ} {t u : Timespec w}

/-- The time meant. -/
def ns (t : Timespec w) : ℤ := t.sec.toInt * 10 ^ 9 + t.nsec.toInt

/-- The nanoseconds are less than a second. -/
structure Normal (t : Timespec w) : Prop where
  nonneg : 0 ≤ t.nsec.toInt
  lt : t.nsec.toInt < 10 ^ 9

/-- The comparison with a deadline, seconds first. -/
def reached (t deadline : Timespec w) : Bool :=
  deadline.sec.slt t.sec || t.sec == deadline.sec && deadline.nsec.sle t.nsec

/-- Between normal times the comparison is that of the times meant. -/
theorem reached_iff (ht : t.Normal) (hu : u.Normal) : t.reached u = true ↔ u.ns ≤ t.ns := by
  obtain ⟨ht0, ht1⟩ := ht
  obtain ⟨hu0, hu1⟩ := hu
  unfold reached ns
  rw [Bool.or_eq_true, Bool.and_eq_true, BitVec.slt_iff_toInt_lt, BitVec.sle_iff_toInt_le, beq_iff_eq,
    ← BitVec.toInt_inj]
  constructor
  · rintro (h | ⟨h, h'⟩)
    · omega
    · omega
  · intro h
    by_cases hsec : u.sec.toInt < t.sec.toInt
    · exact .inl hsec
    · exact .inr ⟨by omega, by omega⟩

/-- Add to the nanoseconds, and carry what makes whole seconds. -/
def addNs (t : Timespec w) (p : BitVec w) : Timespec w where
  sec := t.sec + (t.nsec + p).sdiv 1000000000
  nsec := (t.nsec + p).srem 1000000000

/-! ### Signed words -/

/-- A signed sum is exact, or off by the whole range. -/
theorem toInt_add_cases (x y : BitVec w) : (x + y).toInt = x.toInt + y.toInt ∨
    (x + y).toInt = x.toInt + y.toInt - 2 ^ w ∨ (x + y).toInt = x.toInt + y.toInt + 2 ^ w := by
  have hpow : ((2 ^ w : ℕ) : ℤ) = 2 ^ w := by push_cast; rfl
  have hadd := BitVec.toNat_add x y
  have hx := x.isLt
  have hy := y.isLt
  rw [Nat.add_mod_eq_sub, Nat.mod_eq_of_lt hx, Nat.mod_eq_of_lt hy] at hadd
  rw [BitVec.toInt_eq_toNat_cond, BitVec.toInt_eq_toNat_cond, BitVec.toInt_eq_toNat_cond]
  split at hadd <;> split <;> split <;> split <;> omega

/-- The signed range, with the half of it as one number. -/
theorem toInt_range (x : BitVec w) : -2 ^ w ≤ 2 * x.toInt ∧ 2 * x.toInt < 2 ^ w :=
  ⟨by simpa using x.le_two_mul_toInt, BitVec.two_mul_toInt_lt⟩

theorem toInt_billion (hw : 32 ≤ w) : (1000000000 : BitVec w).toInt = 10 ^ 9 := by
  have hpow : 2 ^ 32 ≤ 2 ^ w := Nat.pow_le_pow_right (by decide) hw
  have hnat : (1000000000 : BitVec w).toNat = 1000000000 := by
    show 1000000000 % 2 ^ w = 1000000000
    exact Nat.mod_eq_of_lt (by omega)
  rw [BitVec.toInt_eq_toNat_cond, hnat, if_pos (by omega)]
  norm_num

/-- The carry and the rest. -/
theorem addNs_carry (hw : 32 ≤ w) (a : BitVec w) :
    ∃ q r : ℤ, (a.sdiv 1000000000).toInt = q ∧ (a.srem 1000000000).toInt = r ∧ a.toInt = 10 ^ 9 * q + r ∧
      -10 ^ 9 < r ∧ r < 10 ^ 9 ∧ (0 ≤ a.toInt → 0 ≤ r) := by
  have hb := toInt_billion hw
  have hne : (1000000000 : BitVec w) ≠ -1#w := by
    intro h
    have hone := congrArg BitVec.toInt h
    rw [hb, BitVec.neg_one_eq_allOnes, BitVec.toInt_allOnes, if_pos (by omega)] at hone
    omega
  refine ⟨_, _, rfl, rfl, ?_⟩
  rw [BitVec.toInt_sdiv_of_ne_or_ne _ _ (.inr hne), BitVec.toInt_srem, hb]
  refine ⟨(Int.mul_tdiv_add_tmod _ _).symm, ?_, Int.tmod_lt_of_pos _ (by norm_num), fun h => Int.tmod_nonneg _ h⟩
  have hlt := Int.lt_tmod_of_pos a.toInt (show (0 : ℤ) < 10 ^ 9 by norm_num)
  omega

/-- **When adding nanoseconds is exact.**  Adding `p` to a normal time gives a normal time `n` nanoseconds later exactly
when `p` is `n` and neither the nanoseconds nor the seconds overflow. -/
theorem addNs_exact_iff (hw : 32 ≤ w) (ht : t.Normal) {p : BitVec w} {n : ℕ} (hn : n < 10 ^ 9 * 2 ^ 30) :
    ((t.addNs p).Normal ∧ (t.addNs p).ns = t.ns + n) ↔
      p.toNat = n ∧ t.nsec.toInt + n < 2 ^ (w - 1) ∧ t.sec.toInt + (t.nsec.toInt + n) / 10 ^ 9 < 2 ^ (w - 1) := by
  obtain ⟨h0, h1⟩ := ht
  obtain ⟨q, r, hq, hr, ha, hr0, hr1, hr2⟩ := addNs_carry hw (t.nsec + p)
  have hsec := toInt_add_cases t.sec ((t.nsec + p).sdiv 1000000000)
  have hsum := toInt_add_cases t.nsec p
  have hp := BitVec.toInt_eq_toNat_cond p
  have hplt := p.isLt
  -- the range as a number of its own
  have hpow : ((2 ^ w : ℕ) : ℤ) = 2 ^ w := by push_cast; rfl
  have hhalf : (2 : ℤ) ^ w = 2 * 2 ^ (w - 1) := by
    rw [← pow_succ', Nat.sub_add_cancel (by omega)]
  have hbig : (2 : ℤ) ^ 31 ≤ 2 ^ (w - 1) := pow_le_pow_right₀ (by norm_num) (by omega)
  have ha1 := toInt_range (t.nsec + p)
  have hs1 := toInt_range t.sec
  have hs2 := toInt_range (t.sec + (t.nsec + p).sdiv 1000000000)
  rw [hq] at hsec
  have hnormal : (t.addNs p).Normal ↔ 0 ≤ r ∧ r < 10 ^ 9 :=
    ⟨fun h => ⟨hr ▸ h.nonneg, hr ▸ h.lt⟩, fun h => ⟨hr.symm ▸ h.1, hr.symm ▸ h.2⟩⟩
  have hns : (t.addNs p).ns = (t.sec + (t.nsec + p).sdiv 1000000000).toInt * 10 ^ 9 + r := by
    rw [← hr]
    rfl
  rw [hnormal, hns]
  unfold ns
  generalize (t.sec + (t.nsec + p).sdiv 1000000000).toInt = sec' at *
  generalize (t.nsec + p).toInt = a at *
  generalize (2 : ℤ) ^ (w - 1) = M at *
  constructor
  · rintro ⟨⟨hr0, -⟩, hexact⟩
    -- the seconds grew by the carry, since they cannot be off by the range
    have hcarry : sec' = t.sec.toInt + q := by omega
    have hsum' : a = t.nsec.toInt + n := by omega
    refine ⟨?_, ?_, ?_⟩
    · split at hp <;> omega
    · omega
    · omega
  · rintro ⟨hpn, hfit, hsec'⟩
    have hpos : a = t.nsec.toInt + n := by split at hp <;> omega
    have hrest := hr2 (by omega)
    have hcarry : sec' = t.sec.toInt + q := by omega
    refine ⟨⟨hrest, hr1⟩, ?_⟩
    omega

end Timespec

end PlatIF
