import Mathlib.Algebra.GroupWithZero.Nat
import Mathlib.Tactic.Common

/-! Unsigned 64-bit arithmetic that stops at the ends of its range, or that
answers nothing when it leaves it, read as arithmetic of natural numbers. -/
namespace KeepPeek.Lib.Word

def saturatingAdd (a b : UInt64) : UInt64 :=
  UInt64.ofNatClamp (a.toNat + b.toNat)

def saturatingSub (a b : UInt64) : UInt64 :=
  if b ≤ a then a - b else 0

def checkedAdd (a b : UInt64) : Option UInt64 :=
  if a.toNat + b.toNat < 2 ^ 64 then some (a + b) else none

def checkedMul (a b : UInt64) : Option UInt64 :=
  if a.toNat * b.toNat < 2 ^ 64 then some (a * b) else none

@[simp] theorem toNat_saturatingAdd (a b : UInt64) :
    (saturatingAdd a b).toNat = min (a.toNat + b.toNat) (2 ^ 64 - 1) := by
  unfold saturatingAdd
  rcases Nat.lt_or_ge (a.toNat + b.toNat) UInt64.size with fits | past
  · rw [UInt64.toNat_ofNatClamp_of_lt fits]
    simp only [UInt64.size] at fits
    omega
  · rw [UInt64.toNat_ofNatClamp_of_le past]
    simp only [UInt64.size] at past ⊢
    omega

@[simp] theorem toNat_saturatingSub (a b : UInt64) :
    (saturatingSub a b).toNat = a.toNat - b.toNat := by
  unfold saturatingSub
  split
  · next below => exact UInt64.toNat_sub_of_le a b below
  next above =>
  have := UInt64.not_le.mp above
  rw [UInt64.lt_iff_toNat_lt] at this
  simp only [UInt64.toNat_zero]
  omega

@[simp] theorem toNat_max (a b : UInt64) : (max a b).toNat = max a.toNat b.toNat := by
  change (if a ≤ b then b else a).toNat = _
  split
  · next below => exact (Nat.max_eq_right (UInt64.le_iff_toNat_le.mp below)).symm
  · next above =>
    have := UInt64.lt_iff_toNat_lt.mp (UInt64.not_le.mp above)
    omega

@[simp] theorem toNat_min (a b : UInt64) : (min a b).toNat = min a.toNat b.toNat := by
  change (if a ≤ b then a else b).toNat = _
  split
  · next below => exact (Nat.min_eq_left (UInt64.le_iff_toNat_le.mp below)).symm
  · next above =>
    have := UInt64.lt_iff_toNat_lt.mp (UInt64.not_le.mp above)
    omega

theorem checkedAdd_of_lt {a b : UInt64} (fits : a.toNat + b.toNat < 2 ^ 64) :
    ∃ sum, checkedAdd a b = some sum ∧ sum.toNat = a.toNat + b.toNat := by
  refine ⟨a + b, if_pos fits, ?_⟩
  rw [UInt64.toNat_add, Nat.mod_eq_of_lt fits]

theorem checkedMul_of_lt {a b : UInt64} (fits : a.toNat * b.toNat < 2 ^ 64) :
    ∃ product, checkedMul a b = some product ∧ product.toNat = a.toNat * b.toNat := by
  refine ⟨a * b, if_pos fits, ?_⟩
  rw [UInt64.toNat_mul, Nat.mod_eq_of_lt fits]

end KeepPeek.Lib.Word
