import Mathlib.Data.Nat.Log
import Mathlib.Data.Nat.Bitwise
import Mathlib.Data.Int.Basic
import Mathlib.Algebra.Order.Floor.Div
import Mathlib.Tactic.Ring
import Mathlib.Tactic.Linarith

/-! Dyadic blocks of two's complement integers: the smallest power of two whose
aligned block contains two given integers. -/
namespace KeepPeek.Lib

def bitLength (x : Nat) : Nat := if x = 0 then 0 else x.log2 + 1

theorem bitLength_le_iff {x level : Nat} : bitLength x ≤ level ↔ x < 2 ^ level := by
  unfold bitLength
  split
  next zero =>
    subst zero
    simp
  next nonzero =>
    rw [Nat.add_one_le_iff]
    exact Nat.log2_lt nonzero

theorem shiftRight_eq_iff {u v level : Nat} :
    u / 2 ^ level = v / 2 ^ level ↔ u ^^^ v < 2 ^ level := by
  have hxor : (u ^^^ v) / 2 ^ level = u / 2 ^ level ^^^ v / 2 ^ level := by
    rw [← Nat.shiftRight_eq_div_pow, ← Nat.shiftRight_eq_div_pow, ← Nat.shiftRight_eq_div_pow,
      Nat.shiftRight_xor_distrib]
  rw [← Nat.xor_eq_zero_iff, ← hxor, Nat.div_eq_zero_iff]
  simp

/-- The two's complement reading of a signed integer of the given width. -/
def castUnsigned (width : Nat) (x : Int) : Nat := (if x < 0 then x + 2 ^ width else x).toNat

def InWidth (width : Nat) (x : Int) : Prop := -(2 ^ width) ≤ x * 2 ∧ x * 2 < 2 ^ width

theorem castUnsigned_lt {width : Nat} {x : Int} (h : InWidth width x) :
    castUnsigned width x < 2 ^ width := by
  unfold castUnsigned
  rcases h with ⟨low, high⟩
  zify
  split <;> omega

theorem castUnsigned_div {width level : Nat} {x : Int} (h : InWidth width x) (le : level ≤ width) :
    ((castUnsigned width x / 2 ^ level : Nat) : Int) =
      x / 2 ^ level + if x < 0 then 2 ^ (width - level) else 0 := by
  have split_width : (2 : Int) ^ width = 2 ^ (width - level) * 2 ^ level := by
    rw [← pow_add, Nat.sub_add_cancel le]
  have nonneg : 0 ≤ if x < 0 then x + 2 ^ width else x := by
    rcases h with ⟨low, _⟩
    split <;> omega
  unfold castUnsigned
  push_cast
  rw [Int.toNat_of_nonneg nonneg]
  split
  · rw [split_width, Int.add_mul_ediv_right _ _ (by positivity)]
  · rw [add_zero]

theorem castUnsigned_div_eq_iff {width level : Nat} {x y : Int} (hx : InWidth width x)
    (hy : InWidth width y) (lt : level < width) :
    castUnsigned width x / 2 ^ level = castUnsigned width y / 2 ^ level ↔
      x / 2 ^ level = y / 2 ^ level := by
  have block : (0 : Int) < 2 ^ level := by positivity
  -- Of two integers of different sign the quotients stay on their own side of zero.
  have bound : ∀ z : Int, InWidth width z → -(2 ^ (width - level)) ≤ z / 2 ^ level * 2 ∧
      z / 2 ^ level * 2 < 2 ^ (width - level) := by
    intro z hz
    have half : (2 : Int) ^ width = 2 * (2 ^ (width - level - 1) * 2 ^ level) := by
      rw [← pow_add, ← pow_succ']
      congr 1
      omega
    have gap : (2 : Int) ^ (width - level) = 2 * 2 ^ (width - level - 1) := by
      rw [← pow_succ']
      congr 1
      omega
    rcases hz with ⟨low, high⟩
    have lower : -(2 ^ (width - level - 1)) ≤ z / 2 ^ level := by
      rw [Int.le_ediv_iff_mul_le block]
      linarith
    have upper : z / 2 ^ level < 2 ^ (width - level - 1) := by
      rw [Int.ediv_lt_iff_lt_mul block]
      linarith
    constructor <;> linarith
  have sign : ∀ z : Int, z / 2 ^ level < 0 ↔ z < 0 := by
    intro z
    constructor
    · intro negative
      by_contra nonneg
      have := Int.ediv_nonneg (not_lt.mp nonneg) block.le
      omega
    · exact fun negative => Int.ediv_neg_of_neg_of_pos negative block
  rw [← Int.natCast_inj, castUnsigned_div hx lt.le, castUnsigned_div hy lt.le]
  have xbound := bound x hx
  have ybound := bound y hy
  have xsign := sign x
  have ysign := sign y
  have positive : (0 : Int) < 2 ^ (width - level) := by positivity
  generalize x / 2 ^ level = xq at *
  generalize y / 2 ^ level = yq at *
  generalize (2 : Int) ^ (width - level) = gap at *
  split <;> split <;> omega

/-- The level of the smallest block that contains both integers; `width` when
only the whole range does. -/
def commonLevel (width : Nat) (x y : Int) : Nat :=
  bitLength (castUnsigned width x ^^^ castUnsigned width y)

theorem commonLevel_le_width {width : Nat} {x y : Int} (hx : InWidth width x)
    (hy : InWidth width y) : commonLevel width x y ≤ width :=
  bitLength_le_iff.mpr (Nat.xor_lt_two_pow (castUnsigned_lt hx) (castUnsigned_lt hy))

theorem commonLevel_le_iff {width level : Nat} {x y : Int} (hx : InWidth width x)
    (hy : InWidth width y) (lt : level < width) :
    commonLevel width x y ≤ level ↔ x / 2 ^ level = y / 2 ^ level := by
  unfold commonLevel
  rw [bitLength_le_iff, ← shiftRight_eq_iff, castUnsigned_div_eq_iff hx hy lt]

end KeepPeek.Lib
