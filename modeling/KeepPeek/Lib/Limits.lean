import Mathlib.Algebra.Group.Int.Defs

/-! The ends of 64-bit integers, for counters and times that are modelled as numbers
without one. -/
namespace KeepPeek.Lib

def u64Max : Nat := 18446744073709551615

def i64Max : Int := 9223372036854775807

def saturatingAdd (left right : Nat) : Nat := min (left + right) u64Max

def saturatingMul (left right : Nat) : Nat := min (left * right) u64Max

end KeepPeek.Lib
