import Mathlib.Data.List.AList
import Mathlib.Data.List.Basic

/-! Finite tables without an order of their keys: association lists with distinct keys. -/
namespace KeepPeek.Lib

abbrev Table (κ ν : Type*) : Type _ := AList fun _ : κ => ν

namespace Table

variable {κ ν : Type*}

def size (table : Table κ ν) : Nat := table.keys.length

def retain (keep : κ → ν → Bool) (table : Table κ ν) : Table κ ν where
  entries := table.entries.filter fun entry => keep entry.1 entry.2
  nodupKeys := table.nodupKeys.sublist List.filter_sublist

theorem keys_retain_sublist (keep : κ → ν → Bool) (table : Table κ ν) :
    (table.retain keep).keys.Sublist table.keys :=
  List.Sublist.map _ List.filter_sublist

theorem size_retain_le (keep : κ → ν → Bool) (table : Table κ ν) :
    (table.retain keep).size ≤ table.size :=
  (keys_retain_sublist keep table).length_le

variable [DecidableEq κ]

theorem size_insert (key : κ) (value : ν) (table : Table κ ν) :
    size (table.insert key value) = if key ∈ table then table.size else table.size + 1 := by
  unfold size
  rw [AList.keys_insert, List.length_cons]
  split
  · next mem =>
    have mem : key ∈ table.keys := AList.mem_keys.mp mem
    rw [List.length_erase_of_mem mem]
    have := List.length_pos_of_mem mem
    omega
  · next fresh =>
    rw [List.erase_of_not_mem fun mem => fresh (AList.mem_keys.mpr mem)]

theorem size_insert_known {key : κ} {table : Table κ ν} (known : key ∈ table) (value : ν) :
    size (table.insert key value) = table.size := by
  rw [size_insert, if_pos known]

theorem size_insert_le (key : κ) (value : ν) (table : Table κ ν) :
    size (table.insert key value) ≤ table.size + 1 := by
  rw [size_insert]
  split <;> omega

theorem mem_of_lookup {key : κ} {value : ν} {table : Table κ ν}
    (found : table.lookup key = some value) : key ∈ table :=
  AList.lookup_isSome.mp (Option.isSome_iff_exists.mpr ⟨value, found⟩)

theorem exists_lookup {key : κ} {table : Table κ ν} (mem : key ∈ table) :
    ∃ value, table.lookup key = some value :=
  Option.isSome_iff_exists.mp (AList.lookup_isSome.mpr mem)

theorem lookup_retain (keep : κ → ν → Bool) (table : Table κ ν) (key : κ) :
    (table.retain keep).lookup key = (table.lookup key).filter fun value => keep key value := by
  ext value
  rw [← Option.mem_def, ← Option.mem_def, AList.mem_lookup_iff, Option.mem_filter_iff,
    AList.mem_lookup_iff]
  simp [retain, List.mem_filter]

theorem mem_retain {keep : κ → ν → Bool} {table : Table κ ν} {key : κ} :
    key ∈ table.retain keep ↔ ∃ value ∈ table.lookup key, keep key value = true := by
  rw [← AList.lookup_isSome, lookup_retain, Option.isSome_iff_exists]
  simp [Option.filter_eq_some_iff]

end Table

end KeepPeek.Lib
