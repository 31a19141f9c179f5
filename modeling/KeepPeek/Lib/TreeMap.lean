import Mathlib.Algebra.BigOperators.Group.List.Basic
import Mathlib.Data.String.Basic
import Mathlib.Tactic.Abel

/-! Sums over the entries of an ordered map, and how they change when one entry
is inserted, replaced or erased. -/
namespace KeepPeek.Lib

open Std

variable {κ ν M : Type*} {cmp : κ → κ → Ordering} [TransCmp cmp] [LawfulEqCmp cmp]
variable {key other : κ} {map : ExtTreeMap κ ν cmp} {value : ν}

theorem getElem?_insert_of_ne (h : other ≠ key) (map : ExtTreeMap κ ν cmp) (value : ν) :
    (map.insert key value)[other]? = map[other]? := by
  rw [ExtTreeMap.getElem?_insert,
    if_neg fun hcompare => h (LawfulEqCmp.eq_of_compare hcompare).symm]

theorem getElem?_insert_cases {found : ν} (h : (map.insert key value)[other]? = some found) :
    other = key ∧ found = value ∨ other ≠ key ∧ map[other]? = some found := by
  by_cases same : other = key
  · subst same
    rw [ExtTreeMap.getElem?_insert_self] at h
    cases h
    exact Or.inl ⟨rfl, rfl⟩
  · rw [getElem?_insert_of_ne same] at h
    exact Or.inr ⟨same, h⟩

theorem getElem?_erase_of_ne (h : other ≠ key) (map : ExtTreeMap κ ν cmp) :
    (map.erase key)[other]? = map[other]? := by
  rw [ExtTreeMap.getElem?_erase,
    if_neg fun hcompare => h (LawfulEqCmp.eq_of_compare hcompare).symm]

omit [LawfulEqCmp cmp] in
theorem ne_of_getElem?_erase (h : (map.erase key)[other]? = some value) : other ≠ key := by
  rintro rfl
  rw [ExtTreeMap.getElem?_erase_self] at h
  cases h

theorem getElem?_of_erase (h : (map.erase key)[other]? = some value) :
    map[other]? = some value := by
  rwa [getElem?_erase_of_ne (ne_of_getElem?_erase h)] at h

theorem toList_nodup (map : ExtTreeMap κ ν cmp) : map.toList.Nodup := by
  refine map.distinct_keys_toList.imp ?_
  rintro left right hne rfl
  exact hne (ReflCmp.compare_self)

theorem toList_perm_cons_erase (h : map[key]? = some value) :
    map.toList.Perm ((key, value) :: (map.erase key).toList) := by
  have hfresh : (key, value) ∉ (map.erase key).toList := by
    simp [ExtTreeMap.mem_toList_iff_getElem?_eq_some]
  refine (List.perm_ext_iff_of_nodup (toList_nodup map)
    (List.nodup_cons.mpr ⟨hfresh, toList_nodup _⟩)).mpr ?_
  rintro ⟨key', value'⟩
  rw [List.mem_cons, ExtTreeMap.mem_toList_iff_getElem?_eq_some,
    ExtTreeMap.mem_toList_iff_getElem?_eq_some, ExtTreeMap.getElem?_erase]
  by_cases hkey : key = key'
  · subst hkey
    simp [h, eq_comm]
  · have hne : cmp key key' ≠ .eq := fun heq => hkey (LawfulEqCmp.eq_of_compare heq)
    simp [hne, Ne.symm hkey]

theorem countP_toList_of_getElem? (test : κ × ν → Bool) (h : map[key]? = some value) :
    map.toList.countP test =
      (map.erase key).toList.countP test + if test (key, value) then 1 else 0 := by
  rw [(toList_perm_cons_erase h).countP_eq, List.countP_cons]

theorem erase_insert (map : ExtTreeMap κ ν cmp) (key : κ) (value : ν) :
    (map.insert key value).erase key = map.erase key := by
  apply ExtTreeMap.ext_getElem?
  intro other
  rw [ExtTreeMap.getElem?_erase, ExtTreeMap.getElem?_erase, ExtTreeMap.getElem?_insert]
  split <;> rfl

theorem erase_of_getElem?_eq_none (h : map[key]? = none) : map.erase key = map := by
  apply ExtTreeMap.ext_getElem?
  intro other
  rw [ExtTreeMap.getElem?_erase]
  split
  · next heq => rw [← LawfulEqCmp.eq_of_compare heq, h]
  · rfl

theorem countP_toList_insert_new (test : κ × ν → Bool) (h : map[key]? = none) (value : ν) :
    (map.insert key value).toList.countP test =
      map.toList.countP test + if test (key, value) then 1 else 0 := by
  rw [countP_toList_of_getElem? test ExtTreeMap.getElem?_insert_self, erase_insert,
    erase_of_getElem?_eq_none h]

theorem countP_toList_replace (test : κ × ν → Bool) {old : ν} (h : map[key]? = some old)
    (value : ν) :
    (map.insert key value).toList.countP test + (if test (key, old) then 1 else 0) =
      map.toList.countP test + if test (key, value) then 1 else 0 := by
  rw [countP_toList_of_getElem? test ExtTreeMap.getElem?_insert_self, erase_insert,
    countP_toList_of_getElem? test h]
  omega

def total [AddCommMonoid M] (weight : κ → ν → M) (map : ExtTreeMap κ ν cmp) : M :=
  (map.toList.map fun entry => weight entry.1 entry.2).sum

section

variable [AddCommMonoid M] (weight : κ → ν → M) {map : ExtTreeMap κ ν cmp} {key : κ} {value : ν}

omit [LawfulEqCmp cmp] in
@[simp] theorem total_empty : total weight (∅ : ExtTreeMap κ ν cmp) = 0 := by
  have hnil : (∅ : ExtTreeMap κ ν cmp).toList = [] := rfl
  simp [total, hnil]

theorem total_eq_add_erase (h : map[key]? = some value) :
    total weight map = weight key value + total weight (map.erase key) := by
  have hperm := ((toList_perm_cons_erase h).map fun entry => weight entry.1 entry.2).sum_eq
  simpa [total] using hperm

theorem total_insert (map : ExtTreeMap κ ν cmp) (key : κ) (value : ν) :
    total weight (map.insert key value) = weight key value + total weight (map.erase key) := by
  rw [total_eq_add_erase weight (ExtTreeMap.getElem?_insert_self), erase_insert]

end

theorem total_eq_zero [AddCommMonoid M] {weight : κ → ν → M}
    (h : ∀ key value, map[key]? = some value → weight key value = 0) : total weight map = 0 := by
  apply List.sum_eq_zero
  intro value hvalue
  rcases List.mem_map.mp hvalue with ⟨entry, hentry, rfl⟩
  exact h entry.1 entry.2 (ExtTreeMap.mem_toList_iff_getElem?_eq_some.mp hentry)

theorem total_insert_sub [AddCommGroup M] (weight : κ → ν → M) (map : ExtTreeMap κ ν cmp) (key : κ)
    (value : ν) :
    total weight (map.insert key value) =
      total weight map + (weight key value - (map[key]?).elim 0 (weight key)) := by
  rw [total_insert]
  cases h : map[key]? with
  | none =>
    rw [erase_of_getElem?_eq_none h, Option.elim_none, sub_zero, add_comm]
  | some old =>
    rw [total_eq_add_erase weight h, Option.elim_some]
    abel

/-! How the values under one key of two maps are related. -/

theorem optionRel_some {α β : Type*} {rel : α → β → Prop} {first : Option α} {second : Option β}
    (h : Option.Rel rel first second) {old : α} (hfirst : first = some old) :
    ∃ new, second = some new ∧ rel old new := by
  subst hfirst
  cases h with
  | some hrel => exact ⟨_, rfl, hrel⟩

theorem optionRel_refl {α : Type*} {rel : α → α → Prop} (hrefl : ∀ a, rel a a) (value : Option α) :
    Option.Rel rel value value := by
  cases value with
  | none => exact .none
  | some a => exact .some (hrefl a)

theorem optionRel_trans {α : Type*} {rel : α → α → Prop}
    (h : ∀ a b c, rel a b → rel b c → rel a c) {first second third : Option α}
    (hfirst : Option.Rel rel first second) (hsecond : Option.Rel rel second third) :
    Option.Rel rel first third := by
  cases hfirst with
  | none => exact hsecond
  | some hab =>
    cases hsecond with
    | some hbc => exact .some (h _ _ _ hab hbc)

end KeepPeek.Lib
