import KeepPeek.Lib.Except
import Mathlib.Data.List.Induction
import Mathlib.Data.List.Pairwise
import Mathlib.Order.Lattice

/-! Loops over a list whose outcome does not depend on the order of the list: each element
checked against those before it, the element with a given key, the element of greatest key. -/
namespace KeepPeek.Lib

variable {ε α β κ : Type*}

def ensure (holds : Bool) (message : String) : Except String Unit :=
  if holds then .ok () else .error message

@[simp] theorem ensure_eq_ok {holds : Bool} {message : String} :
    ensure holds message = .ok () ↔ holds = true := by
  cases holds <;> simp [ensure]

theorem bind_unit_eq_ok.{u} {ε : Type u} {first : Except ε Unit} {rest : Unit → Except ε Unit} :
    (first >>= rest) = .ok () ↔ first = .ok () ∧ rest () = .ok () := by
  constructor
  · intro h
    obtain ⟨⟨⟩, passed, h⟩ := bind_eq_ok h
    exact ⟨passed, h⟩
  · rintro ⟨passed, h⟩
    rw [passed]
    exact h

section Checks

/-- Each element is checked in turn, with the elements before it. -/
def checkEach (check : List α → α → Except ε Unit) (earlier : List α) : List α → Except ε Unit
  | [] => .ok ()
  | x :: rest => do
    check earlier x
    checkEach check (earlier ++ [x]) rest

variable {check : List α → α → Except ε Unit} {own : α → Prop} {apart : α → α → Prop}
  (each : ∀ earlier x, check earlier x = .ok () ↔ own x ∧ ∀ other ∈ earlier, apart other x)

include each

theorem checkEach_eq_ok {earlier xs : List α} : checkEach check earlier xs = .ok () ↔
    (∀ x ∈ xs, own x ∧ ∀ other ∈ earlier, apart other x) ∧ xs.Pairwise apart := by
  induction xs generalizing earlier with
  | nil => simp [checkEach]
  | cons x rest ih =>
    simp only [checkEach, bind_unit_eq_ok, each, ih, List.forall_mem_append, List.forall_mem_cons,
      List.pairwise_cons]
    grind

theorem checkEach_nil_eq_ok {xs : List α} :
    checkEach check [] xs = .ok () ↔ (∀ x ∈ xs, own x) ∧ xs.Pairwise apart := by
  simp [checkEach_eq_ok each]

end Checks

theorem eq_of_pairwise {apart : α → α → Prop} (symm : ∀ {x y}, apart x y → apart y x) {xs : List α}
    (distinct : xs.Pairwise apart) {x y : α} (memX : x ∈ xs) (memY : y ∈ xs) (close : ¬apart x y) :
    x = y := by
  by_contra other
  have : Std.Symm apart := ⟨fun _ _ => symm⟩
  exact close (distinct.forall memX memY other)

section Keys

variable [DecidableEq κ] {key : α → κ} {xs ys : List α}

theorem find?_eq_some_iff_of_distinct (distinct : xs.Pairwise fun x y => key x ≠ key y) {k : κ}
    {x : α} :
    (xs.find? fun x => key x = k) = some x ↔ x ∈ xs ∧ key x = k := by
  constructor
  · intro found
    exact ⟨List.mem_of_find?_eq_some found, by simpa using List.find?_some found⟩
  · rintro ⟨mem, rfl⟩
    cases found : xs.find? fun y => key y = key x with
    | none => exact absurd (List.find?_eq_none.mp found x mem) (by simp)
    | some y =>
      have same : key y = key x := by simpa using List.find?_some found
      exact congrArg some (eq_of_pairwise (fun apart => apart.symm) distinct
        (List.mem_of_find?_eq_some found) mem fun apart => apart same)

theorem find?_perm (distinct : xs.Pairwise fun x y => key x ≠ key y) (perm : xs.Perm ys) (k : κ) :
    (xs.find? fun x => key x = k) = ys.find? fun x => key x = k := by
  have distinct' := (perm.pairwise_iff fun apart => apart.symm).mp distinct
  ext x
  simp only [find?_eq_some_iff_of_distinct distinct, find?_eq_some_iff_of_distinct distinct',
    perm.mem_iff]

end Keys

section Greatest

variable [LinearOrder β] {key : α → β} {xs : List α}

/-- Of several elements with the greatest key the last one. -/
def maxByKey (key : α → β) (xs : List α) : Option α :=
  xs.foldl (fun best x => match best with
    | none => some x
    | some best => if key x < key best then some best else some x) none

theorem maxByKey_append (xs : List α) (x : α) : maxByKey key (xs ++ [x]) =
    match maxByKey key xs with
    | none => some x
    | some best => if key x < key best then some best else some x := by
  simp only [maxByKey, List.foldl_append, List.foldl_cons, List.foldl_nil]

theorem maxByKey_spec (xs : List α) :
    (∀ best, maxByKey key xs = some best → best ∈ xs ∧ ∀ x ∈ xs, key x ≤ key best) ∧
      (maxByKey key xs = none → xs = []) := by
  induction xs using List.reverseRecOn with
  | nil => simp [maxByKey]
  | append_singleton xs x ih =>
    rw [maxByKey_append]
    cases before : maxByKey key xs with
    | none => simp [ih.2 before]
    | some best =>
      obtain ⟨mem, greatest⟩ := ih.1 best before
      dsimp only
      split
      next less =>
        refine ⟨?_, by simp⟩
        rintro _ ⟨⟩
        refine ⟨List.mem_append_left _ mem, ?_⟩
        intro y memY
        rcases List.mem_append.mp memY with memY | memY
        · exact greatest y memY
        · rw [List.mem_singleton.mp memY]
          exact le_of_lt less
      next more =>
        refine ⟨?_, by simp⟩
        rintro _ ⟨⟩
        refine ⟨List.mem_append_right _ (List.mem_singleton_self x), ?_⟩
        intro y memY
        rcases List.mem_append.mp memY with memY | memY
        · exact le_trans (greatest y memY) (not_lt.mp more)
        · rw [List.mem_singleton.mp memY]

theorem maxByKey_eq_some_iff (distinct : ∀ x ∈ xs, ∀ y ∈ xs, key x = key y → x = y) {best : α} :
    maxByKey key xs = some best ↔ best ∈ xs ∧ ∀ x ∈ xs, key x ≤ key best := by
  constructor
  · exact (maxByKey_spec xs).1 best
  · rintro ⟨mem, greatest⟩
    cases found : maxByKey key xs with
    | none => simp [(maxByKey_spec xs).2 found] at mem
    | some other =>
      obtain ⟨memOther, greatestOther⟩ := (maxByKey_spec xs).1 other found
      exact congrArg some (distinct other memOther best mem
        (le_antisymm (greatest other memOther) (greatestOther best mem)))

end Greatest

end KeepPeek.Lib
