import Mathlib.Data.List.Sort
import Mathlib.Order.Defs.LinearOrder

/-! Reading an ordered list in pages behind a cursor.

A page is what comes next after the cursor, up to a limit, and the cursor moves to
the last element of the page. The pages make up the list whatever the limits are. -/
namespace KeepPeek.Lib

variable {α : Type*} [LinearOrder α] {all : List α} {cursor last : α} {limit : Nat}

def remaining (all : List α) (cursor : α) : List α :=
  all.filter (cursor < ·)

def page (all : List α) (cursor : α) (limit : Nat) : List α :=
  (remaining all cursor).take limit

theorem mem_remaining {element : α} :
    element ∈ remaining all cursor ↔ element ∈ all ∧ cursor < element := by
  simp [remaining]

theorem remaining_remaining {later : α} (h : cursor ≤ later) :
    remaining (remaining all cursor) later = remaining all later := by
  simp only [remaining, List.filter_filter]
  apply List.filter_congr
  intro element _
  by_cases above : later < element
  · simp [above, lt_of_le_of_lt h above]
  · simp [above]

theorem remaining_of_lt (h : ∀ element ∈ all, cursor < element) : remaining all cursor = all := by
  rw [remaining, List.filter_eq_self]
  simpa using h

theorem remaining_append_of_sorted {front back : List α}
    (sorted : (front ++ [last] ++ back).Pairwise (· < ·)) :
    remaining (front ++ [last] ++ back) last = back := by
  obtain ⟨beforeBack, -, across⟩ := List.pairwise_append.mp sorted
  obtain ⟨-, -, below⟩ := List.pairwise_append.mp beforeBack
  have none : remaining (front ++ [last]) last = [] := by
    rw [remaining, List.filter_eq_nil_iff]
    intro element mem
    rcases List.mem_append.mp mem with early | same
    · simpa using (below element early last List.mem_cons_self).le
    · simp [List.mem_singleton.mp same]
  have whole : remaining back last = back :=
    remaining_of_lt fun element mem => across last (by simp) element mem
  simp only [remaining] at none whole ⊢
  rw [List.filter_append, none, whole, List.nil_append]

theorem remaining_of_page (sorted : all.Pairwise (· < ·))
    (ends : (page all cursor limit).getLast? = some last) :
    remaining all last = (remaining all cursor).drop limit := by
  obtain ⟨front, paged⟩ := List.getLast?_eq_some_iff.mp ends
  have split : front ++ [last] ++ (remaining all cursor).drop limit = remaining all cursor := by
    rw [← paged]
    exact List.take_append_drop limit (remaining all cursor)
  have mem : last ∈ remaining all cursor := by
    rw [← split]
    simp
  have rest := sorted.filter (cursor < ·)
  rw [← remaining_remaining (mem_remaining.mp mem).2.le]
  change (remaining all cursor).Pairwise _ at rest
  rw [← split] at rest ⊢
  rw [remaining_append_of_sorted rest, split]

theorem remaining_of_page_nil (positive : 0 < limit) (nothing : page all cursor limit = []) :
    remaining all cursor = [] := by
  rcases List.take_eq_nil_iff.mp nothing with zero | none
  · omega
  · exact none

end KeepPeek.Lib
