import Mathlib.Data.List.Basic
import Mathlib.Data.List.Induction
import Mathlib.Data.Option.Basic

/-! A filter that lets a sequence only rise: an element passes when its key is above
that of the last one that passed. -/
namespace KeepPeek.Lib

variable {α : Type*} (key : α → Nat)
variable {last : Option Nat} {elements : List α}

def Above (last : Option Nat) (value : Nat) : Prop := ∀ previous ∈ last, previous < value

instance (last : Option Nat) (value : Nat) : Decidable (Above last value) :=
  inferInstanceAs (Decidable (∀ previous ∈ last, previous < value))

def ascend : Option Nat → List α → List α
  | _, [] => []
  | last, element :: rest =>
    if Above last (key element) then element :: ascend (some (key element)) rest
    else ascend last rest

/-- The last key that passed. -/
def ascended : Option Nat → List α → Option Nat
  | last, [] => last
  | last, element :: rest =>
    if Above last (key element) then ascended (some (key element)) rest else ascended last rest

variable {key}

@[simp] theorem above_none (value : Nat) : Above none value := by
  intro previous mem
  cases mem

@[simp] theorem above_some {last value : Nat} : Above (some last) value ↔ last < value := by
  simp [Above]

theorem ascend_append (last : Option Nat) (front back : List α) :
    ascend key last (front ++ back) =
      ascend key last front ++ ascend key (ascended key last front) back := by
  induction front generalizing last with
  | nil => rfl
  | cons element rest ih =>
    simp only [List.cons_append, ascend, ascended]
    by_cases above : Above last (key element)
    · simp only [if_pos above, List.cons_append, ih]
    · simp only [if_neg above, ih]

theorem ascended_append (last : Option Nat) (front back : List α) :
    ascended key last (front ++ back) = ascended key (ascended key last front) back := by
  induction front generalizing last with
  | nil => rfl
  | cons element rest ih =>
    simp only [List.cons_append, ascended]
    split <;> rw [ih]

/-- A key is above the last one that passed when it is above all that were offered. -/
theorem above_ascended {value : Nat} :
    Above (ascended key last elements) value ↔
      Above last value ∧ ∀ element ∈ elements, key element < value := by
  induction elements generalizing last with
  | nil => simp [ascended]
  | cons element rest ih =>
    simp only [ascended, List.forall_mem_cons]
    by_cases above : Above last (key element)
    · rw [if_pos above, ih, above_some]
      constructor
      · intro h
        exact ⟨fun previous mem => Nat.lt_trans (above previous mem) h.1, h⟩
      · intro h
        exact h.2
    · rw [if_neg above, ih]
      constructor
      · intro h
        refine ⟨h.1, ?_, h.2⟩
        -- The element did not pass, so it is no higher than some earlier one.
        simp only [Above, not_forall, Nat.not_lt] at above
        obtain ⟨previous, mem, high⟩ := above
        exact Nat.lt_of_le_of_lt high (h.1 previous mem)
      · intro h
        exact ⟨h.1, h.2.2⟩

theorem ascend_sublist (last : Option Nat) (elements : List α) :
    (ascend key last elements).Sublist elements := by
  induction elements generalizing last with
  | nil => exact .slnil
  | cons element rest ih =>
    simp only [ascend]
    split
    · exact (ih _).cons_cons element
    · exact (ih last).cons element

theorem above_of_mem_ascend {element : α} (mem : element ∈ ascend key last elements) :
    Above last (key element) := by
  induction elements generalizing last with
  | nil => cases mem
  | cons first rest ih =>
    simp only [ascend] at mem
    split at mem
    · rename_i above
      rcases List.mem_cons.mp mem with rfl | mem
      · exact above
      · have later := above_some.mp (ih mem)
        intro previous held
        exact Nat.lt_trans (above previous held) later
    · exact ih mem

theorem pairwise_ascend (last : Option Nat) (elements : List α) :
    (ascend key last elements).Pairwise fun left right => key left < key right := by
  induction elements generalizing last with
  | nil => exact .nil
  | cons element rest ih =>
    simp only [ascend]
    split
    · refine .cons ?_ (ih _)
      intro later mem
      exact above_some.mp (above_of_mem_ascend mem)
    · exact ih last

/-- Of a sequence that rises anyway only its first elements can be held back. -/
theorem ascend_of_pairwise (rising : elements.Pairwise fun left right => key left < key right) :
    ascend key last elements = elements.filter fun element => Above last (key element) := by
  induction elements generalizing last with
  | nil => rfl
  | cons element rest ih =>
    obtain ⟨first, rising⟩ := List.pairwise_cons.mp rising
    simp only [ascend, List.filter_cons, decide_eq_true_eq]
    split
    · rename_i above
      rw [ih rising, List.filter_congr]
      intro later mem
      have higher := first later mem
      simp only [decide_eq_decide, above_some, higher, true_iff]
      intro previous held
      exact Nat.lt_trans (above previous held) higher
    · exact ih rising

theorem ascend_eq_self (rising : elements.Pairwise fun left right => key left < key right) :
    ascend key none elements = elements := by
  rw [ascend_of_pairwise rising, List.filter_eq_self]
  intro element _
  exact decide_eq_true (above_none _)

/-- A place in a list that was extended at its end. -/
theorem split_concat {rest front back : List α} {final element : α}
    (split : rest ++ [final] = front ++ element :: back) :
    (rest = front ∧ final = element ∧ back = []) ∨
      ∃ behind, back = behind ++ [final] ∧ rest = front ++ element :: behind := by
  rcases List.eq_nil_or_concat' back with rfl | ⟨behind, last, rfl⟩
  · obtain ⟨same, ends⟩ := List.append_inj' split rfl
    exact .inl ⟨same, List.singleton_inj.mp ends, rfl⟩
  · rw [← List.cons_append, ← List.append_assoc] at split
    obtain ⟨same, ends⟩ := List.append_inj' split rfl
    cases ends
    exact .inr ⟨behind, rfl, same⟩

theorem ascend_concat (last : Option Nat) (front : List α) (element : α) :
    ascend key last (front ++ [element]) = ascend key last front ++
      if Above (ascended key last front) (key element) then [element] else [] := by
  rw [ascend_append]
  rfl

/-- The element that passed last: it is above all before it, and none behind it is
above it. -/
theorem getLast?_ascend {element : α} :
    (ascend key last elements).getLast? = some element ↔
      ∃ front back, elements = front ++ element :: back ∧ Above last (key element) ∧
        (∀ other ∈ front, key other < key element) ∧ ∀ other ∈ back, key other ≤ key element := by
  induction elements using List.reverseRecOn with
  | nil => simp [ascend]
  | append_singleton rest final ih =>
    rw [ascend_concat]
    split
    · rename_i above
      obtain ⟨above, least⟩ := above_ascended.mp above
      rw [List.getLast?_concat, Option.some_inj]
      constructor
      · rintro rfl
        exact ⟨rest, [], rfl, above, least, nofun⟩
      · rintro ⟨front, back, split, _, _, highest⟩
        rcases split_concat split with ⟨_, same, _⟩ | ⟨behind, rfl, rfl⟩
        · exact same
        · have high := highest final (by simp)
          have low := least element (by simp)
          omega
    · rename_i low
      rw [List.append_nil, ih]
      constructor
      · rintro ⟨front, back, rfl, above, before, behind⟩
        refine ⟨front, back ++ [final], by simp, above, before, ?_⟩
        intro other mem
        rcases List.mem_append.mp mem with mem | mem
        · exact behind other mem
        cases List.mem_singleton.mp mem
        by_contra high
        refine low (above_ascended.mpr ⟨fun previous held => ?_, fun other mem => ?_⟩)
        · have := above previous held
          omega
        · rcases List.mem_append.mp mem with mem | mem
          · have := before other mem
            omega
          · rcases List.mem_cons.mp mem with rfl | mem
            · omega
            · have := behind other mem
              omega
      · rintro ⟨front, back, split, above, before, behind⟩
        rcases split_concat split with ⟨rfl, rfl, _⟩ | ⟨back, rfl, rfl⟩
        · exact absurd (above_ascended.mpr ⟨above, before⟩) low
        · exact ⟨front, back, rfl, above, before, fun other mem =>
            behind other (List.mem_append_left _ mem)⟩

end KeepPeek.Lib
