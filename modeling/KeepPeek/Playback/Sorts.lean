import KeepPeek.Playback.Accepting

/-! What every sort of the samples has in common. The sorts of the standard library
may put any sample first of those that compare equal. -/
namespace KeepPeek.Playback

open Lib

/-- A sort that puts one sample of a list before those that compare equal. -/
def firstOrder {Location : Type} (list : List ExportSample) (sample : ExportSample) :
    Order Location where
  recordings := stableOrder.recordings
  samples := fun samples =>
    if samples = list then (stableOrder : Order Location).samples (sample :: list.erase sample)
    else (stableOrder : Order Location).samples samples

section FirstOrder

variable {Location : Type} {list : List ExportSample} {x : ExportSample}

theorem firstOrder_lawful (mem : x ∈ list) : (firstOrder list x : Order Location).Lawful := by
  have stable : (stableOrder : Order Location).Lawful := stableOrder_lawful
  refine ⟨stable.recordings_perm, stable.recordings_sorted, fun samples => ?_, fun samples => ?_⟩
  · unfold firstOrder
    dsimp only
    split
    · rename_i same
      rw [same]
      exact (stable.samples_perm _).trans (List.perm_cons_erase mem).symm
    · exact stable.samples_perm samples
  · unfold firstOrder
    dsimp only
    split
    · exact stable.samples_sorted _
    · exact stable.samples_sorted samples

theorem firstOrder_samples :
    ∃ front back, (firstOrder list x : Order Location).samples list = front ++ x :: back ∧
      ∀ other ∈ front, other.trackType = x.trackType → other.absoluteMs < x.absoluteMs := by
  unfold firstOrder stableOrder
  dsimp only
  rw [if_pos rfl, List.insertionSort_cons, List.orderedInsert_eq_take_drop]
  refine ⟨_, _, rfl, ?_⟩
  intro other mem type
  have before := List.mem_takeWhile_imp mem
  simp only [decide_not, Bool.not_eq_eq_eq_not, Bool.not_true, decide_eq_false_iff_not] at before
  unfold ExportSample.Before at before
  rw [not_or, not_and, not_or] at before
  by_contra late
  have same : x.absoluteMs = other.absoluteMs := by omega
  have := before.2 same
  rw [type] at this
  tauto

end FirstOrder

section EverySort

/-- Nothing is left out that is in a later millisecond than all before it. -/
def Keeps (offered taken : List ExportSample) : Prop :=
  ∀ front sample back, offered = front ++ sample :: back →
    (∀ other ∈ front, other.absoluteMs < sample.absoluteMs) →
      ∃ early late, taken = early ++ sample :: late ∧ ∀ other ∈ early, other ∈ front

theorem keeps_self (xs : List ExportSample) : Keeps xs xs :=
  fun front _ back split _ => ⟨front, back, split, fun _ mem => mem⟩

theorem keeps_ascend {xs : List ExportSample}
    (later : ∀ left ∈ xs, ∀ right ∈ xs, left.absoluteMs < right.absoluteMs →
      left.start < right.start) :
    Keeps xs (ascend ExportSample.start none xs) := by
  intro front sample back split early
  subst split
  have above : Above (ascended ExportSample.start none front) sample.start := by
    rw [above_ascended]
    refine ⟨above_none _, fun other mem => ?_⟩
    exact later other (List.mem_append_left _ mem) sample
      (List.mem_append_right _ List.mem_cons_self) (early other mem)
  refine ⟨ascend ExportSample.start none front, ascend ExportSample.start (some sample.start) back,
    ?_, fun other mem => (ascend_sublist none front).subset mem⟩
  rw [ascend_append, ascend, if_pos above]

theorem places_of_range {early late : List ExportSample} {x : ExportSample} {first count : Nat}
    (h : (early ++ x :: late).map ExportSample.index = List.range' first count) :
    first ≤ x.index ∧ x.index < first + count ∧
      ∀ place, first ≤ place → place < x.index → ∃ other ∈ early, other.index = place := by
  have size : early.length + (late.length + 1) = count := by
    simpa using congrArg List.length h
  have entry : ∀ offset (bound : offset < (early ++ x :: late).length),
      (early ++ x :: late)[offset].index = first + offset := by
    intro offset bound
    have same := congrArg (·[offset]?) h
    simp only [List.getElem?_map, List.getElem?_eq_getElem bound, Option.map_some] at same
    rw [List.getElem?_range' (by simp at bound; omega)] at same
    simpa using same
  have own : x.index = first + early.length := by
    have := entry early.length (by simp)
    simpa using this
  refine ⟨by omega, by omega, fun place low high => ?_⟩
  have inside : place - first < early.length := by omega
  refine ⟨early[place - first], List.getElem_mem inside, ?_⟩
  have := entry (place - first) (by simp; omega)
  rw [List.getElem_append_left inside] at this
  omega

/-- Where every sort gives the samples of a track at successive places, there are no
others, and those at earlier places are in earlier milliseconds. -/
theorem rising_of_every_sort (Location : Type) {xs : List ExportSample} {t first count : Nat}
    (typed : ∀ left ∈ ofTrack t xs, ∀ right ∈ ofTrack t xs,
      left.trackType = right.trackType)
    (every : ∀ order : Order Location, order.Lawful → ∃ taken,
      Keeps (ofTrack t (order.samples xs)) taken ∧
        taken.map ExportSample.index = List.range' first count)
    {x : ExportSample} (mem : x ∈ ofTrack t xs) :
    first ≤ x.index ∧ x.index < first + count ∧ ∀ place, first ≤ place → place < x.index →
        ∃ other ∈ ofTrack t xs, other.index = place ∧ other.absoluteMs < x.absoluteMs := by
  obtain ⟨held, own⟩ := mem_ofTrack.mp mem
  have lawful : (firstOrder xs x : Order Location).Lawful := firstOrder_lawful held
  obtain ⟨taken, keeps, places⟩ := every (firstOrder xs x) lawful
  obtain ⟨front, back, sorted, early⟩ : ∃ front back,
      (firstOrder xs x : Order Location).samples xs = front ++ x :: back ∧ _ :=
    firstOrder_samples
  have here : ofTrack t ((firstOrder xs x : Order Location).samples xs) =
      ofTrack t front ++ x :: ofTrack t back := by
    rw [sorted, ofTrack_append, ← own, ofTrack_cons_self]
  have inside : ∀ other ∈ ofTrack t front, other ∈ ofTrack t xs := by
    intro other mem
    obtain ⟨mem, same⟩ := mem_ofTrack.mp mem
    refine mem_ofTrack.mpr ⟨(lawful.samples_perm xs).mem_iff.mp ?_, same⟩
    rw [sorted]
    exact List.mem_append_left _ mem
  have before : ∀ other ∈ ofTrack t front, other.absoluteMs < x.absoluteMs :=
    fun other other_mem => early other (mem_ofTrack.mp other_mem).1
      (typed other (inside other other_mem) x mem)
  obtain ⟨first_taken, last_taken, rfl, fronted⟩ := keeps _ _ _ here before
  obtain ⟨low, high, earlier⟩ := places_of_range places
  refine ⟨low, high, fun place above below => ?_⟩
  obtain ⟨other, other_mem, same⟩ := earlier place above below
  exact ⟨other, inside other (fronted other other_mem), same,
    before other (fronted other other_mem)⟩

end EverySort

end KeepPeek.Playback
