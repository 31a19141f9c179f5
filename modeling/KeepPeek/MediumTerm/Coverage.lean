import KeepPeek.MediumTerm.Recording

/-! The coverage of a recording: the catalog merges the times of its fragments into
ranges that are more than a millisecond apart.

Start and duration of a fragment are rounded to milliseconds one by one. The tolerance
absorbs that: what was recorded without a break is covered by one range. -/
namespace KeepPeek.MediumTerm

open Lib
open Mp4 (Format Sample)
open Storage (RecordingFrame)
open CatalogFragment

def coverageContinuityToleranceMs : Int := 1

abbrev Range := Int × Int

/-- `u64::try_from(stop.saturating_sub(start)).unwrap_or(u64::MAX)` -/
def elapsedMs (start stop : Int) : Nat :=
  if stop < start then u64Max else (min (stop - start) i64Max).toNat

structure CoverageRangeSummary where
  ranges : List Range
  rangeCount : Nat
  durationMs : Nat
  firstStartMs : Option Int
  lastEndMs : Option Int
  largestGapMs : Nat
deriving DecidableEq, Repr

structure CoverageAccumulator where
  current : Option Range
  recent : List Range
  rangeLimit : Nat
  rangeCount : Nat
  durationMs : Nat
  firstStartMs : Option Int
  lastEndMs : Option Int
  largestGapMs : Nat

namespace CoverageAccumulator

def withLimit (rangeLimit : Nat) : CoverageAccumulator :=
  ⟨none, [], rangeLimit, 0, 0, none, none, 0⟩

def unbounded : CoverageAccumulator := withLimit u64Max

def flush (accumulator : CoverageAccumulator) : CoverageAccumulator :=
  match accumulator.current with
  | none => accumulator
  | some range =>
    let recent := accumulator.recent ++ [range]
    { accumulator with
      current := none
      rangeCount := saturatingAdd accumulator.rangeCount 1
      durationMs := saturatingAdd accumulator.durationMs (elapsedMs range.1 range.2)
      firstStartMs := accumulator.firstStartMs.or (some range.1)
      largestGapMs := (accumulator.lastEndMs.map fun last => elapsedMs last range.1).elim
        accumulator.largestGapMs (max accumulator.largestGapMs)
      lastEndMs := some range.2
      recent := if accumulator.rangeLimit < recent.length then recent.tail else recent }

/-- A range that begins within the tolerance continues the open one. -/
def push (accumulator : CoverageAccumulator) (range : Range) : CoverageAccumulator :=
  if range.2 ≤ range.1 then accumulator
  else
    match accumulator.current with
    | none => { accumulator.flush with current := some range }
    | some (start, stop) =>
      if range.1 ≤ min (stop + coverageContinuityToleranceMs) i64Max then
        { accumulator with current := some (start, max stop range.2) }
      else { accumulator.flush with current := some range }

def finish (accumulator : CoverageAccumulator) : CoverageRangeSummary :=
  let last := accumulator.flush
  ⟨last.recent, last.rangeCount, last.durationMs, last.firstStartMs, last.lastEndMs,
    last.largestGapMs⟩

end CoverageAccumulator

open CoverageAccumulator

def CatalogFragment.covered (fragment : CatalogFragment) : Range :=
  (fragment.startMs, fragment.startMs + fragment.durationMs)

def coverage (fragments : List CatalogFragment) : CoverageRangeSummary :=
  ((fragments.map covered).foldl push unbounded).finish

def CatalogFragment.Timed (fragment : CatalogFragment) : Prop :=
  0 < fragment.durationMs ∧ fragment.startMs ≤ i64Max

theorem push_covered {accumulator : CoverageAccumulator} {start stop : Int}
    {fragment : CatalogFragment} (now : accumulator.current = some (start, stop))
    (timed : fragment.Timed) (near : fragment.startMs ≤ stop + 1) :
    accumulator.push fragment.covered =
      { accumulator with current := some (start, max stop fragment.covered.2) } := by
  obtain ⟨positive, bound⟩ := timed
  have nonempty : ¬fragment.covered.2 ≤ fragment.covered.1 := by
    simp only [covered]
    omega
  have continues : fragment.covered.1 ≤ min (stop + coverageContinuityToleranceMs) i64Max := by
    simp only [covered, coverageContinuityToleranceMs]
    omega
  simp [push, nonempty, now, continues]

/-- Fragments one behind the other continue one range. The induction carries the fragment
before, which the open range includes. -/
theorem foldl_push_covered {last : CatalogFragment} {fragments : List CatalogFragment}
    {accumulator : CoverageAccumulator} {start stop : Int}
    (chain : (last :: fragments).IsChain fun fragment next => fragment.Meets next.startMs)
    (timed : ∀ fragment ∈ fragments, fragment.Timed)
    (now : accumulator.current = some (start, stop)) (within : last.covered.2 ≤ stop) :
    ∃ stop', (fragments.map covered).foldl push accumulator =
      { accumulator with current := some (start, stop') } := by
  induction fragments generalizing last accumulator stop with
  | nil => exact ⟨stop, by rw [← now]; rfl⟩
  | cons next rest ih =>
    obtain ⟨meets, chain⟩ := List.isChain_cons_cons.mp chain
    have near : next.startMs ≤ stop + 1 := by
      simp only [CatalogFragment.Meets, covered] at meets within
      omega
    rw [List.map_cons, List.foldl_cons, push_covered now (timed next List.mem_cons_self) near]
    exact ih chain (fun fragment mem => timed fragment (List.mem_cons_of_mem _ mem)) rfl
      (Int.le_max_right _ _)

theorem coverage_of_chain {first : CatalogFragment} {rest : List CatalogFragment}
    (chain : (first :: rest).IsChain fun fragment next => fragment.Meets next.startMs)
    (timed : ∀ fragment ∈ first :: rest, fragment.Timed) :
    ∃ stop, (coverage (first :: rest)).ranges = [(first.startMs, stop)] := by
  have positive := (timed first List.mem_cons_self).1
  have opened : unbounded.push first.covered =
      { unbounded with current := some first.covered } := by
    have nonempty : ¬first.covered.2 ≤ first.covered.1 := by
      simp only [covered]
      omega
    simp [push, nonempty, unbounded, withLimit, flush]
  have now : (unbounded.push first.covered).current = some (first.startMs, first.covered.2) :=
    congrArg current opened
  obtain ⟨stop, merged⟩ := foldl_push_covered chain
    (fun fragment mem => timed fragment (List.mem_cons_of_mem _ mem)) now (Int.le_refl _)
  refine ⟨stop, ?_⟩
  rw [coverage, List.map_cons, List.foldl_cons, merged, opened]
  simp [finish, flush, unbounded, withLimit, u64Max]

section Continued

variable (format : Format MediaConfig) (parser : Parser)

open MediumTermWriter

inductive Continued : MediumTermWriter → Prop
  | create (startedAtMs : Int) (reservation : Bool) : Continued (create startedAtMs reservation)
  | append {writer after : MediumTermWriter} {frame : RecordingFrame} {faults : Faults}
      {duration : Nat} (continued : Continued writer)
      (appended : writer.appendOne format parser frame faults = (.ok duration, after)) :
      Continued after
  | appendReceived {writer after : MediumTermWriter} {frame : RecordingFrame} {faults : Faults}
      {duration : Nat} (continued : Continued writer)
      (appended : writer.appendReceived format parser frame faults = (.ok duration, after)) :
      Continued after

inductive Ended (writer : MediumTermWriter) (video : List Sample) (after : MediumTermWriter) : Prop
  | finalize {faults : Faults} (ended : writer.finalize format parser faults = (.ok video, after))
  | finalizeBefore {stop : Nat} {faults : Faults}
      (ended : writer.finalizeBefore format parser stop faults = (.ok video, after))

variable {format parser} {w after : MediumTermWriter} {video : List Sample}

theorem Continued.unbroken (continued : Continued format parser w) :
    (∃ parts, w.Holding parts) ∧ w.Unbroken := by
  induction continued with
  | create startedAtMs reservation =>
    exact ⟨⟨[], rfl, rfl, nofun, nofun, nofun⟩, List.isChain_nil, nofun⟩
  | append continued appended ih =>
    obtain ⟨⟨parts, holding⟩, unbroken⟩ := ih
    obtain ⟨new, extended, joins⟩ := holding.appendOne appended
    exact ⟨⟨_, extended.holding⟩, joins unbroken⟩
  | appendReceived continued appended ih =>
    obtain ⟨⟨parts, holding⟩, unbroken⟩ := ih
    obtain ⟨frame, between, made, appended⟩ := andThen_eq_ok appended
    obtain ⟨_, rfl⟩ := Prod.mk.inj made
    obtain ⟨new, extended, joins⟩ := holding.appendOne appended
    exact ⟨⟨_, extended.holding⟩, joins unbroken⟩

theorem timed_of_covers {startedAtMs : Int} {part : Part} (covers : Covers startedAtMs part) :
    part.1.Timed := by
  obtain ⟨first, rest, stop, _, _, start, duration⟩ := covers
  unfold CatalogFragment.Timed i64Max
  rw [start, duration]
  omega

end Continued

namespace Fixture

theorem continued_clip {fs : List RecordingFrame} {w : MediumTermWriter}
    (continued : Continued format parser w)
    (accepted : AllSteps (fun w frame => (w.appendReceived format parser frame faultless).2)
      (fun w frame => (w.appendReceived format parser frame faultless).1.isOk) w
      fs) :
    Continued format parser (fs.foldl (fun w frame =>
      (w.appendReceived format parser frame faultless).2) w) := by
  induction fs generalizing w with
  | nil => exact continued
  | cons frame rest ih =>
    obtain ⟨first, remaining⟩ := accepted
    cases answer : (w.appendReceived format parser frame faultless).1 with
    | error error =>
      rw [answer] at first
      cases first
    | ok duration => exact ih (.appendReceived continued (Prod.ext answer rfl)) remaining

def seconds : List RecordingFrame :=
  [keyframe 0, delta 500000000, keyframe 1000000000, delta 1500000000]

end Fixture

open Fixture

end KeepPeek.MediumTerm
