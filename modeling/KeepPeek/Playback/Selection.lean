import KeepPeek.MediumTerm.Accepted
import KeepPeek.Playback.Exact

/-! Recordings whose frames can be told apart: those whose frames follow each other
and last two milliseconds at least. -/
namespace KeepPeek.Playback

open Lib
open Mp4 (Sample FragmentedMp4Writer Format)
open MediumTerm (MediaConfig Error Recording Part Covers Produced videoTimescale
  ticksToMillis)

/-- The frames of a recording come one after the other, last two milliseconds, and
their times can be represented. -/
structure Steady (recording : Recording) : Prop where
  ordered : recording.video.Pairwise fun sample next =>
    sample.startTime + sample.duration ≤ next.startTime
  long : ∀ sample ∈ recording.video, 180 ≤ sample.duration
  bound : ∀ sample ∈ recording.video, (sample.startTime + sample.duration) * 1000 ≤ u64Max ∧
    recording.startedAtMs + ((sample.startTime + sample.duration) / 90 : Nat) ≤ i64Max

theorem absoluteMs_eq {startedAtMs : Int} {ticks : Nat} (small : ticks * 1000 ≤ u64Max)
    (fits : startedAtMs + (ticks / 90 : Nat) ≤ i64Max) :
    absoluteMs startedAtMs videoTimescale ticks = startedAtMs + (ticks / 90 : Nat) := by
  have scaled : saturatingMul ticks 1000 / videoTimescale = ticks / 90 := by
    unfold saturatingMul videoTimescale
    rw [Nat.min_eq_left small]
    omega
  have below : ((ticks / 90 : Nat) : Int) ≤ i64Max := by
    unfold u64Max at small
    unfold i64Max
    omega
  unfold absoluteMs
  rw [scaled, Int.min_eq_left below, Int.min_eq_left fits]

section Times

variable {r : Recording} {x : Sample}

theorem Steady.start (steady : Steady r) (mem : x ∈ r.video) :
    absoluteMs r.startedAtMs videoTimescale x.startTime =
      r.startedAtMs + (x.startTime / 90 : Nat) := by
  obtain ⟨small, fits⟩ := steady.bound x mem
  have earlier : x.startTime / 90 ≤ (x.startTime + x.duration) / 90 :=
    Nat.div_le_div_right (Nat.le_add_right _ _)
  refine absoluteMs_eq (Nat.le_trans (Nat.mul_le_mul_right 1000 (Nat.le_add_right _ _)) small) ?_
  omega

theorem Steady.stop (steady : Steady r) (mem : x ∈ r.video) :
    absoluteMs r.startedAtMs videoTimescale (saturatingAdd x.startTime x.duration) =
      r.startedAtMs + ((x.startTime + x.duration) / 90 : Nat) := by
  obtain ⟨small, fits⟩ := steady.bound x mem
  have whole : saturatingAdd x.startTime x.duration = x.startTime + x.duration := by
    unfold saturatingAdd
    omega
  rw [whole]
  exact absoluteMs_eq small fits

structure Spans (startedAtMs : Int) (part : Part) (start stop : Nat) : Prop where
  long : start + 180 ≤ stop
  startMs : part.1.startMs = startedAtMs + (start / 90 : Nat)
  endMs : partEndMs part = startedAtMs + (start / 90 : Nat) + ((stop - start) / 90 : Nat)
  inside : ∀ sample ∈ part.2, start ≤ sample.startTime ∧ sample.startTime + sample.duration ≤ stop
  first : ∃ sample ∈ part.2, sample.startTime = start
  last : ∃ sample ∈ part.2, sample.startTime + sample.duration = stop

theorem spans_of_covers (steady : Steady r) {part : Part}
    (held : part.2.Sublist r.video) (covers : Covers r.startedAtMs part) :
    ∃ start stop, Spans r.startedAtMs part start stop := by
  obtain ⟨first, rest, stop, frames, gapless, startMs, durationMs⟩ := covers
  have ordered := steady.ordered.sublist held
  have first_mem : first ∈ part.2 := by
    rw [frames]
    exact List.mem_cons_self
  obtain ⟨last, last_held⟩ : ∃ last, (first :: rest).getLast? = some last :=
    Option.isSome_iff_exists.mp (List.getLast?_isSome.mpr (List.cons_ne_nil _ _))
  have last_mem : last ∈ part.2 := by
    rw [frames]
    exact List.mem_of_getLast? last_held
  have last_stop := gapless.last last last_held
  have inside : ∀ x ∈ part.2,
      first.startTime ≤ x.startTime ∧ x.startTime + x.duration ≤ stop := by
    intro x mem
    rw [frames] at mem ordered
    constructor
    · rcases List.mem_cons.mp mem with rfl | mem
      · exact Nat.le_refl _
      · have := (List.pairwise_cons.mp ordered).1 x mem
        omega
    · obtain ⟨front, split⟩ := List.getLast?_eq_some_iff.mp last_held
      rw [split] at mem ordered
      rcases List.mem_append.mp mem with mem | mem
      · have := (List.pairwise_append.mp ordered).2.2 x mem last (List.mem_singleton_self _)
        omega
      · rw [List.mem_singleton.mp mem]
        omega
  have first_long := steady.long first (held.subset first_mem)
  have first_inside := inside first first_mem
  obtain ⟨small, fits⟩ := steady.bound last (held.subset last_mem)
  rw [last_stop] at small fits
  have starts : part.1.startMs = r.startedAtMs + (first.startTime / 90 : Nat) := by
    have scaled : ticksToMillis first.startTime videoTimescale = first.startTime / 90 := by
      unfold u64Max at small
      unfold ticksToMillis videoTimescale u64Max
      omega
    unfold u64Max at small
    unfold i64Max at fits
    rw [startMs, scaled]
    omega
  refine ⟨first.startTime, stop, by omega, starts, ?_, inside, ⟨first, first_mem, rfl⟩,
    ⟨last, last_mem, last_stop⟩⟩
  have lasts : part.1.durationMs = (stop - first.startTime) / 90 := by
    have scaled : ticksToMillis (min stop u64Max - first.startTime) videoTimescale =
        (stop - first.startTime) / 90 := by
      unfold u64Max at small
      unfold ticksToMillis videoTimescale u64Max
      omega
    rw [durationMs, scaled]
    omega
  unfold u64Max at small
  unfold i64Max at fits
  unfold partEndMs i64Max
  rw [starts, lasts]
  omega

variable {start stop : Nat} {part : Part}

section

variable (spans : Spans r.startedAtMs part start stop)
include spans

/-- A frame reaches over a millisecond of its own fragment. -/
theorem Spans.own (steady : Steady r) (held : x ∈ r.video) (mem : x ∈ part.2) :
    absoluteMs r.startedAtMs videoTimescale x.startTime < partEndMs part ∧ part.1.startMs <
      absoluteMs r.startedAtMs videoTimescale (saturatingAdd x.startTime x.duration) := by
  have long := steady.long x held
  have inside := spans.inside x mem
  rw [steady.start held, steady.stop held, spans.startMs, spans.endMs]
  constructor
  · omega
  · omega

theorem Spans.earlier (steady : Steady r) (held : x ∈ r.video)
    (before : x.startTime + x.duration ≤ start) :
    absoluteMs r.startedAtMs videoTimescale
      (saturatingAdd x.startTime x.duration) ≤ part.1.startMs := by
  have : (x.startTime + x.duration) / 90 ≤ start / 90 := Nat.div_le_div_right before
  rw [steady.stop held, spans.startMs]
  omega

theorem Spans.later (steady : Steady r) (held : x ∈ r.video) (after : stop ≤ x.startTime) :
    partEndMs part ≤ absoluteMs r.startedAtMs videoTimescale x.startTime := by
  have long := spans.long
  rw [steady.start held, spans.endMs]
  omega

end

theorem sublist_of_mem_parts {parts : List Part} (mem : part ∈ parts) :
    part.2.Sublist (parts.flatMap Prod.snd) := by
  obtain ⟨front, back, rfl⟩ := List.append_of_mem mem
  rw [List.flatMap_append, List.flatMap_cons]
  exact (List.sublist_append_left _ _).trans (List.sublist_append_right _ _)

end Times

section Parts

variable {r : Recording} {before chosen after : List Part} {requestedEndMs : Int}

theorem start_lt_requestedEnd (steady : Steady r)
    (covers : ∀ part ∈ chosen, Covers r.startedAtMs part)
    (frames : (chosen.flatMap Prod.snd).Sublist r.video)
    (ends : ∀ part ∈ chosen.getLast?, partEndMs part ≤ requestedEndMs) {x : Sample}
    (mem : x ∈ chosen.flatMap Prod.snd) :
    absoluteMs r.startedAtMs videoTimescale x.startTime < requestedEndMs := by
  have some : chosen ≠ [] := by
    rintro rfl
    cases mem
  obtain ⟨last, last_held⟩ := Option.isSome_iff_exists.mp (List.getLast?_isSome.mpr some)
  have requested := ends last last_held
  obtain ⟨front, rfl⟩ := List.getLast?_eq_some_iff.mp last_held
  have last_mem : last ∈ front ++ [last] := List.mem_append_right _ (List.mem_singleton_self _)
  obtain ⟨start, stop, spans⟩ := spans_of_covers steady
    ((sublist_of_mem_parts last_mem).trans frames) (covers last last_mem)
  have held := frames.subset mem
  have ordered := steady.ordered.sublist frames
  rw [List.flatMap_append, List.flatMap_singleton] at mem ordered
  rcases List.mem_append.mp mem with mem | mem
  · obtain ⟨first, first_mem, same⟩ := spans.first
    have before := (List.pairwise_append.mp ordered).2.2 x mem first first_mem
    have long := spans.long
    have : x.startTime / 90 ≤ start / 90 := Nat.div_le_div_right (by omega)
    rw [steady.start held]
    rw [spans.endMs] at requested
    omega
  · have := (spans.own steady held mem).1
    omega

theorem separable_of_steady (steady : Steady r)
    (video : r.video = (before ++ chosen ++ after).flatMap Prod.snd)
    (covers : ∀ part ∈ chosen, Covers r.startedAtMs part)
    (ends : ∀ part ∈ chosen.getLast?, partEndMs part ≤ requestedEndMs) :
    Separable r before chosen requestedEndMs := by
  rw [List.flatMap_append, List.flatMap_append, List.append_assoc] at video
  have inner : (chosen.flatMap Prod.snd).Sublist r.video := by
    rw [video]
    exact (List.sublist_append_left _ _).trans (List.sublist_append_right _ _)
  have spans : ∀ part ∈ chosen, ∃ start stop, Spans r.startedAtMs part start stop :=
    fun part mem => spans_of_covers steady ((sublist_of_mem_parts mem).trans inner)
      (covers part mem)
  have ordered := steady.ordered
  rw [video] at ordered
  obtain ⟨_, later, first_ordered⟩ := List.pairwise_append.mp ordered
  obtain ⟨_, _, last_ordered⟩ := List.pairwise_append.mp later
  refine ⟨fun place sample found => ?_, ?_⟩
  · have held := List.mem_of_getElem? found
    rw [video] at found
    constructor
    · rintro ⟨part, mem, below, above⟩
      obtain ⟨start, stop, span⟩ := spans part mem
      have part_inner := (sublist_of_mem_parts mem).subset
      constructor
      · by_contra early
        rw [List.getElem?_append_left (Nat.not_le.mp early)] at found
        obtain ⟨first, first_mem, same⟩ := span.first
        have := span.earlier steady held (same ▸ first_ordered sample (List.mem_of_getElem? found)
          first (List.mem_append_left _ (part_inner first_mem)))
        omega
      · by_contra late
        have beyond := Nat.not_lt.mp late
        unfold frames at beyond
        rw [List.getElem?_append_right (by omega), List.getElem?_append_right (by omega)] at found
        obtain ⟨last, last_mem, same⟩ := span.last
        have := span.later steady held (same ▸ last_ordered last (part_inner last_mem) sample
          (List.mem_of_getElem? found))
        omega
    · rintro ⟨low, high⟩
      unfold frames at low high
      rw [List.getElem?_append_right low, List.getElem?_append_left (by omega)] at found
      have mem := List.mem_of_getElem? found
      obtain ⟨part, part_mem, own⟩ := List.mem_flatMap.mp mem
      obtain ⟨start, stop, span⟩ := spans part part_mem
      obtain ⟨below, above⟩ := span.own steady held own
      exact ⟨part, part_mem, lt_min below (start_lt_requestedEnd steady covers inner ends
        mem), above⟩
  · refine (steady.ordered.sublist inner).imp_of_mem fun mem next_mem before => ?_
    have long := steady.long _ (inner.subset mem)
    rw [steady.start (inner.subset mem), steady.start (inner.subset next_mem)]
    omega

end Parts

section Exports

variable {Location : Type} [DecidableEq Location]

/-- An export of consecutive fragments of a recording is exact, under every sort,
exactly when its frames can be told apart in whole milliseconds, and so is the browser
copy when no two samples of a track share one. Frames that last two milliseconds
can. -/
theorem export_is_exact_iff (format : Format MediaConfig) (limit : Nat → Nat)
    (suits : Suits format limit) (writerFormat : Format MediaConfig) (parser : MediumTerm.Parser)
    (recording : Recording) (produced : Produced writerFormat parser recording)
    (clock : recording.startedAtMs ≤ i64Max) (source : Source recording)
    (encodes : Encodes format source) (read : Location → Except Error (List SourceTrack))
    (location : Location) (reads : read location = .ok source.tracks) (id : String)
    (before chosen after : List Part) (parts : recording.parts = before ++ chosen ++ after)
    (some : chosen ≠ []) (requestedEndMs : Int)
    (ends : ∀ part ∈ chosen.getLast?, partEndMs part ≤ requestedEndMs)
    (exportRoom : ∀ order : Order Location, order.Lawful → ExportRoom format limit order read
      (catalogFragments id location recording.startedAtMs chosen) requestedEndMs)
    (copyRoom : ∀ order : Order Location, order.Lawful → CopyRoom format limit order source) :
    (Exact format source read id location before chosen requestedEndMs ↔
      Separable recording before chosen requestedEndMs) ∧
    (Whole Location format source ↔ Apart videoTimescale recording.video ∧
      ∀ track ∈ source.audio, Apart source.frequency (track.samples.map Prod.snd)) ∧
    (Steady recording → Separable recording before chosen requestedEndMs) := by
  obtain ⟨video, covers⟩ := produced.parts
  rw [parts] at video covers
  have chosen_covers : ∀ part ∈ chosen, Covers recording.startedAtMs part := fun part mem =>
    covers part (List.mem_append_left _ (List.mem_append_right _ mem))
  obtain ⟨first, rest, rfl⟩ := List.exists_cons_of_ne_nil some
  have frame : source.video.samples ≠ [] := by
    obtain ⟨head, tail, held, _⟩ := chosen_head source video
      (chosen_covers first List.mem_cons_self)
    have mem : head ∈ source.chosen before (first :: rest) := by
      rw [held]
      exact List.mem_cons_self
    exact List.ne_nil_of_mem (Source.chosen_part.subset mem)
  refine ⟨⟨separable_of_exact frame reads video, exact_of_separable suits encodes reads clock video
    chosen_covers exportRoom⟩, ⟨apart_of_whole frame, ?_⟩,
    fun steady => separable_of_steady steady video chosen_covers ends⟩
  rintro ⟨pictures, sounds⟩
  exact whole_of_apart suits encodes frame
    (footage_of_covers (List.infix_refl _) (source.samples.trans video) covers) copyRoom
      pictures sounds

end Exports

namespace Fixture

open MediumTerm.Fixture (parser faultless)
open MediumTerm (MediumTermWriter Reached)

def run (frames : List Storage.RecordingFrame) : MediumTermWriter × List Part :=
  frames.foldl (fun state frame =>
    ((state.1.appendReceived format parser frame faultless).2, state.2 ++
      MediumTermWriter.added state.1 (state.1.appendReceived format parser frame faultless).2
        (state.1.appendReceived format parser frame faultless).2.stored))
    (MediumTermWriter.create 0 false, [])

theorem reached_run {frames : List Storage.RecordingFrame} :
    ∀ {writer : MediumTermWriter} {parts : List Part}, Reached format parser writer parts →
      AllSteps (fun writer frame => (writer.appendReceived format parser frame faultless).2)
      (fun writer frame => (writer.appendReceived format parser frame faultless).1.isOk) writer
      frames →
      let state := frames.foldl (fun state frame =>
        let after := (state.1.appendReceived format parser frame faultless).2
        (after, state.2 ++ MediumTermWriter.added state.1 after after.stored)) (writer, parts)
      Reached format parser state.1 state.2 := by
  induction frames with
  | nil => exact fun reached _ => reached
  | cons frame rest ih =>
    rintro writer parts reached ⟨accepted, remaining⟩
    cases answer : (writer.appendReceived format parser frame faultless).1 with
    | error error =>
      rw [answer] at accepted
      cases accepted
    | ok duration => exact ih (.appendReceived reached (Prod.ext answer rfl)) remaining

def recording (frames : List Storage.RecordingFrame) : Recording :=
  match (run frames).1.finalize format parser faultless with
  | (.ok video, after) =>
    ⟨(run frames).1.startedAtMs, video,
      (run frames).2 ++ MediumTermWriter.added (run frames).1 after video⟩
  | (.error _, _) => ⟨0, [], []⟩

theorem produced {frames : List Storage.RecordingFrame}
    (accepted : AllSteps (fun writer frame =>
      (writer.appendReceived format parser frame faultless).2)
      (fun writer frame => (writer.appendReceived format parser frame faultless).1.isOk)
      (MediumTermWriter.create 0 false) frames)
    (ended : ((run frames).1.finalize format parser faultless).1.isOk) :
    Produced format parser (recording frames) := by
  have reached : Reached format parser (run frames).1 (run frames).2 :=
    reached_run (.create 0 false) accepted
  unfold recording
  split
  · rename_i video after finalized
    exact .finalize reached finalized
  · rename_i error after finalized
    rw [finalized] at ended
    cases ended

def track (frames : List Storage.RecordingFrame) : SourceTrack :=
  { video with samples := (recording frames).video.map fun sample => (1, sample) }

def readRecording (frames : List Storage.RecordingFrame) : Nat → Except Error (List SourceTrack) :=
  fun _ => .ok [track frames]

def whole (frames : List Storage.RecordingFrame) : List (CatalogMediaFragment Nat) :=
  catalogFragments "recording" 0 (recording frames).startedAtMs (recording frames).parts

def short : List Storage.RecordingFrame :=
  [MediumTerm.Fixture.keyframe 0, MediumTerm.Fixture.delta 500000]

def long : List Storage.RecordingFrame :=
  [MediumTerm.Fixture.keyframe 0, MediumTerm.Fixture.delta 33333333]

def source : Source (recording long) where
  video := track long
  audio := none
  configs := [.avc 640 360 [] []]
  frequency := 0
  stereo := false
  samples := by decide +kernel
  timescale := rfl
  descriptions := rfl
  types := by decide
  supported := by simp
  few := by decide
  numbered := by decide +kernel
  times := by decide +kernel
  bytes := by decide +kernel
  grouped := by decide +kernel
  sound := nofun

theorem suits : Suits format fun _ => 0 := ⟨fun _ => rfl, fun _ _ => Nat.le_refl 0⟩

theorem encodes : Encodes format source := fun _ _ => ⟨_, rfl⟩

/-- What waits after each of some samples fits. -/
def fits (step : Output → ExportSample → Except Error Output) (samples : List ExportSample)
    (output : Output) : Bool :=
  (List.range (samples.length + 1)).all fun count =>
    match (samples.take count).foldlM step output with
    | .ok reached => decide (FragmentedMp4Writer.Room (fun _ => 0) reached.writer)
    | .error _ => true

theorem roomy_of_fits {step : Output → ExportSample → Except Error Output}
    {xs : List ExportSample} {o : Output} (h : fits step xs o) :
    Roomy (fun _ => 0) step o xs := by
  intro front back reached split run
  have at_front := List.all_eq_true.mp h front.length (by
    rw [List.mem_range, split, List.length_append]
    omega)
  rw [split, List.take_left, run] at at_front
  exact of_decide_eq_true at_front

def collected : List ExportSample :=
  copies 0 1 source.playbackVideo 0 0 source.video.samples

theorem sorted {order : Order Nat} (lawful : order.Lawful) : order.samples collected =
    collected := by
  have one : ∀ sample ∈ collected, sample.trackId = 1 := copies_trackId
  have own : ∀ sample ∈ order.samples collected, sample.trackId = 1 := fun sample mem =>
    one sample ((lawful.samples_perm _).mem_iff.mp mem)
  have spaced : (ofTrack 1 collected).Pairwise fun left right =>
      left.absoluteMs < right.absoluteMs := by decide +kernel
  have same := ofTrack_sorted lawful spaced
  rw [ofTrack_eq_self own, ofTrack_eq_self one] at same
  exact same

theorem exportRoom (order : Order Nat) (lawful : order.Lawful) :
    ExportRoom format (fun _ => 0) order (readRecording long) (whole long) 100 := by
  intro recordings alignedStartMs deliveredEndMs tracks groups output selected found start
  obtain ⟨first, only⟩ : ∃ first, (recording long).parts = [first] :=
    List.length_eq_one_iff.mp (by decide +kernel)
  obtain ⟨_, one⟩ : ∃ deliveredEndMs, exportRecordings order (whole long) 100 =
      .ok ([selection 0 (recording long).startedAtMs 100 (recording long).parts],
        first.1.startMs, deliveredEndMs) := by
    unfold whole
    rw [only]
    exact exportRecordings_eq lawful
  have aligned : first.1.startMs = 0 := by
    have : (recording long).parts.map (fun part => part.1.startMs) = [0] := by decide +kernel
    rw [only] at this
    exact (List.cons.inj this).1
  rw [one, aligned] at selected
  cases selected
  have whole : footage (readRecording long)
      [selection 0 (recording long).startedAtMs 100 (recording long).parts] 0 =
        .ok ([source.playbackVideo], [collected]) := by decide +kernel
  rw [whole] at found
  cases found
  rw [List.flatMap_singleton, sorted lawful]
  apply roomy_of_fits
  have fitting : (Output.start format [source.playbackVideo]).map
      (fits (Output.takeSample format) collected) = .ok true := by decide +kernel
  rw [start] at fitting
  exact Except.ok.inj fitting

theorem copyRoom (order : Order Nat) (lawful : order.Lawful) :
    CopyRoom format (fun _ => 0) order source := by
  intro output start
  have all : source.all = collected := List.append_nil _
  rw [all, sorted lawful]
  apply roomy_of_fits
  have fitting : (Output.start format source.playback).map
      (fits (Output.putSample format) collected) = .ok true := by decide +kernel
  rw [start] at fitting
  exact Except.ok.inj fitting

theorem steady : Steady (recording long) :=
  ⟨by decide +kernel, by decide +kernel, by decide +kernel⟩

end Fixture

open Fixture

theorem export_is_exact_iff_of_two :
    Produced format MediumTerm.Fixture.parser (recording long) ∧
      Exact format source (readRecording long) "recording" 0 [] (recording long).parts 100 ∧
      Whole Nat format source := by
  have produced : Produced format MediumTerm.Fixture.parser
      (recording long) := produced (by decide +kernel) (by decide +kernel)
  obtain ⟨exact, whole, separable⟩ := export_is_exact_iff format (fun _ => 0) suits
    format MediumTerm.Fixture.parser (recording long) produced
    (by decide +kernel) source encodes (readRecording long) 0 rfl
    "recording" [] (recording long).parts [] (List.append_nil _).symm
    (by decide +kernel) 100 (by decide +kernel) exportRoom copyRoom
  refine ⟨produced, exact.mpr (separable steady), whole.mpr ⟨?_, nofun⟩⟩
  unfold Apart
  decide +kernel

/-- The keyframe ends in the millisecond it starts in, is left out, and the export
fails. -/
theorem short_keyframe_fails_the_export :
    Produced format MediumTerm.Fixture.parser (recording short) ∧
    (recording short).parts.map (fun part => (part.1.startMs, part.1.durationMs,
      part.2.map fun sample => (sample.startTime, sample.duration))) =
        [(0, 1, [(0, 45), (45, 45)])] ∧
    (exportFragmentRanges format stableOrder (readRecording short) (whole short) 1).map
      (fun _ => ()) =
      .error
        (.mp4 (.invalidData "fragmented MP4 video fragment must start with a sync sample")) := by
  refine ⟨produced (by decide +kernel) (by decide +kernel), by decide +kernel, ?_⟩
  decide +kernel

end KeepPeek.Playback
