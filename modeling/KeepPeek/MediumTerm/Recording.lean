import KeepPeek.MediumTerm.Deadline
import Mathlib.Data.List.Chain

/-! What a finished recording is: its video is that of its fragments, one after the
other, and the catalog gives every fragment the times of its video. -/
namespace KeepPeek.MediumTerm

open Lib
open Mp4 (FragmentedMp4Writer Format Sample FragmentInfo u32Max)
open Storage (VideoFrame AudioFrame MediaFrame RecordingFrame)
open Mp4.FragmentedMp4Writer

/-- The samples of one fragment: they begin with a keyframe and follow each other
without a gap, up to a time. -/
structure Gapless (samples : List Sample) (stop : Nat) : Prop where
  chain : samples.IsChain fun sample next => sample.startTime + sample.duration = next.startTime
  durations : ∀ sample ∈ samples, 0 < sample.duration ∧ sample.duration ≤ u32Max
  first : ∀ sample ∈ samples.head?, sample.isSync
  last : ∀ sample ∈ samples.getLast?, sample.startTime + sample.duration = stop

theorem startTime_le_of_chain {first : Sample} {rest : List Sample} {stop : Nat}
    (chain : (first :: rest).IsChain fun sample next => sample.startTime + sample.duration =
      next.startTime)
    (last : ∀ sample ∈ (first :: rest).getLast?, sample.startTime + sample.duration = stop) :
    first.startTime ≤ stop := by
  induction rest generalizing first with
  | nil =>
    have ends := last first rfl
    omega
  | cons next rest ih =>
    obtain ⟨follows, chain⟩ := List.isChain_cons_cons.mp chain
    have later := ih chain last
    omega

theorem Gapless.close {front : List Sample} {last : Sample} {stop next : Nat}
    (gapless : Gapless (front ++ [last]) stop) (later : last.startTime < next)
    (near : next - last.startTime ≤ u32Max) :
    Gapless (front ++ [{ last with duration := next - last.startTime }]) next := by
  refine ⟨?_, ?_, ?_, ?_⟩
  · have chain := List.isChain_append.mp gapless.chain
    refine List.isChain_append.mpr ⟨chain.1, List.isChain_singleton _, ?_⟩
    intro sample held first same
    cases same
    exact chain.2.2 sample held last rfl
  · intro sample mem
    rcases List.mem_append.mp mem with mem | mem
    · exact gapless.durations sample (List.mem_append_left _ mem)
    · rw [List.mem_singleton.mp mem]
      exact ⟨by dsimp only; omega, near⟩
  · intro sample held
    cases front with
    | nil =>
      cases held
      exact gapless.first last rfl
    | cons first rest => exact gapless.first sample held
  · intro sample held
    rw [List.getLast?_concat] at held
    cases held
    dsimp only
    omega

theorem Gapless.push {xs : List Sample} {x : Sample}
    (gapless : xs ≠ [] → Gapless xs x.startTime)
    (sync : xs = [] → x.isSync) (positive : 0 < x.duration)
    (near : x.duration ≤ u32Max) :
    Gapless (xs ++ [x]) (x.startTime + x.duration) := by
  by_cases empty : xs = []
  · subst empty
    refine ⟨List.isChain_singleton _, ?_, ?_, ?_⟩
    · intro only mem
      rw [List.mem_singleton.mp mem]
      exact ⟨positive, near⟩
    · intro only held
      cases held
      exact sync rfl
    · intro only held
      cases held
      rfl
  · have gapless := gapless empty
    refine ⟨?_, ?_, ?_, ?_⟩
    · refine List.isChain_append.mpr ⟨gapless.chain, List.isChain_singleton _, ?_⟩
      intro before held next same
      cases same
      exact gapless.last before held
    · intro other mem
      rcases List.mem_append.mp mem with mem | mem
      · exact gapless.durations other mem
      · rw [List.mem_singleton.mp mem]
        exact ⟨positive, near⟩
    · intro first held
      cases xs with
      | nil => exact absurd rfl empty
      | cons head rest => exact gapless.first first held
    · intro last held
      rw [List.getLast?_concat] at held
      cases held
      rfl

namespace ActiveWriter

variable {f : Format MediaConfig} {parser : Parser} {a after : ActiveWriter}
variable {samples : List Sample} {stop : Nat} {faults : Faults} {video : VideoFrame}

structure Sound (active : ActiveWriter) : Prop where
  video : ∀ track ∈ active.writer.track videoTrack, track.trackType = .video
  audio : ∀ track ∈ active.audioTrack, track = 2
  bounded : active.lastVideoDuration ≤ u32Max
  none : active.pendingVideo = [] → active.fragmentStartDts = none
  start : ∀ first ∈ active.pendingVideo.head?, active.fragmentStartDts = some first.startTime
  last : ∀ last ∈ active.pendingVideo.getLast?,
    active.lastVideoDts = some last.startTime ∧ active.lastVideoDuration = last.duration
  gapless : active.pendingVideo ≠ [] → ∃ stop, Gapless active.pendingVideo stop

theorem gapless_closed {closed : List Sample} {next : Nat} {message : String}
    (gapless : Gapless samples stop)
    (h : FragmentedMp4Writer.closeLast samples next message = .ok closed) :
    Gapless closed next := by
  rcases closeLast_eq_ok h with ⟨rfl, rfl⟩ | ⟨front, last, rfl, later, near, rfl⟩
  · exact ⟨gapless.chain, gapless.durations, gapless.first, nofun⟩
  · exact gapless.close later near

structure Closes (active after : ActiveWriter) (dts : Nat) (completed : Completed) : Prop where
  stored : ∃ samples, after.stored = active.stored ++ samples ∧ samples ≠ [] ∧ Gapless samples dts ∧
    ∀ first ∈ samples.head?, completed.startDts = first.startTime
  stop : completed.endDts = dts

theorem Closes.start_le {completed : Completed} (closes : Closes a after stop completed) :
    completed.startDts ≤ completed.endDts := by
  obtain ⟨samples, _, some, gapless, start⟩ := closes.stored
  obtain ⟨first, rest, rfl⟩ := List.exists_cons_of_ne_nil some
  rw [start first rfl, closes.stop]
  exact startTime_le_of_chain gapless.chain gapless.last

theorem closedAt_ne_nil (h : samples ≠ []) (stop : Nat) : closedAt samples stop ≠ [] := by
  unfold closedAt
  rcases List.eq_nil_or_concat samples with none | ⟨front, last, rfl⟩
  · exact absurd none h
  · rw [List.concat_eq_append, List.getLast?_concat]
    simp

theorem head?_closedAt (stop : Nat) :
    (closedAt samples stop).head?.map Sample.startTime = samples.head?.map Sample.startTime := by
  unfold closedAt
  rcases List.eq_nil_or_concat samples with rfl | ⟨front, last, rfl⟩
  · rfl
  rw [List.concat_eq_append, List.getLast?_concat]
  dsimp only
  rw [List.dropLast_concat]
  cases front with
  | nil => rfl
  | cons first rest => rfl

/-- The video that waits, and where its fragment begins, before a sample is written. -/
structure Awaits (active : ActiveWriter) (dts : Nat) : Prop where
  video : ∀ track ∈ active.writer.track videoTrack, track.trackType = .video
  audio : ∀ track ∈ active.audioTrack, track = 2
  none : active.pendingVideo = [] → active.fragmentStartDts.getD dts = dts
  start : ∀ first ∈ active.pendingVideo.head?, active.fragmentStartDts = some first.startTime
  gapless : active.pendingVideo ≠ [] → ∃ stop, Gapless active.pendingVideo stop

theorem writeVideoSample_sound {dts fallback duration : Nat} (awaits : a.Awaits dts)
    (positive : 0 < fallback) (near : fallback ≤ u32Max)
    (h : a.writeVideoSample video dts fallback = (.ok duration, after)) :
    after.Sound ∧ after.stored = a.stored ∧ after.fragmentStartDts =
      some (a.fragmentStartDts.getD dts) := by
  unfold writeVideoSample at h
  dsimp only at h
  split at h
  · cases h
  rename_i writer wrote
  cases h
  obtain ⟨track, samples, found, closed, rfl, _, sync⟩ := writeSample_eq_ok wrote
  have held := track_setTrack_self found { track with
    samples := samples ++ [⟨dts, sampleDuration a.lastVideoDts dts fallback, 0,
      video.isKeyframe, video.data⟩]
    pendingSampleDescriptionIndex := some a.videoSampleDescriptionIndex }
  have waiting := pendingVideo_eq found
  have times : samples.head?.map Sample.startTime = a.pendingVideo.head?.map Sample.startTime := by
    rw [waiting, ← closedAt_of_closeLast closed]
    exact head?_closedAt dts
  have empty := closeLast_eq_nil closed
  have grown : Gapless (samples ++ [⟨dts, sampleDuration a.lastVideoDts dts fallback, 0,
      video.isKeyframe, video.data⟩]) (dts + sampleDuration a.lastVideoDts dts fallback) := by
    apply Gapless.push
    · intro some
      obtain ⟨stop, gapless⟩ := awaits.gapless (by
        rw [waiting]
        exact fun none => some (empty.mpr none))
      rw [waiting] at gapless
      exact gapless_closed gapless closed
    · intro none
      exact sync (awaits.video track found) (empty.mp none)
    · exact sampleDuration_pos _ _ positive
    · exact sampleDuration_le _ _ near
  refine ⟨⟨?_, awaits.audio, sampleDuration_le _ _ near, ?_, ?_, ?_, ?_⟩, rfl, rfl⟩
  · intro other other_held
    rw [held] at other_held
    cases other_held
    exact awaits.video track found
  all_goals rw [pendingVideo_eq held]
  · intro none
    simp at none
  · intro first first_held
    cases samples with
    | nil =>
      cases first_held
      exact congrArg some (awaits.none (waiting.trans (empty.mp rfl)))
    | cons head rest =>
      cases first_held
      rw [List.head?_cons, Option.map_some] at times
      obtain ⟨old, old_held, start⟩ := Option.map_eq_some_iff.mp times.symm
      dsimp only
      rw [awaits.start old old_held, Option.getD_some, start]
  · intro last last_held
    rw [List.getLast?_concat] at last_held
    cases last_held
    exact ⟨rfl, rfl⟩
  · intro _
    exact ⟨_, grown⟩

section

variable (sound : a.Sound)
include sound

theorem closes_of_flush {startDts : Nat} (started : a.fragmentStartDts = some startDts)
    {fragment : Option FragmentInfo}
    (h : a.flushFragmentBeforeSample f stop faults = (.ok fragment, after)) :
    ∃ info, fragment = some info ∧ Closes a after stop ⟨info, startDts, stop⟩ := by
  obtain ⟨same, _, _, some, message, closed⟩ := flushFragmentBeforeSample_eq_ok h
  have waits : a.pendingVideo ≠ [] := by
    intro none
    rw [sound.none none] at started
    cases started
  obtain ⟨info, rfl⟩ := Option.isSome_iff_exists.mp (some waits)
  obtain ⟨open_stop, gapless⟩ := sound.gapless waits
  refine ⟨info, rfl, ⟨closedAt a.pendingVideo stop, congrArg ActiveWriter.stored same,
    closedAt_ne_nil waits stop, gapless_closed gapless closed, ?_⟩, rfl⟩
  intro first held
  have times : (closedAt a.pendingVideo stop).head?.map Sample.startTime = _ :=
    head?_closedAt stop
  rw [Option.mem_def.mp held, Option.map_some] at times
  obtain ⟨head, head_held, start⟩ := Option.map_eq_some_iff.mp times.symm
  rw [sound.start head head_held] at started
  cases started
  exact start

/-- The fragment that a keyframe ends. Where it ends none, nothing changes. -/
theorem completeFragment_eq_ok {dts : Nat} {completed : Option Completed}
    (h : a.completeFragment f video dts faults = (.ok completed, after)) :
    (completed = none ∧ after = a) ∨
      ∃ fragment, completed = some fragment ∧ Closes a after dts fragment ∧
        (video.isKeyframe ∧ a.writer.hasPendingSamples) ∧
        a.fragmentStartDts = some fragment.startDts ∧
        after = { a with
          writer := after.writer, stored := after.stored, fragmentStartDts := some dts } ∧
        after.pendingVideo = [] ∧
        ∀ track ∈ after.writer.track videoTrack, track.trackType = .video := by
  unfold completeFragment at h
  split at h
  · rename_i ending
    rw [Bool.and_eq_true] at ending
    split at h
    · cases h
    rename_i startDts started
    obtain ⟨fragment, flushed, flush, h⟩ := andThen_eq_ok h
    cases h
    obtain ⟨same, nothing, types, _⟩ := flushFragmentBeforeSample_eq_ok flush
    obtain ⟨info, rfl, closes⟩ := closes_of_flush sound started flush
    refine .inr ⟨⟨info, startDts, dts⟩, rfl, ⟨closes.stored, closes.stop⟩, ending, started, ?_,
      pendingVideo_eq_nil nothing, ?_⟩
    · rw [same]
    · intro track held
      obtain ⟨before, before_held, type⟩ := types track held
      exact type.trans (sound.video before before_held)
  · cases h
    exact .inl ⟨rfl, rfl⟩

theorem writeVideo_sound {camera : Nat} {answer : Nat × Option Completed}
    (h : a.writeVideo f parser video camera faults = (.ok answer, after)) :
    after.Sound ∧ ((answer.2 = none ∧ after.stored = a.stored ∧
        ∀ start ∈ a.fragmentStartDts, after.fragmentStartDts = some start) ∨
      ∃ fragment, answer.2 = some fragment ∧ (video.isKeyframe ∧ a.writer.hasPendingSamples) ∧
        Closes a after (resolveVideoDts a.lastVideoDts camera (max a.lastVideoDuration 1))
          fragment ∧
        a.fragmentStartDts = some fragment.startDts ∧
        after.fragmentStartDts = some fragment.endDts) := by
  unfold writeVideo at h
  dsimp only at h
  obtain ⟨completed, second, completing, h⟩ := andThen_eq_ok h
  obtain ⟨_, third, selecting, h⟩ := andThen_eq_ok h
  obtain ⟨duration, fourth, writing, h⟩ := andThen_eq_ok h
  cases h
  obtain ⟨waiting, types, audio, _, _, start, stored⟩ := selectDescription_eq_ok selecting
  have positive : 0 < max a.lastVideoDuration 1 := by omega
  have near : max a.lastVideoDuration 1 ≤ u32Max := by
    have := sound.bounded
    unfold u32Max at this ⊢
    omega
  rcases completeFragment_eq_ok sound completing with ⟨none, rfl⟩ |
    ⟨fragment, some, closes, key, started, same, empty, video_types⟩
  · have awaits : third.Awaits (resolveVideoDts second.lastVideoDts camera
        (max second.lastVideoDuration 1)) := by
      refine ⟨?_, ?_, ?_, ?_, ?_⟩
      · intro track held
        obtain ⟨before, before_held, type⟩ := types track held
        exact type.trans (sound.video before before_held)
      · rw [audio]
        exact sound.audio
      · rw [waiting, start]
        intro none
        rw [sound.none none]
        rfl
      · rw [waiting, start]
        exact sound.start
      · rw [waiting]
        exact sound.gapless
    obtain ⟨sound, kept, begun⟩ := writeVideoSample_sound awaits positive near writing
    refine ⟨sound, .inl ⟨none, kept.trans stored, ?_⟩⟩
    intro first held
    rw [begun, start, Option.mem_def.mp held, Option.getD_some]
  · have awaits : third.Awaits (resolveVideoDts a.lastVideoDts camera
        (max a.lastVideoDuration 1)) := by
      refine ⟨?_, ?_, ?_, ?_, ?_⟩
      · intro track held
        obtain ⟨before, before_held, type⟩ := types track held
        exact type.trans (video_types before before_held)
      · rw [audio, same]
        exact sound.audio
      · intro _
        rw [start, same]
        rfl
      · rw [waiting, empty]
        nofun
      · rw [waiting, empty]
        intro some
        exact absurd rfl some
    obtain ⟨sound, kept, begun⟩ := writeVideoSample_sound awaits positive near writing
    obtain ⟨samples, grown, rest⟩ := closes.stored
    refine ⟨sound, .inr ⟨fragment, some, key, ⟨⟨samples, (kept.trans stored).trans grown, rest⟩,
      closes.stop⟩, started, ?_⟩⟩
    rw [begun, start, same, closes.stop]
    rfl

theorem writeAudio_sound {audio : AudioFrame} {raw : List UInt8} {camera : Option Nat}
    {elapsed : Nat} (h : a.writeAudio 2 audio raw camera elapsed = (.ok (), after)) :
    after.Sound ∧ after.stored = a.stored ∧ after.fragmentStartDts = a.fragmentStartDts := by
  obtain ⟨container, same, next, rfl⟩ := writeAudio_eq_ok h
  have waiting : pendingVideo { a with writer := container, nextAudioDts := next } =
      a.pendingVideo := by
    unfold pendingVideo
    dsimp only
    rw [same]
  refine ⟨⟨?_, sound.audio, sound.bounded, ?_, ?_, ?_, ?_⟩, rfl, rfl⟩
  · rw [same]
    exact sound.video
  all_goals rw [waiting]
  · exact sound.none
  · exact sound.start
  · exact sound.last
  · exact sound.gapless

theorem discardPending_sound : a.discardPending.Sound := by
  have cleared : a.writer.discardPendingSamples.track videoTrack = _ :=
    track_discardPendingSamples videoTrack
  have empty : a.discardPending.pendingVideo = [] := by
    unfold pendingVideo ActiveWriter.discardPending
    dsimp only
    rw [cleared]
    cases a.writer.track videoTrack with
    | none => rfl
    | some track => rfl
  refine ⟨?_, sound.audio, sound.bounded, fun _ => rfl, ?_, ?_, ?_⟩
  · intro track held
    unfold ActiveWriter.discardPending at held
    dsimp only at held
    rw [cleared] at held
    obtain ⟨before, before_held, rfl⟩ := Option.map_eq_some_iff.mp held
    exact sound.video before before_held
  all_goals rw [empty]
  · nofun
  · nofun
  · exact fun some => absurd rfl some

end

end ActiveWriter

open ActiveWriter

abbrev Part := CatalogFragment × List Sample

def Covers (startedAtMs : Int) (part : Part) : Prop :=
  ∃ first rest stop, part.2 = first :: rest ∧ Gapless (first :: rest) stop ∧
    part.1.startMs = min (startedAtMs + min (ticksToMillis first.startTime videoTimescale)
      (2 ^ 63 - 1)) (2 ^ 63 - 1) ∧
    part.1.durationMs =
      max (ticksToMillis (min stop u64Max - first.startTime) videoTimescale) 1

def timeOf (startedAtMs : Int) (dts : Nat) : Int :=
  min (startedAtMs + min (ticksToMillis dts videoTimescale) (2 ^ 63 - 1)) (2 ^ 63 - 1)

def CatalogFragment.Meets (fragment : CatalogFragment) (moment : Int) : Prop :=
  fragment.startMs ≤ moment ∧ moment ≤ fragment.startMs + fragment.durationMs + 1

/-- Fragments one behind the other, up to where the next one begins. -/
structure Joined (startedAtMs : Int) (fragments : List CatalogFragment) (next : Option Nat) :
    Prop where
  chain : fragments.IsChain fun fragment next => fragment.Meets next.startMs
  next : ∀ last ∈ fragments.getLast?, ∃ dts, next = some dts ∧ last.Meets (timeOf startedAtMs dts)

theorem Joined.mono {startedAtMs : Int} {fragments : List CatalogFragment} {next next' : Option Nat}
    (joined : Joined startedAtMs fragments next) (same : ∀ dts ∈ next, next' = some dts) :
    Joined startedAtMs fragments next' := by
  refine ⟨joined.chain, ?_⟩
  intro last held
  obtain ⟨dts, rfl, meets⟩ := joined.next last held
  exact ⟨dts, same dts rfl, meets⟩

namespace MediumTermWriter

variable {f : Format MediaConfig} {parser : Parser} {w after : MediumTermWriter}
variable {parts new : List Part} {a : ActiveWriter} {faults : Faults} {fr : RecordingFrame}
  {video : List Sample}

def stored (writer : MediumTermWriter) : List Sample :=
  match writer.state with
  | .active active => active.stored
  | _ => []

def added (writer after : MediumTermWriter) (stored : List Sample) : List Part :=
  (after.catalogued.drop writer.catalogued.length).map fun fragment =>
    (fragment, stored.drop writer.stored.length)

def Prepared (frames : List RecordingFrame) : Prop :=
  ∀ frame ∈ frames.tail, frame.isVideoKeyframe = false

structure Holding (writer : MediumTermWriter) (parts : List Part) : Prop where
  catalogued : writer.catalogued = parts.map Prod.fst
  stored : writer.stored = parts.flatMap Prod.snd
  covers : ∀ part ∈ parts, Covers writer.startedAtMs part
  active : ∀ active, writer.state = .active active → active.Sound
  prepared : ∀ frames, writer.state = .preparing frames → Prepared frames

/-- The call entered at most one fragment, and none without a keyframe. -/
structure Extends (writer after : MediumTermWriter) (parts new : List Part) : Prop where
  holding : after.Holding (parts ++ new)
  few : new.length ≤ 1
  started : after.startedAtMs = writer.startedAtMs

theorem Holding.added (before : w.Holding parts) (h : Extends w after parts new) :
    added w after after.stored = new := by
  unfold MediumTermWriter.added
  rw [h.holding.catalogued, before.catalogued, h.holding.stored, before.stored, List.map_append,
    List.flatMap_append, List.drop_left, List.drop_left]
  cases new with
  | nil => rfl
  | cons part rest =>
    cases rest with
    | nil => simp
    | cons other rest =>
      have := h.few
      simp at this

theorem stored_of_active (state : w.state = .active a) : w.stored = a.stored := by
  unfold stored
  rw [state]

theorem covers_of_closes (w : MediumTermWriter) {active' : ActiveWriter} {dts : Nat}
    {completed : Completed} (closes : ActiveWriter.Closes a active' dts completed)
    (bound : dts ≤ u64Max) :
    ∃ samples, active'.stored = a.stored ++ samples ∧
      Covers w.startedAtMs (w.catalogFragment completed, samples) := by
  obtain ⟨samples, stored, some, gapless, start⟩ := closes.stored
  refine ⟨samples, stored, ?_⟩
  cases samples with
  | nil => exact absurd rfl some
  | cons first rest =>
    have begins := start first rfl
    refine ⟨first, rest, dts, rfl, gapless, ?_, ?_⟩
    · unfold catalogFragment
      rw [begins]
    · unfold catalogFragment
      rw [begins, closes.stop, Nat.min_eq_left bound]

theorem resolveVideoDts_le {previous : Option Nat} {camera fallback : Nat} (h : camera ≤ u64Max) :
    resolveVideoDts previous camera fallback ≤ u64Max := by
  unfold resolveVideoDts
  split
  · exact h
  · split
    · exact h
    · exact Nat.min_le_right _ _

def nextStart (writer : MediumTermWriter) : Option Nat :=
  match writer.state with
  | .active active => active.fragmentStartDts
  | _ => none

def Unbroken (writer : MediumTermWriter) : Prop :=
  Joined writer.startedAtMs writer.catalogued writer.nextStart

theorem unbroken_iff (state : w.state = .active a) : w.Unbroken ↔
    Joined w.startedAtMs w.catalogued a.fragmentStartDts := by
  unfold Unbroken nextStart
  rw [state]

theorem chain_push {fragments : List CatalogFragment} {completed : Completed}
    (joined : Joined w.startedAtMs fragments (some completed.startDts)) :
    (fragments ++ [w.catalogFragment completed]).IsChain fun fragment next =>
      fragment.Meets next.startMs := by
  refine List.isChain_append.mpr ⟨joined.chain, List.isChain_singleton _, ?_⟩
  intro last held first first_held
  obtain ⟨dts, begins, meets⟩ := joined.next last held
  cases begins
  cases first_held
  exact meets

/-- The times are rounded down, and the time between them once more. -/
theorem meets_end {completed : Completed} (w : MediumTermWriter)
    (later : completed.startDts ≤ completed.endDts) :
    (w.catalogFragment completed).Meets (timeOf w.startedAtMs completed.endDts) := by
  simp only [CatalogFragment.Meets, catalogFragment, timeOf, ticksToMillis, videoTimescale]
  omega

theorem Holding.extends_nil (holding : w.Holding parts) {active' : ActiveWriter}
    (state : w.state = .active a) (now : after.state = .active active')
    (sound : active'.Sound) (stored : active'.stored = a.stored)
    (catalogued : after.catalogued = w.catalogued)
    (started : after.startedAtMs = w.startedAtMs) : Extends w after parts [] := by
  refine ⟨⟨?_, ?_, ?_, ?_, ?_⟩, Nat.zero_le 1, started⟩
  · rw [catalogued, List.append_nil, holding.catalogued]
  · rw [stored_of_active now, stored, List.append_nil, ← holding.stored, stored_of_active state]
  · rw [List.append_nil, started]
    exact holding.covers
  · intro other held
    rw [now] at held
    cases held
    exact sound
  · intro frames held
    rw [now] at held
    cases held

theorem Holding.writeFrame (holding : w.Holding parts) (state : w.state = .active a)
    (h : w.writeFrame f parser fr faults = (.ok (), after)) :
    ∃ new, Extends w after parts new ∧
      (fr.isVideoKeyframe = false ∨ a.writer.hasPendingSamples = false → new = []) ∧
      (w.Unbroken → after.Unbroken) ∧ ∃ active', after.state = .active active' := by
  have sound := holding.active a state
  unfold MediumTermWriter.writeFrame at h
  rw [state] at h
  cases origin : w.segmentOrigin with
  | none =>
    rw [origin] at h
    cases h
  | some start =>
  rw [origin] at h
  cases media : fr.frame with
  | video video =>
    rw [media] at h
    dsimp only at h
    obtain ⟨answer, active', written, inserted⟩ := writeVideoFrame_eq_ok h
    obtain ⟨sound', ended⟩ := writeVideo_sound sound written
    have now : after.state = .active active' := by rw [inserted]; rfl
    have started : after.startedAtMs = w.startedAtMs := by rw [inserted]; rfl
    rw [unbroken_iff state, unbroken_iff now, started]
    rcases ended with ⟨none, same, goes⟩ | ⟨fragment, some, key, closes, begun, ends⟩
    · have catalogued : after.catalogued = w.catalogued := by
        rw [inserted, none]
        exact List.append_nil _
      rw [catalogued]
      exact ⟨[], holding.extends_nil state now sound' same catalogued started, fun _ => rfl,
        fun joined => joined.mono goes, active', now⟩
    · obtain ⟨samples, grown, covers⟩ := covers_of_closes w closes
        (resolveVideoDts_le (durationToTicks_le _ _))
      have catalogued : after.catalogued = w.catalogued ++ [w.catalogFragment fragment] := by
        rw [inserted, some]
        rfl
      refine ⟨[(w.catalogFragment fragment, samples)], ⟨⟨?_, ?_, ?_, ?_, ?_⟩, Nat.le_refl 1,
        started⟩, ?_, ?_, active', now⟩
      · rw [catalogued, List.map_append, ← holding.catalogued]
        rfl
      · rw [stored_of_active now, grown, List.flatMap_append, ← holding.stored,
          stored_of_active state]
        simp
      · intro part mem
        rw [started]
        rcases List.mem_append.mp mem with mem | mem
        · exact holding.covers part mem
        · rw [List.mem_singleton.mp mem]
          exact covers
      · intro other held
        rw [now] at held
        cases held
        exact sound'
      · intro frames held
        rw [now] at held
        cases held
      · intro unended
        unfold RecordingFrame.isVideoKeyframe MediaFrame.isVideoKeyframe at unended
        rw [media] at unended
        simp [key] at unended
      · intro joined
        rw [begun] at joined
        rw [catalogued, ends]
        refine ⟨chain_push joined, ?_⟩
        intro last held
        rw [List.getLast?_concat] at held
        cases held
        exact ⟨_, rfl, meets_end w closes.start_le⟩
  | audio audio =>
    rw [media] at h
    dsimp only at h
    rcases writeAudioFrame_eq_ok h with rfl | ⟨raw, track, active', tracked, written, rfl⟩
    · exact ⟨[], holding.extends_nil state state sound rfl rfl rfl, fun _ => rfl, id, a, state⟩
    · have second := sound.audio track tracked
      subst second
      obtain ⟨sound', same, goes⟩ := writeAudio_sound sound written
      refine ⟨[], holding.extends_nil state rfl sound' same rfl rfl, fun _ => rfl, ?_, active', rfl⟩
      rw [unbroken_iff state, unbroken_iff rfl, goes]
      exact id

theorem Extends.trans {between : MediumTermWriter} (first : Extends w between parts [])
    (second : Extends between after parts new) : Extends w after parts new :=
  ⟨second.holding, second.few, second.started.trans first.started⟩

theorem Holding.writeFrames {fs : List RecordingFrame} :
    ∀ {w : MediumTermWriter} {a : ActiveWriter}, w.Holding parts → w.state = .active a →
      (∀ fr ∈ fs, fr.isVideoKeyframe = false) → writeFrames f parser faults w fs = (.ok (), after) →
      Extends w after parts [] ∧ (w.Unbroken → after.Unbroken) ∧
        ∃ active', after.state = .active active' := by
  induction fs with
  | nil =>
    intro w a holding state _ h
    cases h
    exact ⟨holding.extends_nil state state (holding.active a state) rfl rfl rfl, id, a, state⟩
  | cons fr rest ih =>
    intro w a holding state deltas h
    obtain ⟨_, between, written, h⟩ := andThen_eq_ok h
    obtain ⟨new, first, none, joins, active', now⟩ := holding.writeFrame state written
    obtain rfl := none (.inl (deltas fr List.mem_cons_self))
    have held := first.holding
    rw [List.append_nil] at held
    obtain ⟨rest, rest_joins, last⟩ :=
      ih held now (fun other mem => deltas other (List.mem_cons_of_mem _ mem)) h
    exact ⟨first.trans rest, rest_joins ∘ joins, last⟩

theorem initMp4_sound {fs : List RecordingFrame}
    (h : w.initMp4 f parser fs faults = (.ok a, after)) :
    a.Sound ∧ a.stored = [] ∧ a.writer.hasPendingSamples = false ∧ a.fragmentStartDts = none ∧
      after.catalogued = w.catalogued ∧ after.startedAtMs = w.startedAtMs := by
  obtain ⟨_, config, container, started, same, rfl⟩ := initMp4_eq_ok h
  have tracks : container.tracks = FragmentedMp4Writer.TrackConfig.start ⟨.video, [config]⟩ ::
      ((audioTrackConfig fs).map fun track => ⟨.audio, [track.config]⟩).toList.map
        FragmentedMp4Writer.TrackConfig.start := by
    unfold writeStart at started
    split at started
    · cases started
    split at started
    · cases started
    cases made : FragmentedMp4Writer.writeStart f ⟨Image.blank, 0⟩ (⟨.video, [config]⟩ ::
          ((audioTrackConfig fs).map fun track => ⟨.audio, [track.config]⟩).toList) with
    | error error =>
      rw [made] at started
      cases started
    | ok w =>
      rw [made] at started
      cases started
      exact writeStart_tracks made
  have video : container.track videoTrack =
      some (FragmentedMp4Writer.TrackConfig.start ⟨.video, [config]⟩) := by
    unfold FragmentedMp4Writer.track videoTrack
    rw [tracks]
    rfl
  have nothing : container.hasPendingSamples = false :=
    hasPendingSamples_of_start (tracks.trans (List.map_cons ..).symm)
  refine ⟨⟨?_, fun _ => audioTrack_eq, Nat.zero_le _, fun _ => rfl, ?_, ?_, ?_⟩, rfl, nothing, rfl,
    by rw [same], by rw [same]⟩
  · intro track held
    dsimp only at held
    rw [video] at held
    cases held
    rfl
  all_goals rw [pendingVideo_eq_nil nothing]
  · nofun
  · nofun
  · exact fun some => absurd rfl some

structure Finished (startedAtMs : Int) (video : List Sample) (catalogued : List CatalogFragment)
    (parts : List Part) : Prop where
  video : video = parts.flatMap Prod.snd
  catalogued : catalogued = parts.map Prod.fst
  covers : ∀ part ∈ parts, Covers startedAtMs part

theorem covers_pendingVideo (w : MediumTermWriter) (sound : a.Sound) {startDts : Nat}
    (started : a.fragmentStartDts = some startDts) (fragment : FragmentInfo) :
    Covers w.startedAtMs (w.catalogFragment
      ⟨fragment, startDts, saturatingAdd (a.lastVideoDts.getD startDts)
      a.lastVideoDuration⟩, a.pendingVideo) := by
  have waits : a.pendingVideo ≠ [] := by
    intro none
    rw [sound.none none] at started
    cases started
  obtain ⟨stop, gapless⟩ := sound.gapless waits
  obtain ⟨first, rest, shape⟩ := List.exists_cons_of_ne_nil waits
  obtain ⟨last, last_held⟩ := Option.isSome_iff_exists.mp (List.getLast?_isSome.mpr waits)
  obtain ⟨last_dts, last_duration⟩ := sound.last last last_held
  have begins := sound.start first (by rw [shape]; rfl)
  rw [started] at begins
  cases begins
  refine ⟨first, rest, stop, shape, shape ▸ gapless, rfl, ?_⟩
  have ends := gapless.last last last_held
  unfold catalogFragment saturatingAdd
  dsimp only
  rw [last_dts, Option.getD_some, last_duration, ends]

/-- The last call of a recording adds one fragment or none. -/
def Ends (writer after : MediumTermWriter) (video : List Sample) : Prop :=
  ∃ new : List Part, new.length ≤ 1 ∧ video = writer.stored ++ new.flatMap Prod.snd ∧
    after.catalogued = writer.catalogued ++ new.map Prod.fst ∧
    ∀ part ∈ new, Covers writer.startedAtMs part

section

variable (holding : w.Holding parts)
include holding

theorem Holding.activatePrepared (h : w.activatePrepared f parser faults = (.ok (), after)) :
    after.Holding parts ∧ after.startedAtMs = w.startedAtMs ∧ after.stored = w.stored ∧
      after.catalogued = w.catalogued ∧ (∀ frames, after.state ≠ .preparing frames) ∧
      (w.Unbroken → after.Unbroken) := by
  unfold MediumTermWriter.activatePrepared at h
  split at h
  · rename_i frames state
    obtain ⟨a, between, made, h⟩ := andThen_eq_ok h
    obtain ⟨sound, empty, nothing, begun, catalogued, started⟩ := initMp4_sound made
    have none : parts.flatMap Prod.snd = [] := by
      rw [← holding.stored]
      unfold MediumTermWriter.stored
      rw [state]
    have fresh : (between.withState (.active a)).Holding parts := by
      refine ⟨catalogued.trans holding.catalogued, ?_, ?_, ?_, ?_⟩
      · rw [none]
        exact empty
      · intro part mem
        rw [show (between.withState (.active a)).startedAtMs = w.startedAtMs from started]
        exact holding.covers part mem
      · intro other held
        cases held
        exact sound
      · intro frames held
        cases held
    have whole : Extends (between.withState (.active a)) after parts [] ∧
        ((between.withState (.active a)).Unbroken → after.Unbroken) ∧
        ∃ active', after.state = .active active' := by
      cases frames with
      | nil => exact fresh.writeFrames rfl (fun _ mem => by cases mem) h
      | cons first rest =>
        obtain ⟨_, second, written, h⟩ := andThen_eq_ok h
        obtain ⟨new, first_extends, none, joins, active', now⟩ := fresh.writeFrame rfl written
        obtain rfl := none (.inr nothing)
        have held := first_extends.holding
        rw [List.append_nil] at held
        obtain ⟨rest_extends, rest_joins, last⟩ := held.writeFrames now (holding.prepared _ state) h
        exact ⟨first_extends.trans rest_extends, rest_joins ∘ joins, last⟩
    obtain ⟨extends_nil, joins, active', now⟩ := whole
    have held := extends_nil.holding
    rw [List.append_nil] at held
    refine ⟨held, extends_nil.started.trans started, held.stored.trans holding.stored.symm,
      held.catalogued.trans holding.catalogued.symm, ?_, ?_⟩
    · intro frames preparing
      rw [now] at preparing
      cases preparing
    · intro unbroken
      apply joins
      unfold Unbroken nextStart at unbroken ⊢
      rw [state] at unbroken
      dsimp only [withState]
      rw [begun, catalogued, started]
      exact unbroken
  · rename_i other
    cases h
    exact ⟨holding, rfl, rfl, rfl, other, id⟩

theorem Holding.takeFrame
    (delta : ∀ frames, w.state = .preparing frames → fr.isVideoKeyframe = false)
    (h : w.takeFrame f parser fr faults = (.ok (), after)) :
    ∃ new, Extends w after parts new ∧ (w.Unbroken → after.Unbroken) := by
  unfold MediumTermWriter.takeFrame at h
  split at h
  · rename_i frames state
    cases h
    refine ⟨[], ⟨⟨?_, ?_, ?_, ?_, ?_⟩, Nat.zero_le 1, rfl⟩, ?_⟩
    · rw [List.append_nil]
      exact holding.catalogued
    · rw [List.append_nil, ← holding.stored]
      unfold MediumTermWriter.stored
      rw [state]
      rfl
    · rw [List.append_nil]
      exact holding.covers
    · intro a held
      cases held
    · intro others held
      cases held
      have prepared := holding.prepared frames state
      intro other mem
      cases frames with
      | nil => cases mem
      | cons first rest =>
        rcases List.mem_append.mp mem with mem | mem
        · exact prepared other mem
        · rw [List.mem_singleton.mp mem]
          exact delta _ state
    · unfold Unbroken nextStart
      rw [state]
      exact id
  · rename_i a state
    obtain ⟨new, extended, _, joins, _⟩ := holding.writeFrame state h
    exact ⟨new, extended, joins⟩
  · cases h

theorem Holding.appendOne {duration : Nat}
    (h : w.appendOne f parser fr faults = (.ok duration, after)) :
    ∃ new, Extends w after parts new ∧ (w.Unbroken → after.Unbroken) := by
  by_cases waiting : w.state = .waitingForKeyframe
  · have stored : w.stored = [] := by
      unfold MediumTermWriter.stored
      rw [waiting]
    unfold MediumTermWriter.appendOne at h
    rw [waiting] at h
    dsimp only at h
    refine ⟨[], ?_⟩
    split at h
    · cases h
      refine ⟨⟨⟨?_, ?_, ?_, nofun, ?_⟩, Nat.zero_le 1, rfl⟩, ?_⟩
      · rw [List.append_nil]
        exact holding.catalogued
      · rw [List.append_nil, ← holding.stored, stored]
        rfl
      · rw [List.append_nil]
        exact holding.covers
      · intro frames held
        cases held
        nofun
      · unfold Unbroken nextStart
        rw [waiting]
        exact id
    · cases h
      rw [← List.append_nil parts] at holding
      exact ⟨⟨holding, Nat.zero_le 1, rfl⟩, id⟩
  · obtain ⟨between, settled, taken⟩ := appendOne_eq_ok waiting h
    unfold settle at settled
    split at settled
    · obtain ⟨held, started, _, _, opened, joins⟩ := holding.activatePrepared settled
      obtain ⟨new, extended, rest_joins⟩ :=
        held.takeFrame (fun frames state => absurd state (opened frames)) taken
      exact ⟨new, ⟨extended.holding, extended.few, extended.started.trans started⟩,
        rest_joins ∘ joins⟩
    · rename_i delta
      cases settled
      exact holding.takeFrame (fun _ _ => by simpa using delta) taken

theorem Holding.discardPending : w.discardPending.Holding parts := by
  unfold MediumTermWriter.discardPending
  split
  · rename_i a state
    refine ⟨holding.catalogued, ?_, holding.covers, ?_, fun _ held => by cases held⟩
    · rw [← holding.stored, stored_of_active state]
      rfl
    · intro other held
      cases held
      exact discardPending_sound (holding.active a state)
  · rename_i other
    have none : w.stored = [] := by
      unfold MediumTermWriter.stored
      split
      · rename_i a state
        exact absurd state (other a)
      · rfl
    refine ⟨holding.catalogued, ?_, holding.covers, fun _ held => ?_, fun _ held => ?_⟩
    · rw [← holding.stored, none]
      rfl
    all_goals cases held

theorem Holding.finished (ends : Ends w after video) :
    Finished w.startedAtMs video after.catalogued
      (parts ++ MediumTermWriter.added w after video) := by
  obtain ⟨new, few, stored, catalogued, covers⟩ := ends
  have same : MediumTermWriter.added w after video = new := by
    unfold MediumTermWriter.added
    rw [catalogued, stored, List.drop_left, List.drop_left]
    cases new with
    | nil => rfl
    | cons part rest =>
      cases rest with
      | nil => simp
      | cons other rest => simp at few
  rw [same]
  refine ⟨?_, ?_, ?_⟩
  · rw [stored, holding.stored, List.flatMap_append]
  · rw [catalogued, holding.catalogued, List.map_append]
  · intro part mem
    rcases List.mem_append.mp mem with mem | mem
    · exact holding.covers part mem
    · exact covers part mem

theorem Holding.close (state : w.state = .active a)
    (h : (w.withState .waitingForKeyframe).close f a faults = (.ok video, after)) :
    Ends w after video ∧ (w.Unbroken → after.catalogued.IsChain fun fragment next =>
      fragment.Meets next.startMs) := by
  have sound := holding.active a state
  obtain ⟨fragment, _, flushed, inserted, rfl⟩ := close_eq_ok h
  unfold Ends
  rw [stored_of_active state, unbroken_iff state]
  unfold catalogFinal at inserted
  split at inserted
  · cases inserted
    have nothing : a.pendingVideo = [] := by
      rcases flushFragment_eq_ok flushed with ⟨nothing, _⟩ | ⟨_, some, _⟩
      · exact pendingVideo_eq_nil nothing
      · cases some
    refine ⟨⟨[], Nat.zero_le 1, ?_, (List.append_nil _).symm, nofun⟩, fun joined => joined.chain⟩
    rw [nothing]
    rfl
  · cases inserted
  · rename_i info startDts started
    have entered := insertCatalogFragment_eq_ok inserted
    refine ⟨⟨[((w.withState .waitingForKeyframe).catalogFragment _, a.pendingVideo)],
      Nat.le_refl 1, ?_, congrArg MediumTermWriter.catalogued entered, ?_⟩, ?_⟩
    · simp
    · intro part mem
      rw [List.mem_singleton.mp mem]
      exact covers_pendingVideo (w.withState .waitingForKeyframe) sound started info
    · intro joined
      rw [started] at joined
      rw [entered]
      exact @chain_push (w.withState .waitingForKeyframe) _ ⟨info, startDts, _⟩ joined

theorem Holding.finalize (h : w.finalize f parser faults = (.ok video, after)) :
    Ends w after video ∧ (w.Unbroken →
      after.catalogued.IsChain fun fragment next => fragment.Meets next.startMs) := by
  unfold MediumTermWriter.finalize at h
  obtain ⟨_, between, opened, h⟩ := andThen_eq_ok h
  obtain ⟨held, started, stored, catalogued, _, joins⟩ := holding.activatePrepared opened
  unfold Ends
  rw [← started, ← stored, ← catalogued]
  split at h
  · rename_i a state
    obtain ⟨ends, chain⟩ := held.close state h
    exact ⟨ends, chain ∘ joins⟩
  rename_i other
  cases h
  refine ⟨⟨[], Nat.zero_le 1, ?_, (List.append_nil _).symm, nofun⟩,
    fun unbroken => (joins unbroken).chain⟩
  unfold MediumTermWriter.stored
  split
  · rename_i a state
    exact absurd state (other a)
  · rfl

end

theorem finalize_of_flushed (state : w.state = .active a)
    (nothing : a.writer.hasPendingSamples = false)
    (h : w.finalize f parser faults = (.ok video, after)) :
    video = a.stored ++ a.pendingVideo ∧ after.catalogued = w.catalogued := by
  obtain ⟨fragment, _, flushed, inserted, rfl⟩ := close_eq_ok (finalize_eq_ok state h)
  rcases flushFragment_eq_ok flushed with ⟨_, rfl, _⟩ | ⟨pending, _⟩
  · cases inserted
    exact ⟨rfl, rfl⟩
  · rw [nothing] at pending
    cases pending

end MediumTermWriter

namespace MediumTermWriter

variable {f : Format MediaConfig} {parser : Parser} {w after : MediumTermWriter}

theorem Holding.closeBefore {parts : List Part} (holding : w.Holding parts)
    {a : ActiveWriter} (state : w.state = .active a) {limit : Option Nat}
    (bound : ∀ stop ∈ limit, stop ≤ u64Max) {faults : Faults} {video : List Sample}
    (h : w.closeBefore f parser a limit faults = (.ok video, after)) :
    Ends w after video ∧ (w.Unbroken →
      after.catalogued.IsChain fun fragment next => fragment.Meets next.startMs) := by
  have sound := holding.active a state
  unfold MediumTermWriter.closeBefore at h
  obtain ⟨completed, between, inner, h⟩ := andThen_eq_ok h
  obtain ⟨active', limited, rfl⟩ := within_eq_ok inner
  obtain ⟨_, entered, inserted, h⟩ := andThen_eq_ok h
  have inserted := insertCatalogFragment_eq_ok (part_eq_ok inserted)
  have finalized := part_eq_ok h
  unfold limitVideo at limited
  split at limited
  · rename_i stop last startDts last_dts started
    dsimp only at limited
    split at limited
    · cases limited
    rename_i later
    obtain ⟨fragment, flushed, flush, limited⟩ := andThen_eq_ok limited
    cases limited
    have flush := part_eq_ok flush
    obtain ⟨_, nothing, _⟩ := flushFragmentBeforeSample_eq_ok flush
    obtain ⟨info, rfl, closes⟩ := closes_of_flush sound started flush
    have now : entered.state = .active active' := by
      rw [inserted]
      rfl
    obtain ⟨whole, catalogued⟩ := finalize_of_flushed now nothing finalized
    obtain ⟨samples, grown, covers⟩ := covers_of_closes w closes
      (Nat.le_trans (Nat.min_le_left _ _) (bound stop rfl))
    refine ⟨⟨[(w.catalogFragment ⟨info, startDts,
      min stop (saturatingAdd last a.lastVideoDuration)⟩, samples)], Nat.le_refl 1, ?_, ?_, ?_⟩,
      ?_⟩
    · rw [whole, pendingVideo_eq_nil nothing, grown, stored_of_active state]
      simp
    · rw [catalogued, inserted]
      rfl
    · intro part mem
      rw [List.mem_singleton.mp mem]
      exact covers
    · rw [unbroken_iff state, started, catalogued, inserted]
      exact @chain_push w _ ⟨info, startDts, _⟩
  · cases limited
    have same : entered = w := by
      rw [inserted, Option.map_none, Option.toList_none, List.append_nil]
      unfold withState
      rw [← state]
    rw [same] at finalized
    exact holding.finalize finalized

theorem Holding.finalizeBefore {parts : List Part} (holding : w.Holding parts) {stop : Nat}
    {faults : Faults} {video : List Sample}
    (h : w.finalizeBefore f parser stop faults = (.ok video, after)) :
    Ends w after video ∧ (w.Unbroken →
      after.catalogued.IsChain fun fragment next => fragment.Meets next.startMs) := by
  unfold MediumTermWriter.finalizeBefore at h
  obtain ⟨_, between, opened, h⟩ := andThen_eq_ok h
  obtain ⟨held, started, stored, catalogued, _, joins⟩ :=
    holding.activatePrepared (part_eq_ok opened)
  unfold Ends
  rw [← started, ← stored, ← catalogued]
  refine And.imp_right (fun chain => chain ∘ joins) ?_
  split at h
  · rename_i active state
    refine held.closeBefore state ?_ h
    intro limit mem
    obtain ⟨origin, _, rfl⟩ := Option.map_eq_some_iff.mp mem
    exact durationToTicks_le _ _
  · exact held.finalize (part_eq_ok h)

end MediumTermWriter

/-- A recording: its video, and the fragments in the catalog with the samples of
each. -/
structure Recording where
  startedAtMs : Int
  video : List Sample
  parts : List Part

section Produced

variable (format : Format MediaConfig) (parser : Parser)

open MediumTermWriter

/-- A writer after calls that succeeded, with the fragments they entered. -/
inductive Reached : MediumTermWriter → List Part → Prop
  | create (startedAtMs : Int) (reservation : Bool) : Reached (create startedAtMs reservation) []
  | append {writer after : MediumTermWriter} {parts : List Part} {frame : RecordingFrame}
      {faults : Faults} {duration : Nat} (reached : Reached writer parts)
      (appended : writer.appendOne format parser frame faults = (.ok duration, after)) :
      Reached after (parts ++ added writer after after.stored)
  | appendReceived {writer after : MediumTermWriter} {parts : List Part} {frame : RecordingFrame}
      {faults : Faults} {duration : Nat} (reached : Reached writer parts)
      (appended : writer.appendReceived format parser frame faults = (.ok duration, after)) :
      Reached after (parts ++ added writer after after.stored)
  | discardPending {writer : MediumTermWriter} {parts : List Part}
      (reached : Reached writer parts) :
      Reached writer.discardPending parts

inductive Produced : Recording → Prop
  | finalize {writer after : MediumTermWriter} {parts : List Part} {faults : Faults}
      {video : List Sample} (reached : Reached format parser writer parts)
      (ended : writer.finalize format parser faults = (.ok video, after)) :
      Produced ⟨writer.startedAtMs, video, parts ++ added writer after video⟩
  | finalizeBefore {writer after : MediumTermWriter} {parts : List Part} {stop : Nat}
      {faults : Faults} {video : List Sample} (reached : Reached format parser writer parts)
      (ended : writer.finalizeBefore format parser stop faults = (.ok video, after)) :
      Produced ⟨writer.startedAtMs, video, parts ++ added writer after video⟩

variable {format parser}

theorem Reached.holding {w : MediumTermWriter} {parts : List Part}
    (reached : Reached format parser w parts) : w.Holding parts := by
  induction reached with
  | create startedAtMs reservation => exact ⟨rfl, rfl, nofun, nofun, nofun⟩
  | append reached appended holding =>
    obtain ⟨new, extended, _⟩ := holding.appendOne appended
    rw [holding.added extended]
    exact extended.holding
  | appendReceived reached appended holding =>
    unfold MediumTermWriter.appendReceived at appended
    obtain ⟨frame, between, made, appended⟩ := andThen_eq_ok appended
    rw [Prod.mk.injEq] at made
    obtain ⟨_, rfl⟩ := made
    obtain ⟨new, extended, _⟩ := holding.appendOne appended
    rw [holding.added extended]
    exact extended.holding
  | discardPending reached holding => exact holding.discardPending

/-- The video of a recording is that of its fragments, and the catalog has its times. -/
theorem Produced.parts {r : Recording} (produced : Produced format parser r) :
    r.video = r.parts.flatMap Prod.snd ∧ ∀ part ∈ r.parts, Covers r.startedAtMs part := by
  cases produced with
  | finalize reached ended =>
    have finished := reached.holding.finished (reached.holding.finalize ended).1
    exact ⟨finished.video, finished.covers⟩
  | finalizeBefore reached ended =>
    have finished := reached.holding.finished (reached.holding.finalizeBefore ended).1
    exact ⟨finished.video, finished.covers⟩

end Produced

end KeepPeek.MediumTerm
