import KeepPeek.MediumTerm.Writer
import KeepPeek.Mp4.Pending

/-! An event clip is closed at its deadline.

Its frames are placed by their times of receipt, in ticks. Where these are all
different, every sample starts at its own tick, so the clip can be closed exactly
at a deadline whose tick comes after all of them. -/
namespace KeepPeek.MediumTerm

open Lib
open Mp4 (FragmentedMp4Writer Format Sample FragmentInfo FragmentTrack u32Max)
open Storage (VideoFrame AudioFrame MediaFrame RecordingFrame fromFirstKeyframe
  fromFirstKeyframe_cons_key)

def tick (origin moment : Nat) : Nat := durationToTicks (moment - origin) videoTimescale

def ticksFrom (origin : Nat) (frames : List RecordingFrame) : List Nat :=
  (frames.filter RecordingFrame.isVideo).map fun frame => tick origin frame.receivedAt

def clipTicks (frames : List RecordingFrame) : List Nat :=
  match fromFirstKeyframe frames with
  | [] => []
  | first :: rest => ticksFrom first.receivedAt (first :: rest)

def deadlineTick (frames : List RecordingFrame) (stop : Nat) : Nat :=
  match fromFirstKeyframe frames with
  | [] => 0
  | first :: _ => tick first.receivedAt stop

theorem durationToTicks_le (duration timescale : Nat) :
    durationToTicks duration timescale ≤ u64Max := by
  unfold durationToTicks
  exact Nat.min_le_right _ _

namespace ActiveWriter

variable {f : Format MediaConfig} {parser : Parser} {a after : ActiveWriter}
variable {fallback : Nat} {video : VideoFrame} {faults : Faults}

/-- A video sample waits, and what is remembered about it is right. -/
structure Holds (active : ActiveWriter) (last : Nat) : Prop where
  dts : active.lastVideoDts = some last
  duration : 0 < active.lastVideoDuration
  started : active.fragmentStartDts.isSome
  sample : ∃ track front sample, active.writer.track videoTrack = some track ∧
    track.samples = front ++ [sample] ∧ sample.startTime = last

theorem sampleDuration_pos (last : Option Nat) (dts : Nat) (h : 0 < fallback) :
    0 < sampleDuration last dts fallback := by
  unfold sampleDuration
  split
  · exact h
  split
  · rename_i within
    simp only [Bool.and_eq_true, decide_eq_true_eq] at within
    exact within.2
  · exact h

theorem sampleDuration_le (last : Option Nat) (dts : Nat) (h : fallback ≤ u32Max) :
    sampleDuration last dts fallback ≤ u32Max := by
  unfold sampleDuration
  split
  · exact h
  split
  · rename_i within
    simp only [Bool.and_eq_true, decide_eq_true_eq] at within
    exact within.1
  · exact h

theorem pendingVideo_eq {track : FragmentTrack MediaConfig}
    (found : a.writer.track videoTrack = some track) : a.pendingVideo = track.samples := by
  unfold pendingVideo
  rw [found]
  rfl

theorem closedAt_of_closeLast {xs closed : List Sample} {stop : Nat} {message : String}
    (h : FragmentedMp4Writer.closeLast xs stop message = .ok closed) :
    closedAt xs stop = closed := by
  unfold closedAt
  rcases FragmentedMp4Writer.closeLast_eq_ok h with ⟨rfl, rfl⟩ | ⟨front, last, rfl, _, _, rfl⟩
  · rfl
  · rw [List.getLast?_concat]
    dsimp only
    rw [List.dropLast_concat]

theorem pendingVideo_eq_nil (nothing : a.writer.hasPendingSamples = false) :
    a.pendingVideo = [] := by
  unfold pendingVideo
  cases found : a.writer.track videoTrack with
  | none => rfl
  | some track => exact FragmentedMp4Writer.samples_eq_nil nothing found

theorem flushFragmentBeforeSample_eq_ok {stop : Nat} {fragment : Option FragmentInfo}
    (h : a.flushFragmentBeforeSample f stop faults = (.ok fragment, after)) :
    after = { a with
        writer := after.writer, stored := a.stored ++ closedAt a.pendingVideo stop } ∧
      after.writer.hasPendingSamples = false ∧
      (∀ track ∈ after.writer.track videoTrack, ∃ before ∈ a.writer.track videoTrack,
        track.trackType = before.trackType) ∧
      (a.pendingVideo ≠ [] → fragment.isSome) ∧
      ∃ message, FragmentedMp4Writer.closeLast a.pendingVideo stop message =
        .ok (closedAt a.pendingVideo stop) := by
  unfold flushFragmentBeforeSample at h
  split at h
  · cases h
  rename_i writer flushed
  cases h
  obtain ⟨track, closed, found, made, flush⟩ := FragmentedMp4Writer.flushBefore_closed flushed
  have held := FragmentedMp4Writer.track_setTrack_self found { track with samples := closed }
  rw [pendingVideo_eq found, closedAt_of_closeLast made]
  refine ⟨rfl, FragmentedMp4Writer.flushFragment_flushed flush, ?_, ?_, _, made⟩
  · intro other now
    dsimp only at now
    rcases FragmentedMp4Writer.flushFragment_eq_ok flush with ⟨_, _, rfl⟩ | ⟨_, _, tracks⟩
    · rw [held] at now
      cases now
      exact ⟨track, found, rfl⟩
    · rw [FragmentedMp4Writer.track_congr tracks, FragmentedMp4Writer.track_discardPendingSamples,
        held] at now
      cases now
      exact ⟨track, found, rfl⟩
  · intro waits
    rcases FragmentedMp4Writer.flushFragment_eq_ok flush with ⟨nothing, _⟩ | ⟨_, some, _⟩
    · have none : closed = [] := FragmentedMp4Writer.samples_eq_nil nothing held
      exact absurd ((FragmentedMp4Writer.closeLast_eq_nil made).mp none) waits
    · exact some

theorem completeFragment_audioTrack {dts : Nat} {answer : Except Error (Option Completed)}
    (h : a.completeFragment f video dts faults = (answer, after)) :
    after.audioTrack = a.audioTrack := by
  unfold completeFragment flushFragmentBeforeSample at h
  split at h
  · split at h
    · cases h
      rfl
    · split at h <;> cases h <;> rfl
  · cases h
    rfl

theorem selectDescription_eq_ok (h : a.selectDescription f parser video faults = (.ok (), after)) :
    after.pendingVideo = a.pendingVideo ∧
      (∀ track ∈ after.writer.track videoTrack, ∃ before ∈ a.writer.track videoTrack,
        track.trackType = before.trackType) ∧
      after.audioTrack = a.audioTrack ∧ after.lastVideoDts = a.lastVideoDts ∧
      after.lastVideoDuration = a.lastVideoDuration ∧
      after.fragmentStartDts = a.fragmentStartDts ∧ after.stored = a.stored := by
  have unchanged : ∀ track ∈ a.writer.track videoTrack,
      ∃ before ∈ a.writer.track videoTrack, track.trackType = before.trackType :=
    fun track held => ⟨track, held, rfl⟩
  unfold selectDescription at h
  split at h
  · split at h
    · cases h
    · split at h
      · cases h
      rename_i index writer added
      cases h
      obtain ⟨track, found, ⟨_, rfl⟩ | ⟨_, tracks⟩⟩ :=
        FragmentedMp4Writer.addSampleDescription_eq_ok added
      · exact ⟨rfl, unchanged, rfl, rfl, rfl, rfl, rfl⟩
      · have now := FragmentedMp4Writer.track_congr tracks videoTrack
        rw [FragmentedMp4Writer.track_setTrack_self found] at now
        refine ⟨?_, ?_, rfl, rfl, rfl, rfl, rfl⟩
        · unfold pendingVideo
          dsimp only
          rw [now, found]
          rfl
        · intro other held
          dsimp only at held
          rw [now] at held
          cases held
          exact ⟨track, found, rfl⟩
    · split at h
      · cases h
      · cases h
        exact ⟨rfl, unchanged, rfl, rfl, rfl, rfl, rfl⟩
  · split at h
    · cases h
    split at h
    · split at h
      · cases h
      split at h
      · cases h
      · cases h
        exact ⟨rfl, unchanged, rfl, rfl, rfl, rfl, rfl⟩
    · cases h
      exact ⟨rfl, unchanged, rfl, rfl, rfl, rfl, rfl⟩

theorem writeVideoSample_eq_ok {dts duration : Nat} (positive : 0 < fallback)
    (h : a.writeVideoSample video dts fallback = (.ok duration, after)) :
    after.Holds dts ∧ after.audioTrack = a.audioTrack := by
  unfold writeVideoSample at h
  dsimp only at h
  split at h
  · cases h
  rename_i wrote
  cases h
  rcases FragmentedMp4Writer.writeSample_eq_ok wrote with ⟨track, samples, found, _, rfl, _⟩
  refine ⟨⟨rfl, sampleDuration_pos _ _ positive, rfl, ?_⟩, rfl⟩
  exact ⟨_, samples, _, FragmentedMp4Writer.track_setTrack_self found _, rfl, rfl⟩

theorem writeVideo_eq_ok {camera : Nat} {answer : Nat × Option Completed}
    (h : a.writeVideo f parser video camera faults = (.ok answer, after)) :
    after.Holds (resolveVideoDts a.lastVideoDts camera (max a.lastVideoDuration 1)) ∧
      after.audioTrack = a.audioTrack := by
  unfold writeVideo at h
  dsimp only at h
  rcases andThen_eq_ok h with ⟨completed, second, completing, h⟩
  rcases andThen_eq_ok h with ⟨_, third, selecting, h⟩
  rcases andThen_eq_ok h with ⟨duration, fourth, writing, h⟩
  cases h
  have positive : 0 < max a.lastVideoDuration 1 := by omega
  rcases writeVideoSample_eq_ok positive writing with ⟨holds, same⟩
  exact ⟨holds, (same.trans (selectDescription_eq_ok selecting).2.2.1).trans
    (completeFragment_audioTrack completing)⟩

theorem writeAudio_eq_ok {audio : AudioFrame} {raw : List UInt8} {camera : Option Nat}
    {elapsed : Nat} (h : a.writeAudio 2 audio raw camera elapsed = (.ok (), after)) :
    ∃ container : FragmentedMp4Writer MediaConfig,
      container.track videoTrack = a.writer.track videoTrack ∧ ∃ next,
        after = { a with writer := container, nextAudioDts := next } := by
  unfold writeAudio at h
  rcases andThen_eq_ok h with ⟨duration, between, sized, h⟩
  have same : a = between := congrArg Prod.snd sized
  subst same
  unfold writeAudioSample at h
  split at h
  · cases h
  rename_i wrote
  split at h
  · cases h
    rcases FragmentedMp4Writer.writeSample_eq_ok wrote with ⟨_, _, _, _, rfl, _⟩
    exact ⟨_, FragmentedMp4Writer.track_setTrack_of_ne (by decide) (by decide) _, _, rfl⟩
  · cases h

theorem Holds.writeAudio {last : Nat} (holds : a.Holds last) {audio : AudioFrame}
    {raw : List UInt8} {camera : Option Nat} {elapsed : Nat}
    (h : a.writeAudio 2 audio raw camera elapsed = (.ok (), after)) : after.Holds last := by
  rcases writeAudio_eq_ok h with ⟨container, found, next, rfl⟩
  rcases holds.sample with ⟨track, front, sample, held, samples, same⟩
  exact ⟨holds.dts, holds.duration, holds.started, track, front, sample, found.trans held, samples,
    same⟩

end ActiveWriter

open ActiveWriter

namespace MediumTermWriter

variable {f : Format MediaConfig} {parser : Parser} {w after : MediumTermWriter}
variable {origin duration last limit : Nat} {fs rest : List RecordingFrame}
  {a : ActiveWriter} {completed : Option Completed} {faults : Faults}
  {fr first : RecordingFrame} {xs : List Sample}

def stamped (origin : Nat) (frame : RecordingFrame) : RecordingFrame :=
  { frame with timestamp := some (frame.receivedAt - origin) }

structure Origin (writer : MediumTermWriter) (origin : Nat) : Prop where
  segment : writer.segmentOrigin = some origin
  camera : writer.cameraTimestampOrigin = some 0

/-- The frames so far are on the file or wait for it. -/
structure Writing (writer : MediumTermWriter) (origin : Nat) (frames : List RecordingFrame)
    (active : ActiveWriter) : Prop extends writer.Origin origin where
  state : writer.state = .active active
  audio : ∀ track ∈ active.audioTrack, track = 2
  first : ticksFrom origin frames = [] → active.lastVideoDts = none
  last : ∀ last ∈ (ticksFrom origin frames).getLast?, active.Holds last

theorem ticksFrom_append (origin : Nat) (fs : List RecordingFrame) (f : RecordingFrame) :
    ticksFrom origin (fs ++ [f]) = ticksFrom origin fs ++ ticksFrom origin [f] := by
  unfold ticksFrom
  rw [List.filter_append, List.map_append]

theorem Writing.resolve (writing : w.Writing origin fs a) {camera : Nat}
    (apart : (ticksFrom origin fs ++ [camera]).Pairwise (· < ·)) (fallback : Nat) :
    resolveVideoDts a.lastVideoDts camera fallback = camera := by
  rcases List.eq_nil_or_concat (ticksFrom origin fs) with none | ⟨front, last, some⟩
  · rw [writing.first none]
    rfl
  have final : last ∈ (ticksFrom origin fs).getLast? := by
    rw [some, List.concat_eq_append, List.getLast?_concat]
    exact Option.mem_some_self last
  have later : last < camera := by
    rw [List.pairwise_append] at apart
    exact apart.2.2 last (List.mem_of_getLast? final) camera (List.mem_singleton_self camera)
  rw [(writing.last last final).dts]
  exact if_pos later

theorem insertCatalogFragment_eq_ok
    (h : w.insertCatalogFragment completed faults = (.ok (), after)) :
    after = { w with catalogued := w.catalogued ++
      (completed.map w.catalogFragment).toList } := by
  unfold insertCatalogFragment at h
  split at h
  · cases h
    rw [Option.map_none, Option.toList_none, List.append_nil]
  split at h
  · cases h
  · cases h
    rfl

theorem writeVideoFrame_eq_ok {video : VideoFrame} {camera : Nat}
    (h : w.writeVideoFrame f parser a video camera faults = (.ok (), after)) :
    ∃ answer active', a.writeVideo f parser video camera faults = (.ok answer, active') ∧
      after = { (w.withState (.active active')).wrote video.data.length answer.1 with
        catalogued := w.catalogued ++ (answer.2.map w.catalogFragment).toList } := by
  unfold writeVideoFrame at h
  rcases andThen_eq_ok h with ⟨answer, between, inner, h⟩
  rcases within_eq_ok inner with ⟨active', written, rfl⟩
  exact ⟨answer, active', written, insertCatalogFragment_eq_ok h⟩

theorem writeAudioFrame_eq_ok {audio : AudioFrame} {camera : Option Nat} {elapsed : Nat}
    (h : w.writeAudioFrame a audio camera elapsed = (.ok (), after)) :
    after = w ∨ ∃ raw track active', a.audioTrack = some track ∧
      a.writeAudio track audio raw camera elapsed = (.ok (), active') ∧
      after = (w.withState (.active active')).wrote raw.length 0 := by
  unfold writeAudioFrame at h
  split at h
  · rename_i raw track _ tracked
    rcases andThen_eq_ok h with ⟨_, between, inner, h⟩
    rcases within_eq_ok inner with ⟨active', written, rfl⟩
    cases h
    exact .inr ⟨raw, track, active', tracked, written, rfl⟩
  · cases h
    exact .inl rfl

theorem Writing.writeFrame (writing : w.Writing origin fs a)
    (apart : (ticksFrom origin (fs ++ [fr])).Pairwise (· < ·))
    (h : w.writeFrame f parser (stamped origin fr) faults = (.ok (), after)) :
    ∃ active', after.Writing origin (fs ++ [fr]) active' := by
  rw [ticksFrom_append] at apart
  unfold MediumTermWriter.writeFrame at h
  rw [writing.state, writing.segment] at h
  cases media : fr.frame with
  | video video =>
    have ticks : ticksFrom origin [fr] = [tick origin fr.receivedAt] := by
      simp [ticksFrom, RecordingFrame.isVideo, MediaFrame.isVideo, media]
    have shown : (stamped origin fr).frame = .video video := media
    rw [shown] at h
    rcases writeVideoFrame_eq_ok h with ⟨answer, active', written, rfl⟩
    have camera : w.cameraTicks (stamped origin fr) ((stamped origin fr).receivedAt - origin)
        videoTimescale = tick origin fr.receivedAt := by
      unfold cameraTicks timestampTicksOrFallback tick
      rw [writing.camera]
      simp only [stamped, Nat.sub_zero]
    rw [camera] at written
    rcases writeVideo_eq_ok written with ⟨holds, same⟩
    rw [ticks] at apart
    rw [writing.resolve apart] at holds
    refine ⟨active', ⟨writing.segment, writing.camera⟩, rfl, ?_, ?_, ?_⟩
    · rw [same]
      exact writing.audio
    · intro none
      rw [ticksFrom_append, ticks] at none
      simp at none
    · intro last final
      rw [ticksFrom_append, ticks, List.getLast?_concat] at final
      cases final
      exact holds
  | audio audio =>
    have ticks : ticksFrom origin (fs ++ [fr]) = ticksFrom origin fs := by
      rw [ticksFrom_append]
      simp [ticksFrom, RecordingFrame.isVideo, MediaFrame.isVideo, media]
    have shown : (stamped origin fr).frame = .audio audio := media
    rw [shown] at h
    rcases writeAudioFrame_eq_ok h with rfl | ⟨raw, track, active', tracked, written, rfl⟩
    · refine ⟨a, writing.toOrigin, writing.state, writing.audio, ?_, ?_⟩
      · rw [ticks]
        exact writing.first
      · rw [ticks]
        exact writing.last
    · have second : track = 2 := writing.audio track tracked
      subst second
      refine ⟨active', ⟨writing.segment, writing.camera⟩, rfl, ?_, ?_, ?_⟩
      · rcases writeAudio_eq_ok written with ⟨_, _, _, rfl⟩
        exact writing.audio
      · rcases writeAudio_eq_ok written with ⟨_, _, _, rfl⟩
        intro none
        rw [ticks] at none
        exact writing.first none
      · intro last final
        rw [ticks] at final
        exact (writing.last last final).writeAudio written

theorem Writing.writeFrames :
    ∀ {w : MediumTermWriter} {fs : List RecordingFrame} {a : ActiveWriter}, w.Writing origin fs a →
      (ticksFrom origin (fs ++ rest)).Pairwise (· < ·) →
      writeFrames f parser faults w (rest.map (stamped origin)) = (.ok (), after) → ∃ active',
      after.Writing origin (fs ++ rest) active' := by
  induction rest with
  | nil =>
    intro w fs a writing _ h
    cases h
    rw [List.append_nil]
    exact ⟨a, writing⟩
  | cons fr rest ih =>
    intro w fs a writing apart h
    rcases andThen_eq_ok h with ⟨_, between, written, h⟩
    rw [List.append_cons] at apart ⊢
    have shorter : (ticksFrom origin (fs ++ [fr])).Pairwise (· < ·) := by
      unfold ticksFrom at apart ⊢
      rw [List.filter_append, List.map_append] at apart
      exact (List.pairwise_append.mp apart).1
    rcases writing.writeFrame shorter written with ⟨active', writing'⟩
    exact ih writing' apart h

theorem openWriterFile_keeps {answer : Except Error Unit}
    (h : w.openWriterFile faults = (answer, after)) :
    after = { w with reservation := after.reservation } := by
  unfold openWriterFile at h
  split at h
  · cases h
    rfl
  split at h
  · cases h
    rfl
  · cases h
    rfl

theorem initMp4_eq_ok (h : w.initMp4 f parser fs faults = (.ok a, after)) :
    ∃ codec config container, writeStart f config (audioTrackConfig fs) faults = .ok container ∧
      after = { w with reservation := after.reservation } ∧
      a = ⟨container, codec, config, 1, (audioTrackConfig fs).map fun _ => 2,
        ((audioTrackConfig fs).map AudioTrack.timescale).getD 0, none, 0, none, none, []⟩ := by
  unfold initMp4 at h
  split at h
  · cases h
  · cases h
  split at h
  · cases h
  rcases andThen_eq_ok h with ⟨_, between, opened, h⟩
  split at h
  · cases h
  rename_i container started
  split at h
  · cases h
  cases h
  exact ⟨_, _, container, started, openWriterFile_keeps opened, rfl⟩

theorem audioTrack_eq {track : Nat}
    (tracked : track ∈ (audioTrackConfig fs).map fun _ => 2) : track = 2 := by
  rcases Option.map_eq_some_iff.mp tracked with ⟨_, _, rfl⟩
  rfl

/-- The frames appended so far: none is recorded, or they are prepared, or written. -/
def Stage (writer : MediumTermWriter) (frames : List RecordingFrame) : Prop :=
  match fromFirstKeyframe frames with
  | [] => writer.state = .waitingForKeyframe ∧ writer.segmentOrigin = none ∧
    writer.cameraTimestampOrigin = none
  | first :: rest =>
    (writer.Origin first.receivedAt ∧
      writer.state = .preparing ((first :: rest).map (stamped first.receivedAt))) ∨
    ∃ active, writer.Writing first.receivedAt (first :: rest) active

theorem activatePrepared_writing
    (h : (w.Origin first.receivedAt ∧ w.state = .preparing ((first :: rest).map
      (stamped first.receivedAt))) ∨ ∃ a, w.Writing first.receivedAt (first :: rest) a)
    (apart : (ticksFrom first.receivedAt (first :: rest)).Pairwise (· < ·))
    (opened : w.activatePrepared f parser faults = (.ok (), after)) :
    ∃ a, after.Writing first.receivedAt (first :: rest) a := by
  unfold activatePrepared at opened
  rcases h with ⟨origin, prepared⟩ | ⟨a, writing⟩
  · rw [prepared] at opened
    rcases andThen_eq_ok opened with ⟨a, between, started, opened⟩
    rcases initMp4_eq_ok started with ⟨_, _, _, _, same, fresh⟩
    have empty : (between.withState (.active a)).Writing first.receivedAt [] a :=
      { segment := (congrArg segmentOrigin same).trans origin.segment
        camera := (congrArg cameraTimestampOrigin same).trans origin.camera
        state := rfl
        audio := fun _ tracked => audioTrack_eq (fresh ▸ tracked)
        first := fun _ => congrArg ActiveWriter.lastVideoDts fresh
        last := by
          intro last final
          cases final }
    exact empty.writeFrames apart opened
  · rw [writing.state] at opened
    cases opened
    exact ⟨a, writing⟩

theorem received_eq_ok {frame' : RecordingFrame} (h : w.received fr = .ok frame') :
    frame' = { fr with timestamp := some (w.cameraTimestampOrigin.getD 0 +
      (fr.receivedAt - w.segmentOrigin.getD fr.receivedAt)) } := by
  unfold received at h
  dsimp only at h
  split at h
  · cases h
  split at h
  · cases h
  · cases h
    rfl

theorem Origin.received (h : w.Origin origin) {frame' : RecordingFrame}
    (made : w.received fr = .ok frame') : frame' = stamped origin fr := by
  rw [received_eq_ok made, h.segment, h.camera, Option.getD_some, Option.getD_some, Nat.zero_add]
  rfl

theorem appendOne_eq_ok (started : w.state ≠ .waitingForKeyframe)
    (h : w.appendOne f parser fr faults = (.ok duration, after)) :
    ∃ between, w.settle f parser fr faults = (.ok (), between) ∧
      between.takeFrame f parser fr faults = (.ok (), after) := by
  unfold appendOne at h
  split at h
  · exact absurd ‹_› started
  rcases andThen_eq_ok h with ⟨_, between, settled, h⟩
  rcases andThen_eq_ok h with ⟨_, last, taken, h⟩
  cases h
  exact ⟨between, settled, taken⟩

theorem Writing.takeFrame (writing : w.Writing origin fs a)
    (apart : (ticksFrom origin (fs ++ [fr])).Pairwise (· < ·))
    (h : w.takeFrame f parser (stamped origin fr) faults = (.ok (), after)) :
    ∃ active', after.Writing origin (fs ++ [fr]) active' := by
  unfold MediumTermWriter.takeFrame at h
  rw [writing.state] at h
  exact writing.writeFrame apart h

theorem stage_append
    (h : (w.Origin first.receivedAt ∧ w.state = .preparing ((first :: rest).map
      (stamped first.receivedAt))) ∨ ∃ a, w.Writing first.receivedAt (first :: rest) a)
    (apart : (ticksFrom first.receivedAt (first :: rest ++ [fr])).Pairwise (· < ·))
    (appended : w.appendOne f parser (stamped first.receivedAt fr) faults = (.ok duration, after)) :
    (after.Origin first.receivedAt ∧
        after.state = .preparing ((first :: rest ++ [fr]).map (stamped first.receivedAt))) ∨
      ∃ a, after.Writing first.receivedAt (first :: rest ++ [fr]) a := by
  have started : w.state ≠ .waitingForKeyframe := by
    rcases h with ⟨_, prepared⟩ | ⟨a, writing⟩
    · rw [prepared]
      exact WriterState.noConfusion
    · rw [writing.state]
      exact WriterState.noConfusion
  have shorter : (ticksFrom first.receivedAt (first :: rest)).Pairwise (· < ·) := by
    rw [ticksFrom_append] at apart
    exact (List.pairwise_append.mp apart).1
  rcases appendOne_eq_ok started appended with ⟨between, settled, taken⟩
  unfold settle at settled
  split at settled
  · rcases activatePrepared_writing h shorter settled with ⟨a, writing⟩
    exact .inr (writing.takeFrame apart taken)
  cases settled
  rcases h with ⟨origin, prepared⟩ | ⟨a, writing⟩
  · unfold MediumTermWriter.takeFrame at taken
    rw [prepared] at taken
    cases taken
    refine .inl ⟨⟨origin.segment, origin.camera⟩, ?_⟩
    rw [List.map_append]
    rfl
  · exact .inr (writing.takeFrame apart taken)

theorem clipTicks_of_start (start : fromFirstKeyframe fs = first :: rest) :
    clipTicks fs = ticksFrom first.receivedAt (first :: rest) := by
  unfold clipTicks
  rw [start]

theorem Stage.appendReceived (stage : w.Stage fs)
    (apart : (clipTicks (fs ++ [fr])).Pairwise (· < ·))
    (h : w.appendReceived f parser fr faults = (.ok duration, after)) :
    after.Stage (fs ++ [fr]) := by
  unfold MediumTermWriter.appendReceived at h
  rcases andThen_eq_ok h with ⟨stampedFrame, between, made, h⟩
  rw [Prod.mk.injEq] at made
  rcases made with ⟨made, rfl⟩
  cases start : fromFirstKeyframe fs with
  | nil =>
    have follows : fromFirstKeyframe (fs ++ [fr]) = fromFirstKeyframe [fr] := by
      rw [Storage.fromFirstKeyframe_append, if_pos start]
    unfold Stage at stage ⊢
    rw [start] at stage
    rcases stage with ⟨state, segment, camera⟩
    have same : stampedFrame = stamped fr.receivedAt fr := by
      rw [received_eq_ok made, segment, camera, Option.getD_none, Option.getD_none, Nat.zero_add]
      rfl
    subst same
    unfold appendOne at h
    rw [state] at h
    dsimp only at h
    rw [follows]
    split at h
    · rename_i key
      have keyframe : fr.isVideoKeyframe = true := key
      rw [fromFirstKeyframe_cons_key keyframe]
      cases h
      refine .inl ⟨⟨rfl, ?_⟩, rfl⟩
      show some (fr.receivedAt - fr.receivedAt) = some 0
      rw [Nat.sub_self]
    · rename_i key
      have delta : fr.isVideoKeyframe = false := by
        rw [← Bool.not_eq_true]
        exact key
      rw [Storage.fromFirstKeyframe_cons_delta delta]
      cases h
      exact ⟨state, segment, camera⟩
  | cons first rest =>
    have follows : fromFirstKeyframe (fs ++ [fr]) = first :: rest ++ [fr] := by
      rw [Storage.fromFirstKeyframe_append, if_neg (by
        rw [start]; exact List.cons_ne_nil _ _), start]
    rw [clipTicks_of_start follows] at apart
    unfold Stage at stage ⊢
    rw [start] at stage
    rw [follows]
    have origin : w.Origin first.receivedAt := by
      rcases stage with ⟨origin, _⟩ | ⟨a, writing⟩
      · exact origin
      · exact writing.toOrigin
    rw [origin.received made] at h
    exact stage_append stage apart h

def Appended (format : Format MediaConfig) (parser : Parser) :
    MediumTermWriter → List (RecordingFrame × Faults) → MediumTermWriter → Prop
  | writer, [], after => after = writer
  | writer, (frame, faults) :: rest, after => ∃ duration between,
    writer.appendReceived format parser frame faults = (.ok duration, between) ∧
      Appended format parser between rest after

theorem clipTicks_append (apart : (clipTicks (fs ++ rest)).Pairwise (· < ·)) :
    (clipTicks fs).Pairwise (· < ·) := by
  cases start : fromFirstKeyframe fs with
  | nil =>
    unfold clipTicks
    rw [start]
    exact List.Pairwise.nil
  | cons first tail =>
    have follows : fromFirstKeyframe (fs ++ rest) = first :: (tail ++ rest) := by
      rw [Storage.fromFirstKeyframe_append, if_neg (by
        rw [start]; exact List.cons_ne_nil _ _), start]
      rfl
    rw [clipTicks_of_start follows] at apart
    rw [clipTicks_of_start start]
    rw [show first :: (tail ++ rest) = (first :: tail) ++ rest from rfl] at apart
    unfold ticksFrom at apart ⊢
    rw [List.filter_append, List.map_append] at apart
    exact (List.pairwise_append.mp apart).1

theorem Stage.appended {rest : List (RecordingFrame × Faults)} :
    ∀ {w : MediumTermWriter} {fs : List RecordingFrame}, w.Stage fs →
      (clipTicks (fs ++ rest.map Prod.fst)).Pairwise (· < ·) →
      Appended f parser w rest after → after.Stage (fs ++ rest.map Prod.fst) := by
  induction rest with
  | nil =>
    intro w fs stage _ h
    cases h
    rw [List.map_nil, List.append_nil]
    exact stage
  | cons entry rest ih =>
    rcases entry with ⟨fr, faults⟩
    intro w fs stage apart h
    rcases h with ⟨duration, between, appended, h⟩
    rw [List.map_cons, List.append_cons] at apart ⊢
    exact ih (stage.appendReceived (clipTicks_append apart) appended) apart h

/-! The end of the clip. -/

theorem part_eq_ok {α σ : Type} {result : Except Error α × σ} {value : α} {state : σ}
    (h : part result = (.ok value, state)) : result = (.ok value, state) := by
  rcases result with ⟨answer, between⟩
  cases answer with
  | error error => cases h
  | ok value =>
    cases h
    rfl

theorem part_ne_deadline {α σ : Type} (result : Except Error α × σ) :
    (part result).1 ≠ .error .deadline := by
  rcases result with ⟨answer, between⟩
  cases answer with
  | error error => exact fun h => by cases h
  | ok value => exact fun h => by cases h

/-- Only the last of two steps may fail because of the deadline. -/
theorem andThen_part_ne_deadline {α β σ : Type} {result : Except Error α × σ}
    {next : α → σ → Except DeadlineError β × σ}
    (h : ∀ value state, result = (.ok value, state) → (next value state).1 ≠ .error .deadline) :
    (andThen (part result) next).1 ≠ .error .deadline := by
  rcases result with ⟨answer, between⟩
  cases answer with
  | error error => exact fun h => by cases h
  | ok value => exact h value between rfl

theorem saturatingAdd_gt (positive : 0 < duration) (later : last < limit) (bound : limit ≤ u64Max) :
    last < saturatingAdd last duration := by
  unfold saturatingAdd
  omega

/-- A deadline after the last sample: the file ends with a sample that ends by then. -/
structure Limited (active : ActiveWriter) (limit : Nat) : Prop where
  waiting : active.pendingVideo = []
  last : ∀ sample ∈ active.stored.getLast?, sample.startTime + sample.duration ≤ limit

theorem limitVideo_eq_ok {active' : ActiveWriter} (holds : a.Holds last)
    (h : limitVideo f a (some limit) faults = (.ok completed, active')) :
    last < limit ∧ Limited active' limit := by
  rcases Option.isSome_iff_exists.mp holds.started with ⟨startDts, started⟩
  unfold limitVideo at h
  rw [holds.dts, started] at h
  dsimp only at h
  split at h
  · cases h
  rename_i later
  rcases andThen_eq_ok h with ⟨fragment, between, flushed, h⟩
  cases h
  rcases holds.sample with ⟨track, front, sample, found, xs, same⟩
  rcases flushFragmentBeforeSample_eq_ok (part_eq_ok flushed) with ⟨grown, nothing, _⟩
  refine ⟨by omega, pendingVideo_eq_nil nothing, ?_⟩
  intro stored final
  rw [congrArg ActiveWriter.stored grown, pendingVideo_eq found, xs,
    ActiveWriter.closedAt, List.getLast?_concat] at final
  dsimp only at final
  rw [← List.append_assoc, List.getLast?_concat] at final
  cases final
  dsimp only
  omega

theorem limitVideo_ne_deadline (holds : a.Holds last) (later : last < limit)
    (bound : limit ≤ u64Max) :
    (limitVideo f a (some limit) faults).1 ≠ .error .deadline := by
  rcases Option.isSome_iff_exists.mp holds.started with ⟨startDts, started⟩
  unfold limitVideo
  rw [holds.dts, started]
  dsimp only
  have beyond := saturatingAdd_gt holds.duration later bound
  rw [if_neg (by omega)]
  apply andThen_part_ne_deadline
  intro value state _ h
  cases h

theorem close_eq_ok (h : w.close f a faults = (.ok xs, after)) :
    ∃ fragment container, a.writer.flushFragment f faults.flush = (.ok fragment, container) ∧
      w.catalogFinal a fragment faults = (.ok (), after) ∧ xs = a.stored ++ a.pendingVideo := by
  unfold close at h
  split at h
  · cases h
  rename_i fragment container flushed
  split at h
  · cases h
  rcases andThen_eq_ok h with ⟨_, between, entered, h⟩
  split at h
  · cases h
  cases h
  exact ⟨fragment, container, flushed, entered, rfl⟩

theorem finalize_eq_ok (state : w.state = .active a)
    (h : w.finalize f parser faults = (.ok xs, after)) :
    (w.withState .waitingForKeyframe).close f a faults = (.ok xs, after) := by
  unfold finalize at h
  rcases andThen_eq_ok h with ⟨_, between, opened, h⟩
  unfold activatePrepared at opened
  rw [state] at opened
  cases opened
  rw [state] at h
  exact h

theorem le_of_mem_getLast? {ticks : List Nat} (apart : ticks.Pairwise (· < ·))
    (final : ticks.getLast? = some last) {moment : Nat} (mem : moment ∈ ticks) : moment ≤ last := by
  rcases List.getLast?_eq_some_iff.mp final with ⟨front, rfl⟩
  rcases List.mem_append.mp mem with earlier | same
  · exact Nat.le_of_lt
      ((List.pairwise_append.mp apart).2.2 moment earlier last (List.mem_singleton_self last))
  · exact Nat.le_of_eq (List.mem_singleton.mp same)

theorem Writing.exists_last (writing : w.Writing origin (first :: rest) a)
    (video : first.isVideo = true) :
    ∃ last, (ticksFrom origin (first :: rest)).getLast? = some last ∧ a.Holds last := by
  have some : ticksFrom origin (first :: rest) ≠ [] := by
    unfold ticksFrom
    rw [List.filter_cons, if_pos video]
    exact List.cons_ne_nil _ _
  have final := List.getLast?_eq_some_getLast some
  exact ⟨_, final, writing.last _ final⟩

theorem closeBefore_eq_ok (holds : a.Holds last)
    (h : w.closeBefore f parser a (some limit) faults = (.ok xs, after)) :
    last < limit ∧ ∀ sample ∈ xs.getLast?, sample.startTime + sample.duration ≤ limit := by
  unfold closeBefore at h
  rcases andThen_eq_ok h with ⟨completed, between, inner, h⟩
  rcases within_eq_ok inner with ⟨active', limited, rfl⟩
  rcases andThen_eq_ok h with ⟨_, between, inserted, h⟩
  have state : between.state = .active active' := by
    rw [insertCatalogFragment_eq_ok (part_eq_ok inserted)]
    rfl
  rcases limitVideo_eq_ok holds limited with ⟨later, ends⟩
  rcases close_eq_ok (finalize_eq_ok state (part_eq_ok h)) with ⟨_, _, _, _, rfl⟩
  rw [ends.waiting, List.append_nil]
  exact ⟨later, ends.last⟩

theorem closeBefore_ne_deadline (holds : a.Holds last) (later : last < limit)
    (bound : limit ≤ u64Max) (faults : Faults) :
    (w.closeBefore f parser a (some limit) faults).1 ≠ .error .deadline := by
  have limited : (limitVideo f a (some limit) faults).1 ≠ .error .deadline :=
    limitVideo_ne_deadline holds later bound
  unfold closeBefore
  revert limited
  rcases limitVideo f a (some limit) faults with ⟨answer, active'⟩
  intro limited
  cases answer with
  | error error =>
    intro refused
    cases refused
    exact limited rfl
  | ok completed =>
    apply andThen_part_ne_deadline
    intro value state _
    exact part_ne_deadline _

theorem Writing.finalizeBefore_eq {stop : Nat} (writing : after.Writing origin fs a)
    (opened : w.activatePrepared f parser faults = (.ok (), after)) :
    w.finalizeBefore f parser stop faults =
      after.closeBefore f parser a (some (tick origin stop)) faults := by
  unfold finalizeBefore
  rw [opened]
  simp only [part, andThen, writing.state, writing.segment]
  rfl

end MediumTermWriter

open MediumTermWriter

/-- An event clip is closed at its deadline. Where no two of its video frames fall on
one tick, a deadline whose tick comes after theirs is never refused, a deadline that
is met ends the last sample no later than on its tick, and no other is met. -/
theorem event_clip_closes_at_deadline (format : Format MediaConfig) (parser : Parser)
    (startedAtMs : Int) (reservation : Bool) (frames : List (RecordingFrame × Faults))
    (writer : MediumTermWriter)
    (appended : Appended format parser (create startedAtMs reservation) frames writer)
    (apart : (clipTicks (frames.map Prod.fst)).Pairwise (· < ·)) (stop : Nat) (faults : Faults) :
    ((∀ moment ∈ clipTicks (frames.map Prod.fst), moment <
      deadlineTick (frames.map Prod.fst) stop) →
      (writer.finalizeBefore format parser stop faults).1 ≠ .error .deadline) ∧
    ∀ samples, (writer.finalizeBefore format parser stop faults).1 = .ok samples →
      (∀ moment ∈ clipTicks (frames.map Prod.fst),
        moment < deadlineTick (frames.map Prod.fst) stop) ∧
      ∀ sample ∈ samples.getLast?,
        sample.startTime + sample.duration ≤ deadlineTick (frames.map Prod.fst) stop := by
  have initial : (create startedAtMs reservation).Stage [] := ⟨rfl, rfl, rfl⟩
  have stage : writer.Stage (frames.map Prod.fst) := initial.appended apart appended
  unfold Stage at stage
  cases start : fromFirstKeyframe (frames.map Prod.fst) with
  | nil =>
    rw [start] at stage
    have none : clipTicks (frames.map Prod.fst) = [] := by
      unfold clipTicks
      rw [start]
    have finished : (writer.finalizeBefore format parser stop faults).1 = .ok [] := by
      simp only [finalizeBefore, finalize, activatePrepared, stage.1, part, andThen_ok]
    rw [none, finished]
    refine ⟨?_, ?_⟩
    · intro _ refused
      cases refused
    · intro samples same
      cases same
      refine ⟨?_, ?_⟩
      · intro moment mem
        cases mem
      · intro sample mem
        cases mem
  | cons first rest =>
    have video : first.isVideo = true := by
      apply RecordingFrame.isVideo_of_isVideoKeyframe
      exact Storage.fromFirstKeyframe_head (by rw [start]; rfl)
    have deadline : deadlineTick (frames.map Prod.fst) stop = tick first.receivedAt stop := by
      unfold deadlineTick
      rw [start]
    rw [start] at stage
    rw [clipTicks_of_start start] at apart ⊢
    rw [deadline]
    cases opened : writer.activatePrepared format parser faults with
    | mk answer after =>
      cases answer with
      | error error =>
        have failed : (writer.finalizeBefore format parser stop faults).1 =
            .error (.writer error) := by
          unfold finalizeBefore
          rw [opened]
          rfl
        rw [failed]
        constructor
        · intro _ refused
          cases refused
        · intro samples met
          cases met
      | ok _ =>
        rcases activatePrepared_writing stage apart opened with ⟨active, writing⟩
        rcases writing.exists_last video with ⟨last, final, holds⟩
        rw [writing.finalizeBefore_eq opened]
        constructor
        · intro later
          exact closeBefore_ne_deadline holds (later last (List.mem_of_getLast? final))
            (durationToTicks_le _ _) faults
        · intro samples met
          rcases closeBefore_eq_ok holds (Prod.ext met rfl) with ⟨later, ends⟩
          refine ⟨?_, ends⟩
          intro moment mem
          exact Nat.lt_of_le_of_lt (le_of_mem_getLast? apart final mem) later

namespace Fixture

def format : Format MediaConfig := ⟨[], MediaConfig.trackType, fun _ => .ok [], fun _ _ => []⟩

def parser : Parser := ⟨fun _ _ => none, fun _ _ _ => .error "not parsed"⟩

def faultless : Faults :=
  ⟨false, false, false, ⟨false, false, none, false, false⟩, ⟨false, none, false, false⟩, false,
    false⟩

def keyframe (receivedAt : Nat) : RecordingFrame :=
  ⟨receivedAt, none, .video ⟨.h264, true, 640, 480, [0, 0, 0, 1, 0x67, 0, 0, 0, 1, 0x68]⟩⟩

def delta (receivedAt : Nat) : RecordingFrame :=
  ⟨receivedAt, none, .video ⟨.h264, false, 640, 480, [0, 0, 0, 1, 0x41]⟩⟩

def clip (frames : List RecordingFrame) : MediumTermWriter :=
  frames.foldl (fun writer frame => (writer.appendReceived format parser frame faultless).2)
    (create 0 false)

theorem appended_clip {fs : List RecordingFrame} :
    ∀ {writer : MediumTermWriter}, AllSteps
      (fun writer frame => (writer.appendReceived format parser frame faultless).2)
      (fun writer frame => (writer.appendReceived format parser frame faultless).1.isOk) writer fs →
      Appended format parser writer (fs.map fun frame => (frame, faultless))
      (fs.foldl (fun writer frame => (writer.appendReceived format parser frame faultless).2)
      writer) := by
  induction fs with
  | nil =>
    intro writer _
    rfl
  | cons frame rest ih =>
    rintro writer ⟨accepted, remaining⟩
    cases answer : (writer.appendReceived format parser frame faultless).1 with
    | error error =>
      rw [answer] at accepted
      cases accepted
    | ok duration => exact ⟨duration, _, Prod.ext answer rfl, ih remaining⟩

end Fixture

open Fixture

/-- Two frames a thirtieth of a second apart and a deadline another one later. -/
theorem event_clip_closes_at_deadline_of_two :
    (((clip [keyframe 0, delta 33333333]).finalizeBefore format parser 66666666 faultless).1.isOk ∧
      clipTicks [keyframe 0, delta 33333333] = [0, 3000] ∧
      deadlineTick [keyframe 0, delta 33333333] 66666666 = 6000) ∧
    ((clip [keyframe 0, delta 33333333]).finalizeBefore format
      parser 66666666 faultless).1 ≠ .error .deadline := by
  refine ⟨by decide +kernel, ?_⟩
  have closes := event_clip_closes_at_deadline format parser 0 false
    ([keyframe 0, delta 33333333].map fun frame => (frame, faultless))
    (clip [keyframe 0, delta 33333333])
    (appended_clip (by decide +kernel)) (by decide +kernel) 66666666 faultless
  exact closes.1 (by decide +kernel)

/-- A deadline one nanosecond after the only frame is refused. So is one two thirds of
a millisecond after three frames of which the last two come a nanosecond apart: the
last is pushed forward by the time between the first two. -/
theorem deadline_after_every_frame_is_refused :
    ((clip [keyframe 0]).finalizeBefore format parser 1 faultless).1 = .error .deadline ∧
    ((clip [keyframe 0, delta 33333333, delta 33333334]).finalizeBefore format parser 34000000
        faultless).1 = .error .deadline := by
  decide +kernel

end KeepPeek.MediumTerm

