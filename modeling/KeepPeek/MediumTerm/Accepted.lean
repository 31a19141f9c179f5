import KeepPeek.MediumTerm.Deadline

/-! Which timings the segment writer accepts.

The container refuses a sample that does not follow the one before it, or follows it
at more than 32 bits of ticks, and a fragment that does not begin with a keyframe.
The writer never asks it for the first. It does ask for the others: after a jump of
the camera's clock, and after pending samples were discarded. -/
namespace KeepPeek.MediumTerm

open Lib
open Mp4 (FragmentedMp4Writer Format Sample FragmentInfo FragmentTrack TrackType u32Max)
open Mp4.FragmentedMp4Writer (Room samplesOf clearSamples track_congr
  track_discardPendingSamples track_setTrack_self track_setTrack_of_ne map_setTrack
  flushFragment_outcome)
open Storage (VideoCodec VideoFrame AudioFrame MediaFrame RecordingFrame)

/-- One codec with the same complete decoder parameters throughout, and the sample
rates of its audio. -/
structure Stream where
  codec : VideoCodec
  config : MediaConfig
  rates : Nat → Prop

/-- The container describes the stream's parameters, alone and beside the AAC track that
the writer makes for a frame, in the space it keeps for them at the front of the file,
and its boxes have at most `limit` bytes for a number of samples. -/
structure Suits (format : Format MediaConfig) (limit : Nat → Nat) (stream : Stream) : Prop where
  video : format.mediaConfigTrackType stream.config = .video
  starts : ∀ audio : Option AudioFrame, ∃ moov,
    format.moov ([stream.config] ::
      (audio.map fun frame => [(AudioFrame.track frame).config]).toList) = .ok moov ∧
    moov.length + Mp4.headerSize ≤ Mp4.initializationMetadataCapacity
  boxes : ∀ number tracks, (format.moof number tracks).length ≤ limit (samplesOf tracks).length

/-- A frame of the stream: unchanged parameters, audio durations that are positive and
representable. -/
def Stream.Steady (stream : Stream) (parser : Parser) (frame : RecordingFrame) : Prop :=
  match frame.frame with
  | .video video => video.codec = stream.codec ∧
    (video.isKeyframe → videoMediaConfig parser video = .ok (some stream.config)) ∧
    (hasParameterSets video → requiredVideoMediaConfig parser video = .ok stream.config)
  | .audio audio => (AudioFrame.rawAac audio).isSome →
    stream.rates (AudioFrame.timescale audio) ∧ ∀ rate, stream.rates rate →
      0 < durationToTicks audio.duration rate ∧ durationToTicks audio.duration rate ≤ u32Max

theorem durationToTicks_zero (duration : Nat) : durationToTicks duration 0 = 0 := by
  unfold durationToTicks saturatingMul saturatingAdd
  simp [u64Max]

namespace ActiveWriter

variable {video : VideoFrame}

structure Plain (track : FragmentTrack MediaConfig) : Prop where
  count : track.sampleDescriptionCount = 1
  pending : ∀ index ∈ track.pendingSampleDescriptionIndex, index = 1

/-- The invariant of a segment whose file is open. -/
structure Ready (stream : Stream) (active : ActiveWriter) : Prop where
  safe : active.writer.poisoned = false
  codec : active.videoCodec = stream.codec
  config : active.videoMediaConfig = stream.config
  index : active.videoSampleDescriptionIndex = 1
  duration : active.lastVideoDuration ≤ u32Max
  video : ∃ track, active.writer.track videoTrack = some track ∧ Plain track ∧
    track.trackType = .video ∧ track.sampleDescriptions = [stream.config] ∧
    ∀ last ∈ track.samples.getLast?, active.lastVideoDts = some last.startTime
  audio : ∀ place ∈ active.audioTrack, place = 2 ∧ stream.rates active.audioTimescale ∧
    ∃ track, active.writer.track 2 = some track ∧ Plain track ∧ track.trackType ≠ .video ∧
      ∀ last ∈ track.samples.getLast?, ∃ next, active.nextAudioDts = some next ∧
        last.startTime < next ∧ next ≤ last.startTime + u32Max

/-- What a video frame has to find. After pending samples were discarded only a
keyframe may follow; the camera's clock may not run ahead of the last sample by more
than 32 bits of ticks. -/
@[mk_iff]
structure AcceptsVideo (limit : Nat → Nat) (active : ActiveWriter) (video : VideoFrame)
    (camera : Nat) : Prop where
  room : Room limit active.writer
  bytes : video.data.length ≤ u32Max
  started : video.isKeyframe = false → active.pendingVideo ≠ []
  opened : video.isKeyframe → active.writer.hasPendingSamples → active.fragmentStartDts.isSome
  near : ∀ last ∈ active.lastVideoDts, camera ≤ last + u32Max ∧
    last + max active.lastVideoDuration 1 ≤ u64Max

/-- What the raw audio of a frame has to find. -/
@[mk_iff]
structure AcceptsAudio (limit : Nat → Nat) (active : ActiveWriter) (raw : List UInt8)
    (camera : Option Nat) (elapsed : Nat) : Prop where
  room : Room limit active.writer
  bytes : raw.length ≤ u32Max
  near : ∀ time ∈ camera, ∀ track ∈ active.writer.track 2, ∀ last ∈ track.samples.getLast?,
    time ≤ last.startTime + u32Max
  ends : audioDts active.nextAudioDts camera elapsed active.audioTimescale + u32Max ≤ u64Max

variable {f : Format MediaConfig} {parser : Parser} {limit : Nat → Nat} {stream : Stream}
  {a : ActiveWriter}

theorem Plain.clear {track : FragmentTrack MediaConfig} (h : Plain track) :
    Plain (clearSamples track) :=
  ⟨h.count, fun index mem => by cases mem⟩

theorem Ready.cleared (ready : Ready stream a) {container : FragmentedMp4Writer MediaConfig}
    (safe : container.poisoned = false)
    (cleared : container.tracks = a.writer.discardPendingSamples.tracks)
    (dts next start : Option Nat) (stored : List Sample) :
    Ready stream { a with
      writer := container, lastVideoDts := dts, nextAudioDts := next, fragmentStartDts := start,
      stored := stored } := by
  rcases ready.video with ⟨video, found, plain, kind, descriptions, _⟩
  refine ⟨safe, ready.codec, ready.config, ready.index, ready.duration, ?_, ?_⟩
  · refine ⟨clearSamples video, ?_, plain.clear, kind, descriptions, ?_⟩
    · rw [track_congr cleared, track_discardPendingSamples,
        found]
      rfl
    · intro last final
      cases final
  · intro place tracked
    rcases ready.audio place tracked with ⟨same, rate, audio, found, plain, kind, _⟩
    refine ⟨same, rate, clearSamples audio, ?_, plain.clear, kind, ?_⟩
    · rw [track_congr cleared, track_discardPendingSamples,
        found]
      rfl
    · intro last final
      cases final

theorem Ready.discardPending (ready : Ready stream a) : Ready stream a.discardPending := by
  have safe : a.writer.discardPendingSamples.poisoned = false := ready.safe
  exact ready.cleared safe rfl none none none a.stored

/-- A sample that waits has a later one after it. -/
theorem resolveVideoDts_follows {last camera fallback : Nat} (positive : 0 < fallback)
    (bound : fallback ≤ u32Max) (near : camera ≤ last + u32Max)
    (within : last + fallback ≤ u64Max) :
    last < resolveVideoDts (some last) camera fallback ∧
      resolveVideoDts (some last) camera fallback ≤ last + u32Max := by
  unfold resolveVideoDts saturatingAdd
  dsimp only
  split <;> omega

theorem Ready.withVideo (ready : Ready stream a)
    {container : FragmentedMp4Writer MediaConfig} {track : FragmentTrack MediaConfig}
    {dts : Option Nat} {duration : Nat} (found : container.track videoTrack = some track)
    (safe : container.poisoned = false) (other : container.track 2 = a.writer.track 2)
    (plain : Plain track)
    (kind : track.trackType = .video) (descriptions : track.sampleDescriptions = [stream.config])
    (bound : duration ≤ u32Max) (final : ∀ last ∈ track.samples.getLast?, dts = some last.startTime)
    (start : Option Nat) (stored : List Sample) :
    Ready stream { a with
      writer := container, lastVideoDts := dts, lastVideoDuration := duration,
      fragmentStartDts := start, stored := stored } := by
  refine ⟨safe, ready.codec, ready.config, ready.index, bound,
    ⟨track, found, plain, kind, descriptions, final⟩, ?_⟩
  intro place tracked
  rcases ready.audio place tracked with ⟨same, rate, audio, held, rest⟩
  exact ⟨same, rate, audio, other.trans held, rest⟩

def Open (active : ActiveWriter) (video : VideoFrame) (dts : Nat) : Prop :=
  ∀ track, active.writer.track videoTrack = some track →
    (track.samples = [] → video.isKeyframe) ∧
    (∀ last ∈ track.samples.getLast?, last.startTime < dts ∧ dts ≤ last.startTime + u32Max) ∧
    track.samples.length < u32Max

theorem writeVideoSample_ok (ready : Ready stream a) (bytes : video.data.length ≤ u32Max)
    {dts fallback : Nat} (opened : Open a video dts) (positive : 0 < fallback)
    (bound : fallback ≤ u32Max) :
    ∃ duration after, a.writeVideoSample video dts fallback = (.ok duration, after) ∧
      Ready stream after := by
  rcases ready.video with ⟨track, found, plain, kind, descriptions, _⟩
  rcases opened track found with ⟨starts, follows, few⟩
  have long := sampleDuration_pos a.lastVideoDts dts positive
  have accepted := @FragmentedMp4Writer.writeSample_of_follows _ a.writer videoTrack 1 track
    ⟨dts, sampleDuration a.lastVideoDts dts fallback, 0, video.isKeyframe, video.data⟩
    ready.safe (Nat.pos_iff_ne_zero.mp long) bytes found (by rw [plain.count]; omega) plain.pending
    (fun _ empty => starts empty) follows few
  rcases accepted with ⟨samples, _, written⟩
  rw [← ready.index] at written
  unfold writeVideoSample
  dsimp only
  rw [written]
  refine ⟨_, _, rfl, ?_⟩
  have held := track_setTrack_self found { track with
    samples := samples ++ [⟨dts, sampleDuration a.lastVideoDts dts fallback, 0,
      video.isKeyframe, video.data⟩]
    pendingSampleDescriptionIndex := some a.videoSampleDescriptionIndex }
  refine ready.withVideo held ready.safe
    (track_setTrack_of_ne (by decide) (by decide) _) ⟨plain.count, ?_⟩ kind
    descriptions (sampleDuration_le _ _ bound) ?_ _ _
  · intro index mem
    cases mem
    exact ready.index
  · intro last mem
    rw [List.getLast?_concat] at mem
    cases mem
    rfl

section

variable (suits : Suits f limit stream)
include suits

theorem flushFragmentBeforeSample_outcome (ready : Ready stream a) (room : Room limit a.writer)
    (pending : a.writer.hasPendingSamples) {dts : Nat}
    (follows : ∀ last ∈ a.lastVideoDts, last < dts ∧ dts ≤ last + u32Max) (faults : Faults) :
    Outcome (fun _ after => (∀ start, Ready stream { after with fragmentStartDts := start }) ∧
        ∀ track, after.writer.track videoTrack = some track → track.samples = [])
      (fun error after => error.isIo ∧ Ready stream after)
      (a.flushFragmentBeforeSample f dts faults) := by
  rcases ready.video with ⟨video, found, plain, kind, descriptions, final⟩
  have closes : ∃ samples, FragmentedMp4Writer.closeLast video.samples dts
      "fragment boundary does not follow the trailing sample" = .ok samples ∧
      samples.map (fun sample => sample.bytes.length) =
        video.samples.map (fun sample => sample.bytes.length) ∧
      ∀ last ∈ samples.getLast?, a.lastVideoDts = some last.startTime := by
    unfold FragmentedMp4Writer.closeLast
    cases held : video.samples.getLast? with
    | none =>
      refine ⟨video.samples, rfl, rfl, ?_⟩
      rw [held]
      intro last mem
      cases mem
    | some last =>
      have near := follows last.startTime (final last held)
      dsimp only
      rw [if_neg (by omega), if_neg (by omega)]
      refine ⟨_, rfl, ?_, ?_⟩
      · rcases List.getLast?_eq_some_iff.mp held with ⟨front, same⟩
        rw [same, List.dropLast_concat, List.map_append, List.map_append]
        rfl
      · intro closed mem
        rw [List.getLast?_concat] at mem
        cases mem
        exact final last held
  rcases closes with ⟨samples, closed, same, final'⟩
  have held := track_setTrack_self found { video with samples := samples }
  have other := @track_setTrack_of_ne _ a.writer videoTrack 2 (by decide)
    (by decide) { video with samples := samples }
  have sizes : (a.writer.setTrack videoTrack { video with samples := samples }).sizes =
      a.writer.sizes := map_setTrack _ found same
  have fits : Room limit (a.writer.setTrack videoTrack { video with samples := samples }) := by
    have pendingSizes : (a.writer.setTrack videoTrack { video with samples :=
        samples }).pendingSizes = a.writer.pendingSizes := congrArg (List.filter _) sizes
    refine ⟨room.sequence, ?_, ?_, ?_, room.place⟩
    · rw [sizes]
      exact room.few
    · rw [pendingSizes]
      exact room.size
    · rw [pendingSizes]
      exact room.offset
  have outcome := flushFragment_outcome suits.boxes
    (show (a.writer.setTrack videoTrack { video with samples := samples }).poisoned = false from
      ready.safe) fits faults.flush
  have waits : (a.writer.setTrack videoTrack { video with samples :=
      samples }).hasPendingSamples := by
    rw [FragmentedMp4Writer.hasPendingSamples_eq, sizes, ← FragmentedMp4Writer.hasPendingSamples_eq]
    exact pending
  have call : a.writer.flushFragmentBeforeSample f videoTrack dts faults.flush =
      (a.writer.setTrack videoTrack { video with samples := samples }).flushFragment f
        faults.flush := by
    unfold FragmentedMp4Writer.flushFragmentBeforeSample
    rw [ready.safe, found]
    simp only [Bool.false_eq_true, if_false, closed]
  unfold ActiveWriter.flushFragmentBeforeSample
  rw [call]
  revert outcome
  rcases FragmentedMp4Writer.flushFragment f
    (a.writer.setTrack videoTrack { video with samples := samples }) faults.flush with
    ⟨answer, container⟩
  intro outcome
  cases answer with
  | error error =>
    rcases outcome with ⟨rfl, safe, tracks⟩
    refine ⟨rfl, ?_⟩
    exact ready.withVideo ((track_congr tracks _).trans held) safe
      ((track_congr tracks _).trans other) ⟨plain.count, plain.pending⟩ kind
      descriptions ready.duration final' a.fragmentStartDts a.stored
  | ok fragment =>
    rcases outcome with ⟨safe, ⟨_, none, _⟩ | ⟨_, _, tracks⟩⟩
    · rw [waits] at none
      cases none
    have cleared : container.tracks = a.writer.discardPendingSamples.tracks :=
      tracks.trans (map_setTrack _ found rfl)
    refine ⟨fun start => ready.cleared safe cleared _ _ start _, ?_⟩
    intro track now
    rw [track_congr cleared, track_discardPendingSamples,
      found] at now
    cases now
    rfl

theorem completeFragment_outcome (ready : Ready stream a) {camera : Nat}
    (accepts : AcceptsVideo limit a video camera) {dts : Nat}
    (follows : ∀ last ∈ a.lastVideoDts, last < dts ∧ dts ≤ last + u32Max) (faults : Faults) :
    Outcome (fun _ after => Ready stream after ∧ Open after video dts)
      (fun error after => error.isIo ∧ Ready stream after)
      (a.completeFragment f video dts faults) := by
  unfold completeFragment
  split
  · rename_i ends
    rw [Bool.and_eq_true] at ends
    rcases Option.isSome_iff_exists.mp (accepts.opened ends.1 ends.2) with ⟨start, started⟩
    rw [started]
    refine (flushFragmentBeforeSample_outcome suits ready accepts.room ends.2 follows
      faults).andThen ?_
    rintro fragment after ⟨ready', cleared⟩
    refine ⟨ready' _, ?_⟩
    intro track found
    rw [cleared track found]
    refine ⟨fun _ => ends.1, ?_, by decide⟩
    intro last mem
    cases mem
  · rename_i goesOn
    refine ⟨ready, ?_⟩
    rcases ready.video with ⟨track', found', _, _, _, final⟩
    intro track found
    rw [found'] at found
    cases found
    refine ⟨?_, ?_, accepts.room.few_of_track found'⟩
    · intro empty
      by_contra delta
      apply accepts.started (by simpa using delta)
      unfold pendingVideo
      rw [found', Option.map_some, Option.getD_some, empty]
    · intro last mem
      exact follows last.startTime (final last mem)

theorem selectDescription_outcome (ready : Ready stream a) (codec : video.codec = stream.codec)
    (key : video.isKeyframe → MediumTerm.videoMediaConfig parser video = .ok (some stream.config))
    (unchanged : hasParameterSets video → requiredVideoMediaConfig parser video = .ok stream.config)
    (faults : Faults) : a.selectDescription f parser video faults = (.ok (), a) := by
  rcases ready.video with ⟨track, found, _, kind, descriptions, _⟩
  unfold selectDescription
  split
  · rename_i keyframe
    have known : a.writer.addSampleDescription f videoTrack stream.config faults.add =
        (.ok 1, a.writer) := by
      unfold FragmentedMp4Writer.addSampleDescription
      rw [ready.safe, if_neg Bool.false_ne_true, found]
      dsimp only
      rw [suits.video, kind, descriptions]
      simp [u32Max]
    rw [key keyframe]
    dsimp only
    rw [known]
    dsimp only
    rw [← ready.index, codec, ← ready.codec, ← ready.config]
  · rw [ready.codec, if_neg (by rw [codec]; exact fun h => h rfl)]
    split
    · rename_i sets
      rw [unchanged sets]
      dsimp only
      rw [ready.config, if_neg (fun h => h rfl)]
    · rfl

theorem writeVideo_outcome (ready : Ready stream a) (codec : video.codec = stream.codec)
    (key : video.isKeyframe → MediumTerm.videoMediaConfig parser video = .ok (some stream.config))
    (unchanged : hasParameterSets video → requiredVideoMediaConfig parser video = .ok stream.config)
    {camera : Nat} (accepts : AcceptsVideo limit a video camera) (faults : Faults) :
    Outcome (fun _ after => Ready stream after) (fun error after => error.isIo ∧ Ready stream after)
      (a.writeVideo f parser video camera faults) := by
  have bound : max a.lastVideoDuration 1 ≤ u32Max :=
    Nat.max_le.mpr ⟨ready.duration, by decide⟩
  have follows : ∀ last ∈ a.lastVideoDts,
      last < resolveVideoDts a.lastVideoDts camera (max a.lastVideoDuration 1) ∧
        resolveVideoDts a.lastVideoDts camera (max a.lastVideoDuration 1) ≤ last + u32Max := by
    intro last held
    have near := accepts.near last held
    rw [Option.mem_def.mp held]
    exact resolveVideoDts_follows (by omega) bound near.1 near.2
  unfold writeVideo
  dsimp only
  refine (completeFragment_outcome suits ready accepts follows faults).andThen ?_
  rintro completed between ⟨ready', opened⟩
  rw [selectDescription_outcome suits ready' codec key unchanged faults, andThen_ok]
  rcases writeVideoSample_ok ready' accepts.bytes opened (by omega) bound with
    ⟨duration, after, written, ready''⟩
  rw [written]
  exact ready''

end

theorem writeAudio_ok (ready : Ready stream a) {place : Nat}
    (tracked : a.audioTrack = some place) {audio : AudioFrame} {raw : List UInt8}
    (sized : ∀ rate, stream.rates rate → 0 < durationToTicks audio.duration rate ∧
      durationToTicks audio.duration rate ≤ u32Max) {camera : Option Nat} {elapsed : Nat}
    (accepts : AcceptsAudio limit a raw camera elapsed) :
    ∃ after, a.writeAudio place audio raw camera elapsed = (.ok (), after) ∧
      Ready stream after := by
  rcases ready.audio place tracked with ⟨rfl, rate, track, found, plain, kind, final⟩
  rcases sized _ rate with ⟨positive, bound⟩
  have duration : audioSampleDuration audio.duration a.audioTimescale =
      .ok (durationToTicks audio.duration a.audioTimescale) := by
    unfold audioSampleDuration
    dsimp only
    rw [if_neg]
    simp only [Bool.or_eq_true, decide_eq_true_eq]
    omega
  have follows : ∀ last ∈ track.samples.getLast?,
      last.startTime < audioDts a.nextAudioDts camera elapsed a.audioTimescale ∧
        audioDts a.nextAudioDts camera elapsed a.audioTimescale ≤ last.startTime + u32Max := by
    intro last held
    rcases final last held with ⟨next, waits, after, near⟩
    rw [waits]
    unfold audioDts
    cases given : camera with
    | none => exact ⟨after, near⟩
    | some time =>
      have close := accepts.near time given track found last held
      dsimp only
      omega
  have accepted := @FragmentedMp4Writer.writeSample_of_follows _ a.writer 2 1 track
    ⟨audioDts a.nextAudioDts camera elapsed a.audioTimescale,
      durationToTicks audio.duration a.audioTimescale, 0, true, raw⟩
    ready.safe (Nat.pos_iff_ne_zero.mp positive) accepts.bytes found (by rw [plain.count]; omega)
    plain.pending
    (fun _ _ => rfl) follows (accepts.room.few_of_track found)
  rcases accepted with ⟨samples, _, written⟩
  have ends : audioDts a.nextAudioDts camera elapsed a.audioTimescale +
      durationToTicks audio.duration a.audioTimescale ≤ u64Max := by
    have := accepts.ends
    omega
  unfold writeAudio writeAudioSample
  rw [duration, andThen_ok, written]
  refine ⟨_, if_pos ends, ?_⟩
  rcases ready.video with ⟨video, held, rest⟩
  refine ⟨ready.safe, ready.codec, ready.config, ready.index, ready.duration, ?_, ?_⟩
  · refine ⟨video, ?_, rest⟩
    rw [← held]
    exact track_setTrack_of_ne (by decide) (by decide) _
  · intro place' _
    refine ⟨?_, rate, _, track_setTrack_self found _, ⟨plain.count, ?_⟩, kind, ?_⟩
    · rename_i same
      exact (ready.audio place' same).1
    · intro index mem
      cases mem
      rfl
    · intro last mem
      rw [List.getLast?_concat] at mem
      cases mem
      refine ⟨_, rfl, ?_, ?_⟩
      · dsimp only
        omega
      · dsimp only
        omega

end ActiveWriter

namespace MediumTermWriter

variable {f : Format MediaConfig} {parser : Parser} {limit : Nat → Nat} {stream : Stream}
  {w : MediumTermWriter}
variable {fr : RecordingFrame} {fs : List RecordingFrame} {faults : Faults}

def active? (writer : MediumTermWriter) : Option ActiveWriter :=
  match writer.state with
  | .active active => some active
  | _ => none

def prepared? (writer : MediumTermWriter) : Option (List RecordingFrame) :=
  match writer.state with
  | .preparing frames => some frames
  | _ => none

def AcceptsMedia (limit : Nat → Nat) (writer : MediumTermWriter) (frame : RecordingFrame)
    (active : ActiveWriter) (elapsed : Nat) : MediaFrame → Prop
  | .video video => active.AcceptsVideo limit video
      (writer.cameraTicks frame elapsed videoTimescale)
  | .audio audio => ∀ raw ∈ AudioFrame.rawAac audio, active.audioTrack.isSome →
    active.AcceptsAudio limit raw
      (frame.timestamp.map fun _ => writer.cameraTicks frame elapsed active.audioTimescale) elapsed

def Accepts (limit : Nat → Nat) (writer : MediumTermWriter) (frame : RecordingFrame) : Prop :=
  ∀ active ∈ writer.active?, ∀ origin ∈ writer.segmentOrigin,
    writer.AcceptsMedia limit frame active (frame.receivedAt - origin) frame.frame

def Going (stream : Stream) (writer : MediumTermWriter) : Prop :=
  writer.segmentOrigin.isSome ∧ ∃ active, writer.state = .active active ∧ active.Ready stream

/-- Frames are prepared, a keyframe first. -/
def Preparing (stream : Stream) (parser : Parser) (writer : MediumTermWriter)
    (frames : List RecordingFrame) : Prop :=
  writer.state = .preparing frames ∧ writer.segmentOrigin.isSome ∧
    (∀ frame ∈ frames, stream.Steady parser frame) ∧
    ∃ first ∈ frames.head?, first.isVideoKeyframe

inductive Sound (stream : Stream) (parser : Parser) (writer : MediumTermWriter) : Prop
  | waiting : writer.state = .waitingForKeyframe → Sound stream parser writer
  | preparing {frames : List RecordingFrame} : writer.Preparing stream parser frames →
    Sound stream parser writer
  | going : writer.Going stream → Sound stream parser writer

theorem insertCatalogFragment_outcome (going : w.Going stream) (completed : Option Completed)
    (faults : Faults) :
    Outcome (fun _ after => after.Going stream) (fun error after => error.isIo ∧ after.Going stream)
      (w.insertCatalogFragment completed faults) := by
  unfold insertCatalogFragment
  split
  · exact going
  · split
    · exact ⟨rfl, going⟩
    · exact going

def AcceptsAll (format : Format MediaConfig) (parser : Parser) (limit : Nat → Nat)
    (faults : Faults) :
    MediumTermWriter → List RecordingFrame → Prop :=
  AllSteps (fun writer frame => (writer.writeFrame format parser frame faults).2)
    (fun writer frame => writer.Accepts limit frame)

theorem openWriterFile_outcome (faults : Faults) :
    Outcome (fun _ after => after.segmentOrigin = w.segmentOrigin ∧ after.state = w.state)
      (fun error after => error.isIo ∧ after.state = w.state) (w.openWriterFile faults) := by
  unfold openWriterFile
  split
  · split
    · exact ⟨rfl, rfl⟩
    · exact ⟨rfl, rfl⟩
  · split
    · split
      · exact ⟨rfl, rfl⟩
      · exact ⟨rfl, rfl⟩
    · exact ⟨rfl, rfl⟩

theorem audioTrackConfig_rate (steady : ∀ fr ∈ fs, stream.Steady parser fr)
    {track : AudioTrack} (found : audioTrackConfig fs = some track) :
    stream.rates track.timescale ∧ track.timescale ≠ 0 ∧
      ∃ frame, track = AudioFrame.track frame := by
  unfold audioTrackConfig at found
  rcases List.exists_of_findSome?_eq_some found with ⟨fr, mem, made⟩
  have steady := steady fr mem
  unfold Stream.Steady at steady
  split at made
  · cases made
  rename_i audio media
  rw [media] at steady
  rcases Option.map_eq_some_iff.mp made with ⟨raw, held, rfl⟩
  rcases steady (by rw [held]; rfl) with ⟨rate, sized⟩
  refine ⟨rate, ?_, audio, rfl⟩
  intro zero
  have positive := (sized _ rate).1
  have nothing : AudioFrame.timescale audio = 0 := zero
  rw [nothing, durationToTicks_zero] at positive
  exact Nat.lt_irrefl 0 positive

def PreparedAccepts (format : Format MediaConfig) (parser : Parser) (limit : Nat → Nat)
    (writer : MediumTermWriter) (faults : Faults) : Prop :=
  ∀ frames ∈ writer.prepared?,
    ∀ active ∈ ((writer.withState .waitingForKeyframe).initMp4 format parser frames
      faults).1.toOption,
    AcceptsAll format parser limit faults
      (((writer.withState .waitingForKeyframe).initMp4 format parser frames faults).2.withState
        (.active active)) frames

inductive Call where
  | append (frame : RecordingFrame) (faults : Faults)
  | discardPending

def execute (format : Format MediaConfig) (parser : Parser) (writer : MediumTermWriter) :
    Call → Except Error Nat × MediumTermWriter
  | .append frame faults => writer.appendOne format parser frame faults
  | .discardPending => (.ok 0, writer.discardPending)

def next (format : Format MediaConfig) (parser : Parser) (writer : MediumTermWriter) (call : Call) :
    MediumTermWriter :=
  (writer.execute format parser call).2

def Call.Steady (stream : Stream) (parser : Parser) : Call → Prop
  | .append frame _ => stream.Steady parser frame
  | .discardPending => True

/-- The call finds what it has to find: the prepared frames, where it writes them, and
its own. -/
def Call.Accepted (format : Format MediaConfig) (parser : Parser) (limit : Nat → Nat)
    (writer : MediumTermWriter) : Call → Prop
  | .append frame faults =>
    (frame.isVideoKeyframe → PreparedAccepts format parser limit writer faults) ∧
      (writer.settle format parser frame faults).2.Accepts limit frame
  | .discardPending => True

structure EndAccepted (format : Format MediaConfig) (parser : Parser) (limit : Nat → Nat)
    (writer : MediumTermWriter) (faults : Faults) : Prop where
  prepared : PreparedAccepts format parser limit writer faults
  room : ∀ active ∈ (writer.activatePrepared format parser faults).2.active?,
    Room limit active.writer ∧
      (active.writer.hasPendingSamples → active.fragmentStartDts.isSome)

theorem catalogFinal_outcome {a : ActiveWriter} {fragment : Option FragmentInfo}
    (begun : fragment.isSome → a.fragmentStartDts.isSome) (faults : Faults) :
    Outcome (fun _ _ => True) (fun error _ => error.isIo) (w.catalogFinal a fragment faults) := by
  unfold catalogFinal
  split
  · trivial
  · rename_i none
    have never := begun rfl
    rw [none] at never
    cases never
  · unfold insertCatalogFragment
    dsimp only
    split
    · rfl
    · trivial

section

variable (suits : Suits f limit stream)
include suits

theorem writeFrame_outcome (going : w.Going stream) (steady : stream.Steady parser fr)
    (accepts : w.Accepts limit fr) (faults : Faults) :
    Outcome (fun _ after => after.Going stream) (fun error after => error.isIo ∧ after.Going stream)
      (w.writeFrame f parser fr faults) := by
  rcases going with ⟨started, active, state, ready⟩
  rcases Option.isSome_iff_exists.mp started with ⟨origin, origin_eq⟩
  have opened : w.active? = some active := by
    unfold active?
    rw [state]
  have accepts := accepts active opened origin origin_eq
  unfold MediumTermWriter.writeFrame
  unfold Stream.Steady at steady
  rw [state, origin_eq]
  cases media : fr.frame with
  | video video =>
    rw [media] at steady accepts
    rcases steady with ⟨codec, key, unchanged⟩
    have written : Outcome (fun _ after => after.Going stream)
        (fun error after => error.isIo ∧ after.Going stream)
        (within (fun active => w.withState (.active active)) (active.writeVideo f parser video
            (w.cameraTicks fr (fr.receivedAt - origin) videoTimescale) faults)) := by
      apply Outcome.within
      refine (ActiveWriter.writeVideo_outcome suits ready codec key unchanged accepts
        faults).imp ?_ ?_
      · intro _ after ready
        exact ⟨started, after, rfl, ready⟩
      · intro error after failed
        exact ⟨failed.1, started, after, rfl, failed.2⟩
    refine written.andThen ?_
    intro answer between going
    have counted : (between.wrote video.data.length answer.1).Going stream := going
    exact insertCatalogFragment_outcome counted answer.2 faults
  | audio audio =>
    rw [media] at steady accepts
    show Outcome _ _ (w.writeAudioFrame active audio _ _)
    unfold writeAudioFrame
    split
    · rename_i raw place found tracked
      have takes := accepts raw found (by rw [tracked]; rfl)
      rcases ActiveWriter.writeAudio_ok ready tracked (steady (by rw [found]; rfl)).2 takes with
        ⟨after, written, ready'⟩
      rw [written]
      exact ⟨started, after, rfl, ready'⟩
    · exact ⟨started, active, state, ready⟩

theorem writeFrames_outcome (faults : Faults) : ∀ {w : MediumTermWriter}, w.Going stream →
    (∀ fr ∈ fs, stream.Steady parser fr) → AcceptsAll f parser limit faults w
    fs → Outcome (fun _ after => after.Going stream) (fun error after => error.isIo ∧
    after.Going stream) (writeFrames f parser faults w fs) := by
  induction fs with
  | nil =>
    intro w going _ _
    exact going
  | cons fr rest ih =>
    intro w going steady accepts
    have first := writeFrame_outcome suits going (steady fr List.mem_cons_self) accepts.1 faults
    have remaining : AcceptsAll f parser limit faults
        (w.writeFrame f parser fr faults).2 rest := accepts.2
    unfold writeFrames
    revert first remaining
    rcases w.writeFrame f parser fr faults with ⟨answer, between⟩
    intro first remaining
    cases answer with
    | error error => exact first
    | ok _ =>
      exact ih first (fun fr mem => steady fr (List.mem_cons_of_mem _ mem)) remaining

theorem writeStart_eq {audio : Option AudioTrack}
    (rated : ∀ track ∈ audio, track.timescale ≠ 0 ∧ ∃ frame, track = AudioFrame.track frame)
    (faults : Faults) : writeStart f stream.config audio faults = .error .io ∨ ∃ container,
    writeStart f stream.config audio faults = .ok container ∧ container.poisoned = false ∧
    container.tracks = (FragmentedMp4Writer.TrackConfig.mk TrackType.video [stream.config] ::
    (audio.map fun track => FragmentedMp4Writer.TrackConfig.mk TrackType.audio
    [track.config]).toList).map FragmentedMp4Writer.TrackConfig.start := by
  have timed : (audio.any fun track => track.timescale = 0) = false := by
    cases audio with
    | none => rfl
    | some track => simpa using (rated track rfl).1
  have built : ∃ metadata, f.initializationMetadata
      ([stream.config] :: (audio.map fun track => [track.config]).toList) = .ok metadata := by
    cases audio with
    | none =>
      obtain ⟨moov, described, small⟩ := suits.starts none
      exact f.initializationMetadata_of_moov described small
    | some track =>
      obtain ⟨frame, rfl⟩ := (rated track rfl).2
      obtain ⟨moov, described, small⟩ := suits.starts (some frame)
      exact f.initializationMetadata_of_moov described small
  obtain ⟨metadata, made⟩ := built
  unfold writeStart
  rw [timed]
  cases faults.start with
  | true => exact .inl rfl
  | false =>
    refine .inr ?_
    unfold FragmentedMp4Writer.writeStart
    cases audio with
    | none =>
      simp only [Option.map_none, Option.toList_none] at made
      simp [made, Except.mapError, u32Max]
    | some track =>
      simp only [Option.map_some, Option.toList_some] at made
      simp [made, Except.mapError, u32Max]

theorem initMp4_outcome {fs : List RecordingFrame} (steady : ∀ fr ∈ fs, stream.Steady parser fr)
    {first : RecordingFrame} (head : fs.head? = some first) (key : first.isVideoKeyframe)
    (faults : Faults) :
    Outcome (fun active after => active.Ready stream ∧ after.segmentOrigin = w.segmentOrigin)
      (fun error after => error.isIo ∧ after.state = w.state) (w.initMp4 f parser fs faults) := by
  have found : fs.find? RecordingFrame.isVideoKeyframe = some first := by
    cases fs with
    | nil => cases head
    | cons fr rest =>
      cases head
      rw [List.find?_cons_of_pos key]
  have steadyFirst := steady first (List.mem_of_mem_head? head)
  unfold Stream.Steady at steadyFirst
  unfold initMp4
  rw [found, Option.map_some]
  cases media : first.frame with
  | audio audio =>
    have never : first.frame.isVideoKeyframe = true := key
    rw [media] at never
    cases never
  | video video =>
    rw [media] at steadyFirst
    have keyframe : video.isKeyframe := by
      have shown : first.frame.isVideoKeyframe = true := key
      rw [media] at shown
      exact shown
    have config : requiredVideoMediaConfig parser video = .ok stream.config := by
      unfold requiredVideoMediaConfig
      rw [steadyFirst.2.1 keyframe]
    dsimp only
    rw [config]
    dsimp only
    refine (openWriterFile_outcome faults).andThen ?_
    rintro _ between ⟨origin, state⟩
    have rated : ∀ track ∈ audioTrackConfig fs, track.timescale ≠ 0 ∧
        ∃ frame, track = AudioFrame.track frame :=
      fun track given => (audioTrackConfig_rate steady given).2
    rcases writeStart_eq suits rated faults with failed | ⟨container, started, safe, tracks⟩
    · rw [failed]
      exact ⟨rfl, state⟩
    rw [started]
    dsimp only
    split
    · exact ⟨rfl, state⟩
    refine ⟨⟨safe, steadyFirst.1, rfl, rfl, Nat.zero_le _, ?_, ?_⟩, origin⟩
    · refine ⟨FragmentedMp4Writer.TrackConfig.start ⟨.video, [stream.config]⟩, ?_, ⟨rfl, ?_⟩, rfl,
        rfl, ?_⟩
      · unfold FragmentedMp4Writer.track
        rw [tracks]
        rfl
      · intro index mem
        cases mem
      · intro last mem
        cases mem
    · intro place tracked
      rcases Option.map_eq_some_iff.mp tracked with ⟨track, given, rfl⟩
      refine ⟨rfl, ?_, FragmentedMp4Writer.TrackConfig.start ⟨.audio, [track.config]⟩, ?_,
        ⟨rfl, ?_⟩, TrackType.noConfusion, ?_⟩
      · dsimp only
        rw [given]
        exact (audioTrackConfig_rate steady given).1
      · unfold FragmentedMp4Writer.track
        rw [tracks, given]
        rfl
      · intro index mem
        cases mem
      · intro last mem
        cases mem

theorem activatePrepared_outcome (preparing : w.Preparing stream parser fs)
    (accepts : PreparedAccepts f parser limit w faults) :
    Outcome (fun _ after => after.Going stream)
      (fun error after => error.isIo ∧ after.Sound stream parser)
      (w.activatePrepared f parser faults) := by
  rcases preparing with ⟨state, origin, steady, first, head, key⟩
  have started := @initMp4_outcome f parser limit stream
    (w.withState .waitingForKeyframe) suits fs steady first head key faults
  have prepared : w.prepared? = some fs := by
    unfold prepared?
    rw [state]
  have accepts := accepts fs prepared
  unfold activatePrepared
  rw [state]
  dsimp only
  revert started accepts
  rcases (w.withState .waitingForKeyframe).initMp4 f parser fs faults with
    ⟨answer, opened⟩
  intro started accepts
  cases answer with
  | error error => exact ⟨started.1, .waiting started.2⟩
  | ok active =>
    have going : (opened.withState (.active active)).Going stream := by
      refine ⟨?_, active, rfl, started.1⟩
      have same : opened.segmentOrigin = w.segmentOrigin := started.2
      show opened.segmentOrigin.isSome
      rw [same]
      exact origin
    refine (writeFrames_outcome suits faults going steady (accepts active rfl)).imp ?_ ?_
    · intro _ after going
      exact going
    · intro error after failed
      exact ⟨failed.1, .going failed.2⟩

theorem settle_outcome (sound : w.Sound stream parser) (started : w.state ≠ .waitingForKeyframe)
    (accepts : fr.isVideoKeyframe → PreparedAccepts f parser limit w faults) :
    Outcome (fun _ after => after.Going stream ∨ ∃ fs, after.Preparing stream parser fs)
      (fun error after => error.isIo ∧ after.Sound stream parser)
      (w.settle f parser fr faults) := by
  unfold settle
  cases sound with
  | waiting state => exact absurd state started
  | preparing preparing =>
    split
    · rename_i key
      refine (activatePrepared_outcome suits preparing (accepts key)).imp ?_ ?_
      · intro _ after going
        exact .inl going
      · intro error after failed
        exact failed
    · exact .inr ⟨_, preparing⟩
  | going going =>
    split
    · rcases going with ⟨origin, active, state, ready⟩
      unfold activatePrepared
      rw [state]
      exact .inl ⟨origin, active, state, ready⟩
    · exact .inl going

theorem takeFrame_outcome (sound : w.Going stream ∨ ∃ fs, w.Preparing stream parser fs)
    (steady : stream.Steady parser fr) (accepts : w.Accepts limit fr) (faults : Faults) :
    Outcome (fun _ after => after.Sound stream parser)
      (fun error after => error.isIo ∧ after.Sound stream parser)
      (w.takeFrame f parser fr faults) := by
  unfold takeFrame
  rcases sound with going | ⟨fs, state, origin, all, first, head, key⟩
  · have written := writeFrame_outcome suits going steady accepts faults
    rcases going with ⟨_, active, state, _⟩
    rw [state]
    refine written.imp ?_ ?_
    · intro _ after going
      exact .going going
    · intro error after failed
      exact ⟨failed.1, .going failed.2⟩
  · rw [state]
    refine .preparing ⟨rfl, origin, ?_, first, ?_, key⟩
    · intro other mem
      rcases List.mem_append.mp mem with earlier | same
      · exact all other earlier
      · rw [List.mem_singleton.mp same]
        exact steady
    · rw [Option.mem_def, List.head?_append, Option.mem_def.mp head]
      rfl

theorem execute_outcome (sound : w.Sound stream parser) {call : Call}
    (steady : call.Steady stream parser) (accepted : call.Accepted f parser limit w) :
    Outcome (fun _ after => after.Sound stream parser)
      (fun error after => error.isIo ∧ after.Sound stream parser) (w.execute f parser call) := by
  cases call with
  | discardPending =>
    show (w.discardPending).Sound stream parser
    unfold discardPending
    cases sound with
    | waiting state =>
      rw [state]
      exact .waiting rfl
    | preparing preparing =>
      rw [preparing.1]
      exact .waiting rfl
    | going going =>
      rcases going with ⟨origin, active, state, ready⟩
      rw [state]
      exact .going ⟨origin, active.discardPending, rfl, ready.discardPending⟩
  | append fr faults =>
    show Outcome _ _ (w.appendOne f parser fr faults)
    unfold appendOne
    split
    · rename_i state
      split
      · rename_i key
        refine .preparing ⟨rfl, rfl, ?_, fr, rfl, key⟩
        intro other mem
        rw [List.mem_singleton.mp mem]
        exact steady
      · exact .waiting state
    · rename_i started
      have settled := settle_outcome suits sound (fun state => started state) accepted.1
      have accepts := accepted.2
      dsimp only
      revert settled accepts
      rcases w.settle f parser fr faults with ⟨answer, between⟩
      intro settled accepts
      cases answer with
      | error error => exact settled
      | ok _ =>
        refine (takeFrame_outcome suits settled steady accepts faults).andThen ?_
        intro _ after sound
        exact sound

theorem finalize_outcome (sound : w.Sound stream parser)
    (accepted : EndAccepted f parser limit w faults) :
    Outcome (fun _ _ => True) (fun error _ => error.isIo) (w.finalize f parser faults) := by
  have opened : Outcome (fun _ after => after.Going stream ∨ after.state = .waitingForKeyframe)
      (fun error _ => error.isIo) (w.activatePrepared f parser faults) := by
    cases sound with
    | waiting state =>
      unfold activatePrepared
      rw [state]
      exact .inr state
    | preparing preparing =>
      refine (activatePrepared_outcome suits preparing accepted.prepared).imp ?_ ?_
      · intro _ after going
        exact .inl going
      · intro error after failed
        exact failed.1
    | going going =>
      rcases going with ⟨origin, active, state, ready⟩
      unfold activatePrepared
      rw [state]
      exact .inl ⟨origin, active, state, ready⟩
  have room := accepted.room
  unfold finalize
  revert opened room
  rcases w.activatePrepared f parser faults with ⟨answer, between⟩
  intro opened room
  cases answer with
  | error error => exact opened
  | ok _ =>
    rcases opened with ⟨origin, active, state, ready⟩ | state
    · have opened : between.active? = some active := by
        unfold active?
        rw [state]
      have fits := room active opened
      show Outcome _ _ (match between.state with
        | .active active => (between.withState .waitingForKeyframe).close f active faults
        | _ => (.ok [], between))
      rw [state]
      dsimp only
      have flushed := flushFragment_outcome suits.boxes ready.safe fits.1
        faults.flush
      unfold close
      revert flushed
      rcases active.writer.flushFragment f faults.flush with ⟨answer, container⟩
      intro flushed
      cases answer with
      | error error =>
        rcases flushed with ⟨rfl, _⟩
        rfl
      | ok fragment =>
        dsimp only
        split
        · rfl
        have begun : fragment.isSome → active.fragmentStartDts.isSome := by
          intro written
          rcases flushed with ⟨_, ⟨rfl, _⟩ | ⟨pending, _⟩⟩
          · cases written
          · exact fits.2 pending
        refine (catalogFinal_outcome begun faults).andThen ?_
        intro _ after _
        split
        · rfl
        · trivial
    · show Outcome _ _ (match between.state with
        | .active active => (between.withState .waitingForKeyframe).close f active faults
        | _ => (.ok [], between))
      rw [state]
      trivial

end

def FailsByIo {α σ : Type} (result : Except Error α × σ) : Prop :=
  ∀ error, result.1 = .error error → error.isIo

theorem failsByIo_of_outcome {α σ : Type} {good : α → σ → Prop} {bad : Error → σ → Prop}
    {result : Except Error α × σ} (h : Outcome good bad result)
    (io : ∀ error state, bad error state → error.isIo) : FailsByIo result := by
  rcases result with ⟨answer, state⟩
  intro error failed
  cases failed
  exact io error state h

end MediumTermWriter

open MediumTermWriter

/-- The segment writer accepts any timing but two: a camera clock that jumps ahead of
the last sample by more than 32 bits of ticks, and anything but a keyframe after
pending samples were discarded. For every stream with unchanged parameters, a run
all of whose calls find that and have room in the container fails by the file or
the catalog only, and so does its end. -/
theorem segment_writer_accepts_timing (format : Format MediaConfig) (parser : Parser)
    (limit : Nat → Nat) (stream : Stream) (suits : Suits format limit stream) (startedAtMs : Int)
    (reservation : Bool) (calls : List Call) (steady : ∀ call ∈ calls, call.Steady stream parser)
    (accepted : AllSteps (next format parser)
      (fun writer call => call.Accepted format parser limit writer)
      (create startedAtMs reservation) calls) (faults : Faults) :
    AllSteps (next format parser) (fun writer call => FailsByIo (writer.execute format parser call))
        (create startedAtMs reservation) calls ∧
      (EndAccepted format parser limit
          (calls.foldl (next format parser) (create startedAtMs reservation)) faults →
        FailsByIo ((calls.foldl (next format parser)
          (create startedAtMs reservation)).finalize format
          parser faults)) := by
  have initial : (create startedAtMs reservation).Sound stream parser := .waiting rfl
  have safe := (AllSteps.of_forall steady (create startedAtMs reservation)).and accepted
  have preserved : ∀ (writer : MediumTermWriter) (call : Call), writer.Sound stream parser →
      call.Steady stream parser ∧ call.Accepted format parser limit writer →
      (next format parser writer call).Sound stream parser := by
    intro writer call sound given
    have outcome := execute_outcome suits sound given.1 given.2
    unfold next
    revert outcome
    rcases writer.execute format parser call with ⟨answer, after⟩
    intro outcome
    cases answer with
    | error error => exact outcome.2
    | ok _ => exact outcome
  constructor
  · refine AllSteps.of_invariant preserved ?_ initial safe
    intro writer call sound given
    exact failsByIo_of_outcome (execute_outcome suits sound given.1 given.2)
      (fun error state failed => failed.1)
  · intro ends
    have sound := safe.foldl_invariant preserved initial
    exact failsByIo_of_outcome (finalize_outcome suits sound ends)
      (fun error state failed => failed)

namespace Fixture

/-- The stream of the fixed frames, with audio at 16 kHz. -/
def stream : Stream := ⟨.h264, .avc 640 480 [0x67] [0x68], fun rate => rate = 16000⟩

def sound (receivedAt : Nat) : RecordingFrame :=
  ⟨receivedAt, none, .audio ⟨.aac, 16000, 64000000, [1, 2, 3]⟩⟩

theorem suits : Suits format (fun _ => 0) stream where
  video := rfl
  starts := fun _ => ⟨[], rfl, by decide⟩
  boxes := fun _ _ => Nat.zero_le _

theorem steady_keyframe (receivedAt : Nat) : stream.Steady parser (keyframe receivedAt) := by
  refine ⟨rfl, ?_, ?_⟩
  · intro _
    decide +kernel
  · intro _
    decide +kernel

theorem steady_delta (receivedAt : Nat) : stream.Steady parser (delta receivedAt) := by
  refine ⟨rfl, ?_, ?_⟩
  · intro key
    cases key
  · intro sets
    revert sets
    decide +kernel

theorem steady_sound (receivedAt : Nat) : stream.Steady parser (sound receivedAt) := by
  intro _
  refine ⟨by rfl, ?_⟩
  rintro rate rfl
  decide +kernel

def answer (calls : List Call) : Option Error :=
  match calls.getLast? with
  | none => none
  | some last =>
    match ((calls.dropLast.foldl (next format parser) (create 0 false)).execute format parser
      last).1 with
    | .ok _ => none
    | .error error => some error

def append (frame : RecordingFrame) : Call := .append frame faultless

def second : Nat := 1000000000

end Fixture

open Fixture

section Decide

variable {format : Format MediaConfig} {parser : Parser} {limit : Nat → Nat}

instance (writer : FragmentedMp4Writer MediaConfig) : Decidable (Room limit writer) :=
  decidable_of_iff' _ (FragmentedMp4Writer.room_iff limit writer)

instance (active : ActiveWriter) (video : VideoFrame) (camera : Nat) :
    Decidable (active.AcceptsVideo limit video camera) :=
  decidable_of_iff' _ (ActiveWriter.acceptsVideo_iff limit active video camera)

instance (active : ActiveWriter) (raw : List UInt8) (camera : Option Nat) (elapsed : Nat) :
    Decidable (active.AcceptsAudio limit raw camera elapsed) :=
  decidable_of_iff' _ (ActiveWriter.acceptsAudio_iff limit active raw camera elapsed)

instance (writer : MediumTermWriter) (frame : RecordingFrame) (active : ActiveWriter)
    (elapsed : Nat) : ∀ media : MediaFrame,
      Decidable (writer.AcceptsMedia limit frame active elapsed media)
  | .video video => inferInstanceAs (Decidable (active.AcceptsVideo limit video _))
  | .audio audio => inferInstanceAs (Decidable (∀ raw ∈ AudioFrame.rawAac audio,
      active.audioTrack.isSome → active.AcceptsAudio limit raw _ elapsed))

instance (writer : MediumTermWriter) (frame : RecordingFrame) :
    Decidable (writer.Accepts limit frame) :=
  inferInstanceAs (Decidable (∀ active ∈ writer.active?, ∀ origin ∈ writer.segmentOrigin,
    writer.AcceptsMedia limit frame active (frame.receivedAt - origin) frame.frame))

instance (writer : MediumTermWriter) (faults : Faults) (frames : List RecordingFrame) :
    Decidable (AcceptsAll format parser limit faults writer frames) :=
  AllSteps.decidable writer frames

instance (writer : MediumTermWriter) (faults : Faults) :
    Decidable (PreparedAccepts format parser limit writer faults) :=
  inferInstanceAs (Decidable (∀ frames ∈ writer.prepared?, ∀ active ∈ _,
    AcceptsAll _ _ _ _ _ frames))

instance (writer : MediumTermWriter) :
    ∀ call : Call, Decidable (call.Accepted format parser limit writer)
  | .append _ _ => inferInstanceAs (Decidable ((_ → PreparedAccepts _ _ _ _ _) ∧ Accepts _ _ _))
  | .discardPending => .isTrue trivial

end Decide

/-- Two keyframes, then sound, then the pending samples are discarded and a keyframe
follows. -/
theorem segment_writer_accepts_timing_of_discard :
    AllSteps (next format parser) (fun writer call => FailsByIo (writer.execute format parser call))
      (create 0 false)
      [append (keyframe 0), append (sound 5), append (keyframe second), append (sound second),
        .discardPending, append (keyframe 7)] := by
  refine (segment_writer_accepts_timing format parser (fun _ => 0) stream
    suits 0 false _ ?_ (by decide +kernel) faultless).1
  intro call mem
  simp only [List.mem_cons, List.not_mem_nil, or_false] at mem
  rcases mem with rfl | rfl | rfl | rfl | rfl | rfl
  · exact steady_keyframe 0
  · exact steady_sound 5
  · exact steady_keyframe second
  · exact steady_sound second
  · trivial
  · exact steady_keyframe 7

/-- The clock jumps by fourteen hours; a frame that is no keyframe follows discarded
samples; sound follows them, and then a keyframe. -/
theorem timing_is_refused :
    (∀ receivedAt, stream.Steady parser (keyframe receivedAt) ∧
      stream.Steady parser (delta receivedAt) ∧
      stream.Steady parser (sound receivedAt)) ∧
    answer [append (keyframe 0), append (keyframe second), append (keyframe (50400 * second))] =
        some (.mp4 (.invalidData "fragmented MP4 sample duration exceeds u32")) ∧
    answer [append (keyframe 0), append (keyframe second),
      .discardPending, append (delta (2 * second))] =
        some (.mp4 (.invalidData "fragmented MP4 video fragment must start with a sync sample")) ∧
    answer [append (keyframe 0), append (sound 5), append (keyframe second), .discardPending,
      append (sound (2 * second)),
      append (keyframe (3 * second))] =
        some (.invalid "active MP4 fragment has no start timestamp") := by
  refine ⟨?_, by decide +kernel⟩
  intro receivedAt
  exact ⟨steady_keyframe receivedAt, steady_delta receivedAt, steady_sound receivedAt⟩

end KeepPeek.MediumTerm
