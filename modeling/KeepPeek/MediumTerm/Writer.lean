import KeepPeek.Lib.Outcome
import KeepPeek.MediumTerm.Codec
import Mathlib.Algebra.Group.Int.Defs

/-! The segment writer: from the frames of a stream to the samples of a fragmented
MP4 file.

A segment waits for a keyframe, prepares the frames up to the second one, from which
it learns whether there is audio, and then writes. Video decode times come from the
camera's timestamps, or from the times of receipt where those are missing, and are
pushed forward where they would not increase. Every call carries the failures of the
file and catalog operations it makes. -/
namespace KeepPeek.MediumTerm

open Lib
open Mp4 (FragmentedMp4Writer Format Sample FragmentInfo FragmentTrack u32Max)
open Storage (VideoCodec VideoFrame AudioFrame RecordingFrame durationMax)

def videoTimescale : Nat := 90000

/-- To the nearest tick, half a tick upwards. -/
@[irreducible] def durationToTicks (duration timescale : Nat) : Nat :=
  let wholeSeconds := saturatingMul (duration / 10 ^ 9) timescale
  let fractional :=
    saturatingAdd (saturatingMul (duration % 10 ^ 9) timescale) 500000000 / 10 ^ 9
  saturatingAdd wholeSeconds fractional

def ticksToDuration (ticks timescale : Nat) : Nat :=
  if timescale = 0 then 0
  else
    ticks / timescale * 10 ^ 9 +
      min (saturatingMul (ticks % timescale) (10 ^ 9) / timescale) 999999999

def ticksToMillis (ticks timescale : Nat) : Nat := min (ticks * 1000 / timescale) u64Max

def resolveVideoDts (previous : Option Nat) (camera fallback : Nat) : Nat :=
  match previous with
  | none => camera
  | some previous =>
    if previous < camera then camera else saturatingAdd previous (max fallback 1)

def timestampTicksOrFallback (timestamp origin : Option Nat) (wallElapsed timescale : Nat) : Nat :=
  let elapsed :=
    match timestamp, origin with
    | some timestamp, some origin => timestamp - origin
    | _, _ => wallElapsed
  durationToTicks elapsed timescale

def audioSampleDuration (duration timescale : Nat) : Except Error Nat :=
  let ticks := durationToTicks duration timescale
  if ticks = 0 || u32Max < ticks then .error (.invalid "invalid audio frame duration")
  else .ok ticks

structure Faults where
  openFile : Bool
  start : Bool
  catalog : Bool
  add : FragmentedMp4Writer.AddFaults
  flush : FragmentedMp4Writer.FlushFaults
  close : Bool
  complete : Bool
deriving DecidableEq, Repr

/-- A fragment that was written, with the video times it begins and ends at. -/
structure Completed where
  fragment : FragmentInfo
  startDts : Nat
  endDts : Nat
deriving DecidableEq, Repr

/-- A segment whose file is open. `stored` are the video samples on the file, as
written. -/
structure ActiveWriter where
  writer : FragmentedMp4Writer MediaConfig
  videoCodec : VideoCodec
  videoMediaConfig : MediaConfig
  videoSampleDescriptionIndex : Nat
  audioTrack : Option Nat
  audioTimescale : Nat
  lastVideoDts : Option Nat
  lastVideoDuration : Nat
  fragmentStartDts : Option Nat
  nextAudioDts : Option Nat
  stored : List Sample

def videoTrack : Nat := 1

namespace ActiveWriter

def pendingVideo (active : ActiveWriter) : List Sample :=
  ((active.writer.track videoTrack).map FragmentTrack.samples).getD []

def closedAt (samples : List Sample) (stop : Nat) : List Sample :=
  match samples.getLast? with
  | none => []
  | some last => samples.dropLast ++ [{ last with duration := stop - last.startTime }]

def flushFragmentBeforeSample (format : Format MediaConfig) (active : ActiveWriter) (stop : Nat)
    (faults : Faults) : Except Error (Option FragmentInfo) × ActiveWriter :=
  match active.writer.flushFragmentBeforeSample format videoTrack stop faults.flush with
  | (.error error, writer) => (.error (.mp4 error), { active with writer })
  | (.ok fragment, writer) =>
    (.ok fragment,
      { active with writer, stored := active.stored ++ closedAt active.pendingVideo stop })

def completeFragment (format : Format MediaConfig) (active : ActiveWriter) (video : VideoFrame)
    (dts : Nat) (faults : Faults) : Except Error (Option Completed) × ActiveWriter :=
  if video.isKeyframe && active.writer.hasPendingSamples then
    match active.fragmentStartDts with
    | none => (.error (.invalid "active MP4 fragment has no start timestamp"), active)
    | some startDts =>
      andThen (active.flushFragmentBeforeSample format dts faults) fun fragment active =>
        (.ok (fragment.map fun fragment => ⟨fragment, startDts, dts⟩),
          { active with fragmentStartDts := some dts })
  else (.ok none, active)

def selectDescription (format : Format MediaConfig) (parser : Parser) (active : ActiveWriter)
    (video : VideoFrame) (faults : Faults) : Except Error Unit × ActiveWriter :=
  if video.isKeyframe then
    match MediumTerm.videoMediaConfig parser video with
    | .error error => (.error error, active)
    | .ok (some config) =>
      match active.writer.addSampleDescription format videoTrack config faults.add with
      | (.error error, writer) => (.error (.mp4 error), { active with writer })
      | (.ok index, writer) =>
        (.ok (), { active with
          writer, videoSampleDescriptionIndex := index, videoCodec := video.codec,
          videoMediaConfig := config })
    | .ok none =>
      if video.codec ≠ active.videoCodec then
        (.error (.invalid "video codec changed without decoder parameters"), active)
      else (.ok (), active)
  else if video.codec ≠ active.videoCodec then
    (.error (.invalid "video codec changed without a keyframe boundary"), active)
  else if hasParameterSets video then
    match requiredVideoMediaConfig parser video with
    | .error error => (.error error, active)
    | .ok config =>
      if config ≠ active.videoMediaConfig then
        (.error (.invalid "video decoder parameters changed without a keyframe boundary"), active)
      else (.ok (), active)
  else (.ok (), active)

def sampleDuration (last : Option Nat) (dts fallback : Nat) : Nat :=
  match last with
  | none => fallback
  | some last => if dts - last ≤ u32Max && 0 < dts - last then dts - last else fallback

def writeVideoSample (active : ActiveWriter) (video : VideoFrame) (dts fallback : Nat) :
    Except Error Nat × ActiveWriter :=
  let active := { active with fragmentStartDts := some (active.fragmentStartDts.getD dts) }
  let duration := sampleDuration active.lastVideoDts dts fallback
  match active.writer.writeSampleWithDescription videoTrack active.videoSampleDescriptionIndex
      ⟨dts, duration, 0, video.isKeyframe, video.data⟩ with
  | (.error error, writer) => (.error (.mp4 error), { active with writer })
  | (.ok _, writer) =>
    (.ok duration, { active with
      writer, lastVideoDts := some dts, lastVideoDuration := duration })

def writeVideo (format : Format MediaConfig) (parser : Parser) (active : ActiveWriter)
    (video : VideoFrame) (cameraDts : Nat) (faults : Faults) :
    Except Error (Nat × Option Completed) × ActiveWriter :=
  let fallback := max active.lastVideoDuration 1
  let dts := resolveVideoDts active.lastVideoDts cameraDts fallback
  andThen (active.completeFragment format video dts faults) fun completed active =>
  andThen (active.selectDescription format parser video faults) fun _ active =>
  andThen (active.writeVideoSample video dts fallback) fun duration active =>
  (.ok (duration, completed), active)

def audioDts (next camera : Option Nat) (elapsed timescale : Nat) : Nat :=
  match next, camera with
  | some next, some camera => max next camera
  | some next, none => next
  | none, some camera => camera
  | none, none => durationToTicks elapsed timescale

def writeAudioSample (active : ActiveWriter) (track dts duration : Nat) (raw : List UInt8) :
    Except Error Unit × ActiveWriter :=
  match active.writer.writeSampleWithDescription track 1 ⟨dts, duration, 0, true, raw⟩ with
  | (.error error, writer) => (.error (.mp4 error), { active with writer })
  | (.ok _, writer) =>
    if dts + duration ≤ u64Max then
      (.ok (), { active with writer, nextAudioDts := some (dts + duration) })
    else (.error .panicked, { active with writer })

def writeAudio (active : ActiveWriter) (track : Nat) (audio : AudioFrame) (raw : List UInt8)
    (camera : Option Nat) (elapsed : Nat) : Except Error Unit × ActiveWriter :=
  andThen (audioSampleDuration audio.duration active.audioTimescale, active) fun duration active =>
    active.writeAudioSample track
      (audioDts active.nextAudioDts camera elapsed active.audioTimescale) duration raw

def discardPending (active : ActiveWriter) : ActiveWriter :=
  { active with
    writer := active.writer.discardPendingSamples, fragmentStartDts := none, lastVideoDts := none,
    nextAudioDts := none }

end ActiveWriter

inductive WriterState where
  | waitingForKeyframe
  | preparing (frames : List RecordingFrame)
  | active (writer : ActiveWriter)

structure CatalogFragment where
  sequence : Nat
  startMs : Int
  durationMs : Nat
  range : ByteRange
  keyframe : Option Mp4.SampleLocation
deriving DecidableEq, Repr

/-- A segment. `catalogued` are the fragments entered into the catalog. -/
structure MediumTermWriter where
  state : WriterState
  startedAtMs : Int
  segmentOrigin : Option Nat
  cameraTimestampOrigin : Option Nat
  framesWritten : Nat
  bytesWritten : Nat
  recordedDuration : Nat
  reservation : Bool
  namedVolume : Bool
  catalogued : List CatalogFragment

namespace MediumTermWriter

/-- A segment on a named volume holds a reservation for its file. -/
def create (startedAtMs : Int) (reservation : Bool) : MediumTermWriter :=
  ⟨.waitingForKeyframe, startedAtMs, none, none, 0, 0, 0, reservation, reservation, []⟩

def withState (writer : MediumTermWriter) (state : WriterState) : MediumTermWriter :=
  { writer with state }

def openWriterFile (writer : MediumTermWriter) (faults : Faults) :
    Except Error Unit × MediumTermWriter :=
  if writer.reservation then
    (if faults.openFile then .error .io else .ok (), { writer with reservation := false })
  else if !writer.namedVolume then (if faults.openFile then .error .io else .ok (), writer)
  else (.error .reservationTaken, writer)

/-- `FragmentedMp4Writer::write_start` on the new file. -/
def writeStart (format : Format MediaConfig) (config : MediaConfig) (audio : Option AudioTrack)
    (faults : Faults) : Except Error (FragmentedMp4Writer MediaConfig) :=
  if audio.any fun track => track.timescale = 0 then
    .error (.mp4 (.invalidData "MP4 timescales must be non-zero"))
  else if faults.start then .error .io
  else
    (FragmentedMp4Writer.writeStart format ⟨Image.blank, 0⟩
      (⟨.video, [config]⟩ :: (audio.map fun track =>
        ⟨.audio, [track.config]⟩).toList)).mapError .mp4

def initMp4 (format : Format MediaConfig) (parser : Parser) (writer : MediumTermWriter)
    (frames : List RecordingFrame) (faults : Faults) :
    Except Error ActiveWriter × MediumTermWriter :=
  match (frames.find? RecordingFrame.isVideoKeyframe).map RecordingFrame.frame with
  | none => (.error (.invalid "prepared MP4 segment has no keyframe"), writer)
  | some (.audio _) => (.error (.invalid "prepared MP4 keyframe is not video"), writer)
  | some (.video video) =>
    match requiredVideoMediaConfig parser video with
    | .error error => (.error error, writer)
    | .ok config =>
      let audio := audioTrackConfig frames
      andThen (writer.openWriterFile faults) fun _ writer =>
      match writeStart format config audio faults with
      | .error error => (.error error, writer)
      | .ok container =>
        if faults.catalog then (.error .io, writer)
        else
          (.ok {
            writer := container
            videoCodec := video.codec
            videoMediaConfig := config
            videoSampleDescriptionIndex := 1
            audioTrack := audio.map fun _ => 2
            audioTimescale := (audio.map AudioTrack.timescale).getD 0
            lastVideoDts := none
            lastVideoDuration := 0
            fragmentStartDts := none
            nextAudioDts := none
            stored := [] }, writer)

def catalogFragment (writer : MediumTermWriter) (completed : Completed) : CatalogFragment where
  sequence := completed.fragment.sequenceNumber
  startMs := min (writer.startedAtMs + min (ticksToMillis completed.startDts videoTimescale)
    (2 ^ 63 - 1)) (2 ^ 63 - 1)
  durationMs := max (ticksToMillis (completed.endDts - completed.startDts) videoTimescale) 1
  range := completed.fragment.range
  keyframe := completed.fragment.videoKeyframe

def insertCatalogFragment (writer : MediumTermWriter) (completed : Option Completed)
    (faults : Faults) : Except Error Unit × MediumTermWriter :=
  match completed with
  | none => (.ok (), writer)
  | some completed =>
    if faults.catalog then (.error .io, writer)
    else
      (.ok (),
        { writer with catalogued := writer.catalogued ++ [writer.catalogFragment completed] })

def wrote (writer : MediumTermWriter) (bytes duration : Nat) : MediumTermWriter :=
  { writer with
    recordedDuration := min (writer.recordedDuration + ticksToDuration duration videoTimescale)
      durationMax
    framesWritten := writer.framesWritten + 1
    bytesWritten := writer.bytesWritten + bytes }

def cameraTicks (writer : MediumTermWriter) (frame : RecordingFrame) (elapsed timescale : Nat) :
    Nat :=
  timestampTicksOrFallback frame.timestamp writer.cameraTimestampOrigin elapsed timescale

def writeVideoFrame (format : Format MediaConfig) (parser : Parser) (writer : MediumTermWriter)
    (active : ActiveWriter) (video : VideoFrame) (cameraDts : Nat) (faults : Faults) :
    Except Error Unit × MediumTermWriter :=
  andThen (within (fun active => writer.withState (.active active))
    (active.writeVideo format parser video cameraDts faults)) fun answer writer =>
  (writer.wrote video.data.length answer.1).insertCatalogFragment answer.2 faults

def writeAudioFrame (writer : MediumTermWriter) (active : ActiveWriter) (audio : AudioFrame)
    (camera : Option Nat) (elapsed : Nat) : Except Error Unit × MediumTermWriter :=
  match AudioFrame.rawAac audio, active.audioTrack with
  | some raw, some track =>
    andThen (within (fun active => writer.withState (.active active))
      (active.writeAudio track audio raw camera elapsed)) fun _ writer =>
    (.ok (), writer.wrote raw.length 0)
  | _, _ => (.ok (), writer)

def writeFrame (format : Format MediaConfig) (parser : Parser) (writer : MediumTermWriter)
    (frame : RecordingFrame) (faults : Faults) : Except Error Unit × MediumTermWriter :=
  match writer.state, writer.segmentOrigin with
  | .active active, some origin =>
    let elapsed := frame.receivedAt - origin
    match frame.frame with
    | .video video =>
      writer.writeVideoFrame format parser active video
        (writer.cameraTicks frame elapsed videoTimescale) faults
    | .audio audio =>
      writer.writeAudioFrame active audio
        (frame.timestamp.map fun _ => writer.cameraTicks frame elapsed
          active.audioTimescale) elapsed
  | .active _, none => (.error .panicked, writer)
  | _, _ => (.ok (), writer)

/-- Of the frames a call writes only the last may complete a fragment, so the call's
failures are those of each of them. -/
def writeFrames (format : Format MediaConfig) (parser : Parser) (faults : Faults) :
    MediumTermWriter → List RecordingFrame → Except Error Unit × MediumTermWriter
  | writer, [] => (.ok (), writer)
  | writer, frame :: frames =>
    andThen (writer.writeFrame format parser frame faults) fun _ writer =>
      writeFrames format parser faults writer frames

def activatePrepared (format : Format MediaConfig) (parser : Parser) (writer : MediumTermWriter)
    (faults : Faults) : Except Error Unit × MediumTermWriter :=
  match writer.state with
  | .preparing frames =>
    andThen ((writer.withState .waitingForKeyframe).initMp4 format parser frames faults)
      fun active writer => writeFrames format parser faults
        (writer.withState (.active active)) frames
  | _ => (.ok (), writer)

def takeFrame (format : Format MediaConfig) (parser : Parser) (writer : MediumTermWriter)
    (frame : RecordingFrame) (faults : Faults) : Except Error Unit × MediumTermWriter :=
  match writer.state with
  | .preparing frames => (.ok (), writer.withState (.preparing (frames ++ [frame])))
  | .active _ => writer.writeFrame format parser frame faults
  | .waitingForKeyframe =>
    (.error (.invalid "fragmented MP4 writer lost its prepared state"), writer)

def settle (format : Format MediaConfig) (parser : Parser) (writer : MediumTermWriter)
    (frame : RecordingFrame) (faults : Faults) : Except Error Unit × MediumTermWriter :=
  if frame.isVideoKeyframe then writer.activatePrepared format parser faults else (.ok (), writer)

/-- The answer is the time recorded by the call. -/
def appendOne (format : Format MediaConfig) (parser : Parser) (writer : MediumTermWriter)
    (frame : RecordingFrame) (faults : Faults) : Except Error Nat × MediumTermWriter :=
  match writer.state with
  | .waitingForKeyframe =>
    if frame.isVideoKeyframe then
      (.ok 0, { writer with
        segmentOrigin := some frame.receivedAt, cameraTimestampOrigin := frame.timestamp,
        state := .preparing [frame] })
    else (.ok 0, writer)
  | _ =>
    let previousDuration := writer.recordedDuration
    andThen (writer.settle format parser frame faults) fun _ writer =>
    andThen (writer.takeFrame format parser frame faults) fun _ writer =>
    (.ok (writer.recordedDuration - previousDuration), writer)

def received (writer : MediumTermWriter) (frame : RecordingFrame) : Except Error RecordingFrame :=
  let origin := writer.segmentOrigin.getD frame.receivedAt
  if frame.receivedAt < origin then .error (.invalid "replay precedes the recording origin")
  else
    let timestamp := writer.cameraTimestampOrigin.getD 0 + (frame.receivedAt - origin)
    if durationMax < timestamp then
      .error (.invalid "replay timestamp exceeds the recording timeline")
    else .ok { frame with timestamp := some timestamp }

def appendReceived (format : Format MediaConfig) (parser : Parser) (writer : MediumTermWriter)
    (frame : RecordingFrame) (faults : Faults) : Except Error Nat × MediumTermWriter :=
  andThen (writer.received frame, writer) fun frame writer =>
  writer.appendOne format parser frame faults

def discardPending (writer : MediumTermWriter) : MediumTermWriter :=
  match writer.state with
  | .active active => writer.withState (.active active.discardPending)
  | _ => writer.withState .waitingForKeyframe

def catalogFinal (writer : MediumTermWriter) (active : ActiveWriter)
    (fragment : Option FragmentInfo) (faults : Faults) : Except Error Unit × MediumTermWriter :=
  match fragment, active.fragmentStartDts with
  | none, _ => (.ok (), writer)
  | some _, none => (.error (.invalid "final MP4 fragment has no start timestamp"), writer)
  | some fragment, some startDts =>
    let endDts := saturatingAdd (active.lastVideoDts.getD startDts) active.lastVideoDuration
    writer.insertCatalogFragment (some ⟨fragment, startDts, endDts⟩) faults

/-- The end of the file: what is pending is written as it is. The answer is the
video of the recording. -/
def close (format : Format MediaConfig) (writer : MediumTermWriter) (active : ActiveWriter)
    (faults : Faults) : Except Error (List Sample) × MediumTermWriter :=
  match active.writer.flushFragment format faults.flush with
  | (.error error, _) => (.error (.mp4 error), writer)
  | (.ok fragment, _) =>
    if faults.close then (.error .io, writer)
    else
      andThen (writer.catalogFinal active fragment faults) fun _ writer =>
        if faults.complete then (.error .io, writer)
        else (.ok (active.stored ++ active.pendingVideo), writer)

def finalize (format : Format MediaConfig) (parser : Parser) (writer : MediumTermWriter)
    (faults : Faults) : Except Error (List Sample) × MediumTermWriter :=
  andThen (writer.activatePrepared format parser faults) fun _ writer =>
    match writer.state with
    | .active active => (writer.withState .waitingForKeyframe).close format active faults
    | _ => (.ok [], writer)

inductive DeadlineError where
  /-- `event deadline does not follow the last video sample` -/
  | deadline
  | writer (error : Error)
deriving DecidableEq, Repr

def part {α σ : Type} : Except Error α × σ → Except DeadlineError α × σ
  | (.ok value, state) => (.ok value, state)
  | (.error error, state) => (.error (.writer error), state)

def limitVideo (format : Format MediaConfig) (active : ActiveWriter) (limit : Option Nat)
    (faults : Faults) : Except DeadlineError (Option Completed) × ActiveWriter :=
  match limit, active.lastVideoDts, active.fragmentStartDts with
  | some limit, some last, some startDts =>
    let endDts := min limit (saturatingAdd last active.lastVideoDuration)
    if endDts ≤ last then (.error .deadline, active)
    else
      andThen (part (active.flushFragmentBeforeSample format endDts faults)) fun fragment active =>
        (.ok (fragment.map fun fragment => ⟨fragment, startDts, endDts⟩), active)
  | _, _, _ => (.ok none, active)

def closeBefore (format : Format MediaConfig) (parser : Parser) (writer : MediumTermWriter)
    (active : ActiveWriter) (limit : Option Nat) (faults : Faults) :
    Except DeadlineError (List Sample) × MediumTermWriter :=
  andThen (within (fun active => writer.withState (.active active))
    (limitVideo format active limit faults)) fun completed writer =>
  andThen (part (writer.insertCatalogFragment completed faults)) fun _ writer =>
  part (writer.finalize format parser faults)

def finalizeBefore (format : Format MediaConfig) (parser : Parser) (writer : MediumTermWriter)
    (stop : Nat) (faults : Faults) : Except DeadlineError (List Sample) × MediumTermWriter :=
  andThen (part (writer.activatePrepared format parser faults)) fun _ writer =>
    match writer.state with
    | .active active =>
      writer.closeBefore format parser active (writer.segmentOrigin.map fun origin =>
        durationToTicks (stop - origin) videoTimescale) faults
    | _ => part (writer.finalize format parser faults)

end MediumTermWriter

end KeepPeek.MediumTerm
