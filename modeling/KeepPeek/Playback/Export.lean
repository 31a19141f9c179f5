import KeepPeek.MediumTerm.Writer

/-! Exports and browser copies: the samples of recorded files written again into one
new file.

A recording is read as its tracks and their samples; reading, like sorting, is a
parameter. An export takes of every recording the samples that overlap the selected
fragments in whole milliseconds, shifts them onto one clock, and leaves out those
that do not advance their track. A run that fails leaves no file, so only runs
without device failures are modelled, and which of several failures is reported is
not; cancellation and progress reports are left out. -/
namespace KeepPeek.Playback

open Lib
open Mp4 (Sample TrackType FragmentedMp4Writer FragmentTrack Format)
open MediumTerm (MediaConfig Error)

/-- A track as the reader gives it: its descriptions, where they can be read, and its
samples with the number of the description each refers to. -/
structure SourceTrack where
  handler : Option TrackType
  timescale : Nat
  language : String
  descriptions : List (Option MediaConfig)
  samples : List (Nat × Sample)
deriving DecidableEq

structure PlaybackTrack where
  trackType : TrackType
  timescale : Nat
  language : String
  sampleDescriptions : List MediaConfig
  source : SourceTrack
deriving DecidableEq

namespace SourceTrack

def readDescription : Option MediaConfig → Except Error MediaConfig
  | some config => .ok config
  | none => .error (.mp4 (.invalidData "unsupported sample description"))

def mediaConfigForDescription (track : SourceTrack) (index : Nat) : Except Error MediaConfig :=
  match track.descriptions[index - 1]?, index with
  | some description, _ + 1 => readDescription description
  | _, _ => .error (.mp4 (.invalidData "sample description index is out of range"))

/-- The timescale of audio is the frequency its description names. -/
def playbackTrack (track : SourceTrack) : Except Error (Option PlaybackTrack) :=
  match track.mediaConfigForDescription 1 with
  | .error error => .error error
  | .ok (.aac bitrate frequency stereo) => .ok (some
    ⟨.audio, frequency, track.language, [.aac (max bitrate 64000) frequency stereo], track⟩)
  | .ok (.vp9 ..) | .ok .ttxt => .ok none
  | .ok (.avc ..) | .ok (.hevc ..) =>
    (track.descriptions.mapM readDescription).map fun descriptions =>
      some ⟨.video, track.timescale, track.language, descriptions, track⟩

end SourceTrack

/-- The tracks of a file, which come in the order of their ids. Audio that cannot be
described is left out. -/
def exportTracks : List SourceTrack → Except Error (List PlaybackTrack)
  | [] => .ok []
  | track :: tracks =>
    match track.playbackTrack with
    | .ok playback => (exportTracks tracks).map (playback.toList ++ ·)
    | .error error =>
      if track.handler = some .audio then exportTracks tracks else .error error

/-- A fragment as the catalog lists it. The location is the path of the file and,
where it was archived, its archive object. -/
structure CatalogMediaFragment (Location : Type) where
  recordingId : String
  recordingStartedAtMs : Int
  location : Location
  startMs : Int
  durationMs : Nat
deriving DecidableEq

structure ExportRecording (Location : Type) where
  startedAtMs : Int
  location : Location
  intervals : List (Int × Int)
deriving DecidableEq

/-- A selected sample at its time in the export. The place it was read from, the
number of the recording and that of the sample in its track, is kept beside it. -/
structure ExportSample where
  absoluteMs : Int
  trackId : Nat
  trackType : TrackType
  sampleDescription : MediaConfig
  sample : Sample
  recording : Nat
  index : Nat
deriving DecidableEq

def ExportSample.Before (left right : ExportSample) : Prop :=
  left.absoluteMs < right.absoluteMs ∨
    left.absoluteMs = right.absoluteMs ∧ (left.trackType = .video ∨ right.trackType ≠ .video)

instance (left right : ExportSample) : Decidable (left.Before right) :=
  inferInstanceAs (Decidable (_ ∨ _))

/-- The unstable sorts of the standard library. -/
structure Order (Location : Type) where
  recordings : List (ExportRecording Location) → List (ExportRecording Location)
  samples : List ExportSample → List ExportSample

/-- They sort; elements that compare equal may come in any order. -/
structure Order.Lawful {Location : Type} (order : Order Location) : Prop where
  recordings_perm : ∀ recordings, (order.recordings recordings).Perm recordings
  recordings_sorted : ∀ recordings,
    (order.recordings recordings).Pairwise fun left right => left.startedAtMs ≤ right.startedAtMs
  samples_perm : ∀ samples, (order.samples samples).Perm samples
  samples_sorted : ∀ samples, (order.samples samples).Pairwise ExportSample.Before

section Selection

variable {Location : Type} [DecidableEq Location]

def CatalogMediaFragment.endMs (fragment : CatalogMediaFragment Location) : Int :=
  min (fragment.startMs + min (fragment.durationMs : Int) i64Max) i64Max

def addFragment (requestedEndMs : Int) :
    List (String × ExportRecording Location) → CatalogMediaFragment Location →
      Except Error (List (String × ExportRecording Location))
  | [], fragment =>
    .ok [(fragment.recordingId, ⟨fragment.recordingStartedAtMs, fragment.location,
      [(fragment.startMs, min fragment.endMs requestedEndMs)]⟩)]
  | (id, recording) :: rest, fragment =>
    if id = fragment.recordingId then
      if recording.location = fragment.location then
        .ok ((id, { recording with intervals := recording.intervals ++
          [(fragment.startMs, min fragment.endMs requestedEndMs)] }) :: rest)
      else .error (.invalid "export recording location changed")
    else (addFragment requestedEndMs rest fragment).map ((id, recording) :: ·)

def deliveredEndMs (fragments : List (CatalogMediaFragment Location)) (alignedStartMs
    requestedEndMs : Int) : Int :=
  min ((fragments.map CatalogMediaFragment.endMs).max?.getD alignedStartMs) requestedEndMs

def exportRecordings (order : Order Location) (fragments : List (CatalogMediaFragment Location))
    (requestedEndMs : Int) : Except Error (List (ExportRecording Location) × Int × Int) :=
  match fragments with
  | [] => .error (.invalid "export range has no recorded fragments")
  | first :: _ =>
    (fragments.foldlM (addFragment requestedEndMs) []).map fun recordings =>
      (order.recordings (recordings.map Prod.snd), first.startMs,
        deliveredEndMs fragments first.startMs requestedEndMs)

end Selection

def absoluteMs (startedAtMs : Int) (timescale ticks : Nat) : Int :=
  min (startedAtMs + min ((saturatingMul ticks 1000 / timescale : Nat) : Int) i64Max) i64Max

namespace ExportRecording

variable {Location : Type} (recording : ExportRecording Location)

def overlaps (timescale : Nat) (sample : Sample) : Bool :=
  recording.intervals.any fun (start, stop) =>
    absoluteMs recording.startedAtMs timescale sample.startTime < stop &&
      start < absoluteMs recording.startedAtMs timescale
        (saturatingAdd sample.startTime sample.duration)

def originTicks (alignedStartMs : Int) (timescale : Nat) : Int :=
  ((recording.startedAtMs - alignedStartMs) * timescale).tdiv 1000

/-- The difference of the two times is no 64-bit number, and some sample asks for it. -/
def overflows (alignedStartMs : Int) (tracks : List PlaybackTrack) : Bool :=
  (recording.startedAtMs - alignedStartMs < -i64Max - 1 ||
      i64Max < recording.startedAtMs - alignedStartMs) &&
    tracks.any fun track => track.source.samples.any fun (_, sample) =>
      recording.overlaps track.timescale sample

def normalizedStart (alignedStartMs : Int) (timescale : Nat) (sample : Sample) : Option Nat :=
  let start := recording.originTicks alignedStartMs timescale + sample.startTime
  if 0 ≤ start ∧ start ≤ u64Max then some start.toNat else none

def trackHasSelectedSample (alignedStartMs : Int) (track : PlaybackTrack) : Bool :=
  track.source.samples.any fun (_, sample) =>
    recording.overlaps track.timescale sample &&
      0 ≤ recording.originTicks alignedStartMs track.timescale + sample.startTime

/-- What the export takes of one sample. Audio from before its start is left out. -/
def collectSample (number : Nat) (alignedStartMs : Int) (trackId : Nat) (track : PlaybackTrack)
    (index : Nat) (read : Nat × Sample) : Except Error (Option ExportSample) :=
  (track.source.mediaConfigForDescription read.1).bind fun description =>
    if !recording.overlaps track.timescale read.2 then .ok none
    else
      match recording.normalizedStart alignedStartMs track.timescale read.2 with
      | none =>
        if track.trackType ≠ .video then .ok none
        else .error (.invalid "export video sample timestamp precedes aligned start")
      | some start =>
        .ok (some {
          absoluteMs := Playback.absoluteMs recording.startedAtMs track.timescale read.2.startTime
          trackId
          trackType := track.trackType
          sampleDescription := description
          sample := { read.2 with startTime := start }
          recording := number
          index })

def collectFrom (number : Nat) (alignedStartMs : Int) (trackId : Nat) (track : PlaybackTrack) :
    Nat → List (Nat × Sample) → Except Error (List ExportSample)
  | _, [] => .ok []
  | index, read :: rest =>
    (recording.collectSample number alignedStartMs trackId track index read).bind fun taken =>
      (collectFrom number alignedStartMs trackId track (index + 1) rest).map
        (taken.toList ++ ·)

def collectTrack (number : Nat) (alignedStartMs : Int) (trackId : Nat) (track : PlaybackTrack) :
    Except Error (List ExportSample) :=
  recording.collectFrom number alignedStartMs trackId track 0 track.source.samples

def collectTracks (number : Nat) (alignedStartMs : Int) :
    Nat → List PlaybackTrack → Except Error (List ExportSample)
  | _, [] => .ok []
  | index, track :: tracks =>
    (recording.collectTrack number alignedStartMs (index + 1) track).bind fun samples =>
      (collectTracks number alignedStartMs (index + 1) tracks).map (samples ++ ·)

def collect (number : Nat) (alignedStartMs : Int) (tracks : List PlaybackTrack) :
    Except Error (List ExportSample) :=
  recording.collectTracks number alignedStartMs 0 tracks

end ExportRecording

/-! The new file. -/

structure Content where
  description : Option MediaConfig
  startTime : Nat
  isSync : Bool
  bytes : List UInt8
deriving DecidableEq

def ExportSample.content (sample : ExportSample) : Content :=
  ⟨some sample.sampleDescription, sample.sample.startTime, sample.sample.isSync,
    sample.sample.bytes⟩

/-- The container that is written. `fragments` are the tracks of every fragment on the
file, `taken` the samples that were written, in their order. -/
structure Output where
  writer : FragmentedMp4Writer MediaConfig
  pendingVideo : Bool
  lastSampleStart : Nat → Option Nat
  fragments : List (List (Nat × FragmentTrack MediaConfig))
  taken : List ExportSample

namespace Output

def faultless : FragmentedMp4Writer.FlushFaults := ⟨false, none, false, false⟩

def addFaultless : FragmentedMp4Writer.AddFaults := ⟨false, false, none, false, false⟩

variable (format : Format MediaConfig)

def flushFragment (output : Output) : Except Error Output :=
  match output.writer.flushFragment format faultless with
  | (.error error, _) => .error (.mp4 error)
  | (.ok _, writer) =>
    .ok { output with
      writer, fragments := output.fragments ++ [output.writer.pendingTracks] }

def beginGroup (output : Output) (sample : ExportSample) : Except Error Output :=
  if sample.trackType = .video && sample.sample.isSync then
    (if output.pendingVideo then output.flushFragment format else .ok output).map fun output =>
      { output with pendingVideo := true }
  else .ok output

def addSampleDescription (output : Output) (sample : ExportSample) : Except Error (Nat × Output) :=
  match output.writer.addSampleDescription format sample.trackId sample.sampleDescription
      addFaultless with
  | (.error error, _) => .error (.mp4 error)
  | (.ok index, writer) => .ok (index, { output with writer })

def writeSample (output : Output) (index : Nat) (sample : ExportSample) : Except Error Output :=
  match output.writer.writeSampleWithDescription sample.trackId index sample.sample with
  | (.error error, _) => .error (.mp4 error)
  | (.ok _, writer) => .ok { output with writer, taken := output.taken ++ [sample] }

def putSample (output : Output) (sample : ExportSample) : Except Error Output :=
  (output.beginGroup format sample).bind fun output =>
  (output.addSampleDescription format sample).bind fun (index, output) =>
  output.writeSample index sample

def advance (output : Output) (sample : ExportSample) : Output :=
  { output with lastSampleStart := fun trackId =>
      if trackId = sample.trackId then some sample.sample.startTime
      else output.lastSampleStart trackId }

def takeSample (output : Output) (sample : ExportSample) : Except Error Output :=
  if (output.lastSampleStart sample.trackId).any fun previous =>
      sample.sample.startTime ≤ previous then .ok output
  else (output.putSample format sample).map fun output => output.advance sample

def start (tracks : List PlaybackTrack) : Except Error Output :=
  if !tracks.any fun track => track.trackType = .video then
    .error (.invalid "export source has no supported video track")
  else if tracks.any fun track => track.timescale = 0 then
    .error (.mp4 (.invalidData "MP4 timescales must be non-zero"))
  else
    match FragmentedMp4Writer.writeStart format ⟨Lib.Image.blank, 0⟩
        (tracks.map fun track => ⟨track.trackType, track.sampleDescriptions⟩) with
    | .error error => .error (.mp4 error)
    | .ok writer => .ok ⟨writer, false, fun _ => none, [], []⟩

def entries (track : FragmentTrack MediaConfig) : List (Nat × Sample) :=
  track.samples.map fun sample => (track.pendingSampleDescriptionIndex.getD 1, sample)

def stored (output : Output) (trackId : Nat) : List (Nat × Sample) :=
  output.fragments.flatMap fun fragment =>
    (fragment.filter fun part => part.1 = trackId).flatMap fun part => entries part.2

def description (writer : FragmentedMp4Writer MediaConfig) (trackId index : Nat) :
    Option MediaConfig :=
  (writer.track trackId).bind fun track => track.sampleDescriptions[index - 1]?

def track (output : Output) (trackId : Nat) : List Content :=
  (output.stored trackId).map fun entry =>
    ⟨description output.writer trackId entry.1, entry.2.startTime, entry.2.isSync, entry.2.bytes⟩

def takenOf (output : Output) (trackId : Nat) : List ExportSample :=
  output.taken.filter fun sample => sample.trackId = trackId

end Output

section Export

variable {Location : Type} [DecidableEq Location] (format : Format MediaConfig)
  (order : Order Location) (read : Location → Except Error (List SourceTrack))

def readTracks (recording : ExportRecording Location) : Except Error (List PlaybackTrack) :=
  (read recording.location).bind exportTracks

def sameLayout (candidate reference : PlaybackTrack) : Bool :=
  candidate.trackType = reference.trackType && candidate.timescale = reference.timescale &&
    candidate.language = reference.language

def validateTrackLayout (reference candidate : List PlaybackTrack) : Except Error Unit :=
  if candidate.length = reference.length &&
      (candidate.zip reference).all fun (candidate, reference) =>
        sameLayout candidate reference then
    .ok ()
  else .error (.invalid "export crosses an incompatible track layout change")

def readValidated (reference : List PlaybackTrack) (recording : ExportRecording Location) :
    Except Error (List PlaybackTrack) :=
  (readTracks read recording).bind fun tracks =>
    (validateTrackLayout reference tracks).map fun _ => tracks

def selectedExportTrackIndexes (recordings : List (ExportRecording Location))
    (reference : List PlaybackTrack) (alignedStartMs : Int) : Except Error (List Nat) :=
  (recordings.mapM fun recording =>
    (readValidated read reference recording).bind fun tracks =>
      if recording.overflows alignedStartMs tracks then .error .panicked
      else .ok (recording, tracks)).map fun sources =>
      (List.range reference.length).filter fun index =>
        sources.any fun (recording, tracks) =>
          (tracks[index]?).any fun track => recording.trackHasSelectedSample alignedStartMs track

def select (indexes : List Nat) (tracks : List PlaybackTrack) : List PlaybackTrack :=
  indexes.filterMap fun index => tracks[index]?

def collectAll (alignedStartMs : Int) (indexes : List Nat) (reference : List PlaybackTrack) :
    Nat → List (ExportRecording Location) → Except Error (List (List ExportSample))
  | _, [] => .ok []
  | number, recording :: rest =>
    (readValidated read reference recording).bind fun tracks =>
    (recording.collect number alignedStartMs (select indexes tracks)).bind fun samples =>
    (collectAll alignedStartMs indexes reference (number + 1) rest).map (samples :: ·)

def writeAll (output : Output) (collected : List (List ExportSample)) : Except Error Output :=
  collected.foldlM (fun output samples => (order.samples samples).foldlM
    (Output.takeSample format) output)
    output

def footage (recordings : List (ExportRecording Location)) (alignedStartMs : Int) :
    Except Error (List PlaybackTrack × List (List ExportSample)) :=
  match recordings with
  | [] => .error (.invalid "export has no source recordings")
  | first :: _ =>
    (readTracks read first).bind fun reference =>
    (selectedExportTrackIndexes read recordings reference alignedStartMs).bind fun indexes =>
    (collectAll read alignedStartMs indexes reference 0 recordings).map fun collected =>
      (select indexes reference, collected)

def writeExportRecordings (recordings : List (ExportRecording Location)) (alignedStartMs : Int) :
    Except Error Output :=
  (footage read recordings alignedStartMs).bind fun (tracks, collected) =>
  (Output.start format tracks).bind fun output =>
  (writeAll format order output collected).bind fun output =>
  output.flushFragment format

structure ExportArtifact where
  alignedStartMs : Int
  deliveredEndMs : Int
  bytes : Nat
deriving DecidableEq, Repr

def exportFragmentRanges (fragments : List (CatalogMediaFragment Location)) (requestedEndMs : Int) :
    Except Error (ExportArtifact × Output) :=
  (exportRecordings order fragments requestedEndMs).bind fun (recordings, alignedStartMs,
    deliveredEndMs) =>
  (writeExportRecordings format order read recordings alignedStartMs).map fun output =>
    (⟨alignedStartMs, deliveredEndMs, output.writer.device.position⟩, output)

end Export

/-! The browser copy of a recording. -/

def remuxFrom (trackId : Nat) (track : PlaybackTrack) :
    Nat → List (Nat × Sample) → Except Error (List ExportSample)
  | _, [] => .ok []
  | index, read :: rest =>
    (track.source.mediaConfigForDescription read.1).bind fun description =>
      (remuxFrom trackId track (index + 1) rest).map ({
        absoluteMs := absoluteMs 0 track.timescale read.2.startTime
        trackId
        trackType := track.trackType
        sampleDescription := description
        sample := read.2
        recording := 0
        index } :: ·)

def remuxTracks : Nat → List PlaybackTrack → Except Error (List ExportSample)
  | _, [] => .ok []
  | index, track :: tracks =>
    (remuxFrom (index + 1) track 0 track.source.samples).bind fun samples =>
      (remuxTracks (index + 1) tracks).map (samples ++ ·)

def remuxRecording {Location : Type} (format : Format MediaConfig) (order : Order Location)
    (source : List SourceTrack) : Except Error Output :=
  (exportTracks source).bind fun tracks =>
  (if tracks.any fun track => track.trackType = .video then Output.start format tracks
    else .error (.invalid "recording has no supported video track")).bind fun output =>
  (remuxTracks 0 tracks).bind fun samples =>
  ((order.samples samples).foldlM (Output.putSample format) output).bind fun output =>
  output.flushFragment format

end KeepPeek.Playback
