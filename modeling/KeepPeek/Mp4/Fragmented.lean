import KeepPeek.Lib.Bytes
import KeepPeek.Lib.Limits

/-! The fragmented MP4 writer over a device whose operations may fail.

The writer keeps a fixed initialization range, which it rewrites in place when
a track gains a sample description, and appends one `moof`/`mdat` pair for each
flushed fragment. Every call carries the failures of the device operations it
makes: a failing write may have written any number of its bytes before. -/
namespace KeepPeek.Mp4

open Lib

def u32Max : Nat := 4294967295
def i32Max : Nat := 2147483647

def moofBox : UInt32 := 0x6d6f6f66
def mdatBox : UInt32 := 0x6d646174
def freeBox : UInt32 := 0x66726565

def headerSize : Nat := 8
def initializationMetadataCapacity : Nat := 8192

inductive Error where
  | invalidData (message : String)
  | trakNotFound (trackId : Nat)
  | device
deriving DecidableEq, Repr

inductive TrackType where
  | video | audio | subtitle
deriving DecidableEq, Repr

structure Device where
  image : Image
  position : Nat

namespace Device

def seek (device : Device) (position : Nat) : Device :=
  { device with position }

def write (device : Device) (bytes : List UInt8) : Device :=
  ⟨device.image.write device.position bytes, device.position + bytes.length⟩

def writeAll (device : Device) (bytes : List UInt8) : Option Nat → Device
  | none => device.write bytes
  | some written => device.write (bytes.take written)

end Device

structure Sample where
  startTime : Nat
  duration : Nat
  renderingOffset : Int
  isSync : Bool
  bytes : List UInt8
deriving DecidableEq, Repr

/-- A track; its id is one more than its place. -/
structure FragmentTrack (δ : Type) where
  trackType : TrackType
  sampleDescriptions : List δ
  sampleDescriptionCount : Nat
  pendingSampleDescriptionIndex : Option Nat
  samples : List Sample
deriving DecidableEq

def FragmentTrack.push {δ : Type} (track : FragmentTrack δ) (description : δ) :
    FragmentTrack δ :=
  { track with sampleDescriptions := track.sampleDescriptions ++ [description] }

def FragmentTrack.recount {δ : Type} (track : FragmentTrack δ) : FragmentTrack δ :=
  { track with sampleDescriptionCount := track.sampleDescriptions.length }

structure SampleLocation where
  offset : Nat
  size : Nat
deriving DecidableEq, Repr

structure FragmentInfo where
  sequenceNumber : Nat
  range : ByteRange
  videoKeyframe : Option SampleLocation
deriving DecidableEq, Repr

/-- How media configurations and the boxes built from them are serialized. -/
structure Format (δ : Type) where
  ftyp : List UInt8
  mediaConfigTrackType : δ → TrackType
  /-- The `moov` box that lists the descriptions of every track, if it can be built. -/
  moov : List (List δ) → Except Error (List UInt8)
  /-- The body of the `moof` box for a sequence number and the tracks with samples. -/
  moof : Nat → List (Nat × FragmentTrack δ) → List UInt8

structure Report where
  info : FragmentInfo
  uses : List (Nat × Nat)
deriving DecidableEq, Repr

/-- The writer. What it has reported, and the descriptions the last complete
rewrite of the initialization range listed, are kept beside it. -/
structure FragmentedMp4Writer (δ : Type) where
  device : Device
  tracks : List (FragmentTrack δ)
  initialization : ByteRange
  moovOffset : Nat
  sequenceNumber : Nat
  poisoned : Bool
  listed : List (List δ)
  reports : List Report

section Metadata

variable {δ : Type} (format : Format δ)

/-- The `moov` box, filled up to the fixed capacity by a `free` box. -/
def Format.initializationMetadata (descriptions : List (List δ)) : Except Error (List UInt8) :=
  match format.moov descriptions with
  | .error error => .error error
  | .ok metadata =>
    if metadata.length + headerSize ≤ initializationMetadataCapacity then
      .ok (metadata ++ Box.encode ⟨freeBox,
        List.replicate (initializationMetadataCapacity - metadata.length - headerSize) 0⟩)
    else .error (.invalidData "fragmented MP4 initialization metadata capacity exceeded")

theorem Format.initializationMetadata_of_moov {descriptions : List (List δ)} {moov : List UInt8}
    (made : format.moov descriptions = .ok moov)
    (small : moov.length + headerSize ≤ initializationMetadataCapacity) :
    ∃ metadata, format.initializationMetadata descriptions = .ok metadata := by
  unfold Format.initializationMetadata
  rw [made]
  exact ⟨_, if_pos small⟩

theorem Format.length_initializationMetadata {descriptions : List (List δ)}
    {metadata : List UInt8}
    (built : format.initializationMetadata descriptions = .ok metadata) :
    metadata.length = initializationMetadataCapacity := by
  unfold Format.initializationMetadata at built
  split at built
  · cases built
  split at built
  · rename_i fits
    cases built
    simp only [headerSize] at fits ⊢
    simp only [List.length_append, Box.length_encode, Box.size, List.length_replicate]
    omega
  · cases built

end Metadata

namespace FragmentedMp4Writer

variable {δ : Type} [DecidableEq δ]

section State

variable (writer : FragmentedMp4Writer δ)

def poisonedError : Error :=
  .invalidData "fragmented MP4 writer is poisoned"

def hasPendingSamples : Bool :=
  writer.tracks.any fun track => !track.samples.isEmpty

def clearSamples (track : FragmentTrack δ) : FragmentTrack δ :=
  { track with samples := [], pendingSampleDescriptionIndex := none }

def discardPendingSamples : FragmentedMp4Writer δ :=
  { writer with tracks := writer.tracks.map clearSamples }

def track (trackId : Nat) : Option (FragmentTrack δ) :=
  if trackId = 0 then none else writer.tracks[trackId - 1]?

def setTrack (trackId : Nat) (track : FragmentTrack δ) : FragmentedMp4Writer δ :=
  { writer with tracks := writer.tracks.set (trackId - 1) track }

def pendingTracks : List (Nat × FragmentTrack δ) :=
  (writer.tracks.zipIdx.map fun (track, index) => (index + 1, track)).filter
    fun (_, track) => !track.samples.isEmpty

def payload (tracks : List (Nat × FragmentTrack δ)) : List UInt8 :=
  tracks.flatMap fun (_, track) => track.samples.flatMap Sample.bytes

def uses (tracks : List (Nat × FragmentTrack δ)) : List (Nat × Nat) :=
  tracks.filterMap fun (trackId, track) =>
    track.pendingSampleDescriptionIndex.map fun index => (trackId, index)

end State

structure TrackConfig (δ : Type) where
  trackType : TrackType
  sampleDescriptions : List δ
deriving DecidableEq

def TrackConfig.start (config : TrackConfig δ) : FragmentTrack δ where
  trackType := config.trackType
  sampleDescriptions := config.sampleDescriptions
  sampleDescriptionCount := config.sampleDescriptions.length
  pendingSampleDescriptionIndex := none
  samples := []

/-- The initialization range is written from where the device stands. A start
that fails leaves no writer, so only the start that does not fail is modelled. -/
def writeStart (format : Format δ) (device : Device) (configs : List (TrackConfig δ)) :
    Except Error (FragmentedMp4Writer δ) :=
  if configs.isEmpty then
    .error (.invalidData "fragmented MP4 requires at least one track")
  else if configs.any fun config => config.sampleDescriptions.isEmpty then
    .error (.invalidData "fragmented MP4 tracks require a sample description")
  else if u32Max < configs.length then
    .error (.invalidData "too many fragmented MP4 tracks")
  else if configs.any fun config => u32Max < config.sampleDescriptions.length then
    .error (.invalidData "too many sample descriptions")
  else
    match format.initializationMetadata (configs.map TrackConfig.sampleDescriptions) with
    | .error error => .error error
    | .ok metadata =>
      .ok {
        device := (device.write format.ftyp).write metadata
        tracks := configs.map TrackConfig.start
        initialization := ⟨device.position, format.ftyp.length + initializationMetadataCapacity⟩
        moovOffset := device.position + format.ftyp.length
        sequenceNumber := 1
        poisoned := false
        listed := configs.map TrackConfig.sampleDescriptions
        reports := [] }

structure AddFaults where
  position : Bool
  seek : Bool
  write : Option Nat
  flush : Bool
  seekBack : Bool
deriving DecidableEq, Repr

def writeInitializationMetadataBytes (device : Device) (moovOffset : Nat)
    (metadata : List UInt8) (faults : AddFaults) : Bool × Device :=
  if faults.seek then (true, device)
  else
    (faults.write.isSome || faults.flush,
      (device.seek moovOffset).writeAll metadata faults.write)

/-- A description already known keeps its index. A new one is registered, and
the initialization range rewritten with it. -/
def addSampleDescription (format : Format δ) (writer : FragmentedMp4Writer δ) (trackId : Nat)
    (description : δ) (faults : AddFaults) : Except Error Nat × FragmentedMp4Writer δ :=
  if writer.poisoned then (.error poisonedError, writer)
  else
    match writer.track trackId with
    | none => (.error (.trakNotFound trackId), writer)
    | some track =>
      if format.mediaConfigTrackType description ≠ track.trackType then
        (.error (.invalidData "sample description does not match the track type"), writer)
      else
        match track.sampleDescriptions.findIdx? (fun existing => existing = description) with
        | some index =>
          if index + 1 ≤ u32Max then (.ok (index + 1), writer)
          else (.error (.invalidData "too many sample descriptions"), writer)
        | none =>
          if writer.hasPendingSamples then
            (.error (.invalidData "sample descriptions can change only at a fragment boundary"),
              writer)
          else if u32Max < track.sampleDescriptions.length + 1 then
            -- The description stays pushed, the count keeps its value.
            (.error (.invalidData "too many sample descriptions"),
              writer.setTrack trackId (track.push description))
          else
            register format writer trackId track description faults
where
  register (format : Format δ) (writer : FragmentedMp4Writer δ) (trackId : Nat)
      (track : FragmentTrack δ) (description : δ) (faults : AddFaults) :
      Except Error Nat × FragmentedMp4Writer δ :=
    let registered := writer.setTrack trackId (track.push description).recount
    let popped := writer.setTrack trackId track.recount
    let descriptions := registered.tracks.map FragmentTrack.sampleDescriptions
    match format.initializationMetadata descriptions with
    | .error error => (.error error, popped)
    | .ok metadata =>
      if faults.position then (.error .device, registered)
      else
        match writeInitializationMetadataBytes writer.device writer.moovOffset metadata faults with
        | (true, device) => (.error .device, { popped with device, poisoned := true })
        | (false, device) =>
          let rewritten := { registered with device, listed := descriptions }
          if faults.seekBack then (.error .device, rewritten)
          else
            (.ok (track.push description).recount.sampleDescriptionCount,
              { rewritten with device := device.seek writer.device.position })

def closeLast (samples : List Sample) (nextStart : Nat) (message : String) :
    Except Error (List Sample) :=
  match samples.getLast? with
  | none => .ok samples
  | some last =>
    if nextStart ≤ last.startTime then .error (.invalidData message)
    else if u32Max < nextStart - last.startTime then
      .error (.invalidData "fragmented MP4 sample duration exceeds u32")
    else .ok (samples.dropLast ++ [{ last with duration := nextStart - last.startTime }])

def writeSampleWithDescription (writer : FragmentedMp4Writer δ) (trackId index : Nat)
    (sample : Sample) : Except Error Unit × FragmentedMp4Writer δ :=
  if writer.poisoned then (.error poisonedError, writer)
  else if sample.duration = 0 then
    (.error (.invalidData "fragmented MP4 sample duration is zero"), writer)
  else if u32Max < sample.bytes.length then
    (.error (.invalidData "fragmented MP4 sample exceeds 4 GiB"), writer)
  else
    match writer.track trackId with
    | none => (.error (.trakNotFound trackId), writer)
    | some track =>
      if index = 0 ∨ track.sampleDescriptionCount < index then
        (.error (.invalidData "sample description index is out of range"), writer)
      else if track.pendingSampleDescriptionIndex.any (fun pending => pending ≠ index) then
        (.error (.invalidData "sample description can change only at a fragment boundary"), writer)
      else if track.trackType = .video ∧ track.samples.isEmpty ∧ ¬sample.isSync then
        (.error (.invalidData "fragmented MP4 video fragment must start with a sync sample"),
          writer)
      else
        match closeLast track.samples sample.startTime
            "fragmented MP4 sample decode times are not increasing" with
        | .error error => (.error error, writer)
        | .ok samples =>
          if samples.length = u32Max then
            -- The previous sample keeps the duration it was just given.
            (.error (.invalidData "fragmented MP4 fragment has too many samples"),
              writer.setTrack trackId { track with samples })
          else
            (.ok (), writer.setTrack trackId
              { track with
                samples := samples ++ [sample]
                pendingSampleDescriptionIndex := some index })

structure FlushFaults where
  startPosition : Bool
  write : Option Nat
  flush : Bool
  endPosition : Bool
deriving DecidableEq, Repr

/-- The data offset of every track has to fit; the first video track's first
sample, if it is a sync sample, is the keyframe of the fragment. -/
def locate (start : Nat) : Nat → Option SampleLocation → List (Nat × FragmentTrack δ) →
    Except Error (Option SampleLocation)
  | _, keyframe, [] => .ok keyframe
  | offset, keyframe, (_, track) :: rest =>
    if i32Max < offset then .error (.invalidData "fragmented MP4 data offset exceeds i32")
    else
      let next := offset + (track.samples.flatMap Sample.bytes).length
      match keyframe, track.trackType, track.samples with
      | none, .video, first :: _ =>
        if first.isSync then
          if u64Max < start + offset then .error (.invalidData "keyframe byte offset overflow")
          else locate start next (some ⟨start + offset, first.bytes.length⟩) rest
        else locate start next none rest
      | keyframe, _, _ => locate start next keyframe rest

def checkPayload (length : Nat) : Except Error Unit :=
  if u64Max < length then .error (.invalidData "fragmented MP4 payload size overflow")
  else if u64Max < headerSize + length then
    .error (.invalidData "fragmented MP4 mdat size overflow")
  else if u32Max < headerSize + length then
    .error (.invalidData "fragmented MP4 mdat exceeds 32-bit box size")
  else .ok ()

def fragmentBoxes (format : Format δ) (writer : FragmentedMp4Writer δ) : List Box :=
  [⟨moofBox, format.moof writer.sequenceNumber writer.pendingTracks⟩,
    ⟨mdatBox, payload writer.pendingTracks⟩]

def checkFragment (format : Format δ) (writer : FragmentedMp4Writer δ) :
    Except Error (Option SampleLocation) :=
  if writer.pendingTracks.any fun (_, track) => u32Max < track.samples.length then
    .error (.invalidData "fragmented MP4 fragment has too many samples")
  else
    match checkPayload (payload writer.pendingTracks).length with
    | .error error => .error error
    | .ok () =>
      locate writer.device.position
        (headerSize + (format.moof writer.sequenceNumber writer.pendingTracks).length + headerSize)
        none writer.pendingTracks

/-- All pending samples become one `moof`/`mdat` pair at the device's position. -/
def flushFragment (format : Format δ) (writer : FragmentedMp4Writer δ) (faults : FlushFaults) :
    Except Error (Option FragmentInfo) × FragmentedMp4Writer δ :=
  if writer.poisoned then (.error poisonedError, writer)
  else if !writer.hasPendingSamples then (.ok none, writer)
  else if faults.startPosition then (.error .device, writer)
  else
    match checkFragment format writer with
    | .error error => (.error error, writer)
    | .ok videoKeyframe =>
      let device := writer.device.writeAll ((fragmentBoxes format writer).flatMap Box.encode)
        faults.write
      if faults.write.isSome || faults.flush || faults.endPosition then
        -- The samples stay pending.
        (.error .device, { writer with device })
      else
        let cleared := { writer.discardPendingSamples with device }
        if u32Max ≤ writer.sequenceNumber then
          (.error (.invalidData "fragmented MP4 sequence number overflow"), cleared)
        else
          let info : FragmentInfo :=
            { sequenceNumber := writer.sequenceNumber
              range := ⟨writer.device.position, device.position - writer.device.position⟩
              videoKeyframe }
          (.ok (some info),
            { cleared with
              sequenceNumber := writer.sequenceNumber + 1
              reports := ⟨info, uses writer.pendingTracks⟩ :: writer.reports })

def flushFragmentBeforeSample (format : Format δ) (writer : FragmentedMp4Writer δ)
    (trackId nextStartTime : Nat) (faults : FlushFaults) :
    Except Error (Option FragmentInfo) × FragmentedMp4Writer δ :=
  if writer.poisoned then (.error poisonedError, writer)
  else
    match writer.track trackId with
    | none => (.error (.trakNotFound trackId), writer)
    | some track =>
      match closeLast track.samples nextStartTime
          "fragment boundary does not follow the trailing sample" with
      | .error error => (.error error, writer)
      | .ok samples => flushFragment format (writer.setTrack trackId { track with samples }) faults

inductive Call (δ : Type) where
  | addSampleDescription (trackId : Nat) (description : δ) (faults : AddFaults)
  | writeSample (trackId index : Nat) (sample : Sample)
  | flushFragment (faults : FlushFaults)
  | flushFragmentBeforeSample (trackId nextStartTime : Nat) (faults : FlushFaults)
  | discardPendingSamples
deriving DecidableEq

def execute (format : Format δ) (writer : FragmentedMp4Writer δ) :
    Call δ → Option Error × FragmentedMp4Writer δ
  | .addSampleDescription trackId description faults =>
    answer (addSampleDescription format writer trackId description faults)
  | .writeSample trackId index sample =>
    answer (writeSampleWithDescription writer trackId index sample)
  | .flushFragment faults => answer (flushFragment format writer faults)
  | .flushFragmentBeforeSample trackId nextStartTime faults =>
    answer (flushFragmentBeforeSample format writer trackId nextStartTime faults)
  | .discardPendingSamples => (none, writer.discardPendingSamples)
where
  answer {α : Type} : Except Error α × FragmentedMp4Writer δ → Option Error × FragmentedMp4Writer δ
    | (.error error, writer) => (some error, writer)
    | (.ok _, writer) => (none, writer)

def next (format : Format δ) (writer : FragmentedMp4Writer δ) (call : Call δ) :
    FragmentedMp4Writer δ :=
  (execute format writer call).2

def run (format : Format δ) (writer : FragmentedMp4Writer δ) (calls : List (Call δ)) :
    FragmentedMp4Writer δ :=
  calls.foldl (next format) writer

end FragmentedMp4Writer

end KeepPeek.Mp4
