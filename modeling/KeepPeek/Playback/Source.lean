import KeepPeek.MediumTerm.Recording
import KeepPeek.Playback.Accepting

/-! The file of a finished recording as an export reads it, and what is collected of
its tracks. -/
namespace KeepPeek.Playback

open Lib
open Mp4 (Sample u32Max)
open MediumTerm (MediaConfig Recording videoTimescale)
open ExportRecording
open SourceTrack

def SourceTrack.described (track : SourceTrack) (number : Nat) : Option MediaConfig :=
  if number = 0 then none else (track.descriptions[number - 1]?).join

theorem SourceTrack.mediaConfigForDescription_eq_ok {track : SourceTrack} {number : Nat}
    {cfg : MediaConfig} :
    track.mediaConfigForDescription number = .ok cfg ↔ track.described number = some cfg := by
  unfold mediaConfigForDescription described
  cases number with
  | zero =>
    cases track.descriptions[0 - 1]? <;> simp
  | succ number =>
    rw [if_neg (Nat.succ_ne_zero number)]
    cases track.descriptions[number + 1 - 1]? with
    | none => simp
    | some description =>
      cases description with
      | none => simp [readDescription]
      | some description => simp [readDescription]

/-- An audio track as the segment writer makes it. -/
structure SoundTrack (track : SourceTrack) (frequency : Nat) (stereo : Bool) : Prop where
  positive : 0 < frequency
  descriptions : track.descriptions = [some (.aac 64000 frequency stereo)]
  numbered : ∀ read ∈ track.samples, read.1 = 1
  durations : ∀ read ∈ track.samples, read.2.duration ≠ 0
  bytes : ∀ read ∈ track.samples, read.2.bytes.length ≤ u32Max
  near : ∀ read ∈ track.samples, ∀ other ∈ track.samples,
    other.2.startTime ≤ read.2.startTime + u32Max

/-- The file of a recording as it is read: its video, in which the description changes
only at keyframes, and perhaps audio. -/
structure Source (recording : Recording) where
  video : SourceTrack
  audio : Option SourceTrack
  configs : List MediaConfig
  frequency : Nat
  stereo : Bool
  samples : video.samples.map Prod.snd = recording.video
  timescale : video.timescale = videoTimescale
  descriptions : video.descriptions = configs.map some
  types : ∀ config ∈ configs, config.trackType = .video
  supported : ∀ width height, .vp9 width height ∉ configs
  few : configs.length ≤ u32Max
  numbered : ∀ read ∈ video.samples, 0 < read.1 ∧ read.1 ≤ configs.length
  times : ∀ read ∈ video.samples, read.2.startTime ≤ u64Max
  bytes : ∀ read ∈ video.samples, read.2.bytes.length ≤ u32Max
  grouped : video.samples.IsChain fun read next => next.2.isSync = false → next.1 = read.1
  sound : ∀ track ∈ audio, SoundTrack track frequency stereo

namespace Source

variable {recording : Recording} (source : Source recording)

def tracks : List SourceTrack := source.video :: source.audio.toList

def playbackVideo : PlaybackTrack :=
  ⟨.video, videoTimescale, source.video.language, source.configs, source.video⟩

def playbackAudio (track : SourceTrack) : PlaybackTrack :=
  ⟨.audio, source.frequency, track.language, [.aac 64000 source.frequency source.stereo], track⟩

def playback : List PlaybackTrack :=
  source.playbackVideo :: source.audio.toList.map source.playbackAudio

variable {source}

theorem described_video {number : Nat} (inside : 0 < number ∧ number ≤ source.configs.length) :
    ∃ config ∈ source.configs, source.video.described number = some config := by
  have bound : number - 1 < source.configs.length := by omega
  refine ⟨source.configs[number - 1], List.getElem_mem bound, ?_⟩
  unfold described
  rw [if_neg (by omega), source.descriptions, List.getElem?_map, List.getElem?_eq_getElem bound]
  rfl

theorem described_audio {track : SourceTrack} (held : track ∈ source.audio) :
    track.described 1 = some (.aac 64000 source.frequency source.stereo) := by
  unfold described
  rw [(source.sound track held).descriptions]
  rfl

theorem mapM_readDescription (configs : List MediaConfig) :
    (configs.map some).mapM readDescription = .ok configs := by
  rw [List.mapM_map]
  induction configs with
  | nil => rfl
  | cons config rest ih =>
    rw [List.mapM_cons, ih]
    rfl

theorem exportTracks_eq (some : source.video.samples ≠ []) :
    exportTracks source.tracks = .ok source.playback := by
  obtain ⟨read, mem⟩ := List.exists_mem_of_ne_nil _ some
  have inside := source.numbered read mem
  obtain ⟨config, listed, first⟩ : ∃ config ∈ source.configs,
      source.video.described 1 = Option.some config := described_video (by omega)
  have video : source.video.playbackTrack = .ok (Option.some source.playbackVideo) := by
    unfold playbackTrack
    rw [mediaConfigForDescription_eq_ok.mpr first]
    have type := source.types config listed
    rw [source.descriptions, mapM_readDescription]
    cases config with
    | aac | ttxt => cases type
    | vp9 width height => exact absurd listed (source.supported width height)
    | avc | hevc =>
      unfold playbackVideo
      rw [source.timescale]
      rfl
  have audio : exportTracks source.audio.toList = .ok
      (source.audio.toList.map source.playbackAudio) := by
    cases held : source.audio with
    | none => rfl
    | some track =>
      have sound : track.playbackTrack = .ok (Option.some (source.playbackAudio track)) := by
        unfold playbackTrack
        rw [mediaConfigForDescription_eq_ok.mpr (described_audio held)]
        rfl
      simp [exportTracks, sound, Except.map]
  unfold tracks exportTracks
  rw [video, audio]
  rfl

end Source

/-! What is collected. -/

/-- A sample taken from a track, with its place there, earlier by a shift. -/
def copied (startedAtMs : Int) (number trackId : Nat) (track : PlaybackTrack) (shift : Nat)
    (entry : (Nat × Sample) × Nat) : ExportSample where
  absoluteMs := Playback.absoluteMs startedAtMs track.timescale entry.1.2.startTime
  trackId
  trackType := track.trackType
  sampleDescription := (track.source.described entry.1.1).getD (.aac 0 0 false)
  sample := { entry.1.2 with startTime := entry.1.2.startTime - shift }
  recording := number
  index := entry.2

section Collected

variable {Location : Type} {r : ExportRecording Location} {number : Nat}
  {alignedStartMs : Int} {t : Nat} {track : PlaybackTrack}
variable {index : Nat} {reads : List (Nat × Sample)}

/-- What is taken of a sample that was read. -/
structure TakenFrom (recording : ExportRecording Location) (alignedStartMs : Int)
    (track : PlaybackTrack) (read : Nat × Sample) (sample : ExportSample) : Prop where
  overlaps : recording.overlaps track.timescale read.2
  trackType : sample.trackType = track.trackType
  absoluteMs : sample.absoluteMs =
    Playback.absoluteMs recording.startedAtMs track.timescale read.2.startTime
  description : track.source.described read.1 = some sample.sampleDescription
  start : (sample.start : Int) =
    recording.originTicks alignedStartMs track.timescale + read.2.startTime
  duration : sample.sample.duration = read.2.duration
  bytes : sample.sample.bytes = read.2.bytes

theorem collectSample_eq_some {read : Nat × Sample} {x : ExportSample}
    (h : r.collectSample number alignedStartMs t track index read = .ok (some x)) :
    TakenFrom r alignedStartMs track read x := by
  unfold collectSample at h
  obtain ⟨description, described, h⟩ := bind_eq_ok h
  split at h
  · cases h
  rename_i overlaps
  split at h
  · split at h
    · cases h
    · cases h
  rename_i start placed
  cases h
  refine ⟨by simpa using overlaps, rfl, rfl,
    mediaConfigForDescription_eq_ok.mp described, ?_, rfl, rfl⟩
  unfold normalizedStart at placed
  dsimp only at placed
  split at placed
  · rename_i fits
    cases placed
    exact Int.toNat_of_nonneg fits.1
  · cases placed

theorem collectFrom_append {front back : List (Nat × Sample)} :
    r.collectFrom number alignedStartMs t track index (front ++ back) =
      (r.collectFrom number alignedStartMs t track index front).bind fun early =>
      (r.collectFrom number alignedStartMs t track (index + front.length) back).map
      (early ++ ·) := by
  induction front generalizing index with
  | nil =>
    simp only [List.nil_append, collectFrom, Except.bind, List.length_nil, Nat.add_zero]
    cases r.collectFrom number alignedStartMs t track index back <;> rfl
  | cons read rest ih =>
    simp only [List.cons_append, collectFrom, ih, List.length_cons]
    rw [show index + (rest.length + 1) = index + 1 + rest.length by omega]
    cases r.collectSample number alignedStartMs t track index read with
    | error => rfl
    | ok taken =>
      cases r.collectFrom number alignedStartMs t track (index + 1) rest with
      | error => rfl
      | ok early =>
        cases r.collectFrom number alignedStartMs t track (index + 1 + rest.length) back with
        | error => rfl
        | ok late => simp [Except.bind, Except.map]

theorem collectFrom_mem {xs : List ExportSample}
    (h : r.collectFrom number alignedStartMs t track index reads = .ok xs)
    {x : ExportSample} (mem : x ∈ xs) :
    ∃ place read, reads[place]? = some read ∧ x.index = index + place ∧
      TakenFrom r alignedStartMs track read x := by
  induction reads generalizing index xs with
  | nil =>
    cases h
    cases mem
  | cons read rest ih =>
    unfold collectFrom at h
    obtain ⟨taken, first, h⟩ := bind_eq_ok h
    obtain ⟨more, others, rfl⟩ := map_eq_ok h
    rcases List.mem_append.mp mem with mem | mem
    · have held := Option.mem_toList.mp mem
      rw [Option.mem_def.mp held] at first
      exact ⟨0, read, rfl, (collectSample_eq_ok first x rfl).2.1, collectSample_eq_some first⟩
    · obtain ⟨place, found, at_place, same, taken⟩ := ih others mem
      exact ⟨place + 1, found, at_place, by omega, taken⟩

theorem mem_collectFrom {xs : List ExportSample} (video : track.trackType = .video)
    (h : r.collectFrom number alignedStartMs t track index reads = .ok xs)
    {place : Nat} {read : Nat × Sample} (found : reads[place]? = some read)
    (overlaps : r.overlaps track.timescale read.2) :
    ∃ sample ∈ xs, sample.index = index + place := by
  induction reads generalizing index xs place with
  | nil => cases found
  | cons first rest ih =>
    unfold collectFrom at h
    obtain ⟨taken, here, h⟩ := bind_eq_ok h
    obtain ⟨more, others, rfl⟩ := map_eq_ok h
    cases place with
    | zero =>
      cases found
      have kept : ∃ sample, taken = some sample := by
        unfold collectSample at here
        obtain ⟨description, _, here⟩ := bind_eq_ok here
        rw [overlaps] at here
        simp only [Bool.not_true, Bool.false_eq_true, if_false] at here
        split at here
        · rw [if_neg (fun h => h video)] at here
          cases here
        · cases here
          exact ⟨_, rfl⟩
      obtain ⟨sample, rfl⟩ := kept
      exact ⟨sample, List.mem_append_left _ (Option.mem_toList.mpr rfl),
        (collectSample_eq_ok here sample rfl).2.1⟩
    | succ place =>
      obtain ⟨sample, mem, same⟩ := ih others found
      exact ⟨sample, List.mem_append_right _ mem, by omega⟩

theorem collectFrom_of_none (described : ∀ read ∈ reads, (track.source.described read.1).isSome)
    (apart : ∀ read ∈ reads, r.overlaps track.timescale read.2 = false) :
    r.collectFrom number alignedStartMs t track index reads = .ok [] := by
  induction reads generalizing index with
  | nil => rfl
  | cons read rest ih =>
    obtain ⟨config, held⟩ := Option.isSome_iff_exists.mp (described read List.mem_cons_self)
    unfold collectFrom collectSample
    rw [mediaConfigForDescription_eq_ok.mpr held, apart read List.mem_cons_self,
      ih (fun other mem => described other (List.mem_cons_of_mem _ mem))
        fun other mem => apart other (List.mem_cons_of_mem _ mem)]
    rfl

theorem collectFrom_of_all {shift : Nat}
    (described : ∀ read ∈ reads, (track.source.described read.1).isSome)
    (within : ∀ read ∈ reads, r.overlaps track.timescale read.2)
    (origin : (shift : Int) = -r.originTicks alignedStartMs track.timescale)
    (times : ∀ read ∈ reads, shift ≤ read.2.startTime ∧ read.2.startTime ≤ u64Max) :
    r.collectFrom number alignedStartMs t track index reads =
      .ok ((reads.zipIdx index).map (copied r.startedAtMs number t track shift)) := by
  induction reads generalizing index with
  | nil => rfl
  | cons read rest ih =>
    obtain ⟨config, held⟩ := Option.isSome_iff_exists.mp (described read List.mem_cons_self)
    obtain ⟨late, small⟩ := times read List.mem_cons_self
    have placed : r.normalizedStart alignedStartMs track.timescale read.2 =
        some (read.2.startTime - shift) := by
      unfold normalizedStart
      dsimp only
      rw [if_pos (by omega)]
      congr 1
      omega
    have taken : r.collectSample number alignedStartMs t track index read =
        .ok (some (copied r.startedAtMs number t track shift (read, index))) := by
      unfold collectSample
      rw [mediaConfigForDescription_eq_ok.mpr held, within read List.mem_cons_self]
      simp only [Except.bind, placed, copied, held, Option.getD_some, Bool.not_true,
        Bool.false_eq_true, if_false]
    unfold collectFrom
    rw [taken, ih (fun other mem => described other (List.mem_cons_of_mem _ mem))
      (fun other mem => within other (List.mem_cons_of_mem _ mem))
      fun other mem => times other (List.mem_cons_of_mem _ mem)]
    rfl

theorem collectFrom_of_sound (sound : track.trackType ≠ .video)
    (described : ∀ read ∈ reads, (track.source.described read.1).isSome) :
    ∃ samples, r.collectFrom number alignedStartMs t track index reads = .ok samples := by
  induction reads generalizing index with
  | nil => exact ⟨[], rfl⟩
  | cons read rest ih =>
    obtain ⟨config, held⟩ := Option.isSome_iff_exists.mp (described read List.mem_cons_self)
    obtain ⟨taken, here⟩ : ∃ taken,
        r.collectSample number alignedStartMs t track index read = .ok taken := by
      unfold collectSample
      rw [mediaConfigForDescription_eq_ok.mpr held]
      dsimp only [Except.bind]
      split
      · exact ⟨_, rfl⟩
      split
      · exact ⟨_, rfl⟩
      · exact ⟨_, rfl⟩
    obtain ⟨samples, others⟩ : ∃ samples,
        r.collectFrom number alignedStartMs t track (index + 1) rest = .ok samples :=
      ih fun other mem => described other (List.mem_cons_of_mem _ mem)
    unfold collectFrom
    rw [here, others]
    exact ⟨_, rfl⟩

end Collected

theorem remuxFrom_eq {t index : Nat} {track : PlaybackTrack} {reads : List (Nat × Sample)}
    (described : ∀ read ∈ reads, (track.source.described read.1).isSome) :
    remuxFrom t track index reads = .ok ((reads.zipIdx index).map (copied 0 0 t track 0)) := by
  induction reads generalizing index with
  | nil => rfl
  | cons read rest ih =>
    obtain ⟨config, held⟩ := Option.isSome_iff_exists.mp (described read List.mem_cons_self)
    unfold remuxFrom
    rw [mediaConfigForDescription_eq_ok.mpr held,
      ih fun other mem => described other (List.mem_cons_of_mem _ mem)]
    simp only [Except.bind, Except.map, List.zipIdx_cons, List.map_cons, copied, held,
      Option.getD_some, Nat.sub_zero]

end KeepPeek.Playback
