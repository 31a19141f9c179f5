import KeepPeek.Playback.Source

/-! Frames and sounds of a recording that a new file takes. -/
namespace KeepPeek.Playback

open Lib
open Mp4 (Sample FragmentedMp4Writer Format u32Max)
open MediumTerm (MediaConfig Recording Part Covers)
open PlaybackTrack

/-- A frame of the file, and the one after it: a frame that is no keyframe starts where
the one before it ends, under the same description. -/
def Joined (read next : Nat × Sample) : Prop :=
  next.2.isSync = false → next.1 = read.1 ∧ next.2.startTime ≤ read.2.startTime + u32Max

/-- Frames of a recording, from a keyframe on. -/
structure Footage {recording : Recording} (source : Source recording)
    (reads : List (Nat × Sample)) :
    Prop where
  held : ∀ read ∈ reads, read ∈ source.video.samples
  durations : ∀ read ∈ reads, read.2.duration ≠ 0
  joined : reads.IsChain Joined
  first : ∀ read ∈ reads.head?, read.2.isSync

section Fragments

variable {startedAtMs : Int} {parts : List Part}

section

variable (covers : ∀ part ∈ parts, Covers startedAtMs part)
include covers

theorem durations_of_covers : ∀ sample ∈ parts.flatMap Prod.snd, sample.duration ≠ 0 := by
  intro sample mem
  obtain ⟨part, part_mem, mem⟩ := List.mem_flatMap.mp mem
  obtain ⟨first, rest, stop, frames, gapless, _⟩ := covers part part_mem
  rw [frames] at mem
  have := (gapless.durations sample mem).1
  omega

theorem first_of_covers : ∀ sample ∈ (parts.flatMap Prod.snd).head?, sample.isSync := by
  intro sample held
  cases parts with
  | nil => cases held
  | cons part later =>
    obtain ⟨first, rest, stop, frames, gapless, _⟩ := covers part List.mem_cons_self
    rw [List.flatMap_cons, frames] at held
    exact gapless.first sample held

theorem chain_of_covers : (parts.flatMap Prod.snd).IsChain fun sample next => next.isSync = false →
    next.startTime ≤ sample.startTime + u32Max := by
  induction parts with
  | nil => exact .nil
  | cons part later ih =>
    have later_covers := fun other mem => covers other (List.mem_cons_of_mem part mem)
    obtain ⟨first, rest, stop, frames, gapless, _⟩ := covers part List.mem_cons_self
    rw [List.flatMap_cons, frames]
    refine List.isChain_append.mpr ⟨?_, ih later_covers, ?_⟩
    · refine gapless.chain.imp_of_mem_imp fun sample next sample_mem _ same _ => ?_
      have := (gapless.durations sample sample_mem).2
      omega
    · intro sample _ next next_held delta
      have sync := first_of_covers later_covers next next_held
      rw [sync] at delta
      cases delta

end

theorem footage_of_covers {r : Recording} {src : Source r}
    {reads : List (Nat × Sample)} (infixed : reads <:+: src.video.samples)
    (frames : reads.map Prod.snd = parts.flatMap Prod.snd)
    (covers : ∀ part ∈ parts, Covers startedAtMs part) : Footage src reads := by
  have of_frame : ∀ read ∈ reads, read.2 ∈ parts.flatMap Prod.snd := by
    intro read mem
    rw [← frames]
    exact List.mem_map_of_mem mem
  refine ⟨fun read mem => infixed.subset mem,
    fun read mem => durations_of_covers covers read.2 (of_frame read mem), ?_, ?_⟩
  · have within := List.IsChain.infix src.grouped infixed
    have grouped := List.isChain_iff_getElem.mp within
    have chain := chain_of_covers covers
    rw [← frames, List.isChain_map] at chain
    have near := List.isChain_iff_getElem.mp chain
    refine List.isChain_iff_getElem.mpr fun place bound delta => ?_
    exact ⟨grouped place bound delta, near place bound delta⟩
  · intro read held
    refine first_of_covers covers read.2 ?_
    rw [← frames, List.head?_map, Option.mem_def.mp held]
    rfl

end Fragments

def PlaybackTrack.shape (track : PlaybackTrack) : Shape :=
    (track.trackType, track.sampleDescriptions)

theorem startTime_lt_of_absoluteMs {startedAtMs : Int} {timescale early late : Nat}
    (h : absoluteMs startedAtMs timescale early < absoluteMs startedAtMs timescale late) :
    early < late := by
  by_contra reversed
  have := absoluteMs_mono startedAtMs timescale (Nat.not_lt.mp reversed)
  omega

section Copies

variable {startedAtMs : Int} {t : Nat} {track : PlaybackTrack} {reads : List (Nat × Sample)}
  {first shift : Nat}

/-- Samples of a track as they are written. -/
def copies (startedAtMs : Int) (trackId : Nat) (track : PlaybackTrack) (shift first : Nat)
    (reads : List (Nat × Sample)) : List ExportSample :=
  (reads.zipIdx first).map (copied startedAtMs 0 trackId track shift)

theorem pairwise_copies {related : Nat × Sample → Nat × Sample → Prop}
    {written : ExportSample → ExportSample → Prop} (samples : reads.Pairwise related)
    (step : ∀ left right, related left.1 right.1 → written (copied startedAtMs 0 t track shift left)
      (copied startedAtMs 0 t track shift right)) :
    (copies startedAtMs t track shift first reads).Pairwise written := by
  unfold copies
  rw [List.pairwise_map]
  rw [← List.zipIdx_map_fst first reads, List.pairwise_map] at samples
  exact samples.imp (step _ _)

theorem mem_copies {x : ExportSample} (mem : x ∈ copies startedAtMs t track shift first reads) :
    ∃ read ∈ reads, ∃ place, x = copied startedAtMs 0 t track shift (read, place) := by
  obtain ⟨⟨read, place⟩, entry, rfl⟩ := List.mem_map.mp mem
  refine ⟨read, ?_, place, rfl⟩
  rw [← List.zipIdx_map_fst first reads]
  exact List.mem_map_of_mem entry

theorem copies_trackId :
    ∀ sample ∈ copies startedAtMs t track shift first reads, sample.trackId = t := by
  intro sample mem
  obtain ⟨_, _, _, rfl⟩ := mem_copies mem
  rfl

theorem copies_index : (copies startedAtMs t track shift first reads).map ExportSample.index =
    List.range' first reads.length := by
  unfold copies
  rw [List.map_map, ← List.zipIdx_map_snd]
  rfl

theorem copies_content (described : ∀ read ∈ reads, (track.source.described read.1).isSome) :
    (copies startedAtMs t track shift first reads).map ExportSample.content =
      reads.map fun read => ⟨track.source.described read.1, read.2.startTime - shift, read.2.isSync,
      read.2.bytes⟩ := by
  unfold copies
  nth_rewrite 2 [← List.zipIdx_map_fst first reads]
  rw [List.map_map, List.map_map]
  refine List.map_congr_left fun entry mem => ?_
  have held : entry.1 ∈ reads := by
    rw [← List.zipIdx_map_fst first reads]
    exact List.mem_map_of_mem mem
  obtain ⟨config, found⟩ := Option.isSome_iff_exists.mp (described entry.1 held)
  simp only [Function.comp, ExportSample.content, copied, found, Option.getD_some]

theorem copies_rise (late : ∀ read ∈ reads, shift ≤ read.2.startTime)
    (rising : reads.Pairwise fun read next => read.2.startTime < next.2.startTime) :
    (copies startedAtMs t track shift first reads).Pairwise fun left right => left.start <
      right.start := by
  have both : reads.Pairwise fun read next =>
      shift ≤ read.2.startTime ∧ read.2.startTime < next.2.startTime :=
    rising.imp_of_mem fun mem _ before => ⟨late _ mem, before⟩
  refine pairwise_copies both fun left right h => ?_
  simp only [ExportSample.start, copied]
  omega

end Copies

section Video

variable {recording : Recording} {src : Source recording} {startedAtMs : Int}
  {reads : List (Nat × Sample)} {first shift : Nat} {sounds : List PlaybackTrack}

theorem described_of_mem {read : Nat × Sample} (mem : read ∈ src.video.samples) :
    (src.video.described read.1).isSome := by
  obtain ⟨config, _, found⟩ := Source.described_video (src.numbered read mem)
  rw [found]
  rfl

theorem fit_picture {read : Nat × Sample} (mem : read ∈ src.video.samples)
    (positive : read.2.duration ≠ 0) (place : Nat) :
    Fit ((src.playbackVideo :: sounds).map shape)
      (copied startedAtMs 0 1 src.playbackVideo shift (read, place)) := by
  obtain ⟨config, listed, found⟩ := Source.described_video (src.numbered read mem)
  have same : src.playbackVideo.source.described read.1 = some config := found
  refine ⟨positive, src.bytes read mem, Nat.one_pos, ⟨src.configs, rfl, ?_, src.few⟩, ?_, ?_⟩
  · simp only [copied, same, Option.getD_some]
    exact listed
  · simp only [copied, same, Option.getD_some]
    exact src.types config listed
  · exact ⟨fun _ => rfl, fun _ => rfl⟩

theorem acceptable_pictures (footage : Footage src reads)
    (late : ∀ read ∈ reads, shift ≤ read.2.startTime)
    (rising : reads.Pairwise fun read next => read.2.startTime < next.2.startTime) :
    AcceptableOn ((src.playbackVideo :: sounds).map shape) none
      (copies startedAtMs 1 src.playbackVideo shift first reads) := by
  apply acceptableOn_of_chain
  · intro sample mem
    obtain ⟨read, held, place, rfl⟩ := mem_copies mem
    exact fit_picture (footage.held read held) (footage.durations read held) place
  · have joined := List.isChain_iff_getElem.mp footage.joined
    have ordered := List.isChain_iff_getElem.mp rising.isChain
    have both : reads.IsChain fun read next => (read ∈ reads ∧ next ∈ reads) ∧
        Joined read next ∧ read.2.startTime < next.2.startTime :=
      List.isChain_iff_getElem.mpr fun place bound =>
        ⟨⟨List.getElem_mem _, List.getElem_mem _⟩, joined place bound, ordered place bound⟩
    rw [← List.zipIdx_map_fst first reads, List.isChain_map] at both
    unfold copies
    rw [Option.toList_none, List.nil_append, List.isChain_map]
    refine both.imp fun read next h => ?_
    obtain ⟨⟨read_mem, next_mem⟩, joined, before⟩ := h
    rw [List.zipIdx_map_fst] at read_mem next_mem
    have read_late := late _ read_mem
    have next_late := late _ next_mem
    refine ⟨?_, nofun, ?_⟩
    · rintro previous ⟨rfl⟩
      simp only [ExportSample.start, copied]
      omega
    · rintro delta previous ⟨rfl⟩
      have same := joined (by simpa [ExportSample.isKeyframe, copied, Source.playbackVideo]
        using delta)
      refine ⟨?_, ?_⟩
      · simp only [copied, same.1]
      · simp only [ExportSample.start, copied]
        omega
  · intro _ sample held _
    unfold copies at held
    rw [List.head?_map] at held
    obtain ⟨entry, entry_held, rfl⟩ := Option.map_eq_some_iff.mp held
    refine footage.first entry.1 ?_
    have := congrArg (Option.map Prod.fst) entry_held
    rw [← List.head?_map, List.zipIdx_map_fst] at this
    exact this

end Video

section Audio

variable {recording : Recording} {src : Source recording}

theorem described_sound {track : SourceTrack} (held : track ∈ src.audio) {read : Nat × Sample}
    (mem : read ∈ track.samples) :
    track.described read.1 = some (.aac 64000 src.frequency src.stereo) := by
  rw [(src.sound track held).numbered read mem]
  exact Source.described_audio held

/-- Sounds of a recording, at one distance from their times there. -/
structure Sounds (source : Source recording) (track : SourceTrack) (origin : Int)
    (samples : List ExportSample) : Prop where
  trackId : ∀ sample ∈ samples, sample.trackId = 2
  trackType : ∀ sample ∈ samples, sample.trackType = .audio
  taken : ∀ sample ∈ samples, ∃ read ∈ track.samples,
    sample.sampleDescription = .aac 64000 source.frequency source.stereo ∧
      (sample.start : Int) = origin + read.2.startTime ∧
      sample.sample.duration = read.2.duration ∧ sample.sample.bytes = read.2.bytes

theorem acceptable_sounds {track : SourceTrack} (held : track ∈ src.audio) {origin : Int}
    {xs : List ExportSample} (sounds : Sounds src track origin xs) :
    AcceptableOn ([src.playbackVideo, src.playbackAudio track].map shape) none xs := by
  have sound := src.sound track held
  apply acceptableOn_of_near
  · intro sample mem
    obtain ⟨read, read_mem, described, _, duration, bytes⟩ := sounds.taken sample mem
    have trackId := sounds.trackId sample mem
    have trackType := sounds.trackType sample mem
    refine ⟨?_, ?_, by omega, ⟨[.aac 64000 src.frequency src.stereo], ?_, ?_,
      (by decide : 1 ≤ u32Max)⟩, ?_, ?_⟩
    · rw [duration]
      exact sound.durations read read_mem
    · rw [bytes]
      exact sound.bytes read read_mem
    · rw [trackId, trackType]
      rfl
    · rw [described]
      exact List.mem_singleton_self _
    · rw [described, trackType]
      rfl
    · rw [trackId, trackType]
      exact ⟨nofun, nofun⟩
  · intro sample mem
    rw [sounds.trackType sample mem]
    nofun
  · intro previous previous_mem sample mem
    rw [Option.toList_none, List.nil_append] at previous_mem
    obtain ⟨read, read_mem, described, start, _⟩ := sounds.taken previous previous_mem
    obtain ⟨other, other_mem, other_described, other_start, _⟩ := sounds.taken sample mem
    have near := sound.near read read_mem other other_mem
    exact ⟨described.trans other_described.symm, by omega⟩

theorem Sounds.sublist {track : SourceTrack} {origin : Int} {xs others : List ExportSample}
    (sounds : Sounds src track origin xs) (inside : ∀ sample ∈ others, sample ∈ xs) :
    Sounds src track origin others :=
  ⟨fun sample mem => sounds.trackId sample (inside sample mem),
    fun sample mem => sounds.trackType sample (inside sample mem),
    fun sample mem => sounds.taken sample (inside sample mem)⟩

/-- The audio that goes with the video, if there is any. -/
def Heard (source : Source recording) (sounds : List PlaybackTrack) (audio : List ExportSample) :
    Prop :=
  sounds = [] ∧ audio = [] ∨ ∃ track ∈ source.audio, sounds = [source.playbackAudio track] ∧
    ∃ origin, Sounds source track origin audio

theorem Heard.trackId {sounds : List PlaybackTrack} {audio : List ExportSample}
    (heard : Heard src sounds audio) : ∀ sample ∈ audio, sample.trackId = 2 := by
  rcases heard with ⟨_, rfl⟩ | ⟨track, _, _, origin, sounds⟩
  · nofun
  · exact sounds.trackId

variable {sounds : List PlaybackTrack} {frames audio : List ExportSample}

theorem ofTrack_sorted_eq {Location : Type} {order : Order Location} (lawful : order.Lawful)
    (own : ∀ sample ∈ frames, sample.trackId = 1) (heard : Heard src sounds audio) :
    ((frames.Pairwise fun left right => left.absoluteMs < right.absoluteMs) →
      ofTrack 1 (order.samples (frames ++ audio)) = frames) ∧ ∀ trackId, trackId ≠ 1 →
      ∀ sample ∈ ofTrack trackId (order.samples (frames ++ audio)), sample ∈ audio := by
  have first : ofTrack 1 (frames ++ audio) = frames := by
    have none : ofTrack 1 audio = [] := ofTrack_eq_nil fun sample mem => by
      rw [heard.trackId sample mem]
      decide
    rw [ofTrack_append, none, List.append_nil, ofTrack_eq_self own]
  refine ⟨fun spaced => ?_, fun trackId other sample mem => ?_⟩
  · rw [ofTrack_sorted lawful (by rw [first]; exact spaced), first]
  · obtain ⟨mem, same⟩ := mem_ofTrack.mp mem
    rcases List.mem_append.mp ((lawful.samples_perm _).mem_iff.mp mem) with mem | mem
    · exact absurd (same.symm.trans (own sample mem)) other
    · exact mem

theorem acceptable_sorted {Location : Type} {order : Order Location} (lawful : order.Lawful)
    (own : ∀ sample ∈ frames, sample.trackId = 1) (heard : Heard src sounds audio)
    (spaced : frames.Pairwise fun left right => left.absoluteMs < right.absoluteMs)
    (acceptable : AcceptableOn ((src.playbackVideo :: sounds).map shape) none frames) :
    Acceptable ((src.playbackVideo :: sounds).map shape) (fun _ => none)
      (order.samples (frames ++ audio)) := by
  obtain ⟨first, others⟩ := ofTrack_sorted_eq lawful own heard
  apply acceptable_of_tracks
  intro trackId
  by_cases video : trackId = 1
  · rw [video, first spaced]
    exact acceptable
  have inside := others trackId video
  rcases heard with ⟨_, rfl⟩ | ⟨track, held, rfl, origin, sounds⟩
  · have none : ofTrack trackId (order.samples (frames ++ [])) = [] :=
      List.eq_nil_iff_forall_not_mem.mpr fun sample mem => by cases inside sample mem
    rw [none]
    trivial
  · exact acceptable_sounds held (sounds.sublist inside)

end Audio

/-! The new file. -/

section Start

variable {f : Format MediaConfig} {tracks : List PlaybackTrack} {o : Output}

theorem start_ready (h : Output.start f tracks = .ok o) :
    Ready (tracks.map shape) (fun _ => none) o := by
  unfold Output.start at h
  split at h
  · cases h
  split at h
  · cases h
  split at h
  · cases h
  rename_i writer started
  cases h
  unfold FragmentedMp4Writer.writeStart at started
  split at started
  · cases started
  split at started
  · cases started
  split at started
  · cases started
  split at started
  · cases started
  split at started
  · cases started
  cases started
  refine ⟨rfl, ?_, ?_, fun _ _ h => (by cases h), fun _ => rfl⟩
  · dsimp only
    rw [List.map_map, List.map_map]
    rfl
  · intro trackId track found
    have mem := List.mem_of_getElem? (FragmentedMp4Writer.track_eq_some found).2
    obtain ⟨config, _, rfl⟩ := List.mem_map.mp mem
    exact ⟨rfl, fun _ => rfl, nofun⟩

theorem start_of_tracks (video : tracks.any fun track => track.trackType = .video)
    (few : tracks.length ≤ u32Max)
    (each : ∀ track ∈ tracks, track.timescale ≠ 0 ∧ track.sampleDescriptions ≠ [] ∧
      track.sampleDescriptions.length ≤ u32Max)
    (metadata : ∃ bytes, f.initializationMetadata
    (tracks.map sampleDescriptions) = .ok bytes) :
    ∃ o, Output.start f tracks = .ok o := by
  obtain ⟨bytes, encoded⟩ := metadata
  have some : tracks ≠ [] := by
    rintro rfl
    cases video
  unfold Output.start
  rw [if_neg (by simpa using video), if_neg (by simpa using fun track mem => (each track mem).1)]
  unfold FragmentedMp4Writer.writeStart
  rw [if_neg (by simpa using some)]
  rw [if_neg (by simpa using fun track mem => (each track mem).2.1),
    if_neg (by rw [List.length_map]; omega),
    if_neg (by simpa using fun track mem => (each track mem).2.2)]
  rw [List.map_map]
  have same : tracks.map (Mp4.FragmentedMp4Writer.TrackConfig.sampleDescriptions ∘ fun track =>
      ⟨track.trackType, track.sampleDescriptions⟩) = tracks.map sampleDescriptions :=
    rfl
  rw [same, encoded]
  exact ⟨_, rfl⟩

variable {recording : Recording} {src : Source recording}

def Encodes (format : Format MediaConfig) (source : Source recording) : Prop :=
  ∀ tracks : List PlaybackTrack, tracks.Sublist source.playback → ∃ bytes,
    format.initializationMetadata (tracks.map sampleDescriptions) = .ok bytes

theorem start_of_source (encodes : Encodes f src) (frame : src.video.samples ≠ [])
    {sounds : List PlaybackTrack}
    (inside : (src.playbackVideo :: sounds).Sublist src.playback) :
    ∃ o, Output.start f (src.playbackVideo :: sounds) = .ok o := by
  obtain ⟨read, mem⟩ := List.exists_mem_of_ne_nil _ frame
  have numbered := src.numbered read mem
  have few : src.playback.length ≤ 2 := by
    unfold Source.playback
    cases src.audio <;> simp
  refine start_of_tracks rfl ?_ ?_ (encodes _ inside)
  · have := inside.length_le
    have : 2 ≤ u32Max := by decide
    omega
  · intro track track_mem
    have listed := inside.subset track_mem
    unfold Source.playback at listed
    rcases List.mem_cons.mp listed with rfl | listed
    · refine ⟨(by decide : (90000 : Nat) ≠ 0), ?_, src.few⟩
      intro none
      unfold Source.playbackVideo at none
      dsimp only at none
      rw [none] at numbered
      simp at numbered
      omega
    · obtain ⟨audio, audio_mem, rfl⟩ := List.mem_map.mp listed
      have sound := src.sound audio (Option.mem_toList.mp audio_mem)
      exact ⟨Nat.ne_of_gt sound.positive, List.cons_ne_nil _ _, (by decide : 1 ≤ u32Max)⟩

end Start

/-- A track of the new file holds some samples of a track that was read, each once and
in their order, all of them earlier by one shift. -/
structure Holds (output : Output) (trackId : Nat) (track : SourceTrack) (first count shift : Nat) :
    Prop where
  late : ∀ read ∈ (track.samples.drop first).take count, shift ≤ read.2.startTime
  content : output.track trackId = ((track.samples.drop first).take count).map fun read =>
    ⟨track.described read.1, read.2.startTime - shift, read.2.isSync, read.2.bytes⟩
  places : (output.takenOf trackId).map ExportSample.index = List.range' first count

end KeepPeek.Playback
