import KeepPeek.Playback.Frames
import KeepPeek.Playback.Sorts

/-! When the browser copy of a recording holds all of it: when no two samples of a
track start in the same millisecond, which every sort keeps apart. -/
namespace KeepPeek.Playback

open Lib
open Mp4 (Sample Format)
open MediumTerm (MediaConfig Recording videoTimescale)
open Source

section Written

variable {f : Format MediaConfig} {o after : Output}

theorem putSamples_carries {xs : List ExportSample} (carries : o.Carries)
    (h : xs.foldlM (Output.putSample f) o = .ok after) :
    after.Carries ∧ after.taken = o.taken ++ xs := by
  induction xs generalizing o with
  | nil =>
    cases h
    exact ⟨carries, (List.append_nil _).symm⟩
  | cons sample rest ih =>
    obtain ⟨between, first, h⟩ := foldlM_cons_eq_ok h
    obtain ⟨carries, taken⟩ := Output.putSample_carries carries first
    obtain ⟨carries, more⟩ := ih carries h
    exact ⟨carries, by rw [more, taken, List.append_assoc, List.singleton_append]⟩

theorem remux_eq_ok {Location : Type} {order : Order Location} {source : List SourceTrack}
    (h : remuxRecording f order source = .ok o) :
    ∃ tracks samples, exportTracks source = .ok tracks ∧ remuxTracks 0 tracks = .ok samples ∧
      ∀ trackId, o.track trackId = (o.takenOf trackId).map ExportSample.content ∧
        o.takenOf trackId = ofTrack trackId (order.samples samples) := by
  unfold remuxRecording at h
  obtain ⟨tracks, read, h⟩ := bind_eq_ok h
  obtain ⟨started, start, h⟩ := bind_eq_ok h
  obtain ⟨samples, collected, h⟩ := bind_eq_ok h
  obtain ⟨written, wrote, flushed⟩ := bind_eq_ok h
  split at start
  swap
  · cases start
  obtain ⟨carries, empty, _⟩ := start_carries start
  obtain ⟨carries, taken⟩ := putSamples_carries carries wrote
  obtain ⟨carries, same, nothing⟩ := Output.flushFragment_carries carries flushed
  refine ⟨tracks, samples, read, collected, fun trackId => ⟨?_, ?_⟩⟩
  · have content := carries.content trackId
    rw [nothing, List.append_nil] at content
    exact content
  · unfold Output.takenOf ofTrack
    rw [same, taken, empty, List.nil_append]

end Written

section Copies

variable {Location : Type} {f : Format MediaConfig} {r : Recording}
  {src : Source r}
variable {reads : List (Nat × Sample)} {order : Order Location}

def Source.sounds (source : Source recording) : List ExportSample :=
  source.audio.toList.flatMap fun track => copies 0 2 (source.playbackAudio track) 0 0 track.samples

theorem remuxTracks_eq : remuxTracks 0 src.playback =
    .ok (copies 0 1 src.playbackVideo 0 0 src.video.samples ++ src.sounds) := by
  have video : remuxFrom 1 src.playbackVideo 0 src.playbackVideo.source.samples =
      .ok (copies 0 1 src.playbackVideo 0 0 src.video.samples) :=
    remuxFrom_eq fun read mem => described_of_mem mem
  have audio : remuxTracks 1 (src.audio.toList.map src.playbackAudio) = .ok src.sounds := by
    unfold sounds
    cases held : src.audio with
    | none => rfl
    | some track =>
      have sounds : remuxFrom 2 (src.playbackAudio track) 0
          (src.playbackAudio track).source.samples =
            .ok (copies 0 2 (src.playbackAudio track) 0 0 track.samples) :=
        remuxFrom_eq fun read mem =>
          Option.isSome_iff_exists.mpr ⟨_, described_sound (Option.mem_def.mpr held) mem⟩
      simp only [Option.toList_some, List.map_cons, List.map_nil, remuxTracks, sounds, Except.bind,
        Except.map, List.append_nil, List.flatMap_cons, List.flatMap_nil]
  unfold playback remuxTracks
  rw [video]
  simp only [Except.bind, audio, Except.map]

/-- Whatever the sort, the copy is made and holds every sample of both tracks. -/
def Whole (Location : Type) (format : Format MediaConfig) (source : Source recording) : Prop :=
  ∀ order : Order Location, order.Lawful → ∃ output,
    remuxRecording format order source.tracks = .ok output ∧
      Holds output 1 source.video 0 source.video.samples.length 0 ∧
      ∀ track ∈ source.audio, Holds output 2 track 0 track.samples.length 0

/-- The samples of a track start in different milliseconds, in their order. -/
def Apart (timescale : Nat) (samples : List Sample) : Prop :=
  samples.Pairwise fun sample next =>
    absoluteMs 0 timescale sample.startTime < absoluteMs 0 timescale next.startTime

theorem apart_of_every_sort (Location : Type) {xs : List ExportSample} {t : Nat}
    {track : PlaybackTrack} (own : ofTrack t xs = copies 0 t track 0 0 reads)
    (every : ∀ order : Order Location, order.Lawful →
      (ofTrack t (order.samples xs)).map ExportSample.index = List.range' 0 reads.length) :
    Apart track.timescale (reads.map Prod.snd) := by
  have placed : ∀ sample ∈ copies 0 t track 0 0 reads, ∀ read, reads[sample.index]? = some read →
        sample.absoluteMs = absoluteMs 0 track.timescale read.2.startTime := by
    intro sample mem read found
    obtain ⟨entry, entry_mem, rfl⟩ := List.mem_map.mp mem
    have held := List.mem_zipIdx_iff_getElem?.mp entry_mem
    simp only [copied] at found ⊢
    rw [held, Option.some.injEq] at found
    rw [found]
  unfold Apart
  rw [List.pairwise_map, List.pairwise_iff_getElem]
  intro early late early_bound late_bound lt
  obtain ⟨sample, mem, index⟩ : ∃ sample ∈ copies 0 t track 0 0 reads, sample.index = late := by
    have listed : late ∈ (copies 0 t track 0 0 reads).map ExportSample.index := by
      rw [copies_index, List.mem_range'_1]
      omega
    exact List.mem_map.mp listed
  obtain ⟨_, _, earlier⟩ := rising_of_every_sort Location (by
      rw [own]
      intro left left_mem right right_mem
      obtain ⟨_, _, _, rfl⟩ := mem_copies left_mem
      obtain ⟨_, _, _, rfl⟩ := mem_copies right_mem
      rfl)
    (fun order lawful => ⟨_, keeps_self _, every order lawful⟩) (by rw [own]; exact mem)
  obtain ⟨other, other_mem, same, below⟩ := earlier early (Nat.zero_le _) (by omega)
  rw [own] at other_mem
  rw [← placed other other_mem _ (by rw [same]; exact List.getElem?_eq_getElem early_bound),
    ← placed sample mem _ (by rw [index]; exact List.getElem?_eq_getElem late_bound)]
  exact below

theorem sounds_trackId : ∀ sample ∈ src.sounds, sample.trackId = 2 := by
  intro sample mem
  obtain ⟨track, _, mem⟩ := List.mem_flatMap.mp mem
  exact copies_trackId sample mem

def Source.all (source : Source recording) : List ExportSample :=
  copies 0 1 source.playbackVideo 0 0 source.video.samples ++ source.sounds

theorem ofTrack_all_video :
    ofTrack 1 src.all = copies 0 1 src.playbackVideo 0 0 src.video.samples := by
  have none : ofTrack 1 src.sounds = [] := ofTrack_eq_nil fun sample mem => by
    rw [sounds_trackId sample mem]
    decide
  unfold all
  rw [ofTrack_append, none, List.append_nil, ofTrack_eq_self copies_trackId]

theorem ofTrack_all_audio {track : SourceTrack} (held : track ∈ src.audio) :
    ofTrack 2 src.all = copies 0 2 (src.playbackAudio track) 0 0 track.samples := by
  have none : ofTrack 2 (copies 0 1 src.playbackVideo 0 0 src.video.samples) = [] :=
    ofTrack_eq_nil fun sample mem => by
      rw [copies_trackId sample mem]
      decide
  have sounds : src.sounds = copies 0 2 (src.playbackAudio track) 0 0 track.samples := by
    unfold sounds
    rw [Option.mem_def.mp held, Option.toList_some, List.flatMap_cons, List.flatMap_nil,
      List.append_nil]
  unfold all
  rw [ofTrack_append, none, List.nil_append, ofTrack_eq_self sounds_trackId, sounds]

theorem remux_source (frame : src.video.samples ≠ []) {o : Output}
    (h : remuxRecording f order src.tracks = .ok o) (t : Nat) :
    o.track t = (o.takenOf t).map ExportSample.content ∧
      o.takenOf t = ofTrack t (order.samples src.all) := by
  obtain ⟨tracks, samples, read, collected, wrote⟩ := remux_eq_ok h
  rw [exportTracks_eq frame, Except.ok.injEq] at read
  rw [← read, remuxTracks_eq, Except.ok.injEq] at collected
  rw [← collected] at wrote
  exact wrote t

theorem apart_of_whole (frame : src.video.samples ≠ []) (whole : Whole Location f src) :
    Apart videoTimescale r.video ∧
      ∀ track ∈ src.audio, Apart src.frequency (track.samples.map Prod.snd) := by
  have video : Apart src.playbackVideo.timescale (src.video.samples.map Prod.snd) := by
    refine apart_of_every_sort Location ofTrack_all_video fun order lawful => ?_
    obtain ⟨output, copied, video, _⟩ := whole order lawful
    rw [← (remux_source frame copied 1).2]
    exact video.places
  rw [src.samples] at video
  refine ⟨video, fun track held => ?_⟩
  have audio : Apart (src.playbackAudio track).timescale (track.samples.map Prod.snd) := by
    refine apart_of_every_sort Location (ofTrack_all_audio held) fun order lawful => ?_
    obtain ⟨output, copied, _, audio⟩ := whole order lawful
    rw [← (remux_source frame copied 2).2]
    exact (audio track held).places
  exact audio

/-- Whatever was written, what waits fits one fragment. -/
def CopyRoom (format : Format MediaConfig) (limit : Nat → Nat) (order : Order Location)
    (source : Source recording) : Prop :=
  ∀ output, Output.start format source.playback = .ok output →
    Roomy limit (Output.putSample format) output (order.samples source.all)

theorem heard_sounds : Heard src (src.audio.toList.map src.playbackAudio) src.sounds := by
  unfold sounds
  cases held : src.audio with
  | none => exact .inl ⟨rfl, rfl⟩
  | some track =>
    refine .inr ⟨track, held, rfl, 0, ?_⟩
    rw [Option.toList_some, List.flatMap_cons, List.flatMap_nil, List.append_nil]
    refine ⟨copies_trackId, fun sample mem => ?_, fun sample mem => ?_⟩
    · obtain ⟨_, _, _, rfl⟩ := mem_copies mem
      rfl
    · obtain ⟨read, read_mem, _, rfl⟩ := mem_copies mem
      have described : (src.playbackAudio track).source.described read.1 = _ :=
        described_sound held read_mem
      refine ⟨read, read_mem, ?_, ?_, rfl, rfl⟩
      · simp only [copied, described, Option.getD_some]
      · simp only [ExportSample.start, copied, Nat.sub_zero, Int.zero_add]

theorem Apart.rising {timescale : Nat} (apart : Apart timescale (reads.map Prod.snd)) :
    reads.Pairwise fun read next => read.2.startTime < next.2.startTime := by
  unfold Apart at apart
  rw [List.pairwise_map] at apart
  exact apart.imp fun h => startTime_lt_of_absoluteMs h

theorem Apart.spaced {t : Nat} {track : PlaybackTrack}
    (apart : Apart track.timescale (reads.map Prod.snd)) :
    (copies 0 t track 0 0 reads).Pairwise fun left right =>
      left.absoluteMs < right.absoluteMs := by
  unfold Apart at apart
  rw [List.pairwise_map] at apart
  exact pairwise_copies apart fun _ _ h => h

theorem sorted_tracks (lawful : order.Lawful) (video : Apart videoTimescale r.video)
    (audio : ∀ track ∈ src.audio, Apart src.frequency (track.samples.map Prod.snd)) :
    ofTrack 1 (order.samples src.all) = copies 0 1 src.playbackVideo 0 0 src.video.samples ∧
      ∀ track ∈ src.audio, ofTrack 2 (order.samples src.all) =
        copies 0 2 (src.playbackAudio track) 0 0 track.samples := by
  rw [← src.samples] at video
  have frames : Apart src.playbackVideo.timescale (src.video.samples.map Prod.snd) := video
  refine ⟨?_, fun track held => ?_⟩
  · rw [ofTrack_sorted lawful (by rw [ofTrack_all_video]; exact frames.spaced), ofTrack_all_video]
  · have sounds : Apart (src.playbackAudio track).timescale (track.samples.map Prod.snd) :=
      audio track held
    rw [ofTrack_sorted lawful (by rw [ofTrack_all_audio held]; exact sounds.spaced),
      ofTrack_all_audio held]

theorem tracks_rise (lawful : order.Lawful) (video : Apart videoTimescale r.video)
    (audio : ∀ track ∈ src.audio, Apart src.frequency (track.samples.map Prod.snd))
    (t : Nat) :
    (ofTrack t (order.samples src.all)).Pairwise fun left right =>
      left.start < right.start := by
  obtain ⟨first, second⟩ := sorted_tracks lawful video audio
  rw [← src.samples] at video
  by_cases one : t = 1
  · rw [one, first]
    exact copies_rise (fun _ _ => Nat.zero_le _) video.rising
  by_cases two : t = 2
  · cases held : src.audio with
    | none =>
      have none : ofTrack t (order.samples src.all) = [] := by
        refine List.eq_nil_iff_forall_not_mem.mpr fun sample mem => ?_
        have sound := (ofTrack_sorted_eq lawful copies_trackId heard_sounds).2 t one sample mem
        unfold sounds at sound
        rw [held] at sound
        cases sound
      rw [none]
      exact .nil
    | some track =>
      rw [two, second track held]
      exact copies_rise (fun _ _ => Nat.zero_le _) (audio track held).rising
  · have none : ofTrack t (order.samples src.all) = [] := by
      refine List.eq_nil_iff_forall_not_mem.mpr fun sample mem => ?_
      have sound := (ofTrack_sorted_eq lawful copies_trackId heard_sounds).2 t one sample mem
      exact two ((mem_ofTrack.mp mem).2.symm.trans (sounds_trackId sample sound))
    rw [none]
    exact .nil

theorem whole_of_apart {limit : Nat → Nat} (suits : Suits f limit)
    (encodes : Encodes f src) (frame : src.video.samples ≠ [])
    (footage : Footage src src.video.samples)
    (roomy : ∀ order : Order Location, order.Lawful → CopyRoom f limit order src)
    (video : Apart videoTimescale r.video)
    (audio : ∀ track ∈ src.audio, Apart src.frequency (track.samples.map Prod.snd)) :
    Whole Location f src := by
  have frames : Apart src.playbackVideo.timescale (src.video.samples.map Prod.snd) := by
    rw [src.samples]
    exact video
  obtain ⟨started, start⟩ := start_of_source encodes frame (List.Sublist.refl src.playback)
  intro order lawful
  have room := roomy order lawful started start
  have acceptable : Acceptable (src.playback.map PlaybackTrack.shape) (fun _ => none)
      (order.samples src.all) :=
    acceptable_sorted lawful copies_trackId heard_sounds frames.spaced
      (acceptable_pictures footage (fun _ _ => Nat.zero_le _) frames.rising)
  obtain ⟨written, wrote, last, ready⟩ := (start_ready start).putSamples suits
    (fun trackId => ⟨tracks_rise lawful video audio trackId, fun _ _ => above_none _⟩)
    acceptable room
  obtain ⟨output, flushed, _⟩ := ready.flushFragment suits (room.last wrote)
  have copied : remuxRecording f order src.tracks = .ok output := by
    unfold remuxRecording
    rw [exportTracks_eq frame]
    simp only [Except.bind]
    unfold all at wrote
    have pictures : src.playback.any fun track => track.trackType = .video := rfl
    rw [if_pos pictures, show Output.start f src.playback = .ok started from start,
      remuxTracks_eq]
    simp only [wrote, flushed]
  obtain ⟨first, second⟩ := sorted_tracks lawful video audio
  refine ⟨output, copied, ?_, fun track held => ?_⟩
  · obtain ⟨content, taken⟩ := remux_source frame copied 1
    rw [first] at taken
    refine ⟨fun _ _ => Nat.zero_le _, ?_, ?_⟩
    · rw [content, taken, List.drop_zero, List.take_length]
      exact copies_content fun read mem => described_of_mem mem
    · rw [taken, copies_index]
  · obtain ⟨content, taken⟩ := remux_source frame copied 2
    rw [second track held] at taken
    refine ⟨fun _ _ => Nat.zero_le _, ?_, ?_⟩
    · rw [content, taken, List.drop_zero, List.take_length]
      exact copies_content fun read mem =>
        Option.isSome_iff_exists.mpr ⟨_, described_sound held mem⟩
    · rw [taken, copies_index]

end Copies

end KeepPeek.Playback
