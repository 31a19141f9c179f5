import KeepPeek.Lib.Outcome
import KeepPeek.Mp4.FaultSafety
import Mathlib.Tactic.MkIffOfInductiveProp

/-! What the calls of the fragmented writer do to the samples that wait for the
next fragment. -/
namespace KeepPeek.Mp4.FragmentedMp4Writer

open Lib

variable {δ : Type} {f : Format δ} {w : FragmentedMp4Writer δ}
variable {t index : Nat} {track : FragmentTrack δ} {x : Sample}
  {after : FragmentedMp4Writer δ} {faults : FlushFaults} {fragment : Option FragmentInfo}
  {limit : Nat → Nat}

theorem track_setTrack_self (found : w.track t = some track) (other : FragmentTrack δ) :
    (w.setTrack t other).track t = some other := by
  rcases track_eq_some found with ⟨positive, held⟩
  have inside := (List.getElem?_eq_some_iff.mp held).1
  unfold FragmentedMp4Writer.track setTrack
  rw [if_neg (by omega)]
  exact List.getElem?_set_self inside

theorem track_setTrack_of_ne {t other : Nat} (positive : 0 < t) (h : other ≠ t)
    (track : FragmentTrack δ) :
    (w.setTrack t track).track other = w.track other := by
  unfold FragmentedMp4Writer.track setTrack
  split
  · rfl
  · exact List.getElem?_set_ne (by omega)

theorem track_discardPendingSamples (t : Nat) :
    w.discardPendingSamples.track t = (w.track t).map clearSamples := by
  unfold FragmentedMp4Writer.track discardPendingSamples
  split
  · rfl
  · exact List.getElem?_map

theorem samples_eq_nil (nothing : w.hasPendingSamples = false)
    (found : w.track t = some track) : track.samples = [] := by
  unfold hasPendingSamples at nothing
  rw [List.any_eq_false] at nothing
  simpa using nothing track (List.mem_of_getElem? (track_eq_some found).2)

theorem closeLast_eq_ok {xs closed : List Sample} {next : Nat} {message : String}
    (h : closeLast xs next message = .ok closed) :
    (xs = [] ∧ closed = []) ∨ ∃ front last, xs = front ++ [last] ∧ last.startTime < next ∧
        next - last.startTime ≤ u32Max ∧
        closed = front ++ [{ last with duration := next - last.startTime }] := by
  unfold closeLast at h
  split at h
  · rename_i none
    cases h
    exact .inl ⟨List.getLast?_eq_none_iff.mp none, List.getLast?_eq_none_iff.mp none⟩
  · rename_i last found
    rcases List.getLast?_eq_some_iff.mp found with ⟨front, rfl⟩
    split at h
    · cases h
    split at h
    · cases h
    · cases h
      refine .inr ⟨front, last, rfl, by omega, by omega, ?_⟩
      rw [List.dropLast_concat]

theorem closeLast_eq_nil {xs closed : List Sample} {next : Nat} {message : String}
    (h : closeLast xs next message = .ok closed) : closed = [] ↔ xs = [] := by
  rcases closeLast_eq_ok h with ⟨rfl, rfl⟩ | ⟨front, last, rfl, _, _, rfl⟩
  · rfl
  · simp

/-- A sample that was taken is the last one of its track. The samples of a fragment have one
description on each track, and the first video sample is a sync sample. -/
theorem writeSample_eq_ok
    (h : w.writeSampleWithDescription t index x = (.ok (), after)) :
    ∃ track samples, w.track t = some track ∧ closeLast track.samples x.startTime
        "fragmented MP4 sample decode times are not increasing" = .ok samples ∧
      after = w.setTrack t { track with
        samples := samples ++ [x], pendingSampleDescriptionIndex := some index } ∧
      (∀ pending ∈ track.pendingSampleDescriptionIndex, pending = index) ∧
      (track.trackType = .video → track.samples = [] → x.isSync) := by
  unfold writeSampleWithDescription at h
  split at h
  · cases h
  split at h
  · cases h
  split at h
  · cases h
  split at h
  · cases h
  rename_i track found
  split at h
  · cases h
  split at h
  · cases h
  rename_i same
  split at h
  · cases h
  rename_i allowed
  split at h
  · cases h
  rename_i samples closed
  split at h
  · cases h
  cases h
  refine ⟨track, samples, found, closed, rfl, ?_, ?_⟩
  · intro pending held
    rw [Option.mem_def.mp held] at same
    simpa using same
  · intro video first
    simpa [video, first] using allowed

theorem writeStart_tracks {device : Device} {configs : List (TrackConfig δ)}
    (h : writeStart f device configs = .ok after) :
    after.tracks = configs.map TrackConfig.start := by
  unfold writeStart at h
  split at h
  · cases h
  split at h
  · cases h
  split at h
  · cases h
  split at h
  · cases h
  split at h
  · cases h
  · cases h
    rfl

theorem hasPendingSamples_of_start {configs : List (TrackConfig δ)}
    (tracks : w.tracks = configs.map TrackConfig.start) :
    w.hasPendingSamples = false := by
  unfold hasPendingSamples
  rw [tracks, List.any_eq_false]
  intro track mem
  obtain ⟨config, _, rfl⟩ := List.mem_map.mp mem
  simp [TrackConfig.start]

theorem addSampleDescription_eq_ok [DecidableEq δ] {description : δ} {faults : AddFaults}
    (h : w.addSampleDescription f t description faults = (.ok index, after)) :
    ∃ track, w.track t = some track ∧
      ((track.sampleDescriptions[index - 1]? = some description ∧ after = w) ∨
      index = track.sampleDescriptions.length + 1 ∧
        after.tracks = (w.setTrack t (track.push description).recount).tracks) := by
  unfold addSampleDescription at h
  split at h
  · cases h
  split at h
  · cases h
  rename_i track held
  refine ⟨track, held, ?_⟩
  split at h
  · cases h
  split at h
  · rename_i place found
    split at h
    · cases h
      obtain ⟨inside, same, _⟩ := List.findIdx?_eq_some_iff_getElem.mp found
      refine .inl ⟨?_, rfl⟩
      rw [Nat.add_sub_cancel, List.getElem?_eq_getElem inside]
      exact congrArg some (of_decide_eq_true same)
    · cases h
  split at h
  · cases h
  split at h
  · cases h
  unfold addSampleDescription.register at h
  dsimp only at h
  split at h
  · cases h
  split at h
  · cases h
  split at h
  · cases h
  split at h
  · cases h
  cases h
  refine .inr ⟨?_, rfl⟩
  unfold FragmentTrack.push FragmentTrack.recount
  exact List.length_append

theorem flushFragment_eq_ok (h : w.flushFragment f faults = (.ok fragment, after)) :
    (w.hasPendingSamples = false ∧ fragment = none ∧ after = w) ∨ w.hasPendingSamples ∧
      fragment.isSome ∧ after.tracks = w.discardPendingSamples.tracks := by
  unfold flushFragment at h
  split at h
  · cases h
  split at h
  · rename_i pending
    cases h
    exact .inl ⟨by simpa using pending, rfl, rfl⟩
  rename_i pending
  split at h
  · cases h
  split at h
  · cases h
  dsimp only at h
  split at h
  · cases h
  split at h
  · cases h
  · cases h
    exact .inr ⟨by simpa using pending, rfl, rfl⟩

theorem flushFragment_flushed (h : w.flushFragment f faults = (.ok fragment, after)) :
    after.hasPendingSamples = false := by
  rcases flushFragment_eq_ok h with ⟨nothing, _, rfl⟩ | ⟨_, _, tracks⟩
  · exact nothing
  · unfold hasPendingSamples
    rw [tracks, List.any_eq_false]
    intro track mem
    obtain ⟨before, _, rfl⟩ := List.mem_map.mp mem
    simp [clearSamples]

theorem track_congr {other : FragmentedMp4Writer δ} (h : other.tracks = w.tracks)
    (t : Nat) : other.track t = w.track t := by
  unfold FragmentedMp4Writer.track
  rw [h]

theorem flushBefore_closed {stop : Nat}
    (h : w.flushFragmentBeforeSample f t stop faults = (.ok fragment, after)) :
    ∃ track closed, w.track t = some track ∧
      closeLast track.samples stop "fragment boundary does not follow the trailing sample" =
        .ok closed ∧
      flushFragment f (w.setTrack t { track with samples := closed }) faults =
        (.ok fragment, after) := by
  unfold flushFragmentBeforeSample at h
  split at h
  · cases h
  split at h
  · cases h
  rename_i track found
  split at h
  · cases h
  · rename_i closed made
    exact ⟨track, closed, found, made, h⟩

/-! When a call cannot fail but by the device. -/

def sizes (writer : FragmentedMp4Writer δ) : List (List Nat) :=
  writer.tracks.map fun track => track.samples.map fun sample => sample.bytes.length

/-- The samples of each track that has some. -/
def pendingSizes (writer : FragmentedMp4Writer δ) : List (List Nat) :=
  writer.sizes.filter fun samples => !samples.isEmpty

/-- What waits fits into one fragment, whose `moof` box has at most `limit` bytes for
a number of samples: the size of the `mdat` box has 32 bits, and so has the signed offset
of every track. -/
@[mk_iff]
structure Room (limit : Nat → Nat) (writer : FragmentedMp4Writer δ) : Prop where
  sequence : writer.sequenceNumber < u32Max
  few : ∀ samples ∈ writer.sizes, samples.length < u32Max
  size : headerSize + (writer.pendingSizes.map List.sum).sum ≤ u32Max
  offset : 2 * headerSize + limit (writer.pendingSizes.map List.length).sum +
    (writer.pendingSizes.dropLast.map List.sum).sum ≤ i32Max
  place : writer.device.position + i32Max ≤ u64Max

theorem Room.few_of_track (room : Room limit w) (found : w.track t = some track) :
    track.samples.length < u32Max := by
  have short := room.few _ (List.mem_map_of_mem (List.mem_of_getElem? (track_eq_some found).2))
  rw [List.length_map] at short
  exact short

def samplesOf (tracks : List (Nat × FragmentTrack δ)) : List Sample :=
  tracks.flatMap fun entry => entry.2.samples

def sizesOf (tracks : List (Nat × FragmentTrack δ)) : List (List Nat) :=
  tracks.map fun entry => entry.2.samples.map fun sample => sample.bytes.length

theorem sizesOf_pendingTracks : sizesOf w.pendingTracks = w.pendingSizes := by
  have tracks : w.tracks.zipIdx.map Prod.fst = w.tracks := List.zipIdx_map_fst 0 w.tracks
  unfold sizesOf pendingTracks pendingSizes sizes
  conv_rhs => rw [← tracks]
  simp only [List.filter_map, List.map_map, Function.comp_def, List.isEmpty_map]

theorem length_samplesOf (tracks : List (Nat × FragmentTrack δ)) :
    (samplesOf tracks).length = ((sizesOf tracks).map List.length).sum := by
  simp [samplesOf, sizesOf, List.length_flatMap, Function.comp_def]

theorem length_payload (tracks : List (Nat × FragmentTrack δ)) :
    (payload tracks).length = ((sizesOf tracks).map List.sum).sum := by
  simp [payload, sizesOf, List.length_flatMap, Function.comp_def]

/-- Only the offsets are checked: the samples of the last track may go beyond. -/
theorem locate_of_fits (start : Nat) (tracks : List (Nat × FragmentTrack δ)) :
    ∀ (offset : Nat) (keyframe : Option SampleLocation),
      offset + (payload tracks.dropLast).length ≤ i32Max → start + i32Max ≤ u64Max →
      ∃ located, locate start offset keyframe tracks = .ok located := by
  induction tracks with
  | nil =>
    intro offset keyframe _ _
    exact ⟨keyframe, rfl⟩
  | cons entry rest ih =>
    intro offset keyframe fits place
    have next : ∀ keyframe, ∃ located, locate start
        (offset + (entry.2.samples.flatMap Sample.bytes).length) keyframe rest = .ok located := by
      intro keyframe
      cases rest with
      | nil => exact ⟨keyframe, rfl⟩
      | cons other more =>
        refine ih _ keyframe ?_ place
        rw [List.dropLast_cons_cons, payload, List.flatMap_cons, List.length_append] at fits
        exact Nat.add_assoc _ _ _ ▸ fits
    unfold locate
    rw [if_neg (by omega)]
    dsimp only
    split
    · split
      · rw [if_neg (by omega)]
        exact next _
      · exact next _
    · exact next _

section

variable (bound : ∀ number tracks, (f.moof number tracks).length ≤ limit (samplesOf tracks).length)
include bound

theorem checkFragment_of_room (room : Room limit w) : ∃ keyframe, checkFragment f w =
    .ok keyframe := by
  have boxes := bound w.sequenceNumber w.pendingTracks
  rw [length_samplesOf, sizesOf_pendingTracks] at boxes
  have few : ∀ entry ∈ w.pendingTracks, entry.2.samples.length < u32Max := by
    intro entry mem
    simp only [pendingTracks, List.mem_filter, List.mem_map] at mem
    rcases mem with ⟨⟨place, zipped, rfl⟩, _⟩
    have inside := List.mem_of_getElem? (List.mem_zipIdx_iff_getElem?.mp zipped)
    have short := room.few _ (List.mem_map_of_mem inside)
    rw [List.length_map] at short
    exact short
  have measured : checkPayload (payload w.pendingTracks).length = .ok () := by
    have size := room.size
    have wide : u32Max ≤ u64Max := by decide
    unfold checkPayload
    rw [length_payload, sizesOf_pendingTracks, if_neg (by omega), if_neg (by omega),
      if_neg (by omega)]
  unfold checkFragment
  rw [if_neg, measured]
  · refine locate_of_fits _ _ _ _ ?_ room.place
    have offset := room.offset
    have front : sizesOf w.pendingTracks.dropLast = w.pendingSizes.dropLast := by
      rw [← sizesOf_pendingTracks]
      exact List.map_dropLast
    rw [length_payload, front]
    omega
  · intro many
    obtain ⟨entry, mem, long⟩ := List.any_eq_true.mp many
    exact Nat.lt_asymm (few entry mem) (of_decide_eq_true long)

theorem flushFragment_outcome (safe : w.poisoned = false) (room : Room limit w)
    (faults : FlushFaults) :
    Outcome (fun fragment after => after.poisoned = false ∧
        ((fragment = none ∧ w.hasPendingSamples = false ∧ after = w) ∨ w.hasPendingSamples ∧
          fragment.isSome ∧ after.tracks = w.discardPendingSamples.tracks))
      (fun error after => error = .device ∧ after.poisoned = false ∧ after.tracks = w.tracks)
      (w.flushFragment f faults) := by
  rcases checkFragment_of_room bound room with ⟨keyframe, checked⟩
  have sequence := room.sequence
  unfold flushFragment
  rw [safe]
  split
  · rename_i contradictory
    cases contradictory
  split
  · rename_i empty
    exact ⟨safe, .inl ⟨rfl, by simpa using empty, rfl⟩⟩
  rename_i pending
  split
  · exact ⟨rfl, safe, rfl⟩
  rw [checked]
  dsimp only
  split
  · exact ⟨rfl, rfl, rfl⟩
  · rw [if_neg (by omega)]
    refine ⟨?_, .inr ⟨by simpa using pending, rfl, rfl⟩⟩
    exact safe

theorem flushFragment_of_room (safe : w.poisoned = false) (room : Room limit w) :
    ∃ fragment after, w.flushFragment f ⟨false, none, false, false⟩ =
      (.ok fragment, after) ∧ after.poisoned = false := by
  obtain ⟨keyframe, checked⟩ := checkFragment_of_room bound room
  have sequence := room.sequence
  unfold flushFragment
  rw [safe, checked]
  simp only [Bool.false_eq_true, if_false, Option.isSome_none, Bool.or_self]
  split
  · exact ⟨_, _, rfl, safe⟩
  · rw [if_neg (by omega)]
    exact ⟨_, _, rfl, safe⟩

end

theorem writeSample_of_follows {t index : Nat} {track : FragmentTrack δ} {x : Sample}
    (safe : w.poisoned = false) (positive : x.duration ≠ 0)
    (bytes : x.bytes.length ≤ u32Max) (found : w.track t = some track)
    (placed : 0 < index ∧ index ≤ track.sampleDescriptionCount)
    (pending : ∀ other ∈ track.pendingSampleDescriptionIndex, other = index)
    (sync : track.trackType = .video → track.samples = [] → x.isSync)
    (follows : ∀ last ∈ track.samples.getLast?,
      last.startTime < x.startTime ∧ x.startTime ≤ last.startTime + u32Max)
    (few : track.samples.length < u32Max) :
    ∃ samples, samples.map (fun x => x.bytes.length) = track.samples.map (fun x => x.bytes.length) ∧
      w.writeSampleWithDescription t index x = (.ok (), w.setTrack t
        { track with samples := samples ++ [x], pendingSampleDescriptionIndex := some index }) := by
  have unmixed : (track.pendingSampleDescriptionIndex.any fun other => other ≠ index) = false := by
    cases held : track.pendingSampleDescriptionIndex with
    | none => rfl
    | some other =>
      rw [held] at pending
      simp [pending other rfl]
  have starts : ¬(track.trackType = .video ∧ track.samples.isEmpty ∧ ¬x.isSync) := by
    rintro ⟨video, empty, unsynced⟩
    exact unsynced (sync video (List.isEmpty_iff.mp empty))
  have closes : ∃ samples, closeLast track.samples x.startTime
      "fragmented MP4 sample decode times are not increasing" = .ok samples ∧
      samples.map (fun x => x.bytes.length) = track.samples.map (fun x => x.bytes.length) := by
    unfold closeLast
    cases final : track.samples.getLast? with
    | none =>
      exact ⟨track.samples, rfl, rfl⟩
    | some last =>
      have near := follows last final
      dsimp only
      rw [if_neg (by omega), if_neg (by omega)]
      refine ⟨_, rfl, ?_⟩
      rcases List.getLast?_eq_some_iff.mp final with ⟨front, same⟩
      rw [same, List.dropLast_concat, List.map_append, List.map_append]
      rfl
  rcases closes with ⟨samples, closed, same⟩
  have length : samples.length = track.samples.length := by
    have lengths := congrArg List.length same
    rw [List.length_map, List.length_map] at lengths
    exact lengths
  refine ⟨samples, same, ?_⟩
  unfold writeSampleWithDescription
  rw [safe, if_neg Bool.false_ne_true, if_neg positive, if_neg (by omega), found]
  dsimp only
  rw [if_neg (by omega), unmixed, if_neg Bool.false_ne_true, if_neg starts, closed]
  dsimp only
  rw [if_neg (by omega)]

/-- What is the same of a track in place of another is the same of all tracks. -/
theorem map_setTrack {α : Type} (view : FragmentTrack δ → α) {other : FragmentTrack δ}
    (found : w.track t = some track) (same : view other = view track) :
    (w.setTrack t other).tracks.map view = w.tracks.map view := by
  have held := (track_eq_some found).2
  rcases List.getElem?_eq_some_iff.mp held with ⟨inside, value⟩
  unfold setTrack
  dsimp only
  rw [List.map_set, same, ← value]
  apply List.ext_getElem?
  intro place
  rw [List.getElem?_set]
  split
  · rename_i here
    subst here
    rw [if_pos (by rw [List.length_map]; exact inside), List.getElem?_map,
      List.getElem?_eq_getElem inside]
    rfl
  · rfl

theorem hasPendingSamples_eq :
    w.hasPendingSamples = w.sizes.any fun samples => !samples.isEmpty := by
  unfold hasPendingSamples sizes
  rw [List.any_map]
  congr 1
  funext track
  exact congrArg Bool.not List.isEmpty_map.symm

end KeepPeek.Mp4.FragmentedMp4Writer
