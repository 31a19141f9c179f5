import KeepPeek.Lib.Except
import KeepPeek.Mp4.Pending
import KeepPeek.Playback.Export

/-! What was written is what the file shows: after every sample the fragments on the
file and the samples that wait for the next one are together the samples that were
taken, track by track, each under its description. -/
namespace KeepPeek.Playback.Output

open Mp4 (Sample FragmentedMp4Writer FragmentTrack Format)
open Mp4.FragmentedMp4Writer
open MediumTerm (MediaConfig)
open ExportSample

variable {f : Format MediaConfig} {o after : Output}
variable {w other : FragmentedMp4Writer MediaConfig} {t : Nat} {x : ExportSample}

def waiting (writer : FragmentedMp4Writer MediaConfig) (trackId : Nat) : List (Nat × Sample) :=
  ((writer.track trackId).map entries).getD []

def contentOf (writer : FragmentedMp4Writer MediaConfig) (trackId : Nat) (entry : Nat × Sample) :
    Content :=
  ⟨description writer trackId entry.1, entry.2.startTime, entry.2.isSync, entry.2.bytes⟩

def Numbered (writer : FragmentedMp4Writer MediaConfig) : Prop :=
  ∀ trackId track, writer.track trackId = some track → track.samples ≠ [] →
    track.pendingSampleDescriptionIndex.isSome

/-- What is on the file or waits is what was taken. -/
structure Carries (output : Output) : Prop where
  numbered : Numbered output.writer
  content : ∀ trackId, (output.stored trackId ++ waiting output.writer trackId).map
    (contentOf output.writer trackId) = (output.takenOf trackId).map content

theorem entries_of_isEmpty {track : FragmentTrack MediaConfig} (none : track.samples = []) :
    entries track = [] := by
  unfold entries
  rw [none, List.map_nil]

theorem flatMap_entries_filter (parts : List (Nat × FragmentTrack MediaConfig)) :
    (parts.filter fun part => !part.2.samples.isEmpty).flatMap (fun part => entries part.2) =
      parts.flatMap fun part => entries part.2 := by
  induction parts with
  | nil => rfl
  | cons part rest ih =>
    rw [List.filter_cons, List.flatMap_cons, ← ih]
    split
    · rfl
    · rename_i empty
      rw [entries_of_isEmpty (by simpa using empty), List.nil_append]

theorem entries_pendingTracks (w : FragmentedMp4Writer MediaConfig) (t : Nat) :
    (w.pendingTracks.filter fun part => part.1 = t).flatMap (fun part => entries part.2) =
      waiting w t := by
  have places : ∀ (tracks : List (FragmentTrack MediaConfig)) (start : Nat),
      (((tracks.zipIdx start).map fun (track, index) => (index + 1, track)).filter
        fun part => part.1 = t).flatMap (fun part => entries part.2) =
        if t ≤ start then [] else ((tracks[t - 1 - start]?).map entries).getD [] := by
    intro tracks
    induction tracks with
    | nil =>
      intro start
      simp
    | cons track rest ih =>
      intro start
      rw [List.zipIdx_cons, List.map_cons, List.filter_cons]
      dsimp only
      by_cases here : t = start + 1
      · rw [if_pos (by simp [here]), List.flatMap_cons, ih (start + 1), if_pos (by omega),
          if_neg (by omega), List.append_nil, show t - 1 - start = 0 by omega]
        rfl
      · rw [if_neg (by simpa using fun h => here h.symm), ih (start + 1)]
        by_cases before : t ≤ start
        · rw [if_pos before, if_pos (by omega)]
        · rw [if_neg before, if_neg (by omega),
            show t - 1 - start = (t - 1 - (start + 1)) + 1 by omega]
          rfl
  unfold pendingTracks waiting FragmentedMp4Writer.track
  rw [List.filter_comm]
  refine (flatMap_entries_filter _).trans ((places w.tracks 0).trans ?_)
  by_cases zero : t = 0
  · simp [zero]
  · rw [if_neg (by omega), if_neg zero]
    simp

theorem description_discard (w : FragmentedMp4Writer MediaConfig) (t index : Nat) :
    description w.discardPendingSamples t index = description w t index := by
  unfold description
  rw [track_discardPendingSamples]
  cases w.track t with
  | none => rfl
  | some track => rfl

theorem description_congr (h : other.tracks = w.tracks) (t index : Nat) :
    description other t index = description w t index := by
  unfold description
  rw [track_congr h]

theorem waiting_of_not_pending (none : w.hasPendingSamples = false) (t : Nat) :
    waiting w t = [] := by
  unfold waiting
  cases found : w.track t with
  | none => rfl
  | some track => exact entries_of_isEmpty (samples_eq_nil none found)

theorem flushFragment_clears {flushed : FragmentedMp4Writer MediaConfig} {faults : FlushFaults}
    {fragment : Option Mp4.FragmentInfo}
    (h : w.flushFragment f faults = (.ok fragment, flushed)) (t : Nat) :
    waiting flushed t = [] ∧ ∀ index, description flushed t index = description w t index := by
  refine ⟨waiting_of_not_pending (flushFragment_flushed h) t, fun index => ?_⟩
  rcases flushFragment_eq_ok h with ⟨_, _, rfl⟩ | ⟨_, _, cleared⟩
  · rfl
  · exact (description_congr cleared t index).trans (description_discard _ _ _)

theorem numbered_of_waiting (none : ∀ t, waiting w t = []) : Numbered w := by
  intro t track found samples
  have empty := none t
  unfold waiting at empty
  rw [found] at empty
  exact absurd (List.map_eq_nil_iff.mp empty) samples

theorem flushFragment_carries (carries : o.Carries) (h : o.flushFragment f = .ok after) :
    after.Carries ∧ after.taken = o.taken ∧ ∀ t, waiting after.writer t = [] := by
  unfold Output.flushFragment at h
  split at h
  · cases h
  rename_i w flushed
  cases h
  have cleared := flushFragment_clears flushed
  refine ⟨⟨numbered_of_waiting fun t => (cleared t).1, ?_⟩, rfl, fun t => (cleared t).1⟩
  intro t
  have before := carries.content t
  have contents : contentOf w t = contentOf o.writer t := by
    funext entry
    unfold contentOf
    rw [(cleared t).2]
  unfold stored takenOf at before ⊢
  dsimp only at before ⊢
  rw [(cleared t).1, List.append_nil, List.flatMap_append, List.flatMap_singleton,
    entries_pendingTracks, contents]
  exact before

theorem addSampleDescription_keeps {added : FragmentedMp4Writer MediaConfig} {index : Nat}
    {cfg : MediaConfig} {faults : AddFaults}
    (h : w.addSampleDescription f t cfg faults = (.ok index, added)) :
    description added t index = some cfg ∧ (∀ other, waiting added other = waiting w other) ∧
      (Numbered w → Numbered added) ∧
      ∀ other number found, description w other number = some found →
        description added other number = some found := by
  obtain ⟨track, held, ⟨known, rfl⟩ | ⟨rfl, tracks⟩⟩ := addSampleDescription_eq_ok h
  · refine ⟨?_, fun _ => rfl, id, fun _ _ _ same => same⟩
    unfold description
    rw [held]
    exact known
  have own := track_setTrack_self held (track.push cfg).recount
  have others : ∀ other, other ≠ t →
      (w.setTrack t (track.push cfg).recount).track other = w.track other :=
    fun other ne => track_setTrack_of_ne (track_eq_some held).1 ne _
  refine ⟨?_, ?_, ?_, ?_⟩
  · unfold description
    rw [track_congr tracks, own]
    simp [FragmentTrack.push, FragmentTrack.recount]
  · intro other
    unfold waiting
    rw [track_congr tracks]
    by_cases same : other = t
    · rw [same, own, held]
      rfl
    · rw [others other same]
  · intro numbered other candidate found samples
    rw [track_congr tracks] at found
    by_cases same : other = t
    · rw [same, own] at found
      cases found
      exact numbered t track held samples
    · rw [others other same] at found
      exact numbered other candidate found samples
  · intro other number found known
    unfold description at known ⊢
    rw [track_congr tracks]
    by_cases same : other = t
    · rw [same, held] at known
      rw [same, own]
      exact (List.getElem?_append_left (List.getElem?_eq_some_iff.mp known).1).trans known
    · rw [others other same]
      exact known

theorem map_closeLast {α : Type} {xs closed : List Sample} {next : Nat} {message : String}
    (h : closeLast xs next message = .ok closed) (view : Sample → α)
    (blind : ∀ x duration, view { x with duration } = view x) :
    closed.map view = xs.map view := by
  rcases closeLast_eq_ok h with ⟨rfl, rfl⟩ | ⟨front, last, rfl, _, _, rfl⟩
  · rfl
  · rw [List.map_append, List.map_append, List.map_singleton, List.map_singleton, blind]

theorem writeSample_waits {written : FragmentedMp4Writer MediaConfig} {index : Nat}
    {x : Sample} (numbered : Numbered w)
    (h : w.writeSampleWithDescription t index x = (.ok (), written)) :
    (∀ other number, description written other number = description w other number) ∧
      (∀ other, other ≠ t → waiting written other = waiting w other) ∧
      Numbered written ∧
      (waiting written t).map (contentOf w t) = (waiting w t).map (contentOf w t) ++
          [contentOf w t (index, x)] := by
  obtain ⟨track, samples, held, closed, rfl, one, _⟩ := writeSample_eq_ok h
  have own := track_setTrack_self held
    { track with samples := samples ++ [x], pendingSampleDescriptionIndex := some index }
  have others : ∀ other, other ≠ t → (w.setTrack t
      { track with samples := samples ++ [x], pendingSampleDescriptionIndex := some index }).track
        other = w.track other :=
    fun other ne => track_setTrack_of_ne (track_eq_some held).1 ne _
  refine ⟨?_, ?_, ?_, ?_⟩
  · intro other number
    unfold description
    by_cases same : other = t
    · rw [same, own, held]
      rfl
    · rw [others other same]
  · intro other ne
    unfold waiting
    rw [others other ne]
  · intro other candidate found waits
    by_cases same : other = t
    · rw [same, own] at found
      cases found
      rfl
    · rw [others other same] at found
      exact numbered other candidate found waits
  · unfold waiting
    rw [own, held]
    simp only [Option.map_some, Option.getD_some, entries, List.map_map, List.map_append,
      List.map_singleton]
    have kept := map_closeLast closed (contentOf w t ∘ fun x => (index, x)) (fun _ _ => rfl)
    simp only [Function.comp_def] at kept ⊢
    rw [kept]
    congr 1
    apply List.map_congr_left
    intro old mem
    have some_index := numbered t track held (List.ne_nil_of_mem mem)
    obtain ⟨pending, number⟩ := Option.isSome_iff_exists.mp some_index
    rw [number, Option.getD_some, one pending number]

theorem beginGroup_carries (carries : o.Carries) (h : o.beginGroup f x = .ok after) :
    after.Carries ∧ after.taken = o.taken := by
  unfold beginGroup at h
  split at h
  · obtain ⟨between, flushed, rfl⟩ := Lib.map_eq_ok h
    split at flushed
    · obtain ⟨carries, taken, _⟩ := flushFragment_carries carries flushed
      exact ⟨⟨carries.numbered, carries.content⟩, taken⟩
    · cases flushed
      exact ⟨⟨carries.numbered, carries.content⟩, rfl⟩
  · cases h
    exact ⟨carries, rfl⟩

theorem flushFragment_lastSampleStart (h : o.flushFragment f = .ok after) :
    after.lastSampleStart = o.lastSampleStart := by
  unfold Output.flushFragment at h
  split at h <;> cases h
  rfl

theorem beginGroup_lastSampleStart (h : o.beginGroup f x = .ok after) :
    after.lastSampleStart = o.lastSampleStart := by
  unfold beginGroup at h
  split at h
  · obtain ⟨between, flushed, rfl⟩ := Lib.map_eq_ok h
    split at flushed
    · have same := flushFragment_lastSampleStart flushed
      exact same
    · cases flushed
      rfl
  · cases h
    rfl

theorem addSampleDescription_lastSampleStart {index : Nat}
    (h : o.addSampleDescription f x = .ok (index, after)) :
    after.lastSampleStart = o.lastSampleStart := by
  unfold Output.addSampleDescription at h
  split at h <;> cases h
  rfl

theorem writeSample_lastSampleStart {index : Nat} (h : o.writeSample index x = .ok after) :
    after.lastSampleStart = o.lastSampleStart := by
  unfold Output.writeSample at h
  split at h <;> cases h
  rfl

/-- Only `advance` moves the clock. -/
theorem putSample_lastSampleStart (h : o.putSample f x = .ok after) :
    after.lastSampleStart = o.lastSampleStart := by
  unfold putSample at h
  obtain ⟨begun, opened, h⟩ := Lib.bind_eq_ok h
  obtain ⟨⟨index, described⟩, added, h⟩ := Lib.bind_eq_ok h
  calc after.lastSampleStart
    _ = described.lastSampleStart := writeSample_lastSampleStart h
    _ = begun.lastSampleStart := addSampleDescription_lastSampleStart added
    _ = o.lastSampleStart := beginGroup_lastSampleStart opened

theorem map_contentOf_of_listed {stored : List (Nat × Sample)} {taken : List ExportSample}
    (listed : ∀ number found, description w t number = some found →
      description other t number = some found)
    (h : stored.map (contentOf w t) = taken.map content) :
    stored.map (contentOf other t) = taken.map content := by
  rw [← h]
  apply List.map_congr_left
  intro entry mem
  have shown : contentOf w t entry ∈ taken.map content := by
    rw [← h]
    exact List.mem_map_of_mem mem
  obtain ⟨x, _, same⟩ := List.mem_map.mp shown
  have found := congrArg Content.description same
  unfold contentOf
  rw [listed _ _ found.symm, show description w t entry.1 = _ from found.symm]
  rfl

theorem putSample_carries (carries : o.Carries) (h : o.putSample f x = .ok after) :
    after.Carries ∧ after.taken = o.taken ++ [x] := by
  unfold putSample at h
  obtain ⟨begun, opened, h⟩ := Lib.bind_eq_ok h
  obtain ⟨⟨index, described⟩, added, h⟩ := Lib.bind_eq_ok h
  obtain ⟨carries, taken⟩ := beginGroup_carries carries opened
  unfold Output.addSampleDescription at added
  split at added
  · cases added
  rename_i number w registered
  cases added
  unfold Output.writeSample at h
  dsimp only at h
  split at h
  · cases h
  rename_i written wrote
  cases h
  obtain ⟨own, waits, renumbered, listed⟩ := addSampleDescription_keeps registered
  obtain ⟨same, elsewhere, numbered, here⟩ := writeSample_waits (renumbered carries.numbered) wrote
  refine ⟨⟨numbered, ?_⟩, by rw [taken]⟩
  intro t
  have before := map_contentOf_of_listed (listed t) (carries.content t)
  have contents : contentOf written t = contentOf w t := by
    funext entry
    unfold contentOf
    rw [same]
  have split_taken : (takenOf { begun with taken := begun.taken ++ [x] } t).map
      content = (begun.takenOf t).map content ++
        ([x].filter fun taken => taken.trackId = t).map content := by
    unfold takenOf
    rw [List.filter_append, List.map_append]
  rw [← waits] at before
  rw [contents]
  refine Eq.trans ?_ split_taken.symm
  rw [← before]
  unfold stored
  by_cases target : x.trackId = t
  · subst target
    rw [List.map_append, here, List.map_append, List.append_assoc]
    congr 2
    simp [contentOf, own, content]
  · rw [elsewhere t (fun h => target h.symm)]
    simp [target]

end KeepPeek.Playback.Output
