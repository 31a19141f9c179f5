import KeepPeek.Playback.Copy

/-! When an export shows exactly the selected fragments.

The catalog and the export both count in whole milliseconds. A frame is found only
if it reaches over a millisecond of a selected fragment, and frames of one
millisecond may be written in any order. -/
namespace KeepPeek.Playback

open Lib
open Mp4 (Sample Format)
open MediumTerm (MediaConfig Error Recording Part Covers videoTimescale ticksToMillis)
open Source

/-! The fragments of one recording. -/

/-- Where a fragment ends for the export. -/
def partEndMs (part : Part) : Int :=
  min (part.1.startMs + min (part.1.durationMs : Int) i64Max) i64Max

def frames (parts : List Part) : Nat := (parts.flatMap Prod.snd).length

section OneRecording

variable {Location : Type} (id : String) (location : Location)

def catalogFragments (startedAtMs : Int) (parts : List Part) :
    List (CatalogMediaFragment Location) :=
  parts.map fun part => ⟨id, startedAtMs, location, part.1.startMs, part.1.durationMs⟩

def intervals (requestedEndMs : Int) (parts : List Part) : List (Int × Int) :=
  parts.map fun part => (part.1.startMs, min (partEndMs part) requestedEndMs)

def selection (startedAtMs requestedEndMs : Int) (parts : List Part) : ExportRecording Location :=
  ⟨startedAtMs, location, intervals requestedEndMs parts⟩

variable [DecidableEq Location] {id location} {startedAtMs requestedEndMs : Int}

theorem foldlM_addFragment {front parts : List Part} :
    (catalogFragments id location startedAtMs parts).foldlM (addFragment requestedEndMs)
      [(id, selection location startedAtMs requestedEndMs front)] =
      .ok [(id, selection location startedAtMs requestedEndMs (front ++ parts))] := by
  induction parts generalizing front with
  | nil =>
    rw [List.append_nil]
    rfl
  | cons part rest ih =>
    have added : addFragment requestedEndMs
        [(id, selection location startedAtMs requestedEndMs front)]
        (⟨id, startedAtMs, location, part.1.startMs, part.1.durationMs⟩ :
          CatalogMediaFragment Location) =
        .ok [(id, selection location startedAtMs requestedEndMs (front ++ [part]))] := by
      unfold addFragment selection intervals
      rw [if_pos rfl, if_pos rfl, List.map_append]
      rfl
    unfold catalogFragments
    rw [List.map_cons, foldlM_cons_of_ok added]
    refine ih.trans ?_
    rw [List.append_assoc, List.singleton_append]

theorem exportRecordings_eq {order : Order Location} (lawful : order.Lawful) {first : Part}
    {rest : List Part} :
    ∃ deliveredEndMs,
      exportRecordings order (catalogFragments id location startedAtMs (first :: rest))
          requestedEndMs =
        .ok ([selection location startedAtMs requestedEndMs (first :: rest)], first.1.startMs,
          deliveredEndMs) := by
  have opened : addFragment requestedEndMs []
      (⟨id, startedAtMs, location, first.1.startMs, first.1.durationMs⟩ :
        CatalogMediaFragment Location) =
      .ok [(id, selection location startedAtMs requestedEndMs [first])] := rfl
  have joined : (catalogFragments id location startedAtMs (first :: rest)).foldlM
      (addFragment requestedEndMs) [] =
      .ok [(id, selection location startedAtMs requestedEndMs (first :: rest))] := by
    unfold catalogFragments
    rw [List.map_cons, foldlM_cons_of_ok opened]
    exact foldlM_addFragment
  have one : ∀ recording : ExportRecording Location, order.recordings [recording] = [recording] :=
    fun recording => List.perm_singleton.mp (lawful.recordings_perm [recording])
  unfold exportRecordings
  rw [joined]
  unfold catalogFragments
  simp only [List.map_cons, List.map_nil, Except.map, one]
  exact ⟨_, rfl⟩

end OneRecording

/-- A frame reaches over a millisecond of a selected fragment. -/
def Selects (recording : Recording) (chosen : List Part) (requestedEndMs : Int) (sample : Sample) :
    Prop :=
  ∃ part ∈ chosen,
    absoluteMs recording.startedAtMs videoTimescale sample.startTime <
      min (partEndMs part) requestedEndMs ∧
    part.1.startMs < absoluteMs recording.startedAtMs videoTimescale
      (saturatingAdd sample.startTime sample.duration)

theorem overlaps_selection {Location : Type} {location : Location} {r : Recording}
    {chosen : List Part} {requestedEndMs : Int} {x : Sample} :
    (selection location r.startedAtMs requestedEndMs chosen).overlaps videoTimescale x ↔
      Selects r chosen requestedEndMs x := by
  unfold ExportRecording.overlaps selection intervals Selects
  simp [List.any_eq_true]

/-- The frames of the selected fragments, and no others, reach over a millisecond of
one, and they start in different milliseconds, in their order. -/
structure Separable (recording : Recording) (before chosen : List Part) (requestedEndMs : Int) :
    Prop where
  selected : ∀ (place : Nat) (sample : Sample), recording.video[place]? = some sample →
    (Selects recording chosen requestedEndMs sample ↔
      frames before ≤ place ∧ place < frames before + frames chosen)
  rising : (chosen.flatMap Prod.snd).Pairwise fun sample next =>
    absoluteMs recording.startedAtMs videoTimescale sample.startTime <
      absoluteMs recording.startedAtMs videoTimescale next.startTime

/-! The tracks that are read. -/

theorem validateTrackLayout_self (tracks : List PlaybackTrack) :
    validateTrackLayout tracks tracks = .ok () := by
  have same : ((tracks.zip tracks).all fun pair => sameLayout pair.1 pair.2) = true := by
    rw [List.all_eq_true]
    intro pair mem
    obtain ⟨place, bound, rfl⟩ := List.getElem_of_mem mem
    rw [List.getElem_zip]
    simp [sameLayout]
  unfold validateTrackLayout
  rw [if_pos]
  rw [same, decide_eq_true rfl]
  rfl

section Tracks

variable {Location : Type} {recording : Recording} {src : Source recording}
  {read : Location → Except Error (List SourceTrack)} {entry : ExportRecording Location}
  {alignedStartMs : Int}

def Source.selected (source : Source recording) (entry : ExportRecording Location)
    (alignedStartMs : Int) : List PlaybackTrack :=
  source.playback.filter (entry.trackHasSelectedSample alignedStartMs)

theorem select_range (tracks : List PlaybackTrack) (keep : PlaybackTrack → Bool) :
    select ((List.range tracks.length).filter fun index => (tracks[index]?).any keep) tracks =
      tracks.filter keep := by
  unfold select
  induction tracks with
  | nil => rfl
  | cons track rest ih =>
    rw [List.length_cons, List.range_succ_eq_map, List.filter_cons, List.filter_map,
      List.filter_cons]
    have shifted : ((List.range rest.length).filter
        ((fun index => ((track :: rest)[index]?).any keep) ∘ Nat.succ)) =
        (List.range rest.length).filter fun index => (rest[index]?).any keep := by
      rfl
    rw [shifted]
    have others : (List.map Nat.succ ((List.range rest.length).filter fun index =>
        (rest[index]?).any keep)).filterMap (fun index => (track :: rest)[index]?) =
        rest.filter keep := by
      rw [List.filterMap_map]
      exact ih
    cases kept : keep track with
    | true => simp [kept, others]
    | false => simp [kept, others]

theorem footage_eq (some : src.video.samples ≠ []) (reads : read entry.location = .ok src.tracks) :
    footage read [entry] alignedStartMs =
      if entry.overflows alignedStartMs src.playback then .error .panicked
      else (entry.collect 0 alignedStartMs (src.selected entry alignedStartMs)).map fun samples =>
        (src.selected entry alignedStartMs, [samples]) := by
  have tracks : readTracks read entry = .ok src.playback := by
    unfold readTracks
    rw [reads]
    exact exportTracks_eq some
  have valid : readValidated read src.playback entry = .ok src.playback := by
    unfold readValidated
    rw [tracks]
    simp only [Except.bind, validateTrackLayout_self, Except.map]
  have indexes : selectedExportTrackIndexes read [entry] src.playback alignedStartMs =
      if entry.overflows alignedStartMs src.playback then .error .panicked
      else .ok ((List.range src.playback.length).filter fun index =>
        (src.playback[index]?).any (entry.trackHasSelectedSample alignedStartMs)) := by
    unfold selectedExportTrackIndexes
    rw [List.mapM_cons, valid, List.mapM_nil]
    simp only [Except.bind]
    split
    · rfl
    · simp only [Except.map, bind, Except.bind, pure, Except.pure, List.any_cons, List.any_nil,
        Bool.or_false]
  unfold footage
  simp only [tracks, indexes, collectAll, valid, Except.bind]
  by_cases panics : entry.overflows alignedStartMs src.playback
  · rw [if_pos panics, if_pos panics]
  · rw [if_neg panics, if_neg panics]
    simp only
    rw [select_range]
    unfold Source.selected
    cases entry.collect 0 alignedStartMs
      (src.playback.filter (entry.trackHasSelectedSample alignedStartMs)) <;> rfl

theorem Source.selected_eq
    (video : (src.selected entry alignedStartMs).any fun track => track.trackType = .video) :
    entry.trackHasSelectedSample alignedStartMs src.playbackVideo ∧ ∃ sounds,
      src.selected entry alignedStartMs = src.playbackVideo :: sounds ∧
      (sounds = [] ∨ ∃ track ∈ src.audio, sounds = [src.playbackAudio track]) := by
  have sounds : ∀ keep, (src.audio.toList.map src.playbackAudio).filter keep = [] ∨
      ∃ track ∈ src.audio, (src.audio.toList.map src.playbackAudio).filter keep =
        [src.playbackAudio track] := by
    intro keep
    cases held : src.audio with
    | none => exact .inl rfl
    | some track =>
      cases kept : keep (src.playbackAudio track) with
      | true => exact .inr ⟨track, rfl, by simp [kept]⟩
      | false => exact .inl (by simp [kept])
  unfold Source.selected Source.playback at video ⊢
  rw [List.filter_cons] at video ⊢
  split
  · rename_i kept
    exact ⟨kept, _, rfl, sounds _⟩
  rename_i dropped
  rw [if_neg dropped] at video
  rcases sounds (entry.trackHasSelectedSample alignedStartMs) with none | ⟨track, _, only⟩
  · rw [none] at video
    cases video
  · rw [only] at video
    cases video

theorem collect_eq_ok {sounds : List PlaybackTrack} {xs : List ExportSample}
    (few : sounds = [] ∨ ∃ track ∈ src.audio, sounds = [src.playbackAudio track])
    (h : entry.collect 0 alignedStartMs (src.playbackVideo :: sounds) = .ok xs) :
    ∃ video audio, xs = video ++ audio ∧
      entry.collectFrom 0 alignedStartMs 1 src.playbackVideo 0 src.video.samples = .ok video ∧
      (sounds = [] ∧ audio = [] ∨ ∃ track ∈ src.audio, sounds = [src.playbackAudio track] ∧
        entry.collectFrom 0 alignedStartMs 2 (src.playbackAudio track) 0 track.samples =
          .ok audio) := by
  unfold ExportRecording.collect ExportRecording.collectTracks at h
  obtain ⟨video, pictures, h⟩ := bind_eq_ok h
  obtain ⟨audio, heard, rfl⟩ := map_eq_ok h
  refine ⟨video, audio, rfl, pictures, ?_⟩
  rcases few with rfl | ⟨track, held, rfl⟩
  · cases heard
    exact .inl ⟨rfl, rfl⟩
  unfold ExportRecording.collectTracks at heard
  obtain ⟨first, collected, rest⟩ := bind_eq_ok heard
  obtain ⟨more, none, rfl⟩ := map_eq_ok rest
  cases none
  rw [List.append_nil]
  exact .inr ⟨track, held, rfl, collected⟩

end Tracks

section Exported

variable {Location : Type} [DecidableEq Location] {f : Format MediaConfig} {r : Recording}
  {src : Source r} {read : Location → Except Error (List SourceTrack)} {id : String}
  {location : Location} {before after : List Part} {first : Part} {rest : List Part}
  {requestedEndMs : Int}

theorem export_of_recording {order : Order Location} (lawful : order.Lawful)
    (frame : src.video.samples ≠ []) (reads : read location = .ok src.tracks)
    {artifact : ExportArtifact} {o : Output}
    (exported : exportFragmentRanges f order read
      (catalogFragments id location r.startedAtMs (first :: rest)) requestedEndMs =
        .ok (artifact, o)) :
    ∃ video audio, (selection location r.startedAtMs requestedEndMs (first :: rest)).collectFrom 0
        first.1.startMs 1 src.playbackVideo 0 src.video.samples = .ok video ∧
      (∀ sample ∈ audio, sample.trackId = 2) ∧
      (selection location r.startedAtMs requestedEndMs (first :: rest)).collect 0
        first.1.startMs (src.selected (selection location r.startedAtMs requestedEndMs
          (first :: rest)) first.1.startMs) = .ok (video ++ audio) ∧
      o.track 1 = (o.takenOf 1).map ExportSample.content ∧
      o.takenOf 1 =
        ascend ExportSample.start none (ofTrack 1 (order.samples (video ++ audio))) := by
  obtain ⟨recordings, tracks, groups, selected, found, video, wrote⟩ := export_eq_ok exported
  obtain ⟨deliveredEndMs, only⟩ : ∃ deliveredEndMs, exportRecordings order (catalogFragments id
    location r.startedAtMs (first :: rest)) requestedEndMs = _ := exportRecordings_eq lawful
  rw [only] at selected
  obtain ⟨rfl, aligned, _⟩ : _ ∧ _ ∧ _ := by
    rw [Except.ok.injEq, Prod.mk.injEq, Prod.mk.injEq] at selected
    exact selected
  rw [← aligned, footage_eq frame reads] at found
  split at found
  · cases found
  obtain ⟨samples, collected, same⟩ := map_eq_ok found
  rw [Prod.mk.injEq] at same
  obtain ⟨rfl, rfl⟩ := same
  obtain ⟨_, sounds, pictured, few⟩ := selected_eq video
  have parts := collected
  rw [pictured] at parts
  obtain ⟨pictures, audio, rfl, taken, heard⟩ := collect_eq_ok few parts
  refine ⟨pictures, audio, taken, ?_, collected, (wrote 1).1, ?_⟩
  · rcases heard with ⟨_, rfl⟩ | ⟨track, _, _, heard⟩
    · nofun
    · exact fun sample mem => (collectFrom_eq_ok heard sample mem).1
  · rw [(wrote 1).2]
    simp

/-- Whatever the sort, the export succeeds and its video is that of the fragments. -/
def Exact (format : Format MediaConfig) (source : Source recording)
    (read : Location → Except Error (List SourceTrack)) (id : String) (location : Location)
    (before chosen : List Part) (requestedEndMs : Int) : Prop :=
  ∀ order : Order Location, order.Lawful → ∃ artifact output shift,
    exportFragmentRanges format order read
        (catalogFragments id location recording.startedAtMs chosen) requestedEndMs =
      .ok (artifact, output) ∧
    Holds output 1 source.video (frames before) (frames chosen) shift

theorem collected_of_exact (frame : src.video.samples ≠ [])
    (reads : read location = .ok src.tracks)
    (exact : Exact f src read id location before (first :: rest) requestedEndMs) :
    ∃ pictures, (selection location r.startedAtMs requestedEndMs (first :: rest)).collectFrom 0
        first.1.startMs 1 src.playbackVideo 0 src.video.samples = .ok pictures ∧
      (∀ place, frames before ≤ place → place < frames before + frames (first :: rest) →
        ∃ sample ∈ pictures, sample.index = place) ∧
      ∀ sample ∈ pictures, frames before ≤ sample.index ∧
        sample.index < frames before + frames (first :: rest) ∧
        ∀ place, frames before ≤ place → place < sample.index →
          ∃ other ∈ pictures, other.index = place ∧ other.absoluteMs < sample.absoluteMs := by
  -- What is collected is the same under every sort.
  obtain ⟨artifact, output, shift, exported, holds⟩ := exact stableOrder stableOrder_lawful
  obtain ⟨pictures, audio, taken, sounds, collected, _, written⟩ :=
    export_of_recording stableOrder_lawful frame reads exported
  have own : ofTrack 1 (pictures ++ audio) = pictures := by
    have heard : ofTrack 1 audio = [] := ofTrack_eq_nil fun sample mem => by
      rw [sounds sample mem]
      decide
    rw [ofTrack_append, heard, List.append_nil,
      ofTrack_eq_self fun sample mem => (collectFrom_eq_ok taken sample mem).1]
  have sorted : ∀ order : Order Location, order.Lawful → ∀ sample ∈
      ofTrack 1 (order.samples (pictures ++ audio)), sample ∈ pictures := by
    intro order lawful sample mem
    obtain ⟨mem, same⟩ := mem_ofTrack.mp mem
    rw [← own]
    exact mem_ofTrack.mpr ⟨(lawful.samples_perm _).mem_iff.mp mem, same⟩
  have every : ∀ order : Order Location, order.Lawful → ∃ taken,
      Keeps (ofTrack 1 (order.samples (pictures ++ audio))) taken ∧ taken.map ExportSample.index =
          List.range' (frames before) (frames (first :: rest)) := by
    intro order lawful
    obtain ⟨_, output, _, exported, holds⟩ := exact order lawful
    obtain ⟨_, _, _, _, again, _, written⟩ := export_of_recording lawful frame reads exported
    rw [collected, Except.ok.injEq] at again
    refine ⟨output.takenOf 1, ?_, holds.places⟩
    rw [written, ← again]
    refine keeps_ascend fun left left_mem right right_mem early => ?_
    exact (collectFrom_eq_ok taken left (sorted order lawful left left_mem)).2.start_lt
      (collectFrom_eq_ok taken right (sorted order lawful right right_mem)).2 early
  refine ⟨pictures, taken, fun place low high => ?_, fun sample mem => ?_⟩
  · have place_mem : place ∈ (output.takenOf 1).map ExportSample.index := by
      rw [holds.places, List.mem_range'_1]
      exact ⟨low, high⟩
    obtain ⟨sample, mem, same⟩ := List.mem_map.mp place_mem
    rw [written] at mem
    exact ⟨sample, sorted _ stableOrder_lawful sample ((ascend_sublist none _).subset mem), same⟩
  · have rising := rising_of_every_sort Location (by
      rw [own]
      intro left left_mem right right_mem
      obtain ⟨_, _, _, _, from_left⟩ := collectFrom_mem taken left_mem
      obtain ⟨_, _, _, _, from_right⟩ := collectFrom_mem taken right_mem
      rw [from_left.trackType, from_right.trackType]) every (by rw [own]; exact mem)
    rw [own] at rising
    exact rising

theorem read_of_video (src : Source r) {place : Nat} {x : Sample}
    (found : r.video[place]? = some x) :
    ∃ number, src.video.samples[place]? = some (number, x) := by
  rw [← src.samples, List.getElem?_map] at found
  obtain ⟨⟨number, _⟩, held, rfl⟩ := Option.map_eq_some_iff.mp found
  exact ⟨number, held⟩

theorem video_of_chosen {chosen : List Part}
    (video : r.video = (before ++ chosen ++ after).flatMap Prod.snd) {place : Nat}
    {x : Sample} (found : (chosen.flatMap Prod.snd)[place]? = some x) :
    r.video[frames before + place]? = some x := by
  unfold frames
  rw [video, List.flatMap_append, List.flatMap_append, List.append_assoc,
    List.getElem?_append_right (Nat.le_add_right _ _), Nat.add_sub_cancel_left,
    List.getElem?_append_left (List.getElem?_eq_some_iff.mp found).1]
  exact found

theorem separable_of_exact (frame : src.video.samples ≠ [])
    (reads : read location = .ok src.tracks)
    (video : r.video = (before ++ first :: rest ++ after).flatMap Prod.snd)
    (exact : Exact f src read id location before (first :: rest) requestedEndMs) :
    Separable r before (first :: rest) requestedEndMs := by
  obtain ⟨pictures, taken, all, rising⟩ := collected_of_exact frame reads exact
  -- A collected frame is known by its place.
  have placed : ∀ picture ∈ pictures, ∀ sample, r.video[picture.index]? = some sample →
      Selects r (first :: rest) requestedEndMs sample ∧ picture.absoluteMs =
        absoluteMs r.startedAtMs videoTimescale sample.startTime := by
    intro picture mem sample found
    obtain ⟨number, held⟩ := read_of_video src found
    obtain ⟨place, read, at_place, same, from_read⟩ := collectFrom_mem taken mem
    rw [Nat.zero_add] at same
    rw [← same, held] at at_place
    cases at_place
    exact ⟨overlaps_selection.mp from_read.overlaps, from_read.absoluteMs⟩
  refine ⟨fun place sample found => ⟨fun selects => ?_, fun inside => ?_⟩, ?_⟩
  · obtain ⟨number, held⟩ := read_of_video src found
    obtain ⟨picture, mem, same⟩ := mem_collectFrom rfl taken held (overlaps_selection.mpr selects)
    rw [Nat.zero_add] at same
    rw [← same]
    exact ⟨(rising picture mem).1, (rising picture mem).2.1⟩
  · obtain ⟨picture, mem, rfl⟩ := all place inside.1 inside.2
    exact (placed picture mem sample found).1
  · rw [List.pairwise_iff_getElem]
    intro early late early_bound late_bound lt
    have early_found := video_of_chosen video (List.getElem?_eq_getElem early_bound)
    have late_found := video_of_chosen video (List.getElem?_eq_getElem late_bound)
    obtain ⟨right, right_mem, right_same⟩ := all (frames before + late) (Nat.le_add_right _ _)
      (Nat.add_lt_add_left late_bound _)
    obtain ⟨left, left_mem, left_same, below⟩ := (rising right right_mem).2.2
      (frames before + early) (Nat.le_add_right _ _) (by omega)
    rw [← (placed left left_mem _ (left_same ▸ early_found)).2,
      ← (placed right right_mem _ (right_same ▸ late_found)).2]
    exact below

/-! An export of frames that can be told apart. -/

variable {alignedStartMs : Int}

omit [DecidableEq Location] in
theorem shift_of_covers (clock : r.startedAtMs ≤ i64Max) (covers : Covers r.startedAtMs first) :
    ∃ shift : Nat, (shift : Int) = -(selection location r.startedAtMs requestedEndMs
      (first :: rest)).originTicks first.1.startMs videoTimescale ∧
      (∀ sample ∈ first.2.head?, shift ≤ sample.startTime) ∧ ∀ tracks,
      (selection location r.startedAtMs requestedEndMs (first :: rest)).overflows
        first.1.startMs tracks = false := by
  obtain ⟨sample, others, stop, held, _, startMs, _⟩ := covers
  have scaled : ticksToMillis sample.startTime videoTimescale ≤ sample.startTime / 90 := by
    unfold ticksToMillis videoTimescale
    omega
  obtain ⟨distance, same, near⟩ : ∃ distance : Nat,
      first.1.startMs = r.startedAtMs + distance ∧
        distance ≤ sample.startTime / 90 ∧ distance < 2 ^ 63 := by
    unfold i64Max at clock
    rw [startMs]
    refine ⟨(first.1.startMs - r.startedAtMs).toNat, ?_, ?_, ?_⟩ <;> omega
  have behind : r.startedAtMs - first.1.startMs = -(distance : Int) := by omega
  refine ⟨distance * 90, ?_, ?_, fun tracks => ?_⟩
  · unfold ExportRecording.originTicks selection
    dsimp only
    have ticks : -(distance : Int) * videoTimescale = -(distance * 90 : Int) * 1000 := by
      unfold videoTimescale
      omega
    rw [behind, ticks, Int.mul_tdiv_cancel _ (by decide)]
    omega
  · intro head head_held
    rw [held] at head_held
    cases head_held
    omega
  · unfold ExportRecording.overflows selection
    dsimp only
    rw [behind, Bool.and_eq_false_iff, Bool.or_eq_false_iff]
    refine .inl ⟨decide_eq_false ?_, decide_eq_false ?_⟩ <;> unfold i64Max <;> omega

def Source.chosen (source : Source recording) (before chosen : List Part) : List (Nat × Sample) :=
  (source.video.samples.drop (frames before)).take (frames chosen)

theorem Source.chosen_frames {chosen : List Part}
    (video : r.video = (before ++ chosen ++ after).flatMap Prod.snd) :
    (src.chosen before chosen).map Prod.snd = chosen.flatMap Prod.snd := by
  unfold Source.chosen frames
  rw [List.map_take, List.map_drop, src.samples, video, List.flatMap_append, List.flatMap_append,
    List.append_assoc, List.drop_left, List.take_left]

theorem Source.chosen_part {chosen : List Part} : src.chosen before chosen <:+:
    src.video.samples := by
  have front : src.chosen before chosen <+: src.video.samples.drop _ := List.take_prefix _ _
  exact front.isInfix.trans (List.drop_suffix _ _).isInfix

omit [DecidableEq Location] in
theorem overlaps_of_separable {chosen : List Part}
    (separable : Separable r before chosen requestedEndMs) {place : Nat}
    {read : Nat × Sample} (found : src.video.samples[place]? = some read) :
    (selection location r.startedAtMs requestedEndMs chosen).overlaps videoTimescale read.2 ↔
      frames before ≤ place ∧ place < frames before + frames chosen := by
  refine overlaps_selection.trans (separable.selected place read.2 ?_)
  rw [← src.samples, List.getElem?_map, found]
  rfl

omit [DecidableEq Location] in
theorem collectFrom_of_separable {chosen : List Part} {shift : Nat}
    (separable : Separable r before chosen requestedEndMs)
    (inside : frames before ≤ src.video.samples.length)
    (origin : (shift : Int) = -(selection location r.startedAtMs requestedEndMs chosen).originTicks
      alignedStartMs videoTimescale)
    (late : ∀ read ∈ src.chosen before chosen, shift ≤ read.2.startTime) :
    (selection location r.startedAtMs requestedEndMs chosen).collectFrom 0 alignedStartMs 1
        src.playbackVideo 0 src.video.samples =
      .ok (copies r.startedAtMs 1 src.playbackVideo shift (frames before)
        (src.chosen before chosen)) := by
  have described : ∀ read ∈ src.video.samples,
      (src.playbackVideo.source.described read.1).isSome := fun read mem => described_of_mem mem
  have split : src.video.samples = src.video.samples.take (frames before) ++
      (src.chosen before chosen ++
        (src.video.samples.drop (frames before)).drop (frames chosen)) := by
    unfold Source.chosen
    rw [List.take_append_drop, List.take_append_drop]
  have earlier : ∀ read ∈ src.video.samples.take (frames before),
      (selection location r.startedAtMs requestedEndMs chosen).overlaps
        src.playbackVideo.timescale read.2 = false := by
    intro read mem
    obtain ⟨place, bound, rfl⟩ := List.mem_take_iff_getElem.mp mem
    rw [Bool.eq_false_iff]
    intro overlaps
    have := (overlaps_of_separable separable (List.getElem?_eq_getElem (by omega))).mp overlaps
    omega
  have chosen_overlaps : ∀ read ∈ src.chosen before chosen,
      (selection location r.startedAtMs requestedEndMs chosen).overlaps
        src.playbackVideo.timescale read.2 := by
    intro read mem
    obtain ⟨place, bound, rfl⟩ := List.mem_take_iff_getElem.mp mem
    rw [List.getElem_drop]
    rw [List.length_drop] at bound
    exact (overlaps_of_separable separable (List.getElem?_eq_getElem (by omega))).mpr
      ⟨by omega, by omega⟩
  have later : ∀ read ∈ (src.video.samples.drop (frames before)).drop (frames chosen),
      (selection location r.startedAtMs requestedEndMs chosen).overlaps
        src.playbackVideo.timescale read.2 = false := by
    intro read mem
    rw [List.drop_drop] at mem
    obtain ⟨place, bound, rfl⟩ := List.mem_drop_iff_getElem.mp mem
    rw [Bool.eq_false_iff]
    intro overlaps
    have := (overlaps_of_separable separable (List.getElem?_eq_getElem (by omega))).mp overlaps
    omega
  rw [split, collectFrom_append,
    collectFrom_of_none (fun read mem => described read (List.mem_of_mem_take mem)) earlier]
  simp only [Except.bind]
  rw [collectFrom_append, collectFrom_of_all
    (fun read mem => described read (chosen_part.subset mem)) chosen_overlaps origin
    fun read mem => ⟨late read mem, src.times read (chosen_part.subset mem)⟩]
  simp only [Except.bind]
  rw [collectFrom_of_none (fun read mem =>
    described read (List.mem_of_mem_drop (List.mem_of_mem_drop mem))) later]
  unfold copies
  rw [List.length_take, Nat.min_eq_left inside, Nat.zero_add]
  simp only [Except.map, List.append_nil, List.nil_append]
  rfl

omit [DecidableEq Location] in
theorem sounds_of_collectFrom {entry : ExportRecording Location} {track : SourceTrack}
    (held : track ∈ src.audio) {audio : List ExportSample}
    (collected : entry.collectFrom 0 alignedStartMs 2 (src.playbackAudio track) 0 track.samples =
      .ok audio) :
    Sounds src track (entry.originTicks alignedStartMs src.frequency) audio := by
  have taken : ∀ sample ∈ audio, ∃ read ∈ track.samples,
      TakenFrom entry alignedStartMs (src.playbackAudio track) read sample := by
    intro sample mem
    obtain ⟨place, read, found, _, taken⟩ := collectFrom_mem collected mem
    exact ⟨read, List.mem_of_getElem? found, taken⟩
  refine ⟨fun sample mem => (collectFrom_eq_ok collected sample mem).1, fun sample mem => ?_,
    fun sample mem => ?_⟩
  · obtain ⟨read, _, from_read⟩ := taken sample mem
    exact from_read.trackType
  · obtain ⟨read, read_mem, from_read⟩ := taken sample mem
    refine ⟨read, read_mem, ?_, from_read.start, from_read.duration, from_read.bytes⟩
    have described : track.described read.1 = some sample.sampleDescription := from_read.description
    rw [(src.sound track held).numbered read read_mem, described_audio held] at described
    exact (Option.some.inj described).symm

/-- Whatever was written, what waits fits one fragment. -/
def ExportRoom (format : Format MediaConfig) (limit : Nat → Nat) (order : Order Location)
    (read : Location → Except Error (List SourceTrack))
    (fragments : List (CatalogMediaFragment Location)) (requestedEndMs : Int) : Prop :=
  ∀ recordings alignedStartMs deliveredEndMs tracks groups output,
    exportRecordings order fragments requestedEndMs =
      .ok (recordings, alignedStartMs, deliveredEndMs) →
    footage read recordings alignedStartMs = .ok (tracks, groups) →
    Output.start format tracks = .ok output →
    Roomy limit (Output.takeSample format) output (groups.flatMap order.samples)

theorem export_of_acceptable {limit : Nat → Nat} (suits : Suits f limit) {order : Order Location}
    {fragments : List (CatalogMediaFragment Location)}
    (roomy : ExportRoom f limit order read fragments requestedEndMs)
    {recordings : List (ExportRecording Location)} {deliveredEndMs : Int}
    {tracks : List PlaybackTrack} {xs : List ExportSample} {o : Output}
    (selected : exportRecordings order fragments requestedEndMs =
      .ok (recordings, alignedStartMs, deliveredEndMs))
    (found : footage read recordings alignedStartMs = .ok (tracks, [xs]))
    (start : Output.start f tracks = .ok o)
    (acceptable : Acceptable (tracks.map PlaybackTrack.shape) (fun _ => none) (order.samples xs)) :
    ∃ artifact o, exportFragmentRanges f order read fragments requestedEndMs =
      .ok (artifact, o) := by
  have roomy := roomy _ _ _ _ _ _ selected found start
  rw [List.flatMap_cons, List.flatMap_nil, List.append_nil] at roomy
  obtain ⟨_, _, fresh⟩ := start_carries start
  obtain ⟨written, taken, last, ready⟩ := (start_ready start).takeSamples suits
    (fun trackId => (fresh trackId).trans rfl) acceptable roomy
  obtain ⟨after, flushed, _⟩ := ready.flushFragment suits (roomy.last taken)
  have wrote : writeAll f order o [xs] = .ok written := by
    unfold writeAll
    rw [List.foldlM_cons, taken]
    rfl
  refine ⟨⟨alignedStartMs, deliveredEndMs, after.writer.device.position⟩, after, ?_⟩
  unfold exportFragmentRanges writeExportRecordings
  rw [selected]
  simp only [Except.bind, found, start, wrote, flushed, Except.map]

omit [DecidableEq Location] in
theorem chosen_rising {chosen : List Part}
    (video : r.video = (before ++ chosen ++ after).flatMap Prod.snd)
    (separable : Separable r before chosen requestedEndMs) :
    (src.chosen before chosen).Pairwise fun read next =>
      absoluteMs r.startedAtMs videoTimescale read.2.startTime <
        absoluteMs r.startedAtMs videoTimescale next.2.startTime := by
  have same : (src.chosen before chosen).map Prod.snd = _ := chosen_frames video
  have rising := separable.rising
  rw [← same, List.pairwise_map] at rising
  exact rising

theorem chosen_head (src : Source r)
    (video : r.video = (before ++ first :: rest ++ after).flatMap Prod.snd)
    (covers : Covers r.startedAtMs first) :
    ∃ head tail, src.chosen before (first :: rest) = head :: tail ∧ head.2 ∈ first.2.head? := by
  have same : (src.chosen before (first :: rest)).map Prod.snd = _ := chosen_frames video
  obtain ⟨sample, others, _, held, _⟩ := covers
  cases chosen : src.chosen before (first :: rest) with
  | nil =>
    rw [chosen, List.flatMap_cons, held] at same
    cases same
  | cons head tail =>
    rw [chosen, List.flatMap_cons, held, List.map_cons, List.cons_append] at same
    refine ⟨head, tail, rfl, ?_⟩
    rw [held, (List.cons.inj same).1]
    rfl

omit [DecidableEq Location] in
theorem collect_of_video {entry : ExportRecording Location} {frames : List ExportSample}
    {sounds : List PlaybackTrack}
    (collected : entry.collectFrom 0 alignedStartMs 1 src.playbackVideo 0 src.video.samples =
      .ok frames)
    (few : sounds = [] ∨ ∃ track ∈ src.audio, sounds = [src.playbackAudio track]) :
    ∃ audio, entry.collect 0 alignedStartMs (src.playbackVideo :: sounds) = .ok (frames ++ audio) ∧
      Heard src sounds audio := by
  have pictured : entry.collectTrack 0 alignedStartMs 1 src.playbackVideo = .ok frames := collected
  unfold ExportRecording.collect ExportRecording.collectTracks
  rw [pictured]
  rcases few with rfl | ⟨track, held, rfl⟩
  · exact ⟨[], rfl, .inl ⟨rfl, rfl⟩⟩
  obtain ⟨audio, heard⟩ : ∃ audio, entry.collectFrom 0 alignedStartMs 2
      (src.playbackAudio track) 0 track.samples = .ok audio := by
    refine collectFrom_of_sound (fun video => by cases video) fun read mem => ?_
    exact Option.isSome_iff_exists.mpr ⟨_, described_sound held mem⟩
  have sounded : entry.collectTrack 0 alignedStartMs 2 (src.playbackAudio track) = .ok audio :=
    heard
  refine ⟨audio, ?_, .inr ⟨track, held, rfl, _, sounds_of_collectFrom held heard⟩⟩
  unfold ExportRecording.collectTracks
  rw [sounded]
  simp only [Except.bind, ExportRecording.collectTracks, Except.map, List.append_nil]

/-- An export of fragments whose frames can be told apart is exact. -/
theorem exact_of_separable {limit : Nat → Nat} (suits : Suits f limit)
    (encodes : Encodes f src) (reads : read location = .ok src.tracks)
    (clock : r.startedAtMs ≤ i64Max)
    (video : r.video = (before ++ first :: rest ++ after).flatMap Prod.snd)
    (covers : ∀ part ∈ first :: rest, Covers r.startedAtMs part)
    (roomy : ∀ order : Order Location, order.Lawful → ExportRoom f limit order read
      (catalogFragments id location r.startedAtMs (first :: rest)) requestedEndMs)
    (separable : Separable r before (first :: rest) requestedEndMs) :
    Exact f src read id location before (first :: rest) requestedEndMs := by
  have rising : (src.chosen before (first :: rest)).Pairwise _ := chosen_rising video separable
  have later : (src.chosen before (first :: rest)).Pairwise fun read next =>
      read.2.startTime < next.2.startTime := rising.imp fun h => startTime_lt_of_absoluteMs h
  have frames_eq : (src.chosen before (first :: rest)).map Prod.snd = _ :=
    chosen_frames video
  obtain ⟨shift, origin, early, fits⟩ : ∃ shift : Nat, (shift : Int) = -(selection location
      r.startedAtMs requestedEndMs (first :: rest)).originTicks _ _ ∧ _ :=
    shift_of_covers clock (covers first List.mem_cons_self)
  obtain ⟨head, tail, chosen, head_held⟩ := chosen_head src video (covers first List.mem_cons_self)
  have head_chosen : head ∈ src.chosen before (first :: rest) := by
    rw [chosen]
    exact List.mem_cons_self
  have head_mem := chosen_part.subset head_chosen
  have frame : src.video.samples ≠ [] := List.ne_nil_of_mem head_mem
  have late : ∀ read ∈ src.chosen before (first :: rest), shift ≤ read.2.startTime := by
    have head_late := early head.2 head_held
    intro read mem
    rw [chosen] at mem later
    rcases List.mem_cons.mp mem with rfl | mem
    · exact head_late
    · have := (List.pairwise_cons.mp later).1 read mem
      omega
  have inside : frames before ≤ src.video.samples.length := by
    have whole := congrArg List.length (src.samples.trans video)
    rw [List.length_map, List.flatMap_append, List.flatMap_append, List.length_append,
      List.length_append] at whole
    unfold frames
    omega
  -- The frames are collected, and the audio with them.
  have collected := collectFrom_of_separable separable inside origin late
  have has_video : (selection location r.startedAtMs requestedEndMs
      (first :: rest)).trackHasSelectedSample first.1.startMs src.playbackVideo := by
    obtain ⟨sample, mem, _⟩ : ∃ sample ∈
      copies r.startedAtMs 1 src.playbackVideo shift (frames before)
        (src.chosen before (first :: rest)), True := by
      unfold copies
      rw [chosen]
      exact ⟨_, List.mem_cons_self, trivial⟩
    obtain ⟨place, read, found, _, taken⟩ := collectFrom_mem collected mem
    refine List.any_eq_true.mpr ⟨read, List.mem_of_getElem? found, ?_⟩
    have start := taken.start
    rw [Bool.and_eq_true, decide_eq_true_eq]
    exact ⟨taken.overlaps, by omega⟩
  have has_tracks : (src.selected (selection location r.startedAtMs requestedEndMs
      (first :: rest)) first.1.startMs).any fun track => track.trackType = .video := by
    refine List.any_eq_true.mpr ⟨src.playbackVideo, ?_, rfl⟩
    exact List.mem_filter.mpr ⟨List.mem_cons_self, has_video⟩
  obtain ⟨_, sounds, selected, few⟩ := selected_eq has_tracks
  obtain ⟨audio, whole, heard⟩ := collect_of_video collected few
  have found : footage read [selection location r.startedAtMs requestedEndMs (first :: rest)]
      first.1.startMs = .ok (src.playbackVideo :: sounds, [copies r.startedAtMs 1
        src.playbackVideo shift (frames before) (src.chosen before (first :: rest)) ++ audio]) := by
    rw [footage_eq frame reads, fits, selected, whole]
    rfl
  have inner : (src.playbackVideo :: sounds).Sublist src.playback := by
    rw [← selected]
    exact List.filter_sublist
  obtain ⟨started, start⟩ := start_of_source encodes frame inner
  intro order lawful
  obtain ⟨deliveredEndMs, recordings⟩ : ∃ deliveredEndMs,
    exportRecordings order (catalogFragments id
    location r.startedAtMs (first :: rest)) requestedEndMs = _ := exportRecordings_eq lawful
  have own : ∀ sample ∈ copies r.startedAtMs 1 src.playbackVideo shift (frames before)
      (src.chosen before (first :: rest)), sample.trackId = 1 := copies_trackId
  have spaced : (copies r.startedAtMs 1 src.playbackVideo shift (frames before)
      (src.chosen before (first :: rest))).Pairwise fun left right =>
        left.absoluteMs < right.absoluteMs := pairwise_copies rising fun _ _ h => h
  obtain ⟨artifact, output, exported⟩ := export_of_acceptable suits (roomy order lawful) recordings
    found start (acceptable_sorted lawful own heard spaced
      (acceptable_pictures (footage_of_covers chosen_part frames_eq covers) late later))
  obtain ⟨_, _, again, _, all, content, taken⟩ := export_of_recording lawful frame reads exported
  rw [selected, whole, Except.ok.injEq] at all
  rw [← all, (ofTrack_sorted_eq lawful own heard).1 spaced,
    ascend_eq_self (copies_rise late later)] at taken
  refine ⟨artifact, output, shift, exported, late, ?_, ?_⟩
  · rw [content, taken]
    exact copies_content fun read mem => described_of_mem (chosen_part.subset mem)
  · have count : (src.chosen before (first :: rest)).length = frames (first :: rest) := by
      have := congrArg List.length frames_eq
      rw [List.length_map] at this
      exact this
    rw [taken, copies_index, count]

end Exported

end KeepPeek.Playback
