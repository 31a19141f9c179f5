import KeepPeek.Lib.Run
import KeepPeek.Mp4.Fragmented

/-! What failures of the device leave behind.

The writer appends: everything it has reported lies between the end of the
initialization range and the device's position, so a write at the position,
complete or not, touches none of it. A rewrite of the initialization range that
fails poisons the writer. Two failures of a registration do neither: a failed
position query keeps a description that was never written, and a failed seek
back leaves the position at the end of the initialization range. -/
namespace KeepPeek.Mp4.FragmentedMp4Writer

open Lib

variable {δ : Type}
variable {listed : List (List δ)} {tracks : List (FragmentTrack δ)} {track : FragmentTrack δ}
  {writer : FragmentedMp4Writer δ}

/-! ### The property -/

/-- The bytes of the range are one `moof` box followed by one `mdat` box. -/
def Complete (image : Image) (range : ByteRange) : Prop :=
  ∃ moof payload, Box.decodeAll range.size (image.read range.offset range.size) =
    some [⟨moofBox, moof⟩, ⟨mdatBox, payload⟩]

def Lists (listed : List (List δ)) (trackId index : Nat) : Prop :=
  0 < index ∧ ∃ descriptions, listed[trackId - 1]? = some descriptions ∧
    index ≤ descriptions.length

instance (listed : List (List δ)) (trackId index : Nat) : Decidable (Lists listed trackId index) :=
  match found : listed[trackId - 1]? with
  | none => isFalse (by simp [Lists, found])
  | some descriptions =>
    decidable_of_iff (0 < index ∧ index ≤ descriptions.length) (by simp [Lists, found])

/-- Every reported range is a complete fragment, apart from every other and
from the initialization range, which lists every description in use. -/
structure Sound (format : Format δ) (writer : FragmentedMp4Writer δ) : Prop where
  complete : ∀ report ∈ writer.reports, Complete writer.device.image report.info.range
  apart : writer.reports.Pairwise fun a b => a.info.range.Apart b.info.range
  beyond : ∀ report ∈ writer.reports, report.info.range.Apart writer.initialization
  within : writer.initialization.offset ≤ writer.moovOffset ∧
    writer.moovOffset + initializationMetadataCapacity = writer.initialization.stop
  metadata : format.initializationMetadata writer.listed =
    .ok (writer.device.image.read writer.moovOffset initializationMetadataCapacity)
  reported : ∀ report ∈ writer.reports, ∀ use ∈ report.uses, Lists writer.listed use.1 use.2
  pending : ∀ trackId track index, writer.track trackId = some track →
    track.pendingSampleDescriptionIndex = some index → Lists writer.listed trackId index

/-! ### The invariant -/

structure Covers (listed : List δ) (track : FragmentTrack δ) : Prop where
  counted : track.sampleDescriptionCount ≤ min track.sampleDescriptions.length u32Max
  reached : min track.sampleDescriptions.length u32Max ≤ listed.length
  grown : listed.length ≤ track.sampleDescriptions.length
  pending : ∀ index, track.pendingSampleDescriptionIndex = some index →
    0 < index ∧ index ≤ track.sampleDescriptionCount

structure Covered (listed : List (List δ)) (tracks : List (FragmentTrack δ)) : Prop where
  length : listed.length = tracks.length
  covers : ∀ (place : Nat) (descriptions : List δ) (track : FragmentTrack δ),
    listed[place]? = some descriptions → tracks[place]? = some track → Covers descriptions track

structure Intact (format : Format δ) (writer : FragmentedMp4Writer δ) : Prop where
  complete : ∀ report ∈ writer.reports, Complete writer.device.image report.info.range
  apart : writer.reports.Pairwise fun a b => a.info.range.Apart b.info.range
  /-- Reported ranges lie after the initialization range and before the position. -/
  placed : ∀ report ∈ writer.reports,
    writer.initialization.stop ≤ report.info.range.offset ∧
      report.info.range.stop ≤ writer.device.position
  within : writer.initialization.offset ≤ writer.moovOffset ∧
    writer.moovOffset + initializationMetadataCapacity = writer.initialization.stop
  past : writer.initialization.stop ≤ writer.device.position
  metadata : format.initializationMetadata writer.listed =
    .ok (writer.device.image.read writer.moovOffset initializationMetadataCapacity)
  reported : ∀ report ∈ writer.reports, ∀ use ∈ report.uses, Lists writer.listed use.1 use.2
  covered : Covered writer.listed writer.tracks

theorem Covered.find (covered : Covered listed tracks) {place : Nat}
    (found : tracks[place]? = some track) :
    ∃ descriptions, listed[place]? = some descriptions ∧ Covers descriptions track := by
  have inside : place < listed.length := by
    rw [covered.length]
    exact (List.getElem?_eq_some_iff.mp found).1
  have held := List.getElem?_eq_getElem inside
  exact ⟨listed[place], held, covered.covers place _ track held found⟩

theorem Covered.lists (covered : Covered listed tracks) {t index : Nat}
    (found : tracks[t - 1]? = some track)
    (pending : track.pendingSampleDescriptionIndex = some index) : Lists listed t index := by
  rcases covered.find found with ⟨descriptions, held, covers⟩
  have bounds := covers.pending index pending
  have counted := covers.counted
  have reached := covers.reached
  exact ⟨bounds.1, descriptions, held, by omega⟩

theorem track_eq_some {t : Nat} (found : writer.track t = some track) :
    0 < t ∧ writer.tracks[t - 1]? = some track := by
  unfold FragmentedMp4Writer.track at found
  split at found
  · cases found
  · exact ⟨by omega, found⟩

theorem Intact.sound {f : Format δ} (intact : Intact f writer) : Sound f writer where
  complete := intact.complete
  apart := intact.apart
  beyond := fun report inside => Or.inr (intact.placed report inside).1
  within := intact.within
  metadata := intact.metadata
  reported := intact.reported
  pending := by
    intro trackId track index found pending
    exact intact.covered.lists (track_eq_some found).2 pending

/-! ### Tracks -/

theorem Covers.clear {listed : List δ} (covers : Covers listed track) :
    Covers listed (clearSamples track) where
  counted := covers.counted
  reached := covers.reached
  grown := covers.grown
  pending := by
    intro index pending
    cases pending

theorem Covered.set (covered : Covered listed tracks) {place : Nat}
    (covers : ∀ descriptions, listed[place]? = some descriptions → Covers descriptions track) :
    Covered listed (tracks.set place track) where
  length := by rw [covered.length, List.length_set]
  covers := by
    intro other descriptions held listed_at found
    rw [List.getElem?_set] at found
    split at found
    · rename_i same
      subst same
      split at found
      · cases found
        exact covers descriptions listed_at
      · cases found
    · exact covered.covers other descriptions held listed_at found

theorem Covered.clear (covered : Covered listed tracks) :
    Covered listed (tracks.map clearSamples) where
  length := by rw [covered.length, List.length_map]
  covers := by
    intro place descriptions track listed_at found
    rw [List.getElem?_map, Option.map_eq_some_iff] at found
    rcases found with ⟨held, found, rfl⟩
    exact (covered.covers place descriptions held listed_at found).clear

structure Bounded (track : FragmentTrack δ) : Prop where
  counted : track.sampleDescriptionCount ≤ min track.sampleDescriptions.length u32Max
  pending : ∀ index, track.pendingSampleDescriptionIndex = some index →
    0 < index ∧ index ≤ track.sampleDescriptionCount

theorem covered_of_bounded (bounded : ∀ track ∈ tracks, Bounded track) :
    Covered (tracks.map FragmentTrack.sampleDescriptions) tracks where
  length := List.length_map _
  covers := by
    intro place descriptions track listed_at found
    have own := bounded track (List.mem_of_getElem? found)
    rw [List.getElem?_map, found, Option.map_some] at listed_at
    cases listed_at
    exact ⟨own.counted, Nat.min_le_left _ _, Nat.le_refl _, own.pending⟩

theorem Covered.bounded (covered : Covered listed tracks) : ∀ track ∈ tracks, Bounded track := by
  intro track inside
  rcases List.getElem?_of_mem inside with ⟨place, found⟩
  rcases covered.find found with ⟨_, -, covers⟩
  exact ⟨covers.counted, covers.pending⟩

theorem lists_of_uses (covered : Covered writer.listed writer.tracks) :
    ∀ use ∈ uses writer.pendingTracks, Lists writer.listed use.1 use.2 := by
  intro use inside
  simp only [uses, pendingTracks, List.mem_filterMap, List.mem_filter, List.mem_map,
    Option.map_eq_some_iff] at inside
  rcases inside with ⟨_, ⟨⟨⟨track, place⟩, found, rfl⟩, -⟩, index, pending, rfl⟩
  exact covered.lists (List.mem_zipIdx_iff_getElem?.mp found) pending

/-! ### Writes -/

section Steps

variable {f : Format δ} {w : FragmentedMp4Writer δ}
variable {tracks : List (FragmentTrack δ)} {track : FragmentTrack δ}

section

variable (intact : Intact f w)
include intact

theorem Intact.retrack (covered : Covered w.listed tracks) :
    Intact f { w with tracks } where
  complete := intact.complete
  apart := intact.apart
  placed := intact.placed
  within := intact.within
  past := intact.past
  metadata := intact.metadata
  reported := intact.reported
  covered := covered

theorem Intact.setTrack {t : Nat}
    (covers : ∀ descriptions, w.listed[t - 1]? = some descriptions →
      Covers descriptions track) : Intact f (w.setTrack t track) :=
  intact.retrack (intact.covered.set covers)

theorem Intact.write (bytes : List UInt8) :
    Intact f { w with device := w.device.write bytes } where
  complete := by
    intro report inside
    rcases intact.complete report inside with ⟨moof, payload, read⟩
    refine ⟨moof, payload, ?_⟩
    have below := (intact.placed report inside).2
    rw [← read]
    apply congrArg
    apply Image.read_write_of_apart
    exact Or.inl below
  apart := intact.apart
  placed := by
    intro report inside
    have placed := intact.placed report inside
    simp only [Device.write]
    omega
  within := intact.within
  past := by
    have past := intact.past
    simp only [Device.write]
    omega
  metadata := by
    rw [intact.metadata]
    apply congrArg
    symm
    apply Image.read_write_of_apart
    exact Or.inl (Nat.le_trans (Nat.le_of_eq intact.within.2) intact.past)
  reported := intact.reported
  covered := intact.covered

theorem Intact.writeAll (bytes : List UInt8) (failure : Option Nat) :
    Intact f { w with device := w.device.writeAll bytes failure } := by
  cases failure with
  | none => exact intact.write bytes
  | some written => exact intact.write (bytes.take written)

end

theorem complete_write (device : Device) {moof payload : List UInt8}
    (moof_fits : Box.size ⟨moofBox, moof⟩ < 2 ^ 32)
    (mdat_fits : Box.size ⟨mdatBox, payload⟩ < 2 ^ 32) :
    let bytes := [Box.mk moofBox moof, Box.mk mdatBox payload].flatMap Box.encode
    Complete (device.write bytes).image ⟨device.position, bytes.length⟩ := by
  refine ⟨moof, payload, ?_⟩
  simp only [Device.write, Image.read_write_self]
  apply Box.decodeAll_encode
  · intro box inside
    rcases List.mem_pair.mp inside with rfl | rfl
    · exact moof_fits
    · exact mdat_fits
  · simp [Box.size]
    omega

theorem Intact.report (intact : Intact f w) (bytes : List UInt8) (info : FragmentInfo)
    (range : info.range = ⟨w.device.position, bytes.length⟩)
    (complete : Complete (w.device.write bytes).image info.range)
    {used : List (Nat × Nat)} (lists : ∀ use ∈ used, Lists w.listed use.1 use.2) :
    Intact f { w with
        device := w.device.write bytes
        sequenceNumber := w.sequenceNumber + 1
        reports := ⟨info, used⟩ :: w.reports } := by
  have written := intact.write bytes
  constructor
  case complete =>
    intro report inside
    rcases List.mem_cons.mp inside with rfl | inside
    · exact complete
    · exact written.complete report inside
  case apart =>
    refine List.pairwise_cons.mpr ⟨?_, intact.apart⟩
    intro report inside
    have placed := (intact.placed report inside).2
    rw [range]
    exact Or.inr placed
  case placed =>
    intro report inside
    rcases List.mem_cons.mp inside with rfl | inside
    · have past := intact.past
      simp only [range, ByteRange.stop, Device.write]
      exact ⟨past, Nat.le_refl _⟩
    · exact written.placed report inside
  case within => exact intact.within
  case past => exact written.past
  case metadata => exact written.metadata
  case reported =>
    intro report inside
    rcases List.mem_cons.mp inside with rfl | inside
    · exact lists
    · exact intact.reported report inside
  case covered => exact intact.covered

/-- The initialization range rewritten as a whole, with the position somewhere past it and
past everything reported. -/
theorem Intact.rewrite (intact : Intact f w) {descriptions : List (List δ)}
    {metadata : List UInt8} (built : f.initializationMetadata descriptions = .ok metadata)
    (covered : Covered descriptions tracks)
    (lists : ∀ trackId index, Lists w.listed trackId index → Lists descriptions trackId index)
    {position : Nat} (past : w.device.position ≤ position) :
    Intact f { w with
        device := ⟨w.device.image.write w.moovOffset metadata, position⟩
        tracks
        listed := descriptions } where
  complete := by
    intro report inside
    rcases intact.complete report inside with ⟨moof, payload, read⟩
    refine ⟨moof, payload, ?_⟩
    have after := (intact.placed report inside).1
    have within := intact.within
    have size := f.length_initializationMetadata built
    rw [← read]
    apply congrArg
    apply Image.read_write_of_apart
    omega
  apart := intact.apart
  placed := by
    intro report inside
    have placed := intact.placed report inside
    exact ⟨placed.1, Nat.le_trans placed.2 past⟩
  within := intact.within
  past := Nat.le_trans intact.past past
  metadata := by
    have size := f.length_initializationMetadata built
    rw [built, ← size, Image.read_write_self]
  reported := by
    intro report inside use used
    exact lists _ _ (intact.reported report inside use used)
  covered := covered

theorem Covered.lists_of_push (covered : Covered listed tracks) {place : Nat}
    {pushed : FragmentTrack δ} (found : tracks[place]? = some track)
    (grown : track.sampleDescriptions.length ≤ pushed.sampleDescriptions.length)
    (t index : Nat) (lists : Lists listed t index) :
    Lists ((tracks.set place pushed).map FragmentTrack.sampleDescriptions) t index := by
  rcases lists with ⟨positive, descriptions, held, bound⟩
  have inside : t - 1 < tracks.length := by
    rw [← covered.length]
    exact (List.getElem?_eq_some_iff.mp held).1
  have other := List.getElem?_eq_getElem inside
  have longer := (covered.covers _ _ _ held other).grown
  by_cases same : place = t - 1
  · subst same
    rw [found] at other
    cases other
    refine ⟨positive, pushed.sampleDescriptions, ?_, by omega⟩
    simp [inside]
  · refine ⟨positive, tracks[t - 1].sampleDescriptions, ?_, by omega⟩
    rw [List.getElem?_map, List.getElem?_set_ne same, other, Option.map_some]

theorem Bounded.recount (bounded : Bounded track)
    (room : track.sampleDescriptions.length ≤ u32Max) : Bounded track.recount where
  counted := by
    simp only [FragmentTrack.recount]
    omega
  pending := by
    intro index pending
    have bounds := bounded.pending index pending
    have counted := bounded.counted
    simp only [FragmentTrack.recount]
    omega

theorem Bounded.push (bounded : Bounded track) (description : δ) :
    Bounded (track.push description) where
  counted := by
    have counted := bounded.counted
    simp only [FragmentTrack.push, List.length_append, List.length_singleton]
    omega
  pending := bounded.pending

end Steps

/-! ### The calls -/

section Calls

variable {f : Format δ} {w : FragmentedMp4Writer δ}

/-- The writer refuses everything, or what it reported is intact. -/
def Safe (format : Format δ) (writer : FragmentedMp4Writer δ) : Prop :=
  writer.poisoned = true ∨ Intact format writer

theorem locate_eq_ok {start offset : Nat} {tracks : List (Nat × FragmentTrack δ)}
    {keyframe : Option SampleLocation} (held : tracks ≠ [])
    (located : locate start offset none tracks = .ok keyframe) : offset ≤ i32Max := by
  cases tracks with
  | nil => exact absurd rfl held
  | cons track tracks =>
    unfold locate at located
    split at located
    · cases located
    · omega

theorem pendingTracks_ne_nil (pending : w.hasPendingSamples = true) : w.pendingTracks ≠ [] := by
  rcases List.any_eq_true.mp pending with ⟨track, inside, samples⟩
  rcases List.getElem?_of_mem inside with ⟨place, found⟩
  apply List.ne_nil_of_mem (a := (place + 1, track))
  simp only [pendingTracks, List.mem_filter, List.mem_map]
  exact ⟨⟨(track, place), List.mem_zipIdx_iff_getElem?.mpr found, rfl⟩, samples⟩

theorem checkFragment_fits {keyframe : Option SampleLocation}
    (pending : w.hasPendingSamples = true)
    (checked : checkFragment f w = .ok keyframe) :
    Box.size ⟨moofBox, f.moof w.sequenceNumber w.pendingTracks⟩ < 2 ^ 32 ∧
      Box.size ⟨mdatBox, payload w.pendingTracks⟩ < 2 ^ 32 := by
  unfold checkFragment at checked
  split at checked
  · cases checked
  split at checked
  · cases checked
  rename_i measured
  have offset := locate_eq_ok (pendingTracks_ne_nil pending) checked
  have length : headerSize + (payload w.pendingTracks).length ≤ u32Max := by
    unfold checkPayload at measured
    split at measured
    · cases measured
    split at measured
    · cases measured
    split at measured
    · cases measured
    · omega
  simp only [headerSize, i32Max, u32Max, Box.size] at offset length ⊢
  omega

section

variable (intact : Intact f w)
include intact

theorem register_safe {t : Nat} {description : δ} {faults : AddFaults}
    (found : w.track t = some track)
    (room : track.sampleDescriptions.length + 1 ≤ u32Max) (queried : faults.position = false)
    (returned : faults.seekBack = false ∨ w.device.position = w.initialization.stop) :
    Safe f (addSampleDescription.register f w t track description faults).2 := by
  have held := (track_eq_some found).2
  have own := intact.covered.bounded track (List.mem_of_getElem? held)
  have pushed : Bounded (track.push description).recount := by
    apply (own.push description).recount
    simpa [FragmentTrack.push] using room
  have covered : Covered ((w.setTrack t (track.push description).recount).tracks.map
        FragmentTrack.sampleDescriptions)
      (w.setTrack t (track.push description).recount).tracks := by
    apply covered_of_bounded
    intro other inside
    rcases List.mem_or_eq_of_mem_set inside with inside | rfl
    · exact intact.covered.bounded other inside
    · exact pushed
  have lists := intact.covered.lists_of_push held
    (show _ ≤ (track.push description).recount.sampleDescriptions.length by
      simp [FragmentTrack.push, FragmentTrack.recount])
  unfold addSampleDescription.register
  dsimp only
  split
  · -- the metadata cannot be built: the description is taken back
    right
    apply intact.setTrack
    intro descriptions listed_at
    have covers := intact.covered.covers _ _ _ listed_at held
    have recounted := own.recount (by omega)
    exact ⟨recounted.counted, covers.reached, covers.grown, recounted.pending⟩
  · rename_i metadata built
    have size := f.length_initializationMetadata built
    rw [queried]
    unfold writeInitializationMetadataBytes
    cases seeks : faults.seek with
    | true => exact Or.inl rfl
    | false =>
      cases writes : faults.write with
      | some _ => exact Or.inl rfl
      | none =>
        cases flushes : faults.flush with
        | true => exact Or.inl rfl
        | false =>
          right
          cases back : faults.seekBack with
          | false => exact intact.rewrite built covered lists (Nat.le_refl _)
          | true =>
            -- the position is left at the end of the initialization range
            have stands := returned.resolve_left (by simp [back])
            apply intact.rewrite built covered lists
            rw [stands, size, ← intact.within.2]
            exact Nat.le_refl _

theorem writeSample_intact (t index : Nat) (x : Sample) :
    Intact f (writeSampleWithDescription w t index x).2 := by
  unfold writeSampleWithDescription
  split
  · exact intact
  split
  · exact intact
  split
  · exact intact
  split
  · exact intact
  rename_i track found
  have covers := fun descriptions listed_at =>
    intact.covered.covers _ descriptions _ listed_at (track_eq_some found).2
  split
  · exact intact
  rename_i ranged
  split
  · exact intact
  split
  · exact intact
  split
  · exact intact
  split
  · apply intact.setTrack
    intro descriptions listed_at
    have held := covers descriptions listed_at
    exact ⟨held.counted, held.reached, held.grown, held.pending⟩
  · apply intact.setTrack
    intro descriptions listed_at
    have held := covers descriptions listed_at
    refine ⟨held.counted, held.reached, held.grown, ?_⟩
    intro other pending
    cases pending
    dsimp only
    omega

theorem flushFragment_intact (faults : FlushFaults) : Intact f (flushFragment f w faults).2 := by
  unfold flushFragment
  split
  · exact intact
  split
  · exact intact
  rename_i pending
  split
  · exact intact
  split
  · exact intact
  rename_i keyframe checked
  dsimp only
  split
  · exact intact.writeAll _ _
  rename_i faultless
  have whole : faults.write = none := by
    cases writes : faults.write with
    | none => rfl
    | some _ => simp [writes] at faultless
  have cleared := intact.retrack intact.covered.clear
  rw [whole]
  split
  · exact cleared.write _
  have fits := checkFragment_fits (by simpa using pending) checked
  have complete := complete_write w.device fits.1 fits.2
  have stretch : (w.device.writeAll ((fragmentBoxes f w).flatMap Box.encode)
      none).position - w.device.position = ((fragmentBoxes f w).flatMap Box.encode).length := by
    simp only [Device.writeAll, Device.write, Nat.add_sub_cancel_left]
  have lists := lists_of_uses intact.covered
  rw [stretch]
  exact cleared.report _ ⟨_, _, _⟩ rfl complete lists

theorem flushBefore_intact (t nextStartTime : Nat) (faults : FlushFaults) :
    Intact f (flushFragmentBeforeSample f w t nextStartTime faults).2 := by
  unfold flushFragmentBeforeSample
  split
  · exact intact
  split
  · exact intact
  rename_i track found
  split
  · exact intact
  apply flushFragment_intact
  apply intact.setTrack
  intro descriptions listed_at
  have held := intact.covered.covers _ descriptions _ listed_at (track_eq_some found).2
  exact ⟨held.counted, held.reached, held.grown, held.pending⟩

end

theorem writeStart_intact {device : Device} {configs : List (TrackConfig δ)}
    (started : writeStart f device configs = .ok w) : Intact f w := by
  unfold writeStart at started
  split at started
  · cases started
  split at started
  · cases started
  split at started
  · cases started
  split at started
  · cases started
  rename_i described
  split at started
  · cases started
  rename_i metadata built
  cases started
  have size := f.length_initializationMetadata built
  constructor
  case complete => simp
  case apart => simp
  case placed => simp
  case within => simp [ByteRange.stop, Nat.add_assoc]
  case past =>
    simp only [ByteRange.stop, Device.write]
    omega
  case metadata =>
    rw [built, ← size]
    exact congrArg Except.ok (Image.read_write_self _ _ _).symm
  case reported => simp
  case covered =>
    have listed : configs.map TrackConfig.sampleDescriptions =
        (configs.map TrackConfig.start).map FragmentTrack.sampleDescriptions := by
      rw [List.map_map]
      rfl
    rw [listed]
    apply covered_of_bounded
    intro track inside
    rcases List.mem_map.mp inside with ⟨config, started, rfl⟩
    have few : config.sampleDescriptions.length ≤ u32Max := by
      by_contra many
      apply described
      simp only [List.any_eq_true]
      exact ⟨config, started, by simpa using many⟩
    constructor
    · simp only [TrackConfig.start]
      omega
    · intro index pending
      cases pending

theorem answer_snd {α : Type} (result : Except Error α × FragmentedMp4Writer δ) :
    (execute.answer result).2 = result.2 := by
  rcases result with ⟨_ | _, _⟩ <;> rfl

end Calls

/-! ### Runs -/

section Runs

variable [DecidableEq δ] {format : Format δ} {writer : FragmentedMp4Writer δ}

/-- The description is registered while the position query succeeds, and the seek back
succeeds or has nowhere to return to. -/
def Steady (writer : FragmentedMp4Writer δ) : Call δ → Prop
  | .addSampleDescription _ _ faults =>
    faults.position = false ∧
      (faults.seekBack = false ∨ writer.device.position = writer.initialization.stop)
  | _ => True

instance (writer : FragmentedMp4Writer δ) : DecidablePred (Steady writer)
  | .addSampleDescription .. => inferInstanceAs (Decidable (_ ∧ _))
  | .writeSample .. => isTrue trivial
  | .flushFragment _ => isTrue trivial
  | .flushFragmentBeforeSample .. => isTrue trivial
  | .discardPendingSamples => isTrue trivial

/-- Whatever is called later, every sample, description and flush is refused. -/
def Refuses (format : Format δ) (writer : FragmentedMp4Writer δ) : Prop :=
  ∀ calls call, call ≠ .discardPendingSamples →
    (execute format (run format writer calls) call).1 = some poisonedError

theorem addSampleDescription_safe (intact : Intact format writer) {t : Nat} {description : δ}
    {faults : AddFaults} (steady : Steady writer (.addSampleDescription t description faults)) :
    Safe format (addSampleDescription format writer t description faults).2 := by
  unfold addSampleDescription
  split
  · exact Or.inr intact
  split
  · exact Or.inr intact
  rename_i track found
  split
  · exact Or.inr intact
  split
  · split <;> exact Or.inr intact
  split
  · exact Or.inr intact
  split
  · rename_i full
    right
    apply intact.setTrack
    intro descriptions listed_at
    have covers := intact.covered.covers _ _ _ listed_at (track_eq_some found).2
    have pushed := (intact.covered.bounded track
      (List.mem_of_getElem? (track_eq_some found).2)).push description
    have reached := covers.reached
    have grown := covers.grown
    refine ⟨pushed.counted, ?_, ?_, pushed.pending⟩
    · simp only [FragmentTrack.push, List.length_append, List.length_singleton]
      omega
    · simp only [FragmentTrack.push, List.length_append, List.length_singleton]
      omega
  · rename_i room
    exact register_safe intact found (by omega) steady.1 steady.2

theorem execute_of_poisoned (poisoned : writer.poisoned = true) {call : Call δ}
    (other : call ≠ .discardPendingSamples) :
    execute format writer call = (some poisonedError, writer) := by
  cases call with
  | addSampleDescription => simp [execute, addSampleDescription, poisoned, execute.answer]
  | writeSample => simp [execute, writeSampleWithDescription, poisoned, execute.answer]
  | flushFragment => simp [execute, flushFragment, poisoned, execute.answer]
  | flushFragmentBeforeSample =>
    simp [execute, flushFragmentBeforeSample, poisoned, execute.answer]
  | discardPendingSamples => exact absurd rfl other

theorem next_poisoned (poisoned : writer.poisoned = true) (call : Call δ) :
    (next format writer call).poisoned = true := by
  by_cases discards : call = .discardPendingSamples
  · subst discards
    exact poisoned
  · rw [next, execute_of_poisoned poisoned discards]
    exact poisoned

theorem refuses_of_poisoned (poisoned : writer.poisoned = true) : Refuses format writer := by
  intro calls call other
  have step : ∀ (writer : FragmentedMp4Writer δ) (call : Call δ), writer.poisoned = true →
      (next format writer call).poisoned = true := by
    intro writer call poisoned
    exact next_poisoned poisoned call
  have stays : (run format writer calls).poisoned = true := foldl_invariant step poisoned calls
  rw [execute_of_poisoned stays other]

theorem next_safe (safe : Safe format writer) {call : Call δ} (steady : Steady writer call) :
    Safe format (next format writer call) := by
  rcases safe with poisoned | intact
  · exact Or.inl (next_poisoned poisoned call)
  unfold next
  cases call with
  | addSampleDescription trackId description faults =>
    simp only [execute, answer_snd]
    exact addSampleDescription_safe intact steady
  | writeSample trackId index sample =>
    simp only [execute, answer_snd]
    exact Or.inr (writeSample_intact intact trackId index sample)
  | flushFragment faults =>
    simp only [execute, answer_snd]
    exact Or.inr (flushFragment_intact intact faults)
  | flushFragmentBeforeSample trackId nextStartTime faults =>
    simp only [execute, answer_snd]
    exact Or.inr (flushBefore_intact intact trackId nextStartTime faults)
  | discardPendingSamples => exact Or.inr (intact.retrack intact.covered.clear)

/-- In every run whose registrations are steady, whatever else of the device fails: the
writer refuses all that follows, or every range it reported is a complete fragment apart
from the others and from the initialization range, which lists every description in use. -/
theorem run_refuses_or_sound (device : Device) (configs : List (TrackConfig δ))
    (started : writeStart format device configs = .ok writer) (calls : List (Call δ))
    (steady : AllSteps (next format) Steady writer calls) :
    Refuses format (run format writer calls) ∨ Sound format (run format writer calls) := by
  have step : ∀ (writer : FragmentedMp4Writer δ) (call : Call δ), Safe format writer →
      Steady writer call → Safe format (next format writer call) := by
    intro writer call safe steady
    exact next_safe safe steady
  have safe : Safe format (run format writer calls) :=
    AllSteps.foldl_invariant step (Or.inr (writeStart_intact started)) steady
  rcases safe with poisoned | intact
  · exact Or.inl (refuses_of_poisoned poisoned)
  · exact Or.inr intact.sound

end Runs

/-! ### Runs that fail -/

/-- Boxes of the sizes that three brands and tracks with one sample each give. -/
def plainFormat : Format Nat where
  ftyp := List.replicate 28 0
  mediaConfigTrackType := fun _ => .video
  moov := fun _ => .ok []
  moof := fun _ tracks => List.replicate 16 0 ++ tracks.flatMap fun entry =>
    List.replicate (if 1 < entry.2.sampleDescriptionCount then 92 else 88) 0

def keyframe (startTime : Nat) : Sample :=
  ⟨startTime, 1, 0, true, [1]⟩

def noFlushFaults : FlushFaults := ⟨false, none, false, false⟩

def flushFailsOnce : List (Call Nat) :=
  [.addSampleDescription 1 7 ⟨false, false, none, false, false⟩,
    .writeSample 1 2 (keyframe 0), .flushFragment ⟨false, some 5, false, false⟩,
    .flushFragment noFlushFaults]

theorem run_refuses_or_sound_flushFailsOnce :
    ∃ writer, writeStart plainFormat ⟨Image.blank, 0⟩ [⟨.video, [0]⟩] = .ok writer ∧
      AllSteps (next plainFormat) Steady writer flushFailsOnce ∧
      (run plainFormat writer flushFailsOnce).reports.map (fun report => report.info.range) =
        [⟨8225, 125⟩] ∧
      (Refuses plainFormat (run plainFormat writer flushFailsOnce) ∨
        Sound plainFormat (run plainFormat writer flushFailsOnce)) := by
  refine ⟨_, rfl, by decide +kernel, by decide +kernel, ?_⟩
  apply run_refuses_or_sound ⟨Image.blank, 0⟩ [⟨.video, [0]⟩] rfl flushFailsOnce
  decide +kernel

def seekBackFails : List (Call Nat) :=
  [.writeSample 1 1 (keyframe 0), .flushFragment noFlushFaults,
    .addSampleDescription 1 7 ⟨false, false, none, false, true⟩,
    .writeSample 1 1 (keyframe 1), .flushFragment noFlushFaults]

/-- A registration whose position query fails, the same registration again, a fragment
of the description. -/
def positionFails : List (Call Nat) :=
  [.addSampleDescription 1 7 ⟨true, false, none, false, false⟩,
    .addSampleDescription 1 7 ⟨false, false, none, false, false⟩,
    .writeSample 1 2 (keyframe 0), .flushFragment noFlushFaults]

/-- Both runs get a device error, go on, and end with a writer that still takes fragments.
After the first, the second reported range lies over the first; after the second, the
fragment uses a description that the initialization range does not list. -/
theorem failed_registration_is_not_contained :
    ∃ writer, writeStart plainFormat ⟨Image.blank, 0⟩ [⟨.video, [0]⟩] = .ok writer ∧
      (execute plainFormat (run plainFormat writer (seekBackFails.take 2))
        (.addSampleDescription 1 7 ⟨false, false, none, false, true⟩)).1 = some .device ∧
      ¬Refuses plainFormat (run plainFormat writer seekBackFails) ∧
      ¬Sound plainFormat (run plainFormat writer seekBackFails) ∧
      (execute plainFormat writer
        (.addSampleDescription 1 7 ⟨true, false, none, false, false⟩)).1 = some .device ∧
      ¬Refuses plainFormat (run plainFormat writer positionFails) ∧
      ¬Sound plainFormat (run plainFormat writer positionFails) := by
  refine ⟨_, rfl, by decide +kernel, ?_, ?_, by decide +kernel, ?_, ?_⟩
  · intro refuses
    have refused := refuses [] (.flushFragment noFlushFaults) (by decide)
    revert refused
    decide +kernel
  · intro sound
    have apart := sound.apart
    revert apart
    decide +kernel
  · intro refuses
    have refused := refuses [] (.flushFragment noFlushFaults) (by decide)
    revert refused
    decide +kernel
  · intro sound
    have reported := sound.reported
    revert reported
    decide +kernel

end KeepPeek.Mp4.FragmentedMp4Writer
