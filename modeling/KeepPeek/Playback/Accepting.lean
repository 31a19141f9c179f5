import KeepPeek.Playback.Groups

/-! When the container takes every sample of an export: a sample has to fit its
track, follow the last one there closely, keep its description unless it is a
keyframe, and what waits has to fit one fragment. -/
namespace KeepPeek.Playback

open Lib
open Mp4 (Sample TrackType FragmentedMp4Writer FragmentTrack Format u32Max)
open Mp4.FragmentedMp4Writer
open MediumTerm (MediaConfig Error)

abbrev Shape := TrackType × List MediaConfig

structure Suits (format : Format MediaConfig) (limit : Nat → Nat) : Prop where
  types : ∀ config, format.mediaConfigTrackType config = config.trackType
  boxes : ∀ number tracks, (format.moof number tracks).length ≤ limit (samplesOf tracks).length

/-- A sample that its track can take. The first track is that of the video. -/
structure Fit (shapes : List Shape) (sample : ExportSample) : Prop where
  positive : sample.sample.duration ≠ 0
  bytes : sample.sample.bytes.length ≤ u32Max
  place : 0 < sample.trackId
  shape : ∃ descriptions, shapes[sample.trackId - 1]? = some (sample.trackType, descriptions) ∧
    sample.sampleDescription ∈ descriptions ∧ descriptions.length ≤ u32Max
  type : sample.sampleDescription.trackType = sample.trackType
  video : sample.trackType = .video ↔ sample.trackId = 1

def ExportSample.isKeyframe (sample : ExportSample) : Bool :=
  sample.trackType = .video && sample.sample.isSync

structure Follows (last : Option ExportSample) (sample : ExportSample) : Prop where
  later : ∀ previous ∈ last, previous.start < sample.start
  first : sample.trackType = .video → last = none → sample.sample.isSync
  close : sample.isKeyframe = false → ∀ previous ∈ last,
    previous.sampleDescription = sample.sampleDescription ∧ sample.start ≤ previous.start + u32Max

def Number (descriptions : List MediaConfig) (description : MediaConfig) (index : Nat) : Prop :=
  descriptions.findIdx? (fun existing => existing = description) = some (index - 1) ∧ 0 < index

theorem Number.unique {descriptions : List MediaConfig} {description : MediaConfig}
    {left right : Nat} (hl : Number descriptions description left)
    (hr : Number descriptions description right) : left = right := by
  have same := hl.1.symm.trans hr.1
  have := hl.2
  have := hr.2
  rw [Option.some.injEq] at same
  omega

/-- A track that waits for the sample after the last one. -/
structure Awaits (last : Option ExportSample) (track : FragmentTrack MediaConfig) : Prop where
  counted : track.sampleDescriptionCount = track.sampleDescriptions.length
  none : track.samples = [] → track.pendingSampleDescriptionIndex = none
  some : ∀ sample ∈ track.samples.getLast?, ∃ previous ∈ last, previous.start = sample.startTime ∧
    ∃ index ∈ track.pendingSampleDescriptionIndex,
      Number track.sampleDescriptions previous.sampleDescription index

/-- The output is ready for the samples that follow the last ones. -/
structure Ready (shapes : List Shape) (last : Nat → Option ExportSample) (output : Output) :
    Prop where
  safe : output.writer.poisoned = false
  shapes : output.writer.tracks.map (fun track => (track.trackType,
    track.sampleDescriptions)) = shapes
  awaits : ∀ trackId track, output.writer.track trackId = some track → Awaits (last trackId) track
  video : ∀ track, output.writer.track 1 = some track → (last 1).isSome → track.samples ≠ []
  unbegun : output.pendingVideo = false → last 1 = none

theorem Awaits.cleared {last : Option ExportSample} {track : FragmentTrack MediaConfig}
    (awaits : Awaits last track) (other : Option ExportSample) :
    Awaits other (clearSamples track) :=
  ⟨awaits.counted, fun _ => rfl, nofun⟩

theorem track_of_shapes {w : FragmentedMp4Writer MediaConfig} {shapes : List Shape}
    (same : w.tracks.map (fun track => (track.trackType, track.sampleDescriptions)) = shapes)
    {t : Nat} {shape : Shape} (place : 0 < t)
    (h : shapes[t - 1]? = some shape) :
    ∃ track, w.track t = some track ∧ track.trackType = shape.1 ∧
      track.sampleDescriptions = shape.2 := by
  rw [← same, List.getElem?_map] at h
  obtain ⟨track, held, same⟩ := Option.map_eq_some_iff.mp h
  refine ⟨track, ?_, congrArg Prod.fst same, congrArg Prod.snd same⟩
  unfold FragmentedMp4Writer.track
  rw [if_neg (by omega)]
  exact held

section Step

variable {f : Format MediaConfig} {limit : Nat → Nat} {shapes : List Shape}
  {last : Nat → Option ExportSample} {o : Output} {x : ExportSample}
variable {track : FragmentTrack MediaConfig}

def Cleared (shapes : List Shape) (output : Output) : Prop :=
  output.writer.poisoned = false ∧
    output.writer.tracks.map (fun track => (track.trackType, track.sampleDescriptions)) = shapes ∧
    ∀ trackId track, output.writer.track trackId = some track →
      track.samples = [] ∧ ∀ last, Awaits last track

theorem Ready.flushFragment (suits : Suits f limit) (ready : Ready shapes last o)
    (room : Room limit o.writer) :
    ∃ after, o.flushFragment f = .ok after ∧ Cleared shapes after := by
  obtain ⟨fragment, writer, flushed, safe⟩ :=
    flushFragment_of_room suits.boxes ready.safe room
  refine ⟨{ o with writer, fragments := o.fragments ++ [o.writer.pendingTracks] }, ?_, safe, ?_⟩
  · unfold Output.flushFragment Output.faultless
    rw [flushed]
  rcases flushFragment_eq_ok flushed with ⟨none, _, rfl⟩ | ⟨_, _, tracks⟩
  · refine ⟨ready.shapes, ?_⟩
    intro trackId track found
    have empty := samples_eq_nil none found
    have awaits := ready.awaits trackId track found
    exact ⟨empty, fun other => ⟨awaits.counted, awaits.none, by rw [empty]; nofun⟩⟩
  · constructor
    · dsimp only
      rw [tracks, ← ready.shapes]
      unfold FragmentedMp4Writer.discardPendingSamples
      rw [List.map_map]
      rfl
    · intro trackId track found
      dsimp only at found
      rw [track_congr tracks, track_discardPendingSamples] at found
      obtain ⟨before, held, rfl⟩ := Option.map_eq_some_iff.mp found
      exact ⟨rfl, fun other => (ready.awaits trackId before held).cleared other⟩

theorem addSampleDescription_known (suits : Suits f limit)
    {w : FragmentedMp4Writer MediaConfig} {t : Nat} {cfg : MediaConfig}
    (safe : w.poisoned = false) (found : w.track t = some track)
    (type : cfg.trackType = track.trackType) (known : cfg ∈ track.sampleDescriptions)
    (few : track.sampleDescriptions.length ≤ u32Max) :
    ∃ index, w.addSampleDescription f t cfg Output.addFaultless =
        (.ok index, w) ∧ Number track.sampleDescriptions cfg index ∧
      index ≤ track.sampleDescriptions.length := by
  obtain ⟨place, held⟩ : ∃ place,
      track.sampleDescriptions.findIdx? (fun existing => existing = cfg) = some place := by
    apply Option.isSome_iff_exists.mp
    rw [List.findIdx?_isSome, List.any_eq_true]
    exact ⟨cfg, known, by simp⟩
  have inside := (List.findIdx?_eq_some_iff_getElem.mp held).1
  refine ⟨place + 1, ?_, ⟨held, Nat.succ_pos place⟩, inside⟩
  unfold FragmentedMp4Writer.addSampleDescription
  rw [safe, found]
  simp only [Bool.false_eq_true, if_false]
  rw [suits.types, type, if_neg (fun h => h rfl), held]
  dsimp only
  rw [if_pos (by omega)]

/-- The output before a sample is written: its track can take it. -/
structure Open (shapes : List Shape) (last : Nat → Option ExportSample) (sample : ExportSample)
    (output : Output) : Prop where
  safe : output.writer.poisoned = false
  shapes : output.writer.tracks.map (fun track => (track.trackType,
    track.sampleDescriptions)) = shapes
  awaits : ∀ trackId track, output.writer.track trackId = some track →
    Awaits (if sample.isKeyframe ∧ trackId = 1 then none else last trackId) track
  video : sample.isKeyframe = false → ∀ track, output.writer.track 1 = some track →
    (last 1).isSome → track.samples ≠ []
  begun : (sample.isKeyframe ∨ (last 1).isSome) → output.pendingVideo = true
  few : ∀ trackId track, output.writer.track trackId = some track → track.samples.length < u32Max

theorem Ready.beginGroup (suits : Suits f limit) (ready : Ready shapes last o)
    (room : Room limit o.writer) :
    ∃ after, o.beginGroup f x = .ok after ∧ Open shapes last x after := by
  have few : ∀ trackId track, o.writer.track trackId = some track →
      track.samples.length < u32Max := fun trackId track found => room.few_of_track found
  unfold Output.beginGroup
  by_cases key : x.isKeyframe
  · have test : (decide (x.trackType = .video) && x.sample.isSync) = true := key
    rw [if_pos test]
    cases begun : o.pendingVideo with
    | true =>
      obtain ⟨after, flushed, safe, kept, cleared⟩ := ready.flushFragment suits room
      rw [if_pos rfl, flushed]
      refine ⟨_, rfl, safe, kept, ?_, ?_, fun _ => rfl, ?_⟩
      · intro trackId track found
        exact (cleared trackId track found).2 _
      · intro delta
        rw [key] at delta
        cases delta
      · intro trackId track found
        rw [(cleared trackId track found).1]
        decide
    | false =>
      have unbegun := ready.unbegun begun
      rw [if_neg Bool.false_ne_true]
      refine ⟨_, rfl, ready.safe, ready.shapes, ?_, ?_, fun _ => rfl, few⟩
      · intro trackId track found
        have awaits := ready.awaits trackId track found
        by_cases first : trackId = 1
        · rw [if_pos ⟨key, first⟩]
          rw [first, unbegun] at awaits
          exact awaits
        · rw [if_neg (fun h => first h.2)]
          exact awaits
      · intro delta
        rw [key] at delta
        cases delta
  · have test : ¬(decide (x.trackType = .video) && x.sample.isSync) = true := key
    rw [if_neg test]
    refine ⟨o, rfl, ready.safe, ready.shapes, ?_, fun _ => ready.video, ?_, few⟩
    · intro trackId track found
      rw [if_neg (fun h => key h.1)]
      exact ready.awaits trackId track found
    · rintro (contradictory | some)
      · exact absurd contradictory key
      · by_contra unbegun
        rw [ready.unbegun (by simpa using unbegun)] at some
        cases some

def following (last : Nat → Option ExportSample) (sample : ExportSample) :
    Nat → Option ExportSample :=
  fun trackId => if trackId = sample.trackId then some sample else last trackId

theorem trackId_of_isKeyframe (fit : Fit shapes x) (key : x.isKeyframe) : x.trackId = 1 := by
  unfold ExportSample.isKeyframe at key
  rw [Bool.and_eq_true, decide_eq_true_eq] at key
  exact fit.video.mp key.1

theorem Open.previous (opened : Open shapes last x o) (fit : Fit shapes x)
    (found : o.writer.track x.trackId = some track) {waiting : Sample}
    (held : waiting ∈ track.samples.getLast?) :
    x.isKeyframe = false ∧ ∃ previous ∈ last x.trackId,
      previous.start = waiting.startTime ∧ ∃ index ∈ track.pendingSampleDescriptionIndex,
        Number track.sampleDescriptions previous.sampleDescription index := by
  obtain ⟨previous, previous_held, rest⟩ := (opened.awaits _ _ found).some waiting held
  by_cases key : x.isKeyframe
  · rw [if_pos ⟨key, trackId_of_isKeyframe fit key⟩] at previous_held
    cases previous_held
  · rw [if_neg (fun h => key h.1)] at previous_held
    exact ⟨by simpa using key, previous, previous_held, rest⟩

theorem Open.writeSample (opened : Open shapes last x o) (fit : Fit shapes x)
    (follows : Follows (last x.trackId) x)
    (found : o.writer.track x.trackId = some track)
    (type : track.trackType = x.trackType) {index : Nat}
    (number : Number track.sampleDescriptions x.sampleDescription index)
    (inside : index ≤ track.sampleDescriptions.length) :
    ∃ samples, o.writer.writeSampleWithDescription x.trackId index x.sample =
      (.ok (), o.writer.setTrack x.trackId { track with
        samples := samples ++ [x.sample], pendingSampleDescriptionIndex := some index }) := by
  have awaits := opened.awaits _ _ found
  have pending : ∀ other ∈ track.pendingSampleDescriptionIndex, other = index := by
    intro other held
    have some : track.samples ≠ [] := by
      intro none
      rw [awaits.none none] at held
      cases held
    obtain ⟨waiting, waiting_held⟩ := Option.isSome_iff_exists.mp (List.getLast?_isSome.mpr some)
    obtain ⟨delta, previous, previous_held, _, same, same_held, numbered⟩ :=
      opened.previous fit found waiting_held
    have described := (follows.close delta previous previous_held).1
    rw [described] at numbered
    rw [held] at same_held
    cases same_held
    exact numbered.unique number
  have sync : track.trackType = .video → track.samples = [] → x.sample.isSync := by
    intro video none
    rw [type] at video
    by_cases key : x.isKeyframe
    · unfold ExportSample.isKeyframe at key
      rw [Bool.and_eq_true] at key
      exact key.2
    · have first := fit.video.mp video
      apply follows.first video
      by_contra some
      rw [first] at found some
      exact opened.video (by simpa using key) track found (Option.isSome_iff_ne_none.mpr some) none
  have near : ∀ waiting ∈ track.samples.getLast?, waiting.startTime < x.sample.startTime ∧
      x.sample.startTime ≤ waiting.startTime + u32Max := by
    intro waiting held
    obtain ⟨delta, previous, previous_held, same, _⟩ := opened.previous fit found held
    have later := follows.later previous previous_held
    have close := (follows.close delta previous previous_held).2
    unfold ExportSample.start at later close same
    omega
  obtain ⟨samples, _, written⟩ := writeSample_of_follows opened.safe fit.positive fit.bytes found
    ⟨number.2, by rw [awaits.counted]; exact inside⟩ pending sync near (opened.few _ _ found)
  exact ⟨samples, written⟩

theorem Ready.putSample (suits : Suits f limit) (ready : Ready shapes last o)
    (room : Room limit o.writer) (fit : Fit shapes x)
    (follows : Follows (last x.trackId) x) :
    ∃ after, o.putSample f x = .ok after ∧ Ready shapes (following last x) after := by
  obtain ⟨begun, began, opened⟩ : ∃ after, o.beginGroup f x = .ok after ∧
      Open shapes last x after := ready.beginGroup suits room
  obtain ⟨descriptions, shape, known, few⟩ := fit.shape
  obtain ⟨track, found, type, listed⟩ := track_of_shapes opened.shapes fit.place shape
  dsimp only at type listed
  rw [← listed] at known few
  obtain ⟨index, added, number, inside⟩ := addSampleDescription_known suits opened.safe found
    (fit.type.trans type.symm) known few
  obtain ⟨samples, written⟩ := opened.writeSample fit follows found type number inside
  refine ⟨{ begun with
    writer := begun.writer.setTrack x.trackId { track with
      samples := samples ++ [x.sample], pendingSampleDescriptionIndex := some index }
    taken := begun.taken ++ [x] }, ?_, opened.safe, ?_, ?_, ?_, ?_⟩
  · unfold Output.putSample Output.addSampleDescription Output.writeSample
    rw [began]
    simp only [Except.bind, added, written]
  · refine Eq.trans (map_setTrack _ found ?_) opened.shapes
    rfl
  · intro trackId other held
    dsimp only at held
    by_cases own : trackId = x.trackId
    · rw [own, track_setTrack_self found] at held
      cases held
      refine ⟨(opened.awaits _ _ found).counted, ?_, ?_⟩
      · intro none
        simp at none
      · intro waiting waiting_held
        rw [List.getLast?_concat] at waiting_held
        cases waiting_held
        refine ⟨x, ?_, rfl, index, rfl, number⟩
        unfold following
        rw [if_pos own]
        rfl
    · rw [track_setTrack_of_ne fit.place own] at held
      have awaits := opened.awaits _ _ held
      rw [if_neg (fun h => own (h.2.trans (trackId_of_isKeyframe fit h.1).symm))] at awaits
      unfold following
      rw [if_neg own]
      exact awaits
  · intro other held some
    dsimp only at held
    by_cases own : 1 = x.trackId
    · rw [own, track_setTrack_self found] at held
      cases held
      simp
    · rw [track_setTrack_of_ne fit.place own] at held
      unfold following at some
      rw [if_neg own] at some
      refine opened.video ?_ other held some
      by_contra key
      exact own (trackId_of_isKeyframe fit (by simpa using key)).symm
  · intro unbegun
    dsimp only at unbegun
    by_contra some
    have begins : x.isKeyframe ∨ (last 1).isSome := by
      by_cases own : 1 = x.trackId
      · by_contra neither
        rw [not_or] at neither
        have none : last x.trackId = none := by
          rw [← own]
          simpa using neither.2
        have video := fit.video.mpr own.symm
        have sync := follows.first video none
        exact neither.1 (by simp [ExportSample.isKeyframe, video, sync])
      · unfold following at some
        rw [if_neg own] at some
        exact .inr (Option.isSome_iff_ne_none.mpr some)
    rw [opened.begun begins] at unbegun
    cases unbegun

end Step

/-! Runs. -/

section Runs

variable {f : Format MediaConfig} {limit : Nat → Nat} {shapes : List Shape}
variable {sample : ExportSample} {samples : List ExportSample} {output : Output}

/-- Samples of one track that are taken one after the other, those apart that do not
rise. -/
def AcceptableOn (shapes : List Shape) : Option ExportSample → List ExportSample → Prop
  | _, [] => True
  | last, sample :: rest =>
    if Above (last.map ExportSample.start) sample.start then
      Fit shapes sample ∧ Follows last sample ∧ AcceptableOn shapes (some sample) rest
    else AcceptableOn shapes last rest

def Acceptable (shapes : List Shape) : (Nat → Option ExportSample) → List ExportSample → Prop
  | _, [] => True
  | last, sample :: rest =>
    if Above ((last sample.trackId).map ExportSample.start) sample.start then
      Fit shapes sample ∧ Follows (last sample.trackId) sample ∧
        Acceptable shapes (following last sample) rest
    else Acceptable shapes last rest

theorem ofTrack_cons_self (x : ExportSample) (rest : List ExportSample) :
    ofTrack x.trackId (x :: rest) = x :: ofTrack x.trackId rest := by
  unfold ofTrack
  rw [List.filter_cons_of_pos (by simp)]

theorem ofTrack_cons_of_ne {t : Nat} (h : sample.trackId ≠ t)
    (rest : List ExportSample) : ofTrack t (sample :: rest) = ofTrack t rest := by
  unfold ofTrack
  rw [List.filter_cons_of_neg (by simpa using h)]

theorem acceptable_of_tracks {last : Nat → Option ExportSample}
    (tracks : ∀ trackId, AcceptableOn shapes (last trackId) (ofTrack trackId samples)) :
    Acceptable shapes last samples := by
  induction samples generalizing last with
  | nil => trivial
  | cons sample rest ih =>
    have own := tracks sample.trackId
    rw [ofTrack_cons_self] at own
    unfold AcceptableOn at own
    unfold Acceptable
    split
    · rename_i above
      rw [if_pos above] at own
      refine ⟨own.1, own.2.1, ih fun trackId => ?_⟩
      unfold following
      by_cases same : trackId = sample.trackId
      · rw [if_pos same, same]
        exact own.2.2
      · rw [if_neg same, ← ofTrack_cons_of_ne (fun h => same h.symm)]
        exact tracks trackId
    · rename_i low
      rw [if_neg low] at own
      refine ih fun trackId => ?_
      by_cases same : trackId = sample.trackId
      · rw [same]
        exact own
      · rw [← ofTrack_cons_of_ne (fun h => same h.symm)]
        exact tracks trackId

/-- Whatever the samples so far, what waits fits one fragment. -/
def Roomy (limit : Nat → Nat) (step : Output → ExportSample → Except Error Output) (output : Output)
    (samples : List ExportSample) : Prop :=
  ∀ front back reached, samples = front ++ back → front.foldlM step output = .ok reached →
    Room limit reached.writer

section Roomy

variable {step : Output → ExportSample → Except Error Output} {o after : Output}
  {x : ExportSample} {xs : List ExportSample}

theorem Roomy.room (roomy : Roomy limit step o xs) : Room limit o.writer :=
  roomy [] xs o rfl rfl

theorem Roomy.next (roomy : Roomy limit step o (x :: xs))
    (taken : step o x = .ok after) : Roomy limit step after xs := by
  intro front back reached split run
  refine roomy (x :: front) back reached (by rw [split, List.cons_append]) ?_
  rw [foldlM_cons_of_ok taken]
  exact run

theorem Roomy.last (roomy : Roomy limit step o xs)
    (taken : xs.foldlM step o = .ok after) : Room limit after.writer :=
  roomy xs [] after (List.append_nil _).symm taken

end Roomy

theorem takeSample_of_not_above (h : ¬Above (output.lastSampleStart sample.trackId) sample.start) :
    output.takeSample f sample = .ok output := by
  unfold Output.takeSample
  rw [if_pos]
  unfold Above at h
  push Not at h
  obtain ⟨previous, held, high⟩ := h
  rw [Option.mem_def.mp held]
  unfold ExportSample.start at high
  simpa using high

theorem takeSample_of_above (h : Above (output.lastSampleStart sample.trackId) sample.start) :
    output.takeSample f sample =
      (output.putSample f sample).map fun output => output.advance sample := by
  unfold Output.takeSample
  rw [if_neg]
  intro late
  obtain ⟨previous, held, le⟩ := Option.any_eq_true _ _ |>.mp late
  have := h previous held
  unfold ExportSample.start at this
  simp only [decide_eq_true_eq] at le
  omega

theorem Ready.takeSamples (suits : Suits f limit) {last : Nat → Option ExportSample}
    (ready : Ready shapes last output)
    (starts : ∀ trackId, output.lastSampleStart trackId = (last trackId).map ExportSample.start)
    (acceptable : Acceptable shapes last samples)
    (roomy : Roomy limit (Output.takeSample f) output samples) :
    ∃ after, samples.foldlM (Output.takeSample f) output = .ok after ∧
      ∃ last, Ready shapes last after := by
  induction samples generalizing last output with
  | nil => exact ⟨output, rfl, last, ready⟩
  | cons sample rest ih =>
    unfold Acceptable at acceptable
    by_cases above : Above ((last sample.trackId).map ExportSample.start) sample.start
    · rw [if_pos above] at acceptable
      obtain ⟨fit, follows, acceptable⟩ := acceptable
      obtain ⟨written, put, next⟩ := ready.putSample suits roomy.room fit follows
      have taken : output.takeSample f sample = .ok (written.advance sample) := by
        rw [takeSample_of_above (by rw [starts]; exact above), put]
        rfl
      rw [foldlM_cons_of_ok taken]
      refine ih ⟨next.safe, next.shapes, next.awaits, next.video, next.unbegun⟩ ?_ acceptable
        (roomy.next taken)
      intro trackId
      unfold Output.advance following
      dsimp only
      rw [Output.putSample_lastSampleStart put, starts]
      split
      · rfl
      · rfl
    · rw [if_neg above] at acceptable
      have taken : output.takeSample f sample = .ok output :=
        takeSample_of_not_above (by rw [starts]; exact above)
      rw [foldlM_cons_of_ok taken]
      exact ih ready starts acceptable (roomy.next taken)

theorem Ready.putSamples (suits : Suits f limit) {last : Nat → Option ExportSample}
    (ready : Ready shapes last output)
    (rising : ∀ trackId, (ofTrack trackId samples).Pairwise (fun left right =>
      left.start < right.start) ∧ ∀ sample ∈ ofTrack trackId samples,
        Above ((last trackId).map ExportSample.start) sample.start)
    (acceptable : Acceptable shapes last samples)
    (roomy : Roomy limit (Output.putSample f) output samples) :
    ∃ after, samples.foldlM (Output.putSample f) output = .ok after ∧
      ∃ last, Ready shapes last after := by
  induction samples generalizing last output with
  | nil => exact ⟨output, rfl, last, ready⟩
  | cons sample rest ih =>
    have own := rising sample.trackId
    rw [ofTrack_cons_self] at own
    have above := own.2 sample List.mem_cons_self
    unfold Acceptable at acceptable
    rw [if_pos above] at acceptable
    obtain ⟨fit, follows, acceptable⟩ := acceptable
    obtain ⟨written, put, next⟩ := ready.putSample suits roomy.room fit follows
    rw [foldlM_cons_of_ok put]
    refine ih next ?_ acceptable (roomy.next put)
    intro trackId
    unfold following
    by_cases same : trackId = sample.trackId
    · obtain ⟨first, ordered⟩ := List.pairwise_cons.mp own.1
      rw [if_pos same, same]
      exact ⟨ordered, fun other mem => above_some.mpr (first other mem)⟩
    · rw [if_neg same]
      have others := rising trackId
      rw [ofTrack_cons_of_ne (fun h => same h.symm)] at others
      exact others

theorem acceptableOn_of_chain {last : Option ExportSample}
    (fits : ∀ sample ∈ samples, Fit shapes sample)
    (chain : (last.toList ++ samples).IsChain fun previous next => Follows (some previous) next)
    (first : last = none → ∀ sample ∈ samples.head?, sample.trackType = .video →
      sample.sample.isSync) :
    AcceptableOn shapes last samples := by
  induction samples generalizing last with
  | nil => trivial
  | cons sample rest ih =>
    have follows : Follows last sample := by
      cases last with
      | none => exact ⟨nofun, fun video _ => first rfl sample rfl video, fun _ _ h => by cases h⟩
      | some previous => exact (List.isChain_cons_cons.mp chain).1
    have above : Above (last.map ExportSample.start) sample.start := by
      intro start held
      obtain ⟨previous, previous_held, rfl⟩ := Option.map_eq_some_iff.mp held
      exact follows.later previous previous_held
    unfold AcceptableOn
    rw [if_pos above]
    refine ⟨fits sample List.mem_cons_self, follows,
      ih (fun other mem => fits other (List.mem_cons_of_mem _ mem)) ?_ nofun⟩
    cases last with
    | none => exact chain
    | some previous => exact (List.isChain_cons_cons.mp chain).2

theorem acceptableOn_of_near {last : Option ExportSample}
    (fits : ∀ sample ∈ samples, Fit shapes sample)
    (sound : ∀ sample ∈ samples, sample.trackType ≠ .video)
    (near : ∀ previous ∈ last.toList ++ samples, ∀ sample ∈ samples, previous.sampleDescription =
      sample.sampleDescription ∧ sample.start ≤ previous.start + u32Max) :
    AcceptableOn shapes last samples := by
  induction samples generalizing last with
  | nil => trivial
  | cons sample rest ih =>
    have rest_fits := fun other mem => fits other (List.mem_cons_of_mem sample mem)
    have rest_sound := fun other mem => sound other (List.mem_cons_of_mem sample mem)
    unfold AcceptableOn
    split
    · rename_i above
      refine ⟨fits sample List.mem_cons_self, ⟨?_, ?_, ?_⟩, ih rest_fits rest_sound ?_⟩
      · intro previous held
        exact above previous.start (Option.mem_map_of_mem _ held)
      · intro video
        exact absurd video (sound sample List.mem_cons_self)
      · intro _ previous held
        exact near previous (List.mem_append_left _ (Option.mem_toList.mpr held)) sample
          List.mem_cons_self
      · intro previous mem other other_mem
        exact near previous (List.mem_append_right _ mem) other (List.mem_cons_of_mem _ other_mem)
    · refine ih rest_fits rest_sound ?_
      intro previous mem other other_mem
      refine near previous ?_ other (List.mem_cons_of_mem _ other_mem)
      rcases List.mem_append.mp mem with mem | mem
      · exact List.mem_append_left _ mem
      · exact List.mem_append_right _ (List.mem_cons_of_mem _ mem)

end Runs

end KeepPeek.Playback
