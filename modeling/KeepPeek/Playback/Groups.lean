import KeepPeek.Lib.Ascending
import KeepPeek.Playback.Container
import Mathlib.Data.List.Chain
import Mathlib.Data.List.Pairwise
import Mathlib.Data.List.Sort

/-! Whether an export keeps the groups of pictures whole.

Of a recording the export writes the selected samples that start after everything
written before them. A picture is shown with its reference when the sample before
it in its recording was selected too and starts late enough itself. -/
namespace KeepPeek.Playback

open Lib
open Mp4 (Sample FragmentedMp4Writer Format)
open MediumTerm (MediaConfig Error)
open ExportSample

variable {trackId : Nat} {Location : Type}

def ExportSample.start (sample : ExportSample) : Nat := sample.sample.startTime

def ofTrack (trackId : Nat) (samples : List ExportSample) : List ExportSample :=
  samples.filter fun sample => sample.trackId = trackId

def ExportSample.Precedes (sample next : ExportSample) : Prop :=
  sample.recording = next.recording ∧ sample.index + 1 = next.index

instance (sample next : ExportSample) : Decidable (sample.Precedes next) :=
  inferInstanceAs (Decidable (_ ∧ _))

/-- Every sample that is no keyframe directly follows the one before it in its
recording. -/
def UnbrokenFrom : Option ExportSample → List ExportSample → Prop
  | _, [] => True
  | previous, sample :: rest =>
    (sample.sample.isSync = false → ∃ reference ∈ previous, reference.Precedes sample) ∧
      UnbrokenFrom (some sample) rest

def Unbroken (samples : List ExportSample) : Prop := UnbrokenFrom none samples

def ExportSample.Past (sample : ExportSample) (others : List ExportSample) : Prop :=
  ∀ other ∈ others, other.start < sample.start

def After (trackId : Nat) (earlier : List (List ExportSample)) (sample : ExportSample) : Prop :=
  ∀ group ∈ earlier, sample.Past (ofTrack trackId group)

/-- A selected picture that refers to another one and starts after all before it, in
the order of the export, finds its reference before it: that one starts after all
before it, too, and nothing between the two starts later than the reference. -/
def Leads (trackId : Nat) (order : Order Location) (groups : List (List ExportSample)) : Prop :=
  ∀ earlier group later, groups = earlier ++ group :: later →
    ∀ front sample back, ofTrack trackId (order.samples group) = front ++ sample :: back →
      sample.sample.isSync = false → After trackId earlier sample → sample.Past front →
        ∃ early reference between, front = early ++ reference :: between ∧
          reference.index + 1 = sample.index ∧ After trackId earlier reference ∧
          reference.Past early ∧ ∀ other ∈ between, other.start ≤ reference.start

theorem ofTrack_append (t : Nat) (front back : List ExportSample) :
    ofTrack t (front ++ back) = ofTrack t front ++ ofTrack t back :=
  List.filter_append ..

theorem mem_ofTrack {xs : List ExportSample} {x : ExportSample} :
    x ∈ ofTrack trackId xs ↔ x ∈ xs ∧ x.trackId = trackId := by
  unfold ofTrack
  rw [List.mem_filter, decide_eq_true_eq]

/-! What is written. -/

section Written

variable {f : Format MediaConfig} {o after : Output}

/-- The file carries what was taken, and that is what rises of the samples offered. -/
structure Wrote (output : Output) (offered : List ExportSample) (after : Output) : Prop where
  carries : after.Carries
  taken : ∀ trackId, after.takenOf trackId = output.takenOf trackId ++
    ascend start (output.lastSampleStart trackId) (ofTrack trackId offered)
  last : ∀ trackId, after.lastSampleStart trackId =
    ascended start (output.lastSampleStart trackId) (ofTrack trackId offered)

theorem Wrote.nil (carries : o.Carries) : Wrote o [] o :=
  ⟨carries, fun _ => (List.append_nil _).symm, fun _ => rfl⟩

theorem Wrote.trans {between : Output} {front back : List ExportSample}
    (first : Wrote o front between) (second : Wrote between back after) :
    Wrote o (front ++ back) after := by
  refine ⟨second.carries, fun trackId => ?_, fun trackId => ?_⟩
  · rw [second.taken, first.taken, first.last, ofTrack_append, ascend_append, List.append_assoc]
  · rw [second.last, first.last, ofTrack_append, ascended_append]

theorem takeSample_wrote {x : ExportSample} (carries : o.Carries)
    (h : o.takeSample f x = .ok after) : Wrote o [x] after := by
  unfold Output.takeSample at h
  split at h
  · rename_i late
    cases h
    have low : ¬Above (o.lastSampleStart x.trackId) x.start := by
      intro above
      obtain ⟨previous, held, le⟩ := Option.any_eq_true _ _ |>.mp late
      have := above previous held
      unfold start at this
      simp only [decide_eq_true_eq] at le
      omega
    refine ⟨carries, fun trackId => ?_, fun trackId => ?_⟩
    · by_cases own : x.trackId = trackId
      · subst own
        simp [ofTrack, ascend, low]
      · simp [ofTrack, ascend, own]
    · by_cases own : x.trackId = trackId
      · subst own
        simp [ofTrack, ascended, low]
      · simp [ofTrack, ascended, own]
  · rename_i early
    obtain ⟨written, put, rfl⟩ := map_eq_ok h
    obtain ⟨carries, taken⟩ := Output.putSample_carries carries put
    have last := Output.putSample_lastSampleStart put
    have high : Above (o.lastSampleStart x.trackId) x.start := by
      intro previous held
      rw [Option.mem_def.mp held] at early
      simpa [start] using early
    refine ⟨⟨carries.numbered, carries.content⟩, fun trackId => ?_, fun trackId => ?_⟩
    · have appended : (written.advance x).takenOf trackId =
          o.takenOf trackId ++ ofTrack trackId [x] := by
        unfold Output.takenOf Output.advance ofTrack
        rw [taken, List.filter_append]
      rw [appended]
      by_cases own : x.trackId = trackId
      · subst own
        simp [ofTrack, ascend, high]
      · simp [ofTrack, ascend, own]
    · unfold Output.advance
      dsimp only
      rw [last]
      by_cases own : x.trackId = trackId
      · subst own
        simp only [ofTrack, List.filter_cons, decide_true, if_true, List.filter_nil, ascended,
          if_pos high]
        rfl
      · have other : trackId ≠ x.trackId := fun h => own h.symm
        simp [ofTrack, ascended, own, other]

theorem takeSamples_wrote {xs : List ExportSample} (carries : o.Carries)
    (h : xs.foldlM (Output.takeSample f) o = .ok after) :
    Wrote o xs after := by
  induction xs generalizing o with
  | nil =>
    cases h
    exact .nil carries
  | cons sample rest ih =>
    obtain ⟨between, first, h⟩ := foldlM_cons_eq_ok h
    have wrote := takeSample_wrote carries first
    exact wrote.trans (ih wrote.carries h)

theorem writeAll_wrote {Location : Type} {order : Order Location}
    {groups : List (List ExportSample)} (carries : o.Carries)
    (h : writeAll f order o groups = .ok after) :
    Wrote o (groups.flatMap order.samples) after := by
  unfold writeAll at h
  induction groups generalizing o with
  | nil =>
    cases h
    exact .nil carries
  | cons group rest ih =>
    obtain ⟨between, first, h⟩ := foldlM_cons_eq_ok h
    have wrote := takeSamples_wrote carries first
    rw [List.flatMap_cons]
    exact wrote.trans (ih wrote.carries h)

theorem start_carries {tracks : List PlaybackTrack} (h : Output.start f tracks = .ok o) :
    o.Carries ∧ o.taken = [] ∧ ∀ trackId, o.lastSampleStart trackId = none := by
  unfold Output.start at h
  split at h
  · cases h
  split at h
  · cases h
  split at h
  · cases h
  rename_i writer started
  cases h
  have empty : ∀ trackId, Output.waiting writer trackId = [] :=
    Output.waiting_of_not_pending (FragmentedMp4Writer.hasPendingSamples_of_start
      (FragmentedMp4Writer.writeStart_tracks started))
  refine ⟨⟨Output.numbered_of_waiting empty, fun trackId => ?_⟩, rfl, fun _ => rfl⟩
  dsimp only
  rw [empty trackId]
  rfl

end Written

/-! What is selected of a recording. -/

section Selected

variable {Location : Type} {r : ExportRecording Location} {number : Nat}
  {alignedStartMs : Int} {t : Nat} {track : PlaybackTrack}
variable {xs : List ExportSample}

def ExportSample.ReadFrom (recording : ExportRecording Location) (number : Nat)
    (alignedStartMs : Int) (timescale : Nat) (sample : ExportSample) : Prop :=
  sample.recording = number ∧ ∃ ticks : Nat,
    sample.absoluteMs = Playback.absoluteMs recording.startedAtMs timescale ticks ∧
      (sample.start : Int) = recording.originTicks alignedStartMs timescale + ticks

theorem absoluteMs_mono (startedAtMs : Int) (timescale : Nat) {early late : Nat}
    (h : early ≤ late) :
    absoluteMs startedAtMs timescale early ≤ absoluteMs startedAtMs timescale late := by
  have scaled : saturatingMul early 1000 / timescale ≤ saturatingMul late 1000 / timescale := by
    apply Nat.div_le_div_right
    unfold saturatingMul
    omega
  unfold absoluteMs
  omega

theorem ExportSample.ReadFrom.start_lt {timescale : Nat} {left right : ExportSample}
    (hl : left.ReadFrom r number alignedStartMs timescale)
    (hr : right.ReadFrom r number alignedStartMs timescale)
    (h : left.absoluteMs < right.absoluteMs) : left.start < right.start := by
  obtain ⟨_, early, early_ms, early_start⟩ := hl
  obtain ⟨_, late, late_ms, late_start⟩ := hr
  by_contra reversed
  have := absoluteMs_mono r.startedAtMs timescale (show late ≤ early by omega)
  omega

theorem collectSample_eq_ok {index : Nat} {read : Nat × Sample} {taken : Option ExportSample}
    (h : r.collectSample number alignedStartMs t track index read = .ok taken) :
    ∀ sample ∈ taken, sample.trackId = t ∧ sample.index = index ∧
      sample.ReadFrom r number alignedStartMs track.timescale := by
  unfold ExportRecording.collectSample at h
  obtain ⟨description, _, h⟩ := bind_eq_ok h
  split at h
  · cases h
    nofun
  split at h
  · split at h
    · cases h
      nofun
    · cases h
  · rename_i start placed
    cases h
    intro sample mem
    cases mem
    refine ⟨rfl, rfl, rfl, read.2.startTime, rfl, ?_⟩
    unfold ExportRecording.normalizedStart at placed
    dsimp only at placed
    split at placed
    · rename_i fits
      cases placed
      exact Int.toNat_of_nonneg fits.1
    · cases placed

theorem collectFrom_eq_ok {index : Nat} {reads : List (Nat × Sample)}
    (h : r.collectFrom number alignedStartMs t track index reads = .ok xs) :
    ∀ sample ∈ xs, sample.trackId = t ∧
      sample.ReadFrom r number alignedStartMs track.timescale := by
  induction reads generalizing index xs with
  | nil =>
    cases h
    nofun
  | cons read rest ih =>
    unfold ExportRecording.collectFrom at h
    obtain ⟨taken, first, h⟩ := bind_eq_ok h
    obtain ⟨more, others, rfl⟩ := map_eq_ok h
    intro sample mem
    rcases List.mem_append.mp mem with mem | mem
    · obtain ⟨own, _, from_track⟩ := collectSample_eq_ok first sample (Option.mem_toList.mp mem)
      exact ⟨own, from_track⟩
    · exact ih others sample mem

theorem ofTrack_eq_nil (h : ∀ sample ∈ xs, sample.trackId ≠ t) : ofTrack t xs = [] := by
  unfold ofTrack
  rw [List.filter_eq_nil_iff]
  intro sample mem
  simpa using h sample mem

theorem ofTrack_eq_self (h : ∀ sample ∈ xs, sample.trackId = t) : ofTrack t xs = xs := by
  unfold ofTrack
  rw [List.filter_eq_self]
  intro sample mem
  simpa using h sample mem

theorem collectTracks_eq_ok {index : Nat} {tracks : List PlaybackTrack}
    (h : r.collectTracks number alignedStartMs index tracks = .ok xs) :
    ∀ sample ∈ xs, sample.recording = number := by
  induction tracks generalizing index xs with
  | nil =>
    cases h
    nofun
  | cons track rest ih =>
    unfold ExportRecording.collectTracks at h
    obtain ⟨first, collected, h⟩ := bind_eq_ok h
    obtain ⟨more, others, rfl⟩ := map_eq_ok h
    intro sample mem
    rcases List.mem_append.mp mem with mem | mem
    · exact (collectFrom_eq_ok collected sample mem).2.1
    · exact ih others sample mem

def Numbered : Nat → List (List ExportSample) → Prop
  | _, [] => True
  | number, group :: rest =>
    (∀ sample ∈ group, sample.recording = number) ∧ Numbered (number + 1) rest

theorem collectAll_numbered {read : Location → Except Error (List SourceTrack)}
    {indexes : List Nat} {reference : List PlaybackTrack}
    {recordings : List (ExportRecording Location)} {groups : List (List ExportSample)}
    (h : collectAll read alignedStartMs indexes reference number recordings = .ok groups) :
    Numbered number groups := by
  induction recordings generalizing number groups with
  | nil =>
    cases h
    trivial
  | cons r rest ih =>
    unfold collectAll at h
    obtain ⟨tracks, _, h⟩ := bind_eq_ok h
    obtain ⟨xs, collected, h⟩ := bind_eq_ok h
    obtain ⟨more, others, rfl⟩ := map_eq_ok h
    exact ⟨collectTracks_eq_ok collected, ih others⟩

theorem footage_numbered {read : Location → Except Error (List SourceTrack)}
    {recordings : List (ExportRecording Location)} {tracks : List PlaybackTrack}
    {groups : List (List ExportSample)}
    (found : footage read recordings alignedStartMs = .ok (tracks, groups)) :
    Numbered 0 groups := by
  unfold footage at found
  split at found
  · cases found
  obtain ⟨reference, _, found⟩ := bind_eq_ok found
  obtain ⟨indexes, _, found⟩ := bind_eq_ok found
  obtain ⟨_, collected, same⟩ := map_eq_ok found
  cases same
  exact collectAll_numbered collected

end Selected

/-! When groups stay whole. -/

theorem unbrokenFrom_append (previous : Option ExportSample) (front back : List ExportSample) :
    UnbrokenFrom previous (front ++ back) ↔
      UnbrokenFrom previous front ∧ UnbrokenFrom (front.getLast?.or previous) back := by
  induction front generalizing previous with
  | nil => simp [UnbrokenFrom]
  | cons sample rest ih =>
    rw [List.cons_append]
    simp only [UnbrokenFrom]
    rw [ih, and_assoc]
    have last : (sample :: rest).getLast?.or previous = rest.getLast?.or (some sample) := by
      cases rest with
      | nil => rfl
      | cons next rest =>
        rw [List.getLast?_cons_cons]
        cases found : (next :: rest).getLast? with
        | none => simp at found
        | some last => rfl
    rw [last]

/-- What is written of some samples stays whole when each one written that is no
keyframe comes after its reference, and that is the last one written before it. -/
theorem unbrokenFrom_ascend_iff {previous : Option ExportSample} {last : Option Nat}
    {xs : List ExportSample}
    (foreign : ∀ sample ∈ xs, ∀ reference ∈ previous, ¬reference.Precedes sample) :
    UnbrokenFrom previous (ascend start last xs) ↔
      ∀ front sample back, xs = front ++ sample :: back → sample.sample.isSync = false →
        Above last sample.start → sample.Past front →
          ∃ early reference between, front = early ++ reference :: between ∧
            reference.Precedes sample ∧ Above last reference.start ∧ reference.Past early ∧
            ∀ other ∈ between, other.start ≤ reference.start := by
  induction xs using List.reverseRecOn with
  | nil => simp [ascend, UnbrokenFrom]
  | append_singleton rest final ih =>
    have ends : UnbrokenFrom ((ascend start last rest).getLast?.or previous)
        (if Above (ascended start last rest) final.start then [final] else []) ↔
          (final.sample.isSync = false → Above last final.start → final.Past rest →
            ∃ early reference between, rest = early ++ reference :: between ∧
              reference.Precedes final ∧ Above last reference.start ∧ reference.Past early ∧
              ∀ other ∈ between, other.start ≤ reference.start) := by
      split
      · rename_i above
        obtain ⟨above, past⟩ := above_ascended.mp above
        simp only [UnbrokenFrom, and_true]
        constructor
        · intro whole delta _ _
          obtain ⟨reference, held, precedes⟩ := whole delta
          rcases Option.or_eq_some_iff.mp held with held | ⟨_, held⟩
          · obtain ⟨early, between, place, high, first, low⟩ := getLast?_ascend.mp held
            exact ⟨early, reference, between, place, precedes, high, first, low⟩
          · exact absurd precedes (foreign final (by simp) reference held)
        · intro found delta
          obtain ⟨early, reference, between, place, precedes, high, first, low⟩ :=
            found delta above past
          exact ⟨reference, Option.or_eq_some_iff.mpr (.inl (getLast?_ascend.mpr
            ⟨early, between, place, high, first, low⟩)), precedes⟩
      · rename_i low
        simp only [UnbrokenFrom, true_iff]
        intro _ above past
        exact absurd (above_ascended.mpr ⟨above, past⟩) low
    rw [ascend_concat, unbrokenFrom_append,
      ih fun sample mem => foreign sample (List.mem_append_left _ mem)]
    constructor
    · rintro ⟨whole, last_whole⟩ front sample back place
      rcases split_concat place with ⟨rfl, rfl, _⟩ | ⟨behind, rfl, rfl⟩
      · exact ends.mp last_whole
      · exact whole front sample behind rfl
    · intro all
      refine ⟨fun front sample back place => ?_, ends.mpr (all rest final [] rfl)⟩
      exact all front sample (back ++ [final]) (by rw [place, List.append_assoc, List.cons_append])

theorem ofTrack_sorted {order : Order Location} (lawful : order.Lawful) {group : List ExportSample}
    (spaced : (ofTrack trackId group).Pairwise fun left right =>
      left.absoluteMs < right.absoluteMs) :
    ofTrack trackId (order.samples group) = ofTrack trackId group := by
  have perm : (ofTrack trackId (order.samples group)).Perm (ofTrack trackId group) :=
    (lawful.samples_perm group).filter _
  refine List.Perm.eq_of_pairwise ?_ ((lawful.samples_sorted group).filter _)
    (spaced.imp fun h => .inl h) perm
  intro left right left_mem right_mem le ge
  have same : left.absoluteMs = right.absoluteMs := by
    unfold ExportSample.Before at le ge
    omega
  have apart : (ofTrack trackId group).Pairwise fun left right =>
      left.absoluteMs ≠ right.absoluteMs := spaced.imp fun h => ne_of_lt h
  have : Std.Symm fun left right : ExportSample => left.absoluteMs ≠ right.absoluteMs :=
    ⟨fun _ _ h => h.symm⟩
  by_contra differ
  exact apart.forall (perm.mem_iff.mp left_mem) right_mem differ same

theorem after_nil {x : ExportSample} : After trackId [] x :=
  List.forall_mem_nil _

theorem after_cons {first : List ExportSample} {earlier : List (List ExportSample)}
    {x : ExportSample} :
    After trackId (first :: earlier) x ↔
      (∀ other ∈ ofTrack trackId first, other.start < x.start) ∧ After trackId earlier x :=
  List.forall_mem_cons

theorem mem_sorted {order : Order Location} (lawful : order.Lawful) {group : List ExportSample}
    {x : ExportSample} :
    x ∈ ofTrack trackId (order.samples group) ↔ x ∈ ofTrack trackId group :=
  ((lawful.samples_perm group).filter _).mem_iff

theorem unbrokenFrom_ascend {order : Order Location} (lawful : order.Lawful) {number : Nat}
    {previous : Option ExportSample} {last : Option Nat} {groups : List (List ExportSample)}
    (numbered : Numbered number groups)
    (before : ∀ reference ∈ previous, reference.recording < number) :
    UnbrokenFrom previous (ascend start last
        (groups.flatMap fun group => ofTrack trackId (order.samples group))) ↔
      ∀ earlier group later, groups = earlier ++ group :: later →
        ∀ front sample back, ofTrack trackId (order.samples group) = front ++ sample :: back →
          sample.sample.isSync = false →
          Above last sample.start ∧ After trackId earlier sample → sample.Past front →
            ∃ early reference between, front = early ++ reference :: between ∧
              reference.index + 1 = sample.index ∧
              (Above last reference.start ∧ After trackId earlier reference) ∧
              reference.Past early ∧ ∀ other ∈ between, other.start ≤ reference.start := by
  induction groups generalizing number previous last with
  | nil =>
    simp only [List.flatMap_nil, ascend, UnbrokenFrom, true_iff]
    intro earlier group later empty
    simp at empty
  | cons first rest ih =>
    obtain ⟨own, rest_numbered⟩ := numbered
    have own : ∀ sample ∈ ofTrack trackId (order.samples first), sample.recording = number :=
      fun sample mem => own sample (mem_ofTrack.mp ((mem_sorted lawful).mp mem)).1
    have high {x : ExportSample} :
        Above (ascended start last (ofTrack trackId (order.samples first))) x.start ↔
          Above last x.start ∧ x.Past (ofTrack trackId first) := by
      rw [above_ascended]
      exact and_congr_right fun _ => forall_congr' fun _ => imp_congr_left (mem_sorted lawful)
    have head := @unbrokenFrom_ascend_iff previous last (ofTrack trackId (order.samples first))
      (by
        rintro sample mem reference held ⟨same, _⟩
        have := before reference held
        have := own sample mem
        omega)
    have tail := @ih (number + 1)
      ((ascend start last (ofTrack trackId (order.samples first))).getLast?.or previous)
      (ascended start last (ofTrack trackId (order.samples first))) rest_numbered (by
        intro reference held
        rcases Option.or_eq_some_iff.mp held with held | ⟨_, held⟩
        · have := own reference ((ascend_sublist last _).subset (List.mem_of_getLast? held))
          omega
        · have := before reference held
          omega)
    rw [List.flatMap_cons, ascend_append, unbrokenFrom_append, head, tail]
    constructor
    · rintro ⟨here, others⟩ earlier group later split front sample back place delta late past
      cases earlier with
      | nil =>
        cases split
        obtain ⟨early, reference, between, rfl, ⟨_, next⟩, above, low⟩ :=
          here front sample back place delta late.1 past
        exact ⟨early, reference, between, rfl, next, ⟨above, after_nil⟩, low⟩
      | cons _ earlier =>
        cases split
        obtain ⟨early, reference, between, rfl, next, late, low⟩ :=
          others earlier group later rfl front sample back place delta
            ⟨high.mpr ⟨late.1, (after_cons.mp late.2).1⟩, (after_cons.mp late.2).2⟩ past
        obtain ⟨above, past⟩ := high.mp late.1
        exact ⟨early, reference, between, rfl, next, ⟨above, after_cons.mpr ⟨past, late.2⟩⟩, low⟩
    · intro all
      constructor
      · intro front sample back place delta above past
        obtain ⟨early, reference, between, rfl, next, late, low⟩ :=
          all [] first rest rfl front sample back place delta ⟨above, after_nil⟩ past
        have same : reference.recording = sample.recording := by
          rw [own reference (by rw [place]; simp), own sample (by rw [place]; simp)]
        exact ⟨early, reference, between, rfl, ⟨same, next⟩, late.1, low⟩
      · intro earlier group later split front sample back place delta late past
        obtain ⟨above, past_first⟩ := high.mp late.1
        obtain ⟨early, reference, between, rfl, next, late, low⟩ :=
          all (first :: earlier) group later (by rw [split, List.cons_append]) front sample back
            place delta ⟨above, after_cons.mpr ⟨past_first, late.2⟩⟩ past
        obtain ⟨past_first, later⟩ := after_cons.mp late.2
        exact ⟨early, reference, between, rfl, next, ⟨high.mpr ⟨late.1, past_first⟩, later⟩, low⟩

theorem export_eq_ok [DecidableEq Location] {f : Format MediaConfig} {order : Order Location}
    {read : Location → Except Error (List SourceTrack)}
    {fragments : List (CatalogMediaFragment Location)} {requestedEndMs : Int}
    {artifact : ExportArtifact} {o : Output}
    (exported : exportFragmentRanges f order read fragments requestedEndMs = .ok (artifact, o)) :
    ∃ recordings tracks groups, exportRecordings order fragments requestedEndMs =
        .ok (recordings, artifact.alignedStartMs, artifact.deliveredEndMs) ∧
      footage read recordings artifact.alignedStartMs = .ok (tracks, groups) ∧
      (tracks.any fun track => track.trackType = .video) ∧
      ∀ trackId, o.track trackId = (o.takenOf trackId).map content ∧ o.takenOf trackId =
          ascend start none (ofTrack trackId (groups.flatMap order.samples)) := by
  unfold exportFragmentRanges at exported
  obtain ⟨⟨recordings, alignedStartMs, deliveredEndMs⟩, selected, exported⟩ := bind_eq_ok exported
  obtain ⟨_, written, same⟩ := map_eq_ok exported
  cases same
  unfold writeExportRecordings at written
  obtain ⟨⟨tracks, groups⟩, found, written⟩ := bind_eq_ok written
  obtain ⟨started, start, written⟩ := bind_eq_ok written
  obtain ⟨filled, fill, flushed⟩ := bind_eq_ok written
  obtain ⟨carries, empty, fresh⟩ := start_carries start
  have wrote := writeAll_wrote carries fill
  obtain ⟨carries, taken, nothing⟩ := Output.flushFragment_carries wrote.carries flushed
  refine ⟨recordings, tracks, groups, selected, found, ?_, fun trackId => ⟨?_, ?_⟩⟩
  · unfold Output.start at start
    split at start
    · cases start
    · rename_i video
      simpa using video
  · have content := carries.content trackId
    rw [nothing, List.append_nil] at content
    exact content
  · have taken_before := wrote.taken trackId
    unfold Output.takenOf at taken_before ⊢
    rw [taken, taken_before, empty, fresh]
    rfl

/-- A keyframe and what follows it without a hole, each picture after the one before. -/
def Run (samples : List ExportSample) : Prop :=
  (∀ first ∈ samples.head?, first.sample.isSync) ∧ samples.IsChain ExportSample.Precedes ∧
    samples.Pairwise fun left right => left.start < right.start

theorem leads_of_runs {order : Order Location} (lawful : order.Lawful)
    {groups : List (List ExportSample)}
    (runs : ∀ group ∈ groups, Run (ofTrack trackId (order.samples group)))
    (apart : groups.Pairwise fun early late =>
      ∀ sample ∈ ofTrack trackId late, sample.Past (ofTrack trackId early)) :
    Leads trackId order groups := by
  rintro earlier group later rfl front sample back place delta _ _
  obtain ⟨leads, chain, rising⟩ := runs group (by simp)
  rw [place] at leads chain rising
  rcases List.eq_nil_or_concat' front with rfl | ⟨early, reference, rfl⟩
  · have key := leads sample rfl
    rw [delta] at key
    cases key
  have mem : reference ∈ ofTrack trackId group := by
    rw [← mem_sorted lawful, place]
    simp
  rw [List.append_assoc, List.singleton_append] at chain rising
  refine ⟨early, reference, [], rfl, ?_, ?_, ?_, nofun⟩
  · exact ((List.isChain_append_cons_cons.mp chain).2.1).2
  · intro other held
    exact (List.pairwise_append.mp apart).2.2 other held group List.mem_cons_self reference mem
  · intro other held
    exact (List.pairwise_append.mp rising).2.2 other held reference List.mem_cons_self

/-! Sorts. -/

instance : Std.Total ExportSample.Before where
  total left right := by
    unfold ExportSample.Before
    by_cases left.trackType = .video <;> by_cases right.trackType = .video <;> simp_all <;> omega

instance : IsTrans ExportSample ExportSample.Before where
  trans first second third early late := by
    unfold ExportSample.Before at early late ⊢
    by_cases first.trackType = .video <;> by_cases second.trackType = .video <;>
      by_cases third.trackType = .video <;> simp_all <;> omega

theorem sorted_recordings (recordings : List (ExportRecording Location)) :
    (recordings.insertionSort fun left right => left.startedAtMs ≤ right.startedAtMs).Pairwise
      fun left right => left.startedAtMs ≤ right.startedAtMs := by
  have : Std.Total fun left right : ExportRecording Location =>
      left.startedAtMs ≤ right.startedAtMs :=
    ⟨fun left right => le_total left.startedAtMs right.startedAtMs⟩
  have : IsTrans (ExportRecording Location) fun left right =>
      left.startedAtMs ≤ right.startedAtMs := ⟨fun _ _ _ => le_trans⟩
  exact List.pairwise_insertionSort _ _

/-- Samples that compare equal stay in the order in which they were read. -/
def stableOrder : Order Location where
  recordings := List.insertionSort fun left right => left.startedAtMs ≤ right.startedAtMs
  samples := List.insertionSort ExportSample.Before

theorem stableOrder_lawful : (stableOrder : Order Location).Lawful :=
  ⟨fun _ => List.perm_insertionSort _ _, sorted_recordings,
    fun _ => List.perm_insertionSort _ _, fun _ => List.pairwise_insertionSort _ _⟩

namespace Fixture

def format : Format MediaConfig where
  ftyp := []
  mediaConfigTrackType := MediaConfig.trackType
  moov := fun _ => .ok []
  moof := fun _ _ => []

/-- A keyframe and two pictures that refer to it, one second each. -/
def video : SourceTrack where
  handler := some .video
  timescale := 90000
  language := "und"
  descriptions := [some (.avc 640 360 [] [])]
  samples := [(1, ⟨0, 90000, 0, true, [1]⟩), (1, ⟨90000, 90000, 0, false, [2]⟩),
    (1, ⟨180000, 90000, 0, false, [3]⟩)]

/-- Two pictures in the third millisecond and two keyframes in the sixth. -/
def dense : SourceTrack :=
  { video with samples := [(1, ⟨0, 189, 0, true, [1]⟩), (1, ⟨189, 45, 0, false, [2]⟩),
      (1, ⟨234, 216, 0, false, [3]⟩), (1, ⟨450, 10, 0, true, [4]⟩),
      (1, ⟨460, 90, 0, true, [5]⟩)] }

def fragments (secondMs : Int) : List (CatalogMediaFragment Nat) :=
  [⟨"first", 0, 0, 0, 3000⟩, ⟨"second", secondMs, 1, secondMs, 3000⟩]

def read (track : SourceTrack) : Nat → Except Error (List SourceTrack) := fun _ => .ok [track]

def clip (track : SourceTrack) (secondMs : Int) : Option (List ExportSample) :=
  match exportFragmentRanges format stableOrder (read track) (fragments secondMs) 10000 with
  | .error _ => none
  | .ok (_, output) => some (output.takenOf 1)

def selected (track : SourceTrack) (secondMs : Int) : Option (List (List ExportSample)) :=
  match exportRecordings stableOrder (fragments secondMs) 10000 with
  | .error _ => none
  | .ok (recordings, alignedStartMs, _) =>
    (footage (read track) recordings alignedStartMs).toOption.map Prod.snd

end Fixture

instance (sample : ExportSample) (others : List ExportSample) : Decidable (sample.Past others) :=
  inferInstanceAs (Decidable (∀ _ ∈ _, _))

instance (samples : List ExportSample) : Decidable (Run samples) :=
  inferInstanceAs (Decidable (_ ∧ _))

instance instDecidableUnbrokenFrom :
    (previous : Option ExportSample) → (samples : List ExportSample) →
      Decidable (UnbrokenFrom previous samples)
  | _, [] => .isTrue trivial
  | _, sample :: rest =>
    have := instDecidableUnbrokenFrom (some sample) rest
    inferInstanceAs (Decidable (_ ∧ _))

end KeepPeek.Playback
