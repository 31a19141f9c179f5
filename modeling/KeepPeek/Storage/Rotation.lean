import KeepPeek.Lib.Run
import KeepPeek.Storage.Writer

/-! Segment rotation in `flush_camera`. A batch is appended whole while a segment
is open; a rotation that falls due on a batch without a keyframe closes the
segment and leaves no writer for the frames that follow. -/
namespace KeepPeek.Storage

open Lib

variable {frames : List RecordingFrame}

/-- The segment a batch opens: it starts with the first keyframe of the batch. -/
def segmentOf (frames : List RecordingFrame) : Option MediumTermWriter :=
  match fromFirstKeyframe frames with
  | [] => none
  | first :: rest => some ⟨first.receivedAt, first :: rest⟩

def beforeFirstKeyframe (frames : List RecordingFrame) : List RecordingFrame :=
  frames.takeWhile fun frame => !frame.isVideoKeyframe

theorem beforeFirstKeyframe_append (fs : List RecordingFrame) :
    beforeFirstKeyframe fs ++ fromFirstKeyframe fs = fs :=
  List.takeWhile_append_dropWhile

private theorem findIdx_key (fs : List RecordingFrame) :
    fs.findIdx (fun frame => !(!frame.isVideoKeyframe)) =
      fs.findIdx RecordingFrame.isVideoKeyframe := by
  simp

theorem findIdx?_key_eq_none (h : frames.findIdx? RecordingFrame.isVideoKeyframe = none) :
    fromFirstKeyframe frames = [] :=
  fromFirstKeyframe_eq_nil.mpr (List.findIdx?_eq_none_iff.mp h)

theorem findIdx?_key_eq_some {index : Nat}
    (h : frames.findIdx? RecordingFrame.isVideoKeyframe = some index) :
    fromFirstKeyframe frames = frames.drop index ∧ beforeFirstKeyframe frames = frames.take index ∧
      fromFirstKeyframe frames ≠ [] := by
  obtain ⟨hlt, hkey, -⟩ := List.findIdx?_eq_some_iff_getElem.mp h
  have hindex : frames.findIdx RecordingFrame.isVideoKeyframe = index :=
    (List.findIdx?_eq_some_iff_findIdx_eq.mp h).2
  have hdrop : fromFirstKeyframe frames = frames.drop index := by
    unfold fromFirstKeyframe
    rw [List.dropWhile_eq_drop_findIdx_not, findIdx_key, hindex]
  refine ⟨hdrop, ?_, ?_⟩
  · unfold beforeFirstKeyframe
    rw [List.takeWhile_eq_take_findIdx_not, findIdx_key, hindex]
  · rw [hdrop, List.drop_eq_getElem_cons hlt]
    exact List.cons_ne_nil _ _

theorem segmentOf_eq_some {segment : MediumTermWriter} (h : segmentOf frames = some segment) :
    segment.frames = fromFirstKeyframe frames := by
  unfold segmentOf at h
  split at h
  · contradiction
  · next heq =>
    rw [← Option.some.inj h, heq]

theorem flatMap_segmentOf (fs : List RecordingFrame) :
    (segmentOf fs).toList.flatMap MediumTermWriter.frames = fromFirstKeyframe fs := by
  cases h : segmentOf fs with
  | none =>
    unfold segmentOf at h
    split at h
    · next heq => simp [heq]
    · contradiction
  | some segment => simp [segmentOf_eq_some h]

namespace CameraPipeline

variable {p : CameraPipeline} {w : MediumTermWriter} {fs : List RecordingFrame}

theorem openSegment_eq (p : CameraPipeline) (fs : List RecordingFrame) :
    p.openSegment fs =
      match fromFirstKeyframe fs with
      | [] => (p, [])
      | first :: rest =>
        ({ p with mediumTerm := some (.create first.receivedAt) }, first :: rest) := by
  unfold openSegment
  cases h : fs.findIdx? RecordingFrame.isVideoKeyframe with
  | none => simp only [findIdx?_key_eq_none h]
  | some index =>
    have hkept := (findIdx?_key_eq_some h).1
    cases hrest : fs.drop index with
    | nil => simp only [hkept, hrest]
    | cons first rest => simp only [hkept, hrest]

theorem rotate_eq (p : CameraPipeline) (w : MediumTermWriter)
    (fs : List RecordingFrame) (progress : WriteProgress) :
    (p.rotate w fs progress).1 = { p with
          mediumTerm := none
          finalized := p.finalized ++ [w.appendBatch (beforeFirstKeyframe fs)] } ∧
      (p.rotate w fs progress).2.1 = fromFirstKeyframe fs := by
  unfold rotate
  cases h : fs.findIdx? RecordingFrame.isVideoKeyframe with
  | none =>
    have hnil := findIdx?_key_eq_none h
    have hall := beforeFirstKeyframe_append fs
    rw [hnil, List.append_nil] at hall
    simp only [hnil, hall, and_self]
  | some index =>
    obtain ⟨hdrop, htake, -⟩ := findIdx?_key_eq_some h
    by_cases hpos : 0 < index
    · simp only [hpos, if_true, hdrop, htake, and_self]
    · obtain rfl : index = 0 := by omega
      simp [hdrop, htake, MediumTermWriter.appendBatch]

theorem appendRest_none (hmedium : p.mediumTerm = none) (fs : List RecordingFrame)
    (progress : WriteProgress) :
    (p.appendRest fs progress).1 = { p with mediumTerm := segmentOf fs } := by
  have hself : p = { p with mediumTerm := none } := by rw [← hmedium]
  unfold appendRest segmentOf
  cases fs with
  | nil => simpa using hself
  | cons head tail =>
    simp only [List.isEmpty_cons, Bool.not_false, hmedium, Option.isNone_none, Bool.and_self,
      if_true, openSegment_eq]
    cases fromFirstKeyframe (head :: tail) with
    | nil => simpa using hself
    | cons first rest => simp [MediumTermWriter.appendBatch, MediumTermWriter.create]

theorem appendRest_some (hmedium : p.mediumTerm = some w) (hne : fs ≠ [])
    (progress : WriteProgress) :
    (p.appendRest fs progress).1 = { p with mediumTerm := some (w.appendBatch fs) } := by
  simp [appendRest, hmedium, hne]

theorem writeBatch_eq (cfg : StorageConfig) (p : CameraPipeline) (hne : fs ≠ [])
    (now : Nat) :
    (p.writeBatch cfg fs now).1 =
      match p.mediumTerm with
      | none => { p with mediumTerm := segmentOf fs }
      | some w =>
        if p.needsRotation cfg now then
          { p with
            mediumTerm := segmentOf fs
            finalized := p.finalized ++ [w.appendBatch (beforeFirstKeyframe fs)] }
        else { p with mediumTerm := some (w.appendBatch fs) } := by
  have hempty : fs.isEmpty = false := by simpa using hne
  unfold writeBatch
  rw [hempty, if_neg (by decide)]
  cases hmedium : p.mediumTerm with
  | none => exact appendRest_none hmedium fs ⟨false⟩
  | some w =>
    dsimp only
    split
    · obtain ⟨hpipe, hrest⟩ := p.rotate_eq w fs ⟨false⟩
      rw [hpipe, hrest, appendRest_none rfl]
      simp [segmentOf]
    · exact appendRest_some hmedium hne ⟨false⟩

theorem appended_writeBatch_some (cfg : StorageConfig)
    (hmedium : p.mediumTerm = some w) (fs : List RecordingFrame) (now : Nat) :
    (p.writeBatch cfg fs now).1.appended = p.appended ++ fs := by
  by_cases hne : fs = []
  · simp [hne, writeBatch]
  rw [writeBatch_eq cfg p hne now, hmedium]
  dsimp only
  split
  · have hsplit := beforeFirstKeyframe_append fs
    have hnew := flatMap_segmentOf fs
    simp only [appended, segments, hmedium, MediumTermWriter.appendBatch, List.flatMap_append,
      List.flatMap_cons, List.flatMap_nil, Option.toList_some, List.append_nil, hnew,
      List.append_assoc, hsplit]
  · simp [appended, segments, hmedium, MediumTermWriter.appendBatch]

theorem appended_writeBatch_none (cfg : StorageConfig) (hmedium : p.mediumTerm = none)
    (fs : List RecordingFrame) (now : Nat) :
    (p.writeBatch cfg fs now).1.appended = p.appended ++ fromFirstKeyframe fs := by
  by_cases hne : fs = []
  · simp [hne, writeBatch]
  rw [writeBatch_eq cfg p hne now, hmedium]
  simp only [appended, segments, hmedium, List.flatMap_append, Option.toList_none,
    List.append_nil, flatMap_segmentOf]

def KeyframeStarts (pipeline : CameraPipeline) : Prop :=
  ∀ segment ∈ pipeline.segments,
    ∃ first, segment.frames.head? = some first ∧ first.isVideoKeyframe = true

theorem keyframeStart_appendBatch
    (h : ∃ first, w.frames.head? = some first ∧ first.isVideoKeyframe = true)
    (fs : List RecordingFrame) :
    ∃ first, (w.appendBatch fs).frames.head? = some first ∧ first.isVideoKeyframe = true := by
  obtain ⟨first, hhead, hkey⟩ := h
  exact ⟨first, by simp [MediumTermWriter.appendBatch, List.head?_append, hhead], hkey⟩

theorem keyframeStart_segmentOf {segment : MediumTermWriter} (h : segmentOf fs = some segment) :
    ∃ first, segment.frames.head? = some first ∧ first.isVideoKeyframe = true := by
  have hframes := segmentOf_eq_some h
  unfold segmentOf at h
  split at h
  · contradiction
  next first rest heq =>
  refine ⟨first, by rw [hframes, heq]; rfl, @fromFirstKeyframe_head fs first ?_⟩
  rw [heq]
  rfl

theorem writeBatch_keyframeStarts (cfg : StorageConfig) (h : p.KeyframeStarts)
    (fs : List RecordingFrame) (now : Nat) :
    (p.writeBatch cfg fs now).1.KeyframeStarts := by
  by_cases hne : fs = []
  · simpa [hne, writeBatch] using h
  rw [writeBatch_eq cfg p hne now]
  intro segment hmem
  cases hmedium : p.mediumTerm with
  | none =>
    rw [hmedium] at hmem
    rcases List.mem_append.mp hmem with hold | hnew
    · exact h segment (List.mem_append_left _ hold)
    · exact keyframeStart_segmentOf (Option.mem_toList.mp hnew)
  | some w =>
    have hwriter := h w (List.mem_append_right _ (by simp [hmedium]))
    rw [hmedium] at hmem
    dsimp only at hmem
    split at hmem
    · rcases List.mem_append.mp hmem with hold | hnew
      · rcases List.mem_append.mp hold with hold | hrotated
        · exact h segment (List.mem_append_left _ hold)
        · rw [List.mem_singleton.mp hrotated]
          exact keyframeStart_appendBatch hwriter _
      · exact keyframeStart_segmentOf (Option.mem_toList.mp hnew)
    · rcases List.mem_append.mp hmem with hold | hopen
      · exact h segment (List.mem_append_left _ hold)
      · obtain rfl : segment = w.appendBatch fs := by simpa using hopen
        exact keyframeStart_appendBatch hwriter _

theorem appended_ne_nil (h : p.KeyframeStarts) (hne : p.segments ≠ []) : p.appended ≠ [] := by
  obtain ⟨segment, hmem⟩ := List.exists_mem_of_ne_nil _ hne
  obtain ⟨first, hhead, -⟩ := h segment hmem
  have hfirst : first ∈ p.appended :=
    List.mem_flatMap.mpr ⟨segment, hmem, List.mem_of_head? hhead⟩
  exact List.ne_nil_of_mem hfirst

end CameraPipeline

open CameraPipeline

/-- Frames that leave the short-term buffer together, and the clock readings of
the flush that takes them. -/
structure Batch where
  frames : List RecordingFrame
  clock : Clock
  deriving DecidableEq, Repr

def batchedFrames (batches : List Batch) : List RecordingFrame :=
  batches.flatMap Batch.frames

namespace CameraPipeline

variable {p : CameraPipeline} {batches : List Batch}

def flushBatch (config : StorageConfig) (pipeline : CameraPipeline) (batch : Batch) :
    CameraPipeline :=
  ({ pipeline with
      shortTerm := { pipeline.shortTerm with chunks := batch.frames } }.flushCamera config true
    batch.clock).1

/-- The batch can be resumed from: it does not begin inside a group of pictures
whose segment an earlier rotation closed without opening the next one. -/
def Resumable (pipeline : CameraPipeline) (batch : Batch) : Prop :=
  pipeline.mediumTerm = none → pipeline.finalized ≠ [] →
    ∀ first ∈ batch.frames.head?, first.isVideoKeyframe = true

theorem appended_congr {left right : CameraPipeline} (hmedium : left.mediumTerm = right.mediumTerm)
    (hfinalized : left.finalized = right.finalized) : left.appended = right.appended := by
  simp only [appended, segments, hmedium, hfinalized]

theorem keyframeStarts_congr {left right : CameraPipeline}
    (hmedium : left.mediumTerm = right.mediumTerm) (hfinalized : left.finalized = right.finalized)
    (h : right.KeyframeStarts) : left.KeyframeStarts := by
  simpa only [KeyframeStarts, segments, hmedium, hfinalized] using h

/-- Every frame of the batches from the first keyframe on was appended, in order. -/
def Lossless (pipeline : CameraPipeline) (batches : List Batch) : Prop :=
  pipeline.appended = fromFirstKeyframe (batchedFrames batches)

/-- What holds of every run: nothing is appended that was not in the batches. -/
structure Recorded (pipeline : CameraPipeline) (batches : List Batch) : Prop where
  starts : pipeline.KeyframeStarts
  sublist : pipeline.appended.Sublist (fromFirstKeyframe (batchedFrames batches))

private theorem batchedFrames_concat (batches : List Batch) (batch : Batch) :
    batchedFrames (batches ++ [batch]) = batchedFrames batches ++ batch.frames := by
  simp [batchedFrames]

theorem Recorded.no_segment (h : p.Recorded batches)
    (hnone : fromFirstKeyframe (batchedFrames batches) = []) :
    p.appended = [] ∧ p.mediumTerm = none ∧ p.finalized = [] := by
  have hnil : p.appended = [] := List.sublist_nil.mp (hnone ▸ h.sublist)
  have hsegments : p.segments = [] := by
    by_contra hne
    exact appended_ne_nil h.starts hne hnil
  obtain ⟨hfinalized, hmedium⟩ := List.append_eq_nil_iff.mp hsegments
  exact ⟨hnil, by simpa using hmedium, hfinalized⟩

private theorem kept_sublist (p : CameraPipeline) (fs : List RecordingFrame) :
    (if p.mediumTerm = none then fromFirstKeyframe fs else fs).Sublist fs := by
  split
  · exact (List.dropWhile_suffix _).sublist
  · exact List.Sublist.refl _

section

variable (cfg : StorageConfig)
include cfg

theorem flushBatch_eq (p : CameraPipeline) (batch : Batch) : ∃ drained : CameraPipeline,
    p.flushBatch cfg batch = (drained.writeBatch cfg batch.frames batch.clock.rotation).1 ∧
      drained.mediumTerm = p.mediumTerm ∧ drained.finalized = p.finalized :=
  ⟨_, rfl, rfl, rfl⟩

theorem appended_flushBatch (p : CameraPipeline) (batch : Batch) : (p.flushBatch
    cfg batch).appended = p.appended ++ if p.mediumTerm = none then
    fromFirstKeyframe batch.frames else batch.frames := by
  obtain ⟨drained, heq, hmedium, hfinalized⟩ := p.flushBatch_eq cfg batch
  rw [heq, ← appended_congr hmedium hfinalized, ← hmedium]
  cases hwriter : drained.mediumTerm with
  | none => simpa using appended_writeBatch_none cfg hwriter batch.frames batch.clock.rotation
  | some writer =>
    simpa using appended_writeBatch_some cfg hwriter batch.frames batch.clock.rotation

theorem flushBatch_keyframeStarts (h : p.KeyframeStarts) (batch : Batch) :
    (p.flushBatch cfg batch).KeyframeStarts := by
  obtain ⟨drained, heq, hmedium, hfinalized⟩ := p.flushBatch_eq cfg batch
  rw [heq]
  exact writeBatch_keyframeStarts cfg (keyframeStarts_congr hmedium hfinalized h) _ _

theorem flushBatch_recorded (h : p.Recorded batches) (batch : Batch) : (p.flushBatch
    cfg batch).Recorded (batches ++ [batch]) := by
  refine ⟨flushBatch_keyframeStarts cfg h.starts batch, ?_⟩
  rw [batchedFrames_concat, fromFirstKeyframe_append, appended_flushBatch]
  by_cases hnone : fromFirstKeyframe (batchedFrames batches) = []
  · obtain ⟨hnil, hmedium, -⟩ := h.no_segment hnone
    simp [hnone, hnil, hmedium]
  · rw [if_neg hnone]
    exact h.sublist.append (kept_sublist p batch.frames)

theorem flushBatch_lossless_iff (h : p.Recorded batches) (batch : Batch) :
    (p.flushBatch cfg batch).Lossless (batches ++ [batch]) ↔ p.Lossless batches ∧
    p.Resumable batch := by
  unfold Lossless
  rw [batchedFrames_concat, fromFirstKeyframe_append, appended_flushBatch]
  by_cases hnone : fromFirstKeyframe (batchedFrames batches) = []
  · obtain ⟨hnil, hmedium, hfinalized⟩ := h.no_segment hnone
    simp [hnone, hnil, hmedium, hfinalized, Resumable]
  rw [if_neg hnone]
  have hkept := kept_sublist p batch.frames
  generalize hkeptEq :
    (if p.mediumTerm = none then fromFirstKeyframe batch.frames else batch.frames) = kept
    at hkept
  constructor
  · intro heq
    -- Both parts can only get shorter, so equal lengths force them to be equal.
    have hlength := congrArg List.length heq
    rw [List.length_append, List.length_append] at hlength
    have hle := h.sublist.length_le
    have hkeptLe := hkept.length_le
    have happended := h.sublist.eq_of_length (by omega)
    refine ⟨happended, fun hmedium _ first hfirst => ?_⟩
    have hwhole : kept = batch.frames := hkept.eq_of_length (by omega)
    rw [if_pos hmedium, hwhole] at hkeptEq
    exact @fromFirstKeyframe_head batch.frames first (by rw [hkeptEq]; exact hfirst)
  · rintro ⟨happended, hresumable⟩
    rw [happended]
    congr 1
    by_cases hmedium : p.mediumTerm = none
    · have hfinalized : p.finalized ≠ [] := by
        intro hnil
        exact hnone (by rw [← happended]; simp [appended, segments, hmedium, hnil])
      have hhead := hresumable hmedium hfinalized
      rw [← hkeptEq, if_pos hmedium]
      cases hframes : batch.frames with
      | nil => rfl
      | cons first rest =>
        exact fromFirstKeyframe_cons_key (hhead first (by simp [hframes])) rest
    · rw [← hkeptEq, if_neg hmedium]

end

end CameraPipeline

/-- Successive flushes of a fresh pipeline keep the whole stream from its first
keyframe on, in segments that all start with a keyframe, exactly when no batch
begins inside a group of pictures that a rotation has cut off. -/
theorem rotation_lossless_iff (config : StorageConfig) (now : Nat) (batches : List Batch) :
    ((batches.foldl (flushBatch config) (.new config now)).appended =
          fromFirstKeyframe (batchedFrames batches) ∧
        (batches.foldl (flushBatch config) (.new config now)).KeyframeStarts) ↔
      AllSteps (flushBatch config) CameraPipeline.Resumable (.new config now)
        batches := by
  have hnew : (new config now).Recorded [] :=
    ⟨by simp [CameraPipeline.KeyframeStarts, segments, new],
      by simp [appended, segments, new]⟩
  have hstep : ∀ (pipeline : CameraPipeline) (batch : Batch), pipeline.KeyframeStarts →
      (pipeline.flushBatch config batch).KeyframeStarts :=
    fun _ batch h => flushBatch_keyframeStarts config h batch
  have hstarts := foldl_invariant hstep hnew.starts batches
  have hrun := @good_foldl_iff_allSteps _ _ (flushBatch config)
    CameraPipeline.Resumable (fun _ => True) CameraPipeline.Recorded CameraPipeline.Lossless
    (fun _ _ _ => trivial)
    (fun _ _ batch _ h => flushBatch_recorded config h batch)
    (fun _ _ batch _ h => flushBatch_lossless_iff config h batch)
    _ _ hnew batches trivial
  rw [List.nil_append] at hrun
  have hempty : (new config now).Lossless [] := rfl
  exact ⟨fun h => (hrun.mp h.1).2, fun h => ⟨hrun.mpr ⟨hempty, h⟩, hstarts⟩⟩

/-- Rotation falls due on the second batch, which has no keyframe. The segment is
closed with it and the third batch, the next frame of the same group, is lost. -/
theorem rotation_drops_delta_after_cut :
    ¬ (([⟨[videoFrame true 0], ⟨0, 0, 0, 0, 0⟩⟩, ⟨[videoFrame false 5], ⟨5, 5, 5, 5, 5⟩⟩,
          ⟨[videoFrame false 6], ⟨6, 6, 6, 6, 6⟩⟩].foldl
        (flushBatch ⟨1, 1, 4⟩) (.new ⟨1, 1, 4⟩ 0)).appended =
      fromFirstKeyframe (batchedFrames [⟨[videoFrame true 0], ⟨0, 0, 0, 0, 0⟩⟩,
          ⟨[videoFrame false 5], ⟨5, 5, 5, 5, 5⟩⟩, ⟨[videoFrame false 6], ⟨6, 6, 6, 6, 6⟩⟩])) := by
  decide

end KeepPeek.Storage
