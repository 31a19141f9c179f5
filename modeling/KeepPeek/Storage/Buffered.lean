import KeepPeek.Storage.Rotation

/-! Buffered recording of one stream without viewer demand. What a pipeline has
appended together with what its buffer still owes is compared with the frames
pushed so far. A frame is lost exactly when a push evicts an owed frame or when a
drain finds, in front of its first keyframe, the tail of a group it split before. -/
namespace KeepPeek.Storage

open Lib

variable {fs : List RecordingFrame}

def InOrder (frames : List RecordingFrame) : Prop :=
  frames.Pairwise fun earlier later => earlier.receivedAt ≤ later.receivedAt

/-- The buffered frames a segment must still receive: all of them once recording
has started, before that only those from the first keyframe on. -/
def owed (started : Bool) (frames : List RecordingFrame) : List RecordingFrame :=
  if started then frames else fromFirstKeyframe frames

theorem fromFirstKeyframe_suffix {tail : List RecordingFrame} (h : tail <:+ fs) :
    fromFirstKeyframe tail <:+ fromFirstKeyframe fs := by
  obtain ⟨front, rfl⟩ := h
  rw [fromFirstKeyframe_append]
  split
  · exact List.suffix_rfl
  · exact (List.dropWhile_suffix _).trans (List.suffix_append _ _)

theorem owed_suffix (started : Bool) {tail : List RecordingFrame} (h : tail <:+ fs) :
    owed started tail <:+ owed started fs := by
  cases started with
  | true => exact h
  | false => exact fromFirstKeyframe_suffix h

theorem fromFirstKeyframe_mem {f : RecordingFrame} (h : f ∈ fromFirstKeyframe fs) : f ∈ fs :=
  (List.dropWhile_suffix _).subset h

/-- Dropping too old frames from the front loses nothing owed exactly when the
first owed frame is not too old. -/
theorem owed_dropWhile_iff (started : Bool) (limit : Nat) (horder : InOrder fs) :
    owed started (fs.dropWhile fun oldest => decide (oldest.receivedAt < limit)) = owed started fs ↔
      ∀ first ∈ (owed started fs).head?, limit ≤ first.receivedAt := by
  induction fs with
  | nil => cases started <;> simp [owed]
  | cons oldest fs ih =>
    have hrest := List.pairwise_cons.mp horder
    by_cases hold : oldest.receivedAt < limit
    · have hdrop : (oldest :: fs).dropWhile (fun oldest => decide (oldest.receivedAt < limit)) =
          fs.dropWhile fun oldest => decide (oldest.receivedAt < limit) := by
        simp [hold]
      have hle : (fs.dropWhile fun oldest => decide (oldest.receivedAt < limit)).length ≤
          fs.length := List.length_dropWhile_le _ _
      -- Whatever is owed from the shortened list cannot contain `oldest` again.
      have hlost : owed started (oldest :: fs) = oldest :: fs →
          ¬ (owed started (fs.dropWhile fun oldest => decide (oldest.receivedAt < limit)) =
            owed started (oldest :: fs)) := by
        intro hall heq
        have hlength := congrArg List.length heq
        have howed := (owed_suffix started (List.dropWhile_suffix
          (l := fs) fun oldest => decide (oldest.receivedAt < limit))).length_le
        have hbound : (owed started fs).length ≤ fs.length := by
          cases started with
          | true => exact Nat.le_refl _
          | false => exact length_fromFirstKeyframe_le _
        rw [hall, List.length_cons] at hlength
        omega
      rw [hdrop]
      cases started with
      | true =>
        refine iff_of_false (hlost rfl) ?_
        simp [owed, hold]
      | false =>
        cases hkey : oldest.isVideoKeyframe with
        | true =>
          refine iff_of_false (hlost (by simp [owed, fromFirstKeyframe_cons_key hkey])) ?_
          simp [owed, fromFirstKeyframe_cons_key hkey, hold]
        | false =>
          have hskip : owed false (oldest :: fs) = owed false fs := by
            simp [owed, fromFirstKeyframe_cons_delta hkey]
          rw [hskip]
          exact ih hrest.2
    · have hkeep : (oldest :: fs).dropWhile (fun oldest => decide (oldest.receivedAt < limit)) =
          oldest :: fs := by
        simp [hold]
      rw [hkeep]
      refine iff_of_true rfl fun first hfirst => ?_
      have hmem : first ∈ oldest :: fs := by
        have howed := List.mem_of_head? hfirst
        cases started with
        | true => exact howed
        | false => exact fromFirstKeyframe_mem howed
      rcases List.mem_cons.mp hmem with rfl | hlater
      · omega
      · have := hrest.1 first hlater
        omega

private theorem sublist_chain_eq_iff {short middle long : List RecordingFrame}
    (hshort : short.Sublist middle) (hlong : middle.Sublist long) :
    short = long ↔ short = middle ∧ middle = long := by
  constructor
  · intro heq
    have hmiddle : middle = long := hlong.antisymm (heq ▸ hshort)
    exact ⟨heq.trans hmiddle.symm, hmiddle⟩
  · rintro ⟨hfirst, hsecond⟩
    exact hfirst.trans hsecond

namespace CameraPipeline

variable {p : CameraPipeline} {pushed : List RecordingFrame}

def started (pipeline : CameraPipeline) : Bool := pipeline.mediumTerm.isSome

def content (pipeline : CameraPipeline) : List RecordingFrame :=
  pipeline.appended ++ owed pipeline.started pipeline.shortTerm.chunks

/-- Holds of a pipeline after any pushes, lossless or not. -/
structure Buffered (window : Nat) (pipeline : CameraPipeline) (pushed : List RecordingFrame) :
    Prop where
  window_eq : pipeline.shortTerm.maxDuration = window
  suffix : pipeline.shortTerm.chunks <:+ pushed
  started_iff : pipeline.started = true ↔ pipeline.appended ≠ []
  sublist : pipeline.content.Sublist (fromFirstKeyframe pushed)

def pushFrame (pipeline : CameraPipeline) (frame : RecordingFrame) : CameraPipeline :=
  { pipeline with shortTerm := pipeline.shortTerm.push frame }

def KeepsOwed (pipeline : CameraPipeline) (frame : RecordingFrame) : Prop :=
  ∀ first ∈ (owed pipeline.started (pipeline.shortTerm.chunks ++ [frame])).head?,
    frame.receivedAt ≤ first.receivedAt + pipeline.shortTerm.maxDuration

instance (pipeline : CameraPipeline) (frame : RecordingFrame) :
    Decidable (pipeline.KeepsOwed frame) :=
  inferInstanceAs (Decidable
    (∀ first ∈ (owed pipeline.started (pipeline.shortTerm.chunks ++ [frame])).head?,
      frame.receivedAt ≤ first.receivedAt + pipeline.shortTerm.maxDuration))

private def grown (pipeline : CameraPipeline) (frame : RecordingFrame) : List RecordingFrame :=
  pipeline.appended ++ owed pipeline.started (pipeline.shortTerm.chunks ++ [frame])

private theorem grown_spec {window : Nat} {p : CameraPipeline}
    {pushed : List RecordingFrame} (h : p.Buffered window pushed) (f : RecordingFrame) :
    (p.grown f).Sublist (fromFirstKeyframe (pushed ++ [f])) ∧
      (p.grown f = fromFirstKeyframe (pushed ++ [f]) ↔ p.content = fromFirstKeyframe pushed) := by
  unfold grown
  rw [fromFirstKeyframe_append]
  by_cases hnone : fromFirstKeyframe pushed = []
  · have hcontent : p.content = [] := List.sublist_nil.mp (hnone ▸ h.sublist)
    obtain ⟨happended, howed⟩ := List.append_eq_nil_iff.mp hcontent
    have hstarted : p.started = false := by
      rw [Bool.eq_false_iff]
      exact fun hs => h.started_iff.mp hs happended
    rw [hstarted] at howed
    have hgrown : owed false (p.shortTerm.chunks ++ [f]) = fromFirstKeyframe [f] := by
      unfold owed at howed ⊢
      rw [if_neg (by decide)] at howed ⊢
      rw [fromFirstKeyframe_append, if_pos howed]
    simp [hnone, happended, hstarted, hgrown, hcontent]
  rw [if_neg hnone]
  by_cases hempty : p.started = false ∧ fromFirstKeyframe p.shortTerm.chunks = []
  · -- Everything owed was lost already: the new frame cannot make up for it.
    obtain ⟨hstarted, hchunks⟩ := hempty
    have happended : p.appended = [] := by
      by_contra hne
      rw [h.started_iff.mpr hne] at hstarted
      contradiction
    have hcontent : p.content = [] := by
      simp [content, happended, hstarted, owed, hchunks]
    have hgrown : owed p.started (p.shortTerm.chunks ++ [f]) = fromFirstKeyframe [f] := by
      rw [hstarted]
      unfold owed
      rw [if_neg (by decide), fromFirstKeyframe_append, if_pos hchunks]
    rw [hgrown, happended, hcontent, List.nil_append]
    refine ⟨?_, iff_of_false ?_ (Ne.symm hnone)⟩
    · exact (List.dropWhile_suffix _).sublist.trans (List.sublist_append_right _ _)
    · intro heq
      have hlength := congrArg List.length heq
      have hone := length_fromFirstKeyframe_le [f]
      have hpos := List.length_pos_iff.mpr hnone
      simp only [List.length_append, List.length_singleton] at hlength hone
      omega
  · have hgrown : owed p.started (p.shortTerm.chunks ++ [f]) =
        owed p.started p.shortTerm.chunks ++ [f] := by
      cases hstarted : p.started with
      | true => rfl
      | false =>
        unfold owed
        rw [if_neg (by decide), if_neg (by decide), fromFirstKeyframe_append,
          if_neg fun hchunks => hempty ⟨hstarted, hchunks⟩]
    rw [hgrown, ← List.append_assoc]
    exact ⟨h.sublist.append (List.Sublist.refl _), List.append_left_inj _⟩

private theorem push_suffix (p : CameraPipeline) (f : RecordingFrame) :
    (p.pushFrame f).shortTerm.chunks <:+ p.shortTerm.chunks ++ [f] := by
  unfold pushFrame
  rw [ShortTermBuffer.push_chunks]
  exact List.dropWhile_suffix _

private theorem pushFrame_content_sublist (p : CameraPipeline) (f : RecordingFrame) :
    (p.pushFrame f).content.Sublist (p.grown f) :=
  (List.Sublist.refl _).append (owed_suffix _ (p.push_suffix f)).sublist

theorem pushFrame_buffered {window : Nat} (h : p.Buffered window pushed)
    (f : RecordingFrame) :
    (p.pushFrame f).Buffered window (pushed ++ [f]) where
  window_eq := by
    rw [← h.window_eq]
    exact ShortTermBuffer.push_maxDuration _ _
  suffix := (p.push_suffix f).trans (by
    obtain ⟨front, hfront⟩ := h.suffix
    exact ⟨front, by rw [← hfront, List.append_assoc]⟩)
  started_iff := h.started_iff
  sublist := (p.pushFrame_content_sublist f).trans (grown_spec h f).1

theorem pushFrame_content_iff {window : Nat} (h : p.Buffered window pushed)
    {f : RecordingFrame} (horder : InOrder (pushed ++ [f])) :
    (p.pushFrame f).content = fromFirstKeyframe (pushed ++ [f]) ↔
      p.content = fromFirstKeyframe pushed ∧ p.KeepsOwed f := by
  have hchunks : InOrder (p.shortTerm.chunks ++ [f]) := by
    obtain ⟨front, hfront⟩ := h.suffix
    rw [← hfront, List.append_assoc] at horder
    exact (List.pairwise_append.mp horder).2.1
  have howed := owed_dropWhile_iff p.started (f.receivedAt - p.shortTerm.maxDuration) hchunks
  have hlimit : ∀ oldest : RecordingFrame,
      (oldest.receivedAt < f.receivedAt - p.shortTerm.maxDuration) =
        (oldest.receivedAt + p.shortTerm.maxDuration < f.receivedAt) :=
    fun oldest => propext ⟨by omega, by omega⟩
  simp only [hlimit, ← ShortTermBuffer.push_chunks] at howed
  rw [sublist_chain_eq_iff (p.pushFrame_content_sublist f) (grown_spec h f).1,
    (grown_spec h f).2, and_comm]
  refine and_congr_right fun _ => ?_
  unfold content grown
  rw [show (p.pushFrame f).appended = p.appended from rfl, List.append_right_inj]
  refine howed.trans (forall₂_congr fun first _ => ?_)
  omega

theorem writeBatch_key_start (cfg : StorageConfig) (p : CameraPipeline)
    {first : RecordingFrame} (hkey : first.isVideoKeyframe = true) (rest : List RecordingFrame)
    (now : Nat) :
    (p.writeBatch cfg (first :: rest) now).1.appended = p.appended ++ first :: rest ∧
      (p.writeBatch cfg (first :: rest) now).1.started = true ∧
      (p.writeBatch cfg (first :: rest) now).1.shortTerm = p.shortTerm := by
  have hwhole := fromFirstKeyframe_cons_key hkey rest
  refine ⟨?_, ?_, ?_⟩
  · cases hmedium : p.mediumTerm with
    | none => rw [appended_writeBatch_none cfg hmedium, hwhole]
    | some writer => exact appended_writeBatch_some cfg hmedium _ now
  · rw [writeBatch_eq cfg p (List.cons_ne_nil _ _) now]
    cases p.mediumTerm with
    | none => simp [started, segmentOf, hwhole]
    | some writer =>
      dsimp only
      split
      · simp [started, segmentOf, hwhole]
      · rfl
  · rw [writeBatch_eq cfg p (List.cons_ne_nil _ _) now]
    cases p.mediumTerm with
    | none => rfl
    | some writer =>
      dsimp only
      split <;> rfl

/-- The flush does not find the tail of a group it has split before: once
recording has started, a drain begins at the front of the buffer. -/
def DrainsFromFront (config : StorageConfig) (pipeline : CameraPipeline) (clock : Clock) : Prop :=
  ∀ cutoff ∈ Instant.checkedSub clock.cutoff config.shortTermDuration,
    pipeline.started = true →
      (∃ key ∈ pipeline.shortTerm.chunks, isKeyframeBefore cutoff key = true) →
        ∀ first ∈ pipeline.shortTerm.chunks.head?, first.isVideoKeyframe = true

instance (config : StorageConfig) (pipeline : CameraPipeline) (clock : Clock) :
    Decidable (pipeline.DrainsFromFront config clock) :=
  inferInstanceAs (Decidable (∀ cutoff ∈ Instant.checkedSub clock.cutoff config.shortTermDuration,
    pipeline.started = true →
      (∃ key ∈ pipeline.shortTerm.chunks, isKeyframeBefore cutoff key = true) →
        ∀ first ∈ pipeline.shortTerm.chunks.head?, first.isVideoKeyframe = true))

/-- A flush without publication either leaves the buffer and the segments alone
or hands a run of frames that starts with a keyframe to the segments. -/
theorem flushCamera_cases (cfg : StorageConfig) (p : CameraPipeline) (clock : Clock) :
    ((p.flushCamera cfg false clock).1 = { p with lastFlush := clock.flushed } ∧
        ∀ cutoff ∈ Instant.checkedSub clock.cutoff cfg.shortTermDuration,
          ∀ key ∈ p.shortTerm.chunks, isKeyframeBefore cutoff key = false) ∨
      ∃ cutoff skipped first rest shortTerm,
        Instant.checkedSub clock.cutoff cfg.shortTermDuration = some cutoff ∧
        p.shortTerm.chunks = skipped ++ first :: rest ++ shortTerm.chunks ∧
        shortTerm.maxDuration = p.shortTerm.maxDuration ∧
        isKeyframeBefore cutoff first = true ∧
        (∀ frame ∈ skipped, isKeyframeBefore cutoff frame = false) ∧
        (p.flushCamera cfg false clock).1 =
          ({ p with lastFlush := clock.flushed, shortTerm := shortTerm }.writeBatch cfg
            (first :: rest) clock.rotation).1 := by
  cases hcutoff : Instant.checkedSub clock.cutoff cfg.shortTermDuration with
  | none =>
    left
    refine ⟨?_, by simp⟩
    simp [flushCamera, hcutoff, writeBatch]
  | some cutoff =>
    by_cases hkey : ∃ key ∈ p.shortTerm.chunks, isKeyframeBefore cutoff key = true
    · right
      obtain ⟨key, hmem, hbefore⟩ := hkey
      obtain ⟨skipped, first, rest, hchunks, hdrained, hfirst, hskipped⟩ :=
        ShortTermBuffer.drain_split hmem hbefore
      refine ⟨cutoff, skipped, first, rest, _, rfl, hchunks,
        ShortTermBuffer.drain_maxDuration _ _, hfirst, hskipped, ?_⟩
      simp [flushCamera, hcutoff, hdrained]
    · left
      have hnone : ∀ frame ∈ p.shortTerm.chunks, isKeyframeBefore cutoff frame = false := by
        intro frame hframe
        rw [Bool.eq_false_iff]
        exact fun h => hkey ⟨frame, hframe, h⟩
      refine ⟨?_, by simpa using hnone⟩
      simp [flushCamera, hcutoff, ShortTermBuffer.drain_eq_nil hnone, writeBatch]

private theorem not_key_of_before {cutoff : Nat} {f first : RecordingFrame}
    (hframe : isKeyframeBefore cutoff f = false) (hfirst : isKeyframeBefore cutoff first = true)
    (hle : f.receivedAt ≤ first.receivedAt) : f.isVideoKeyframe = false := by
  simp only [isKeyframeBefore, Bool.and_eq_true, decide_eq_true_eq] at hfirst
  have hlt : f.receivedAt < cutoff := by omega
  simpa [isKeyframeBefore, hlt] using hframe

/-- One flush keeps the invariant, and loses nothing exactly when it drains from
the front of the buffer. -/
theorem flushCamera_content {cfg : StorageConfig} {window : Nat}
    (h : p.Buffered window pushed) (horder : InOrder pushed) (clock : Clock) :
    (p.flushCamera cfg false clock).1.Buffered window pushed ∧
      ((p.flushCamera cfg false clock).1.content = fromFirstKeyframe pushed ↔
        p.content = fromFirstKeyframe pushed ∧ p.DrainsFromFront cfg clock) := by
  rcases p.flushCamera_cases cfg clock with ⟨heq, hnone⟩ | hdrain
  · rw [heq]
    refine ⟨⟨h.window_eq, h.suffix, h.started_iff, h.sublist⟩, ?_⟩
    have hsafe : p.DrainsFromFront cfg clock := by
      rintro cutoff hcutoff - ⟨key, hmem, hkey⟩
      rw [hnone cutoff hcutoff key hmem] at hkey
      contradiction
    simp only [hsafe, and_true]
    rfl
  obtain ⟨cutoff, skipped, first, rest, shortTerm, hcutoff, hchunks, hwindow, hfirst, hskipped,
    heq⟩ := hdrain
  have hkey : first.isVideoKeyframe = true := (Bool.and_eq_true_iff.mp hfirst).1
  obtain ⟨happended, hstarted, hshort⟩ := writeBatch_key_start cfg
    { p with lastFlush := clock.flushed, shortTerm := shortTerm } hkey rest clock.rotation
  rw [heq]
  have hbefore : InOrder p.shortTerm.chunks := by
    obtain ⟨front, hfront⟩ := h.suffix
    rw [← hfront] at horder
    exact (List.pairwise_append.mp horder).2.1
  have hdelta : ∀ frame ∈ skipped, frame.isVideoKeyframe = false := by
    intro frame hframe
    rw [hchunks, List.append_assoc] at hbefore
    exact not_key_of_before (hskipped frame hframe) hfirst
      ((List.pairwise_append.mp hbefore).2.2 frame hframe first (by simp))
  -- The flushed content is the old content without the skipped frames.
  have hcontent : (({ p with lastFlush := clock.flushed, shortTerm := shortTerm }.writeBatch
      cfg (first :: rest) clock.rotation).1).content =
        p.appended ++ (first :: rest ++ shortTerm.chunks) := by
    unfold content
    rw [happended, hstarted, hshort, List.append_assoc]
    rfl
  have howed : owed p.started p.shortTerm.chunks =
      (if p.started then skipped else []) ++ (first :: rest ++ shortTerm.chunks) := by
    rw [hchunks, List.append_assoc]
    cases p.started with
    | true => rfl
    | false =>
      unfold owed
      rw [if_neg (by decide), if_neg (by decide), fromFirstKeyframe_append,
        if_pos (fromFirstKeyframe_eq_nil.mpr hdelta)]
      exact fromFirstKeyframe_cons_key hkey _
  have hsub : (p.appended ++ (first :: rest ++ shortTerm.chunks)).Sublist p.content := by
    unfold content
    rw [howed]
    exact (List.Sublist.refl _).append (List.sublist_append_right _ _)
  refine ⟨⟨by rw [hshort]; exact hwindow.trans h.window_eq, ?_, ?_, ?_⟩, ?_⟩
  · rw [hshort]
    refine List.IsSuffix.trans ?_ h.suffix
    exact ⟨skipped ++ first :: rest, hchunks.symm⟩
  · rw [happended, hstarted]
    simp
  · rw [hcontent]
    exact hsub.trans h.sublist
  · rw [hcontent, sublist_chain_eq_iff hsub h.sublist, and_comm]
    refine and_congr_right fun _ => ?_
    unfold content
    rw [howed, List.append_right_inj]
    constructor
    · intro hsame _ _ hwritten _ head hhead
      rw [hwritten, if_pos rfl] at hsame
      have hnil : skipped = [] := by simpa using hsame
      rw [hchunks, hnil] at hhead
      obtain rfl : first = head := by simpa using hhead
      exact hkey
    · intro hsafe
      cases hwritten : p.started with
      | false => simp
      | true =>
        have hhead := hsafe cutoff hcutoff hwritten ⟨first, by simp [hchunks], hfirst⟩
        cases skipped with
        | nil => simp
        | cons frame skipped =>
          have hframe := hhead frame (by simp [hchunks])
          rw [hdelta frame (by simp)] at hframe
          contradiction

theorem drainRemaining_appended (p : CameraPipeline) : p.drainRemaining.appended = p.content := by
  unfold drainRemaining content ShortTermBuffer.drainAll
  cases hchunks : p.shortTerm.chunks with
  | nil =>
    cases hstarted : p.started <;> simp [owed, appended, segments]
  | cons head tail =>
    cases hmedium : p.mediumTerm with
    | some writer =>
      simp [hmedium, started, owed, appended, segments, MediumTermWriter.appendBatch]
    | none =>
      have hstarted : p.started = false := by simp [started, hmedium]
      rw [hstarted]
      unfold owed
      rw [if_neg (by decide)]
      dsimp only
      rw [openSegment_eq]
      cases fromFirstKeyframe (head :: tail) with
      | nil => simp [appended, segments, hmedium]
      | cons first rest =>
        simp [appended, segments, hmedium, MediumTermWriter.appendBatch, MediumTermWriter.create]

end CameraPipeline

open CameraPipeline

/-- What the worker does to one stream: a frame of it is ingested, or a command
for all streams flushes it. -/
inductive StreamInput where
  | ingest (frame : RecordingFrame) (clock : Clock)
  | flush (clock : Clock)
  deriving DecidableEq, Repr

def pushedFrames (inputs : List StreamInput) : List RecordingFrame :=
  inputs.filterMap fun
    | .ingest frame _ => some frame
    | .flush _ => none

def streamStep (config : StorageConfig) (pipeline : Option CameraPipeline) :
    StreamInput → Option CameraPipeline
  | .ingest frame clock =>
    some ((pipeline.getD (.new config clock.created)).ingest config false frame clock)
  | .flush clock => pipeline.map fun pipeline => (pipeline.flushCamera config false clock).1

def flushDue (config : StorageConfig) (pipeline : CameraPipeline) (clock : Clock) : Prop :=
  config.flushInterval ≤ clock.tested - pipeline.lastFlush

/-- The input neither evicts an owed frame nor drains behind a split group. -/
def StreamSafe (config : StorageConfig) (pipeline : Option CameraPipeline) : StreamInput → Prop
  | .ingest frame clock =>
    (pipeline.getD (.new config clock.created)).KeepsOwed frame ∧
      (flushDue config (pipeline.getD (.new config clock.created)) clock →
        ((pipeline.getD (.new config clock.created)).pushFrame frame).DrainsFromFront config clock)
  | .flush clock => ∀ opened ∈ pipeline, opened.DrainsFromFront config clock

instance (config : StorageConfig) (pipeline : CameraPipeline) (clock : Clock) :
    Decidable (flushDue config pipeline clock) :=
  inferInstanceAs (Decidable (config.flushInterval ≤ clock.tested - pipeline.lastFlush))

instance (config : StorageConfig) (pipeline : Option CameraPipeline) :
    ∀ input, Decidable (StreamSafe config pipeline input)
  | .ingest frame clock => inferInstanceAs (Decidable
      ((pipeline.getD (.new config clock.created)).KeepsOwed frame ∧
        (flushDue config (pipeline.getD (.new config clock.created)) clock →
          ((pipeline.getD (.new config clock.created)).pushFrame frame).DrainsFromFront config
            clock)))
  | .flush clock => inferInstanceAs (Decidable
      (∀ opened ∈ pipeline, opened.DrainsFromFront config clock))

instance (frames : List RecordingFrame) : Decidable (InOrder frames) :=
  inferInstanceAs (Decidable
    (frames.Pairwise fun earlier later => earlier.receivedAt ≤ later.receivedAt))

def StreamBuffered (config : StorageConfig) (pipeline : Option CameraPipeline)
    (inputs : List StreamInput) : Prop :=
  match pipeline with
  | none => pushedFrames inputs = []
  | some opened =>
    opened.Buffered (Duration.saturatingAdd config.shortTermDuration config.flushInterval)
      (pushedFrames inputs)

def StreamLossless (pipeline : Option CameraPipeline) (inputs : List StreamInput) : Prop :=
  pipeline.elim [] content = fromFirstKeyframe (pushedFrames inputs)

private theorem pushedFrames_ingest (inputs : List StreamInput) (f : RecordingFrame)
    (clock : Clock) :
    pushedFrames (inputs ++ [.ingest f clock]) = pushedFrames inputs ++ [f] := by
  simp [pushedFrames]

private theorem pushedFrames_flush (inputs : List StreamInput) (clock : Clock) :
    pushedFrames (inputs ++ [.flush clock]) = pushedFrames inputs := by
  simp [pushedFrames]

private theorem new_buffered (cfg : StorageConfig) (now : Nat) :
    (new cfg now).Buffered (Duration.saturatingAdd cfg.shortTermDuration cfg.flushInterval) [] :=
  ⟨rfl, List.suffix_rfl, by simp [new, started, appended,
      segments],
    List.Sublist.refl _⟩

private theorem opened_spec {cfg : StorageConfig} {pipeline : Option CameraPipeline}
    {inputs : List StreamInput} (h : StreamBuffered cfg pipeline inputs) (now : Nat) :
    (pipeline.getD (.new cfg now)).Buffered
        (Duration.saturatingAdd cfg.shortTermDuration cfg.flushInterval)
        (pushedFrames inputs) ∧
      ((pipeline.getD (.new cfg now)).content = fromFirstKeyframe (pushedFrames inputs) ↔
        StreamLossless pipeline inputs) := by
  cases pipeline with
  | none =>
    have hnil : pushedFrames inputs = [] := h
    refine ⟨by rw [hnil]; exact new_buffered cfg now, ?_⟩
    simp [StreamLossless, hnil, content, new, owed, started, appended, segments,
      ShortTermBuffer.new]
  | some opened => exact ⟨h, Iff.rfl⟩

theorem streamStep_spec {cfg : StorageConfig} (hbuffered : cfg.isDirectWrite = false)
    {pipeline : Option CameraPipeline} {inputs : List StreamInput} {input : StreamInput}
    (horder : InOrder (pushedFrames (inputs ++ [input])))
    (h : StreamBuffered cfg pipeline inputs) :
    StreamBuffered cfg (streamStep cfg pipeline input) (inputs ++ [input]) ∧
      (StreamLossless (streamStep cfg pipeline input) (inputs ++ [input]) ↔
        StreamLossless pipeline inputs ∧ StreamSafe cfg pipeline input) := by
  cases input with
  | ingest frame clock =>
    rw [pushedFrames_ingest] at horder
    obtain ⟨hopened, hlossless⟩ := opened_spec h clock.created
    unfold StreamBuffered StreamLossless StreamSafe streamStep
    simp only [pushedFrames_ingest, Option.elim_some]
    unfold StreamLossless at hlossless
    rw [← hlossless]
    generalize pipeline.getD (.new cfg clock.created) = opened at hopened
    have hpushed := pushFrame_buffered hopened frame
    have hpush := pushFrame_content_iff hopened horder
    by_cases hdue : flushDue cfg opened clock
    · have hingest : opened.ingest cfg false frame clock =
          ((opened.pushFrame frame).flushCamera cfg false clock).1 := by
        unfold ingest
        rw [hbuffered, if_neg (by decide)]
        unfold flushDue at hdue
        simp [hdue, pushFrame]
      obtain ⟨hkept, hflush⟩ := flushCamera_content hpushed horder clock
      rw [hingest]
      refine ⟨hkept, ?_⟩
      rw [hflush, hpush, and_assoc]
      simp [hdue]
    · have hingest : opened.ingest cfg false frame clock = opened.pushFrame frame := by
        unfold ingest
        rw [hbuffered, if_neg (by decide)]
        unfold flushDue at hdue
        simp [hdue, pushFrame]
      rw [hingest]
      refine ⟨hpushed, ?_⟩
      rw [hpush]
      simp [hdue]
  | flush clock =>
    rw [pushedFrames_flush] at horder
    unfold StreamBuffered StreamLossless StreamSafe streamStep
    rw [pushedFrames_flush]
    cases pipeline with
    | none => exact ⟨h, by simp⟩
    | some opened =>
      obtain ⟨hkept, hflush⟩ := flushCamera_content h horder clock
      exact ⟨hkept, by simpa using hflush⟩

/-- The commands of a run without viewer demand, for any number of streams. -/
inductive BufferedCommand where
  | ingest (storageKey : String) (frame : RecordingFrame) (clock : Clock)
  | flushAll (clock : String → Clock)

def BufferedCommand.forStream (storageKey : String) : BufferedCommand → Option StreamInput
  | .ingest key frame clock => if key = storageKey then some (.ingest frame clock) else none
  | .flushAll clock => some (.flush (clock storageKey))

def streamInputs (storageKey : String) (commands : List BufferedCommand) : List StreamInput :=
  commands.filterMap (BufferedCommand.forStream storageKey)

namespace WriterWorker

def handle (worker : WriterWorker) : BufferedCommand → WriterWorker
  | .ingest storageKey frame clock => worker.ingest storageKey false frame clock
  | .flushAll clock => worker.flushAll clock

def recorded (worker : WriterWorker) (storageKey : String) : List RecordingFrame :=
  (worker.pipelines storageKey).elim [] appended

theorem handle_pipelines (worker : WriterWorker) (command : BufferedCommand) (storageKey : String) :
    (worker.handle command).pipelines storageKey =
      (command.forStream storageKey).elim (worker.pipelines storageKey)
      (streamStep worker.config (worker.pipelines storageKey)) := by
  cases command with
  | ingest key frame clock =>
    by_cases hkey : key = storageKey
    · subst hkey
      simp [handle, ingest, BufferedCommand.forStream, streamStep, pipelineFor]
    · simp [handle, ingest, BufferedCommand.forStream, hkey, Function.update_of_ne (Ne.symm hkey)]
  | flushAll clock => rfl

theorem handle_config (worker : WriterWorker) (command : BufferedCommand) :
    (worker.handle command).config = worker.config := by
  cases command <;> rfl

theorem run_pipelines (worker : WriterWorker) (commands : List BufferedCommand)
    (storageKey : String) :
    (commands.foldl handle worker).pipelines storageKey =
        (streamInputs storageKey commands).foldl (streamStep worker.config)
          (worker.pipelines storageKey) ∧
      (commands.foldl handle worker).config = worker.config := by
  induction commands generalizing worker with
  | nil => exact ⟨rfl, rfl⟩
  | cons command commands ih =>
    obtain ⟨hpipelines, hconfig⟩ := ih (worker.handle command)
    rw [handle_config] at hpipelines hconfig
    refine ⟨?_, hconfig⟩
    rw [List.foldl_cons, hpipelines, handle_pipelines]
    unfold streamInputs
    cases hinput : command.forStream storageKey <;> simp [hinput]

theorem shutdownFlush_recorded (worker : WriterWorker) (clock : String → Clock)
    (storageKey : String) :
    (worker.shutdownFlush clock).recorded storageKey =
      (streamStep worker.config (worker.pipelines storageKey) (.flush (clock storageKey))).elim []
        content := by
  have hpipeline : (worker.shutdownFlush clock).pipelines storageKey =
      (streamStep worker.config (worker.pipelines storageKey) (.flush (clock storageKey))).map
        drainRemaining := rfl
  unfold recorded
  rw [hpipeline]
  cases streamStep worker.config (worker.pipelines storageKey) (.flush (clock storageKey)) with
  | none => rfl
  | some pipeline => exact pipeline.drainRemaining_appended

end WriterWorker

/-- Buffered recording hands every frame from the first keyframe on to the
segments, once and in order, exactly when no push of the run evicts an owed frame
and no drain begins behind the tail of a group split by an earlier drain. -/
theorem buffered_recording_lossless_iff (config : StorageConfig)
    (hbuffered : config.isDirectWrite = false) (commands : List BufferedCommand)
    (clock : String → Clock) (storageKey : String)
    (horder : InOrder (pushedFrames (streamInputs storageKey commands))) :
    ((commands.foldl WriterWorker.handle (.new config)).shutdownFlush clock).recorded storageKey =
        fromFirstKeyframe (pushedFrames (streamInputs storageKey commands)) ↔
      AllSteps (streamStep config) (StreamSafe config) none
        (streamInputs storageKey commands ++ [.flush (clock storageKey)]) := by
  obtain ⟨hpipelines, hconfig⟩ :=
    WriterWorker.run_pipelines (.new config) commands storageKey
  have hvalid : InOrder (pushedFrames
      ([] ++ (streamInputs storageKey commands ++ [.flush (clock storageKey)]))) := by
    rw [List.nil_append, pushedFrames_flush]
    exact horder
  have hrun := @good_foldl_iff_allSteps _ _ (streamStep config) (StreamSafe config)
    (fun inputs => InOrder (pushedFrames inputs)) (StreamBuffered config) StreamLossless
    (by
      intro past input hvalid
      simp only [pushedFrames, List.filterMap_append] at hvalid ⊢
      exact (List.pairwise_append.mp hvalid).1)
    (fun _ _ _ hvalid h => (streamStep_spec hbuffered hvalid h).1)
    (fun _ _ _ hvalid h => (streamStep_spec hbuffered hvalid h).2)
    none [] rfl _ hvalid
  rw [List.nil_append, List.foldl_append] at hrun
  unfold StreamLossless at hrun
  rw [pushedFrames_flush] at hrun
  rw [WriterWorker.shutdownFlush_recorded, hconfig, hpipelines]
  exact hrun.trans (and_iff_right rfl)

private def clockAt (now : Nat) : Clock := ⟨now, now, now, now, now⟩

theorem buffered_recording_keeps_aligned_groups :
    (([.ingest "front" (videoFrame true 0) (clockAt 0), .ingest "front" (videoFrame false 3)
            (clockAt 3), .ingest "front" (videoFrame true 4) (clockAt 4),
          .ingest "front" (videoFrame false 11) (clockAt 11),
          .flushAll fun _ => clockAt 15].foldl WriterWorker.handle
        (.new ⟨10, 5, 60⟩)).shutdownFlush fun _ => clockAt 16).recorded "front" =
      [videoFrame true 0, videoFrame false 3, videoFrame true 4, videoFrame false 11] :=
  (buffered_recording_lossless_iff ⟨10, 5, 60⟩ rfl _ (fun _ => clockAt 16) "front"
    (by decide)).mpr (by decide)

/-- The first flush writes the keyframe received at 0 and leaves the next frame of
its group in the buffer; the flush at 23 begins at the keyframe received at 12 and
drops that frame. -/
theorem buffered_recording_drops_split_group :
    ¬ ((([.ingest "front" (videoFrame true 0) (clockAt 0), .ingest "front" (videoFrame false 11)
            (clockAt 11), .ingest "front" (videoFrame true 12) (clockAt 12),
          .ingest "front" (videoFrame false 23) (clockAt 23)].foldl WriterWorker.handle
        (.new ⟨10, 5, 60⟩)).shutdownFlush fun _ => clockAt 24).recorded "front" =
      [videoFrame true 0, videoFrame false 11, videoFrame true 12, videoFrame false 23]) := by
  decide

end KeepPeek.Storage
