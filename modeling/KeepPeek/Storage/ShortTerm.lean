import KeepPeek.Storage.Frame
import Mathlib.Data.List.Infix

/-! The short-term buffer of one recorded stream: a queue of frames with eviction
at push time and a keyframe-aligned drain. -/
namespace KeepPeek.Storage

structure ShortTermBuffer where
  chunks : List RecordingFrame
  maxDuration : Nat
  totalBytes : Nat
  deriving DecidableEq, Repr

/-- Pop frames from the front while they are older than `cutoff`. -/
def popOlderThan (cutoff : Nat) : List RecordingFrame → Nat → List RecordingFrame × Nat
  | [], totalBytes => ([], totalBytes)
  | oldest :: rest, totalBytes =>
    if oldest.receivedAt < cutoff then popOlderThan cutoff rest (totalBytes - oldest.byteLen)
    else (oldest :: rest, totalBytes)

def isKeyframeBefore (cutoff : Nat) (frame : RecordingFrame) : Bool :=
  frame.isVideoKeyframe && decide (frame.receivedAt < cutoff)

def lastPosition (p : RecordingFrame → Bool) (frames : List RecordingFrame) : Option Nat :=
  (frames.zipIdx.reverse.find? fun entry => p entry.1).map (·.2)

/-- Index of the first keyframe at or after index `start`, if there is one. -/
def nextKeyframe (start : Nat) (frames : List RecordingFrame) : Option Nat :=
  ((frames.zipIdx.drop start).find? fun entry => entry.1.isVideoKeyframe).map (·.2)

namespace ShortTermBuffer

def new (maxDuration : Nat) : ShortTermBuffer := ⟨[], maxDuration, 0⟩

def evictExpired (buffer : ShortTermBuffer) : ShortTermBuffer :=
  match buffer.chunks.getLast? with
  | none => buffer
  | some newest =>
    match Instant.checkedSub newest.receivedAt buffer.maxDuration with
    | none => buffer
    | some cutoff =>
      let (chunks, totalBytes) := popOlderThan cutoff buffer.chunks buffer.totalBytes
      { buffer with chunks := chunks, totalBytes := totalBytes }

def push (buffer : ShortTermBuffer) (frame : RecordingFrame) : ShortTermBuffer :=
  evictExpired { buffer with
    chunks := buffer.chunks ++ [frame]
    totalBytes := buffer.totalBytes + frame.byteLen }

def drainUpToLastKeyframeBefore (buffer : ShortTermBuffer) (cutoff : Nat) :
    List RecordingFrame × ShortTermBuffer :=
  match buffer.chunks.findIdx? (isKeyframeBefore cutoff) with
  | none => ([], buffer)
  | some start =>
    -- `start` witnesses that a last keyframe before the cutoff exists.
    let lastKeyframe := (lastPosition (isKeyframeBefore cutoff) buffer.chunks).getD start
    let stop := (nextKeyframe (lastKeyframe + 1) buffer.chunks).getD (lastKeyframe + 1)
    let dropped := buffer.chunks.take start
    let drained := (buffer.chunks.drop start).take (stop - start)
    (drained,
      { buffer with
        chunks := buffer.chunks.drop (start + (stop - start))
        totalBytes := buffer.totalBytes - (dropped.map RecordingFrame.byteLen).sum -
          (drained.map RecordingFrame.byteLen).sum })

def drainAll (buffer : ShortTermBuffer) : List RecordingFrame × ShortTermBuffer :=
  (buffer.chunks, { buffer with chunks := [], totalBytes := 0 })

end ShortTermBuffer

theorem popOlderThan_fst (cutoff : Nat) (fs : List RecordingFrame) (totalBytes : Nat) :
    (popOlderThan cutoff fs totalBytes).1 =
      fs.dropWhile fun frame => decide (frame.receivedAt < cutoff) := by
  induction fs generalizing totalBytes with
  | nil => rfl
  | cons oldest rest ih =>
    by_cases h : oldest.receivedAt < cutoff
    · simp [popOlderThan, h, ih]
    · simp [popOlderThan, h]

theorem lastPosition_eq_some {p : RecordingFrame → Bool} {fs : List RecordingFrame}
    {index : Nat} (h : lastPosition p fs = some index) :
    ∃ frame, fs[index]? = some frame ∧ p frame = true := by
  unfold lastPosition at h
  obtain ⟨⟨frame, position⟩, hfind, rfl⟩ := Option.map_eq_some_iff.mp h
  have hmem := List.mem_reverse.mp (List.mem_of_find?_eq_some hfind)
  refine ⟨frame, ?_, by simpa using List.find?_some hfind⟩
  simpa using List.mem_zipIdx_iff_getElem?.mp hmem

theorem lastPosition_isSome {p : RecordingFrame → Bool} {fs : List RecordingFrame}
    {f : RecordingFrame} (hmem : f ∈ fs) (hp : p f = true) :
    (lastPosition p fs).isSome = true := by
  unfold lastPosition
  rw [Option.isSome_map, List.find?_isSome]
  obtain ⟨index, hindex⟩ := List.mem_iff_getElem?.mp hmem
  exact ⟨(f, index),
    List.mem_reverse.mpr (List.mem_zipIdx_iff_getElem?.mpr (by simpa using hindex)), hp⟩

theorem nextKeyframe_eq_some {start : Nat} {fs : List RecordingFrame} {index : Nat}
    (h : nextKeyframe start fs = some index) :
    start ≤ index ∧ ∃ frame, fs[index]? = some frame ∧ frame.isVideoKeyframe = true := by
  unfold nextKeyframe at h
  obtain ⟨⟨frame, position⟩, hfind, rfl⟩ := Option.map_eq_some_iff.mp h
  obtain ⟨offset, hoffset⟩ := List.mem_iff_getElem?.mp (List.mem_of_find?_eq_some hfind)
  rw [List.getElem?_drop, List.getElem?_zipIdx] at hoffset
  obtain ⟨found, hfound, heq⟩ := Option.map_eq_some_iff.mp hoffset
  obtain ⟨rfl, rfl⟩ := Prod.mk.inj heq
  refine ⟨by omega, found, ?_, by simpa using List.find?_some hfind⟩
  simpa using hfound

namespace ShortTermBuffer

@[simp] theorem evictExpired_maxDuration (buffer : ShortTermBuffer) :
    buffer.evictExpired.maxDuration = buffer.maxDuration := by
  unfold evictExpired
  split
  · rfl
  · split <;> rfl

@[simp] theorem push_maxDuration (buffer : ShortTermBuffer) (f : RecordingFrame) :
    (buffer.push f).maxDuration = buffer.maxDuration := by
  simp [push]

/-- A push drops, from the front, the frames that are older than the new frame
by more than the window. -/
theorem push_chunks (buffer : ShortTermBuffer) (f : RecordingFrame) :
    (buffer.push f).chunks = (buffer.chunks ++ [f]).dropWhile fun oldest => decide
      (oldest.receivedAt + buffer.maxDuration < f.receivedAt) := by
  unfold push evictExpired
  simp only [List.getLast?_append, List.getLast?_singleton, Option.some_or]
  cases hcutoff : Instant.checkedSub f.receivedAt buffer.maxDuration with
  | none =>
    -- The cutoff underflows, so no instant can lie before it.
    have hshort : f.receivedAt < buffer.maxDuration := by
      unfold Instant.checkedSub at hcutoff
      split at hcutoff
      · contradiction
      · omega
    simp only
    rw [List.dropWhile_eq_self_iff.mpr]
    intro hpos
    simp only [decide_eq_true_eq]
    omega
  | some cutoff =>
    have hsum := Instant.checkedSub_eq_some hcutoff
    simp only [popOlderThan_fst]
    congr 1
    funext oldest
    rw [decide_eq_decide]
    omega

@[simp] theorem drain_maxDuration (buffer : ShortTermBuffer) (cutoff : Nat) :
    (buffer.drainUpToLastKeyframeBefore cutoff).2.maxDuration = buffer.maxDuration := by
  unfold drainUpToLastKeyframeBefore
  split <;> rfl

theorem drain_eq_nil {buffer : ShortTermBuffer} {cutoff : Nat}
    (h : ∀ frame ∈ buffer.chunks, isKeyframeBefore cutoff frame = false) :
    buffer.drainUpToLastKeyframeBefore cutoff = ([], buffer) := by
  unfold drainUpToLastKeyframeBefore
  rw [List.findIdx?_eq_none_iff.mpr h]

theorem drain_split {buffer : ShortTermBuffer} {cutoff : Nat} {key : RecordingFrame}
    (hmem : key ∈ buffer.chunks) (hkey : isKeyframeBefore cutoff key = true) :
    ∃ skipped first rest, buffer.chunks =
        skipped ++ first :: rest ++ (buffer.drainUpToLastKeyframeBefore cutoff).2.chunks ∧
      (buffer.drainUpToLastKeyframeBefore cutoff).1 = first :: rest ∧
      isKeyframeBefore cutoff first = true ∧
      ∀ frame ∈ skipped, isKeyframeBefore cutoff frame = false := by
  have hsome : (buffer.chunks.findIdx? (isKeyframeBefore cutoff)).isSome = true := by
    rw [List.findIdx?_isSome, List.any_eq_true]
    exact ⟨key, hmem, hkey⟩
  obtain ⟨start, hstart⟩ := Option.isSome_iff_exists.mp hsome
  obtain ⟨hlt, hfirst, hbefore⟩ := List.findIdx?_eq_some_iff_getElem.mp hstart
  obtain ⟨last, hlast⟩ := Option.isSome_iff_exists.mp (lastPosition_isSome hmem hkey)
  have hle : start ≤ last := by
    obtain ⟨frame, hframe, hp⟩ := lastPosition_eq_some hlast
    by_contra hcon
    obtain ⟨hbound, heq⟩ := List.getElem?_eq_some_iff.mp hframe
    exact hbefore last (by omega) (by rw [heq]; exact hp)
  have hstop : start < (nextKeyframe (last + 1) buffer.chunks).getD (last + 1) := by
    cases hnext : nextKeyframe (last + 1) buffer.chunks with
    | none => simp only [Option.getD_none]; omega
    | some index =>
      have := (nextKeyframe_eq_some hnext).1
      simp only [Option.getD_some]
      omega
  generalize hstopEq : (nextKeyframe (last + 1) buffer.chunks).getD (last + 1) = stop at hstop
  have hdrop : buffer.chunks.drop start = buffer.chunks[start] :: buffer.chunks.drop (start + 1) :=
    List.drop_eq_getElem_cons hlt
  obtain ⟨count, hcount⟩ : ∃ count, stop - start = count + 1 := ⟨stop - start - 1, by omega⟩
  have hresult : buffer.drainUpToLastKeyframeBefore cutoff =
      ((buffer.chunks.drop start).take (stop - start), { buffer with
          chunks := buffer.chunks.drop (start + (stop - start))
          totalBytes := buffer.totalBytes -
            ((buffer.chunks.take start).map RecordingFrame.byteLen).sum -
            (((buffer.chunks.drop start).take (stop - start)).map
              RecordingFrame.byteLen).sum }) := by
    unfold drainUpToLastKeyframeBefore
    simp only [hstart, hlast, Option.getD_some, hstopEq]
  rw [hresult]
  refine ⟨buffer.chunks.take start, buffer.chunks[start],
    (buffer.chunks.drop (start + 1)).take count, ?_, ?_, ?_, ?_⟩
  · have htail : (buffer.chunks.drop (start + 1)).take count ++
        buffer.chunks.drop (start + (stop - start)) = buffer.chunks.drop (start + 1) := by
      have hsplit := List.take_append_drop count (buffer.chunks.drop (start + 1))
      rw [List.drop_drop] at hsplit
      rw [hcount, show start + (count + 1) = start + 1 + count by omega]
      exact hsplit
    rw [List.append_assoc, List.cons_append, htail, ← hdrop, List.take_append_drop]
  · rw [hdrop, hcount, List.take_succ_cons]
  · exact hfirst
  · intro frame hframe
    obtain ⟨index, hindex, rfl⟩ := List.getElem_of_mem hframe
    rw [List.length_take] at hindex
    rw [List.getElem_take]
    exact Bool.eq_false_iff.mpr (hbefore index (by omega))

end ShortTermBuffer

end KeepPeek.Storage
