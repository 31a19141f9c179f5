import Mathlib.Data.List.DropRight
import Mathlib.Data.List.TakeWhile
import Mathlib.Algebra.GroupWithZero.Nat

/-! Media frames and the monotonic clock of the recording pipeline. Instants and
durations are natural numbers of nanoseconds. An instant counts from the earliest
value the platform clock can represent, so that checked subtraction fails exactly
when it would leave that range. -/
namespace KeepPeek.Storage

/-- First value past the representable instants: signed 64-bit seconds. -/
def instantEnd : Nat := 2 ^ 64 * 10 ^ 9

/-- Longest duration: 64-bit seconds and a fraction below one second. -/
def durationMax : Nat := 2 ^ 64 * 10 ^ 9 - 1

def Duration.saturatingAdd (left right : Nat) : Nat := min (left + right) durationMax

namespace Instant

def checkedSub (instant duration : Nat) : Option Nat :=
  if duration ≤ instant then some (instant - duration) else none

def checkedAdd (instant duration : Nat) : Option Nat :=
  if instant + duration < instantEnd then some (instant + duration) else none

theorem checkedSub_eq_some {instant duration cutoff : Nat}
    (h : checkedSub instant duration = some cutoff) :
    cutoff + duration = instant := by
  unfold checkedSub at h
  split at h
  · have := Option.some.inj h
    omega
  · contradiction

end Instant

inductive VideoCodec where
  | h264
  | h265
  deriving DecidableEq, Repr

inductive AudioCodec where
  | aac
  | g711Alaw
  | g711Ulaw
  | adpcm
  deriving DecidableEq, Repr

structure VideoFrame where
  codec : VideoCodec
  isKeyframe : Bool
  width : Nat
  height : Nat
  data : List UInt8
  deriving DecidableEq, Repr

structure AudioFrame where
  codec : AudioCodec
  sampleRate : Nat
  duration : Nat
  data : List UInt8
  deriving DecidableEq, Repr

inductive MediaFrame where
  | video (frame : VideoFrame)
  | audio (frame : AudioFrame)
  deriving DecidableEq, Repr

namespace MediaFrame

def byteLen : MediaFrame → Nat
  | video v => v.data.length
  | audio a => a.data.length

def isVideoKeyframe : MediaFrame → Bool
  | video v => v.isKeyframe
  | audio _ => false

def isVideo : MediaFrame → Bool
  | video _ => true
  | audio _ => false

end MediaFrame

structure RecordingFrame where
  receivedAt : Nat
  timestamp : Option Nat
  frame : MediaFrame
  deriving DecidableEq, Repr

namespace RecordingFrame

def byteLen (frame : RecordingFrame) : Nat := frame.frame.byteLen

def isVideoKeyframe (frame : RecordingFrame) : Bool := frame.frame.isVideoKeyframe

def isVideo (frame : RecordingFrame) : Bool := frame.frame.isVideo

theorem isVideo_of_isVideoKeyframe {f : RecordingFrame}
    (h : f.isVideoKeyframe = true) : f.isVideo = true := by
  cases f with
  | mk receivedAt timestamp media =>
    cases media with
    | video v => rfl
    | audio a => exact absurd h (by simp [isVideoKeyframe, MediaFrame.isVideoKeyframe])

end RecordingFrame

/-- A video frame of one byte, as the examples of this development use it. -/
def videoFrame (isKeyframe : Bool) (receivedAt : Nat) : RecordingFrame :=
  ⟨receivedAt, none, .video ⟨.h264, isKeyframe, 1920, 1080, [0]⟩⟩

/-- The part of a stream a recording can keep: everything from its first video
keyframe on. -/
def fromFirstKeyframe (frames : List RecordingFrame) : List RecordingFrame :=
  frames.dropWhile fun frame => !frame.isVideoKeyframe

@[simp] theorem fromFirstKeyframe_nil : fromFirstKeyframe [] = [] := rfl

theorem fromFirstKeyframe_cons_key {f : RecordingFrame} (h : f.isVideoKeyframe = true)
    (fs : List RecordingFrame) : fromFirstKeyframe (f :: fs) = f :: fs := by
  simp [fromFirstKeyframe, h]

theorem fromFirstKeyframe_cons_delta {f : RecordingFrame} (h : f.isVideoKeyframe = false)
    (fs : List RecordingFrame) :
    fromFirstKeyframe (f :: fs) = fromFirstKeyframe fs := by
  simp [fromFirstKeyframe, h]

@[simp] theorem fromFirstKeyframe_idem (fs : List RecordingFrame) :
    fromFirstKeyframe (fromFirstKeyframe fs) = fromFirstKeyframe fs :=
  List.dropWhile_idempotent _ fs

theorem fromFirstKeyframe_append (left right : List RecordingFrame) :
    fromFirstKeyframe (left ++ right) = if fromFirstKeyframe left =
      [] then fromFirstKeyframe right else fromFirstKeyframe left ++ right := by
  induction left with
  | nil => simp
  | cons frame left ih =>
    cases h : frame.isVideoKeyframe with
    | true => simp [fromFirstKeyframe_cons_key h]
    | false => simp [fromFirstKeyframe_cons_delta h, ih]

theorem fromFirstKeyframe_eq_nil {fs : List RecordingFrame} :
    fromFirstKeyframe fs = [] ↔ ∀ frame ∈ fs, frame.isVideoKeyframe = false := by
  simp [fromFirstKeyframe, List.dropWhile_eq_nil_iff]

theorem length_fromFirstKeyframe_le (fs : List RecordingFrame) :
    (fromFirstKeyframe fs).length ≤ fs.length :=
  List.length_dropWhile_le _ _

theorem fromFirstKeyframe_head {fs : List RecordingFrame} {first : RecordingFrame}
    (h : (fromFirstKeyframe fs).head? = some first) : first.isVideoKeyframe = true := by
  induction fs with
  | nil => simp at h
  | cons frame fs ih =>
    cases hkey : frame.isVideoKeyframe with
    | true =>
      rw [fromFirstKeyframe_cons_key hkey] at h
      rw [← Option.some.inj h]
      exact hkey
    | false =>
      rw [fromFirstKeyframe_cons_delta hkey] at h
      exact ih h

end KeepPeek.Storage
