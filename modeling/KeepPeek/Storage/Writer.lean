import KeepPeek.Storage.ShortTerm
import Mathlib.Logic.Function.Basic

/-! The storage writer worker: ingest into the short-term buffer, flushes to the
open medium-term segment, rotation and shutdown. File operations are assumed to
succeed, so a segment is the log of the frames handed to it. Command queueing,
health reporting, storage cleanup and the move to long-term storage are not part
of this model. -/
namespace KeepPeek.Storage

structure StorageConfig where
  shortTermDuration : Nat
  flushInterval : Nat
  mediumTermDuration : Nat
  deriving DecidableEq, Repr

def StorageConfig.isDirectWrite (config : StorageConfig) : Bool :=
  config.shortTermDuration == 0 && config.flushInterval == 0

/-- A segment being recorded, with the frames appended to it so far. -/
structure MediumTermWriter where
  startedAt : Nat
  frames : List RecordingFrame
  deriving DecidableEq, Repr

namespace MediumTermWriter

def create (startedAt : Nat) : MediumTermWriter := ⟨startedAt, []⟩

def appendBatch (writer : MediumTermWriter) (frames : List RecordingFrame) : MediumTermWriter :=
  { writer with frames := writer.frames ++ frames }

def appendOne (writer : MediumTermWriter) (frame : RecordingFrame) : MediumTermWriter :=
  writer.appendBatch [frame]

def elapsed (writer : MediumTermWriter) (now : Nat) : Nat := now - writer.startedAt

end MediumTermWriter

structure Clock where
  created : Nat
  tested : Nat
  flushed : Nat
  cutoff : Nat
  rotation : Nat
  deriving DecidableEq, Repr

structure CameraPipeline where
  shortTerm : ShortTermBuffer
  mediumTerm : Option MediumTermWriter
  lastFlush : Nat
  finalized : List MediumTermWriter
  deriving DecidableEq, Repr

structure WriteProgress where
  wrote : Bool
  deriving DecidableEq, Repr

namespace CameraPipeline

def new (config : StorageConfig) (now : Nat) : CameraPipeline where
  shortTerm := .new (Duration.saturatingAdd config.shortTermDuration config.flushInterval)
  mediumTerm := none
  lastFlush := now
  finalized := []

def segments (pipeline : CameraPipeline) : List MediumTermWriter :=
  pipeline.finalized ++ pipeline.mediumTerm.toList

def appended (pipeline : CameraPipeline) : List RecordingFrame :=
  pipeline.segments.flatMap MediumTermWriter.frames

def needsRotation (config : StorageConfig) (pipeline : CameraPipeline) (now : Nat) : Bool :=
  pipeline.mediumTerm.any fun writer => decide (config.mediumTermDuration ≤ writer.elapsed now)

def writeFrameToPipeline (config : StorageConfig) (pipeline : CameraPipeline)
    (frame : RecordingFrame) (clock : Clock) : CameraPipeline × WriteProgress :=
  let pipeline :=
    if pipeline.needsRotation config clock.rotation && frame.isVideoKeyframe then
      { pipeline with
        mediumTerm := none
        finalized := pipeline.finalized ++ pipeline.mediumTerm.toList }
    else pipeline
  match pipeline.mediumTerm with
  | some writer =>
    ({ pipeline with mediumTerm := some (writer.appendOne frame) }, ⟨true⟩)
  | none =>
    if !frame.isVideoKeyframe then (pipeline, ⟨false⟩)
    else
      ({ pipeline with
          mediumTerm := some ((MediumTermWriter.create frame.receivedAt).appendOne frame) },
        ⟨true⟩)

/-- Close the open segment: the frames before the first keyframe of the batch,
or the whole batch when it has none, still go to the old writer. -/
def rotate (pipeline : CameraPipeline) (writer : MediumTermWriter)
    (frames : List RecordingFrame) (progress : WriteProgress) :
    CameraPipeline × List RecordingFrame × WriteProgress :=
  let (old, frames, progress) :=
    match frames.findIdx? RecordingFrame.isVideoKeyframe with
    | some index =>
      if 0 < index then (writer.appendBatch (frames.take index), frames.drop index, ⟨true⟩)
      else (writer, frames, progress)
    | none => (writer.appendBatch frames, [], ⟨true⟩)
  ({ pipeline with mediumTerm := none, finalized := pipeline.finalized ++ [old] },
    frames, progress)

/-- Open a segment at the first keyframe of the batch, dropping what precedes it. -/
def openSegment (pipeline : CameraPipeline) (frames : List RecordingFrame) :
    CameraPipeline × List RecordingFrame :=
  match frames.findIdx? RecordingFrame.isVideoKeyframe with
  | none => (pipeline, [])
  | some index =>
    match frames.drop index with
    | [] => (pipeline, [])
    | first :: rest =>
      ({ pipeline with mediumTerm := some (.create first.receivedAt) }, first :: rest)

def appendRest (pipeline : CameraPipeline) (frames : List RecordingFrame)
    (progress : WriteProgress) : CameraPipeline × WriteProgress :=
  let (pipeline, frames) :=
    if !frames.isEmpty && pipeline.mediumTerm.isNone then pipeline.openSegment frames
    else (pipeline, frames)
  if frames.isEmpty then (pipeline, progress)
  else
    ({ pipeline with mediumTerm := pipeline.mediumTerm.map (·.appendBatch frames) }, ⟨true⟩)

def writeBatch (config : StorageConfig) (pipeline : CameraPipeline)
    (frames : List RecordingFrame) (now : Nat) : CameraPipeline × WriteProgress :=
  if frames.isEmpty then (pipeline, ⟨false⟩)
  else
    match pipeline.mediumTerm with
    | some writer =>
      if pipeline.needsRotation config now then
        let (pipeline, frames, progress) := pipeline.rotate writer frames ⟨false⟩
        pipeline.appendRest frames progress
      else pipeline.appendRest frames ⟨false⟩
    | none => pipeline.appendRest frames ⟨false⟩

def flushCamera (config : StorageConfig) (pipeline : CameraPipeline) (publishAll : Bool)
    (clock : Clock) : CameraPipeline × WriteProgress :=
  let pipeline := { pipeline with lastFlush := clock.flushed }
  let (frames, shortTerm) :=
    if publishAll then pipeline.shortTerm.drainAll
    else
      match Instant.checkedSub clock.cutoff config.shortTermDuration with
      | none => ([], pipeline.shortTerm)
      | some cutoff => pipeline.shortTerm.drainUpToLastKeyframeBefore cutoff
  writeBatch config { pipeline with shortTerm := shortTerm } frames clock.rotation

/-- Ingest into an existing pipeline. `active` is viewer demand for the stream. -/
def ingest (config : StorageConfig) (pipeline : CameraPipeline) (active : Bool)
    (frame : RecordingFrame) (clock : Clock) : CameraPipeline :=
  if config.isDirectWrite then (pipeline.writeFrameToPipeline config frame clock).1
  else
    let pipeline := { pipeline with shortTerm := pipeline.shortTerm.push frame }
    if active || decide (config.flushInterval ≤ clock.tested - pipeline.lastFlush) then
      (pipeline.flushCamera config active clock).1
    else pipeline

def drainRemaining (pipeline : CameraPipeline) : CameraPipeline :=
  let (frames, shortTerm) := pipeline.shortTerm.drainAll
  let pipeline := { pipeline with shortTerm := shortTerm }
  if frames.isEmpty then pipeline
  else
    let (pipeline, frames) :=
      match pipeline.mediumTerm with
      | some _ => (pipeline, frames)
      | none => pipeline.openSegment frames
    { pipeline with mediumTerm := pipeline.mediumTerm.map (·.appendBatch frames) }

end CameraPipeline

structure WriterWorker where
  config : StorageConfig
  pipelines : String → Option CameraPipeline

namespace WriterWorker

def new (config : StorageConfig) : WriterWorker := ⟨config, fun _ => none⟩

def pipelineFor (worker : WriterWorker) (storageKey : String) (now : Nat) : CameraPipeline :=
  (worker.pipelines storageKey).getD (.new worker.config now)

def ingest (worker : WriterWorker) (storageKey : String) (active : Bool)
    (frame : RecordingFrame) (clock : Clock) : WriterWorker :=
  let pipeline := worker.pipelineFor storageKey clock.created
  { worker with
    pipelines := Function.update worker.pipelines storageKey
      (some (pipeline.ingest worker.config active frame clock)) }

/-- Pipelines are flushed one after the other and do not touch each other, so
every one of them sees its own clock readings. -/
def flushAll (worker : WriterWorker) (clock : String → Clock) : WriterWorker :=
  { worker with
    pipelines := fun storageKey => (worker.pipelines storageKey).map fun pipeline =>
      (pipeline.flushCamera worker.config false (clock storageKey)).1 }

def shutdownFlush (worker : WriterWorker) (clock : String → Clock) : WriterWorker :=
  let worker := worker.flushAll clock
  { worker with
    pipelines := fun storageKey =>
      (worker.pipelines storageKey).map CameraPipeline.drainRemaining }

end WriterWorker

end KeepPeek.Storage
