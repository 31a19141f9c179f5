import KeepPeek.Lib.Limits
import KeepPeek.Lib.Run
import KeepPeek.Lib.TreeMap

/-! The volume ledger of `storage/catalog/locations`: bindings, allocations, the move
journal and recording retirements, with the triggers of `schema.sql` that keep the
byte counters. A write that breaks a constraint aborts its transaction, here `none`.
What other tables answer (exports, images, archives, maintenance claims, protection)
comes with the call as `permitted`. -/
namespace KeepPeek.Volumes

open Lib

inductive Kind
  | recording
  | exported
  | thumbnail
deriving DecidableEq, Repr

structure Object where
  kind : Kind
  id : String
deriving DecidableEq, Repr

abbrev Digest := BitVec 256

inductive State
  | reserved
  | published
  | cancelled
deriving DecidableEq, Repr

/-- A row of `storage_volume_bindings`. -/
structure Binding where
  generation : Nat
  root : String
  filesystem : String
  rootIdentity : String
  writable : Bool
  draining : Bool
  operatorDraining : Bool
  limitBytes : Option Nat
  minimumFreeBytes : Nat
  allocatedBytes : Int
  reservedBytes : Int
deriving DecidableEq, Repr

/-- A row of `storage_volume_allocations`. -/
structure Row where
  object : Object
  volume : String
  generation : Nat
  relativeKey : String
  destinationPath : String
  bytes : Nat
  intentBytes : Nat
  materializedBytes : Nat
  state : State
  fileIdentity : Option String
  digest : Option Digest
  locationRevision : Nat
deriving DecidableEq, Repr

inductive Phase
  | reserved
  | verified
  | filePublished
  | published
  | retiring
  | complete
  | cancelled
deriving DecidableEq, Repr

def Phase.superseded : Phase → Bool
  | .published | .retiring | .complete => true
  | _ => false

inductive Cancellation
  | empty
  | file (relativeKey : String) (bytes : Nat) (fileIdentity : String) (digest : Digest)
deriving DecidableEq, Repr

/-- A row of `storage_volume_moves`. -/
structure Move where
  rowid : Nat
  object : Object
  sourceOperation : String
  destinationOperation : String
  sourceRevision : Nat
  cancellationRequested : Bool
  receiptAcknowledged : Bool
  cancellation : Option Cancellation
  phase : Phase
deriving DecidableEq, Repr

/-- The columns of `recording_files` the ledger reads and writes. -/
structure RecordingFile where
  path : String
  finalized : Bool
  fileBytes : Nat
  fileIdentity : Option String
deriving DecidableEq, Repr

/-- A row of `storage_recording_retirements`. -/
structure Retirement where
  recordingId : String
  volume : String
  complete : Bool
  acknowledged : Bool
deriving DecidableEq, Repr

structure Ledger where
  bindings : Std.ExtTreeMap String Binding
  allocations : Std.ExtTreeMap String Row
  moves : Std.ExtTreeMap String Move
  recordings : Std.ExtTreeMap String RecordingFile
  retirements : Std.ExtTreeMap String Retirement
  revision : Nat
  pendingCount : Int

/-- Probed by the caller; `fresh` of the call says it is not older than its lifetime. -/
structure Capacity where
  ledgerRevision : Nat
  availableBytes : Nat
  filesystem : String
  rootIdentity : String
deriving DecidableEq, Repr

structure Allocation where
  operation : String
  object : Object
  volume : String
  generation : Nat
  relativeKey : String
  bytes : Nat
  capacity : Capacity
deriving DecidableEq, Repr

structure Publication where
  operation : String
  bytes : Nat
  fileIdentity : String
  digest : Digest
deriving DecidableEq, Repr

structure Location where
  object : Object
  volume : String
  generation : Nat
  relativeKey : String
  revision : Nat
  bytes : Nat
  fileIdentity : String
  digest : Digest
deriving DecidableEq, Repr

def maxBindings : Nat := 37

def maxPendingAllocations : Int := 4096

def Row.owned (row : Row) : Int := if row.state = .cancelled then 0 else row.bytes

def Row.outstanding (row : Row) : Int :=
  if row.state = .reserved then (row.bytes : Int) - row.materializedBytes else 0

def Row.pending (row : Row) : Int := if row.state = .reserved then 1 else 0

def Row.valid (row : Row) : Bool :=
  decide (0 < row.bytes) && (decide (0 < row.intentBytes) &&
    decide (row.materializedBytes ≤ row.bytes))

def sameText (left right : String) : Bool :=
  left.toList.map Char.toLower == right.toList.map Char.toLower

def Row.conflicts (row other : Row) : Bool :=
  decide (row.object = other.object) ||
    (decide (row.volume = other.volume) && sameText row.relativeKey other.relativeKey) ||
    sameText row.destinationPath other.destinationPath

/-- `row.get` of identity and digest fails on `NULL`. -/
def Row.location (row : Row) (object : Object) (revision : Nat) : Option Location :=
  match row.fileIdentity, row.digest with
  | some fileIdentity, some digest =>
    some ⟨object, row.volume, row.generation, row.relativeKey, revision, row.bytes,
      fileIdentity, digest⟩
  | _, _ => none

def joinPath (root key : String) : String := root ++ "/" ++ key

def Binding.adjust (binding : Binding) (owned outstanding : Int) : Binding :=
  { binding with
    allocatedBytes := binding.allocatedBytes + owned
    reservedBytes := binding.reservedBytes + outstanding }

/-- The `CHECK`s of the counters; a sum that leaves 64 bits is no integer any more. -/
def counter (value : Int) : Bool := decide (0 ≤ value) && decide (value ≤ i64Max)

namespace Ledger

def initial : Ledger := ⟨∅, ∅, ∅, ∅, ∅, 1, 0⟩

def setBindings (ledger : Ledger) (bindings : Std.ExtTreeMap String Binding) : Ledger :=
  { ledger with bindings := bindings }

def setAllocation (ledger : Ledger) (operation : String) (row : Row) : Ledger :=
  { ledger with allocations := ledger.allocations.insert operation row }

def setMoves (ledger : Ledger) (moves : Std.ExtTreeMap String Move) : Ledger :=
  { ledger with moves := moves }

def setRecordings (ledger : Ledger) (recordings : Std.ExtTreeMap String RecordingFile) : Ledger :=
  { ledger with recordings := recordings }

def setRetirements (ledger : Ledger) (retirements : Std.ExtTreeMap String Retirement) : Ledger :=
  { ledger with retirements := retirements }

def setPending (ledger : Ledger) (pendingCount : Int) : Ledger :=
  { ledger with pendingCount := pendingCount }

def setRevision (ledger : Ledger) (revision : Nat) : Ledger :=
  { ledger with revision := revision }

def bumpRevision (ledger : Ledger) : Option Ledger :=
  if ledger.revision < i64Max then some (ledger.setRevision (ledger.revision + 1)) else none

def adjustBinding (ledger : Ledger) (volume : String) (owned outstanding : Int) : Option Ledger :=
  match ledger.bindings[volume]? with
  | none => some ledger
  | some binding =>
    if counter (binding.adjust owned outstanding).allocatedBytes &&
        counter (binding.adjust owned outstanding).reservedBytes then
      some (ledger.setBindings (ledger.bindings.insert volume (binding.adjust owned outstanding)))
    else none

def adjustPending (ledger : Ledger) (change : Int) : Option Ledger :=
  if counter (ledger.pendingCount + change) then some
    (ledger.setPending (ledger.pendingCount + change))
  else none

def uniqueRow (ledger : Ledger) (operation : String) (row : Row) : Bool :=
  ledger.allocations.toList.all fun entry =>
    decide (entry.1 = operation) || !row.conflicts entry.2

def insertRow (ledger : Ledger) (operation : String) (row : Row) : Option Ledger :=
  if ledger.allocations[operation]?.isNone && (row.valid && ledger.uniqueRow operation row) then do
    let ledger := ledger.setAllocation operation row
    let ledger ← ledger.adjustBinding row.volume row.owned row.outstanding
    ledger.adjustPending row.pending
  else none

def updateRow (ledger : Ledger) (operation : String) (old row : Row) : Option Ledger :=
  if row.valid && ledger.uniqueRow operation row then do
    let ledger := ledger.setAllocation operation row
    let ledger ← ledger.adjustBinding old.volume (-old.owned) (-old.outstanding)
    let ledger ← ledger.adjustBinding row.volume row.owned row.outstanding
    ledger.adjustPending (row.pending - old.pending)
  else none

def filesystemReserved (ledger : Ledger) (filesystem : String) : Int :=
  total (fun _ (binding : Binding) => if binding.filesystem = filesystem
    then binding.reservedBytes else 0)
    ledger.bindings

/-- `admission`; `archived` is what archive replicas still have to write there. -/
def admission (ledger : Ledger) (allocation : Allocation) (newAllocation : Bool) (archived : Nat) :
    Option String := do
  let binding ← ledger.bindings[allocation.volume]?
  guard (binding.generation = allocation.generation ∧ binding.writable = true)
  guard (newAllocation = false ∨ (binding.draining || binding.operatorDraining) = false)
  guard (allocation.capacity.filesystem = binding.filesystem ∧
    allocation.capacity.rootIdentity = binding.rootIdentity)
  let reserved := ledger.filesystemReserved binding.filesystem + archived
  guard (0 ≤ binding.allocatedBytes ∧ 0 ≤ reserved)
  guard (binding.allocatedBytes + allocation.bytes ≤ i64Max)
  guard (reserved + allocation.bytes ≤ i64Max)
  guard (newAllocation = false ∨ ledger.pendingCount < maxPendingAllocations)
  guard (allocation.bytes ≤
    allocation.capacity.availableBytes - reserved.toNat - binding.minimumFreeBytes)
  guard (∀ limit ∈ binding.limitBytes, allocation.bytes ≤ limit - binding.allocatedBytes.toNat)
  some (joinPath binding.root allocation.relativeKey)

/-- Answers from outside the ledger: whether other tables permit the request,
whether the capacity observation is still fresh, and what archive replicas still write. -/
structure Answers where
  permitted : Bool
  fresh : Bool
  archived : Nat
deriving DecidableEq, Repr

def reservedRow (allocation : Allocation) (path : String) : Row where
  object := allocation.object
  volume := allocation.volume
  generation := allocation.generation
  relativeKey := allocation.relativeKey
  destinationPath := path
  bytes := allocation.bytes
  intentBytes := allocation.bytes
  materializedBytes := 0
  state := .reserved
  fileIdentity := none
  digest := none
  locationRevision := 0

def sameIntent (row : Row) (allocation : Allocation) : Bool :=
  decide (row.object = allocation.object) && (decide (row.volume = allocation.volume) &&
    (decide (row.generation = allocation.generation) &&
      (decide (row.relativeKey = allocation.relativeKey) && decide (row.intentBytes =
        allocation.bytes))))

def observed (ledger : Ledger) (capacity : Capacity) (answers : Answers) : Bool :=
  answers.fresh && decide (capacity.ledgerRevision = ledger.revision)

def reserve (ledger : Ledger) (allocation : Allocation) (answers : Answers) : Option Ledger :=
  if answers.permitted then
    match ledger.allocations[allocation.operation]? with
    | some row => if sameIntent row allocation && decide (row.state = .reserved) then some ledger
        else none
    | none =>
      if ledger.observed allocation.capacity answers then do
        let path ← ledger.admission allocation true answers.archived
        let ledger ← ledger.insertRow allocation.operation (reservedRow allocation path)
        ledger.bumpRevision
      else none
  else none

structure Growth where
  operation : String
  bytes : Nat
  capacity : Capacity
deriving DecidableEq, Repr

def moveWritable (ledger : Ledger) (operation : String) : Bool :=
  ledger.moves.toList.all fun entry =>
    !(decide (entry.2.destinationOperation = operation) &&
      (decide (entry.2.phase ≠ .reserved) || entry.2.cancellationRequested))

def growthAllocation (growth : Growth) (row : Row) : Allocation :=
  ⟨growth.operation, row.object, row.volume, row.generation, row.relativeKey,
    growth.bytes - row.bytes, growth.capacity⟩

def withBytes (row : Row) (bytes : Nat) : Row := { row with bytes := bytes }

def grow (ledger : Ledger) (growth : Growth) (answers : Answers) : Option Ledger :=
  match ledger.allocations[growth.operation]? with
  | none => none
  | some row =>
    if answers.permitted && (ledger.moveWritable growth.operation && decide (row.state =
      .reserved)) then
      if growth.bytes ≤ row.bytes then some ledger
      else if ledger.observed growth.capacity answers then do
        let _ ← ledger.admission (growthAllocation growth row) false answers.archived
        let ledger ← ledger.updateRow growth.operation row (withBytes row growth.bytes)
        ledger.bumpRevision
      else none
    else none

structure Materialization where
  operation : String
  bytes : Nat
  fileIdentity : String
deriving DecidableEq, Repr

def materialized (row : Row) (bytes : Nat) (fileIdentity : String) : Row :=
  { row with materializedBytes := bytes, fileIdentity := some fileIdentity }

def identityAgrees (row : Row) (fileIdentity : String) : Bool :=
  row.fileIdentity.all fun recorded => decide (recorded = fileIdentity)

def checkpoint (ledger : Ledger) (request : Materialization) (answers : Answers) : Option Ledger :=
  match ledger.allocations[request.operation]? with
  | none => none
  | some row =>
    if answers.permitted && (ledger.moveWritable request.operation &&
      (decide (row.state = .reserved) &&
        (decide (row.materializedBytes ≤ request.bytes) && (decide (request.bytes ≤ row.bytes) &&
          identityAgrees row request.fileIdentity)))) then
      if row.materializedBytes ≠ request.bytes ∨ row.fileIdentity = none then do
        let ledger ← ledger.updateRow request.operation row
          (materialized row request.bytes request.fileIdentity)
        ledger.bumpRevision
      else some ledger
    else none

def hidden (ledger : Ledger) (operation : String) : Bool :=
  ledger.moves.toList.any fun entry =>
    decide (entry.2.sourceOperation = operation) && entry.2.phase.superseded

/-- `lookup`: the one published row of the object that no move has superseded. -/
def lookupRow (ledger : Ledger) (object : Object) : Option (String × Row) :=
  ledger.allocations.toList.find? fun entry =>
    decide (entry.2.object = object) && (decide (entry.2.state = .published) &&
      !ledger.hidden entry.1)

def lookup (ledger : Ledger) (object : Object) : Option Location :=
  (ledger.lookupRow object).bind fun entry => entry.2.location object entry.2.locationRevision

def recordingAt (ledger : Ledger) (row : Row) : Option RecordingFile :=
  (ledger.recordings[row.object.id]?).filter fun recording =>
    (ledger.bindings[row.volume]?).any fun binding =>
      decide (recording.path = joinPath binding.root row.relativeKey)

def validateRecordingLocation (ledger : Ledger) (row : Row) : Bool :=
  decide (row.object.kind ≠ .recording) || (ledger.recordingAt row).any RecordingFile.finalized

def publishedRow (row : Row) (publication : Publication) : Row :=
  { row with
    state := .published
    bytes := publication.bytes
    fileIdentity := some publication.fileIdentity
    digest := some publication.digest
    locationRevision := 1 }

def journaled (ledger : Ledger) (operation : String) : Bool :=
  (ledger.moves.toList.any fun entry => decide (entry.2.destinationOperation = operation)) ||
    ledger.hidden operation

def publish (ledger : Ledger) (publication : Publication) (answers : Answers) : Option Ledger :=
  if answers.permitted && !ledger.journaled publication.operation then
    match ledger.allocations[publication.operation]? with
    | none => none
    | some row =>
      match row.state with
      | .published =>
        if row.bytes = publication.bytes ∧ row.fileIdentity = some publication.fileIdentity ∧
            row.digest = some publication.digest then some ledger
        else none
      | .reserved =>
        if decide (publication.bytes ≤ row.bytes) && (identityAgrees row publication.fileIdentity &&
            ledger.validateRecordingLocation row) then do
          let ledger ← ledger.updateRow publication.operation row (publishedRow row publication)
          ledger.bumpRevision
        else none
      | .cancelled => none
  else none

def finalizedFile (recording : RecordingFile) (publication : Publication) : RecordingFile :=
  { recording with
    finalized := true
    fileBytes := publication.bytes
    fileIdentity := some publication.fileIdentity }

def finalize (ledger : Ledger) (publication : Publication) (answers : Answers) : Option Ledger :=
  match ledger.allocations[publication.operation]? with
  | none => none
  | some row =>
    if row.object.kind = .recording then
      match ledger.recordingAt row with
      | none => none
      | some recording =>
        if row.state = .published then
          if recording.finalized then ledger.publish publication answers else none
        else if row.state = .reserved ∧ recording.finalized = false then
          (ledger.setRecordings
            (ledger.recordings.insert row.object.id (finalizedFile recording publication))).publish
            publication answers
        else none
    else none

/-- What `bind` is told; the counters of a new binding start at zero. -/
structure BindingConfig where
  generation : Nat
  root : String
  filesystem : String
  rootIdentity : String
  writable : Bool
  draining : Bool
  limitBytes : Option Nat
  minimumFreeBytes : Nat
deriving DecidableEq, Repr

def newBinding (config : BindingConfig) : Binding where
  generation := config.generation
  root := config.root
  filesystem := config.filesystem
  rootIdentity := config.rootIdentity
  writable := config.writable
  draining := config.draining
  operatorDraining := false
  limitBytes := config.limitBytes
  minimumFreeBytes := config.minimumFreeBytes
  allocatedBytes := 0
  reservedBytes := 0

def rebound (binding : Binding) (config : BindingConfig) : Binding :=
  { binding with
    writable := config.writable
    draining := config.draining
    limitBytes := config.limitBytes
    minimumFreeBytes := config.minimumFreeBytes }

/-- `check_binding` and the upsert of `bind`. -/
def bind (ledger : Ledger) (id : String) (config : BindingConfig) : Option Ledger :=
  let aliased := ledger.bindings.toList.any fun entry =>
    decide (entry.1 ≠ id) && (decide (entry.2.filesystem = config.filesystem) &&
      decide (entry.2.rootIdentity = config.rootIdentity))
  match ledger.bindings[id]? with
  | some binding =>
    if (decide (binding.generation = config.generation) && (decide (binding.root = config.root) &&
        (decide (binding.filesystem = config.filesystem) &&
          decide (binding.rootIdentity = config.rootIdentity)))) && !aliased then
      (ledger.setBindings (ledger.bindings.insert id (rebound binding config))).bumpRevision
    else none
  | none =>
    if decide (ledger.bindings.size < maxBindings) && !aliased then
      (ledger.setBindings (ledger.bindings.insert id (newBinding config))).bumpRevision
    else none

def drained (binding : Binding) (draining : Bool) : Binding :=
  { binding with operatorDraining := draining }

def setDraining (ledger : Ledger) (volume : String) (generation : Nat) (draining : Bool) :
    Option Ledger :=
  match ledger.bindings[volume]? with
  | none => none
  | some binding =>
    if binding.generation = generation then
      if binding.operatorDraining = draining then some ledger
      else (ledger.setBindings (ledger.bindings.insert volume
        (drained binding draining))).bumpRevision
    else none

end Ledger

end KeepPeek.Volumes
