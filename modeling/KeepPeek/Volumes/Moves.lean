import KeepPeek.Volumes.Ledger

/-! The move journal: `moves.rs` and `moves/cancellation.rs`, the retirement of
recordings in `recordings.rs`, and the requests of the ledger as one step function. -/
namespace KeepPeek.Volumes

open Lib

namespace Phase

def finished : Phase → Bool
  | .complete | .cancelled => true
  | _ => false

def early : Phase → Bool
  | .reserved | .verified | .filePublished => true
  | _ => false

end Phase

namespace Ledger

structure Intent where
  id : String
  object : Object
  expectedRevision : Nat
  destination : Allocation
deriving DecidableEq, Repr

inductive Step
  | verified (evidence : Publication)
  | filePublished (id : String)
  | publish (id : String)
  | cancel (id : String)
  | retiring (id : String)
  | retired (evidence : Publication)
  | acknowledged (id : String)
  | cancellationVerified (id : String) (evidence : Cancellation)
  | cancelled (id : String)
deriving DecidableEq, Repr

def Step.id : Step → String
  | .verified evidence | .retired evidence => evidence.operation
  | .filePublished id | .publish id | .cancel id | .retiring id | .acknowledged id
  | .cancellationVerified id _ | .cancelled id => id

structure Job where
  id : String
  move : Move
  sourceRow : Row
  source : Location
  destination : Row
deriving DecidableEq, Repr

def load (ledger : Ledger) (id : String) : Option Job := do
  let move ← ledger.moves[id]?
  let row ← ledger.allocations[move.sourceOperation]?
  let destination ← ledger.allocations[move.destinationOperation]?
  let source ← row.location move.object move.sourceRevision
  some ⟨id, move, row, source, destination⟩

/-- `validate_move`: the destination is named after the move. -/
def validIntent (intent : Intent) : Bool :=
  decide (0 < intent.expectedRevision) && (decide (intent.destination.operation = intent.id) &&
    (decide (intent.destination.object = ⟨intent.object.kind, intent.id⟩) &&
      decide (intent.object.id ≠ intent.id)))

def recordingActive (ledger : Ledger) (object : Object) : Bool :=
  decide (object.kind ≠ .recording) ||
    !(ledger.retirements.toList.any fun entry => decide (entry.2.recordingId = object.id))

def receipts : Nat := 1024

/-- A terminal receipt that `admit_job` may forget: acknowledged, with 1024 newer
terminal ones. -/
def forgettable (ledger : Ledger) (move : Move) : Bool :=
  move.phase.finished && (move.receiptAcknowledged &&
    decide (receipts ≤ ledger.moves.toList.countP fun entry =>
      entry.2.phase.finished && decide (move.rowid < entry.2.rowid)))

def forgetReceipts (ledger : Ledger) : Ledger :=
  ledger.setMoves (ledger.moves.filter fun _ move => !ledger.forgettable move)

def activeMoves (ledger : Ledger) : Nat :=
  ledger.moves.toList.countP fun entry => !entry.2.phase.finished || !entry.2.receiptAcknowledged

def nextRowid (ledger : Ledger) : Nat :=
  ledger.moves.toList.foldl (fun largest entry => max largest entry.2.rowid) 0 + 1

def insertMove (ledger : Ledger) (id : String) (move : Move) : Option Ledger :=
  if ledger.moves[id]?.isNone && (ledger.moves.toList.all fun entry =>
      decide (entry.2.destinationOperation ≠ move.destinationOperation) &&
        (entry.2.phase.finished || decide (entry.2.object ≠ move.object))) then
    some (ledger.setMoves (ledger.moves.insert id move))
  else none

def newMove (ledger : Ledger) (intent : Intent) (source : String) (row : Row) : Move where
  rowid := ledger.nextRowid
  object := intent.object
  sourceOperation := source
  destinationOperation := intent.destination.operation
  sourceRevision := row.locationRevision
  cancellationRequested := false
  receiptAcknowledged := false
  cancellation := none
  phase := .reserved

def sameMove (ledger : Ledger) (move : Move) (intent : Intent) : Bool :=
  decide (move.object = intent.object) && (decide (move.sourceRevision = intent.expectedRevision) &&
    (decide (move.destinationOperation = intent.destination.operation) &&
      (ledger.allocations[intent.destination.operation]?).any fun row =>
        decide (row.volume = intent.destination.volume) &&
          (decide (row.generation = intent.destination.generation) &&
            (decide (row.relativeKey = intent.destination.relativeKey) &&
              decide (row.intentBytes = intent.destination.bytes)))))

def admissible (intent : Intent) (row : Row) : Bool :=
  decide (row.locationRevision = intent.expectedRevision) &&
    (decide (row.volume ≠ intent.destination.volume) && decide (row.bytes ≤
      intent.destination.bytes))

def beginMove (ledger : Ledger) (intent : Intent) (answers : Answers) : Option Ledger :=
  if answers.permitted && (validIntent intent && ledger.recordingActive intent.object) then
    match ledger.moves[intent.id]? with
    | some move => if ledger.sameMove move intent then some ledger else none
    | none =>
      match ledger.lookupRow intent.object with
      | none => none
      | some (source, row) =>
        if (row.location intent.object row.locationRevision).isSome && (admissible intent row &&
            ledger.allocations[intent.destination.operation]?.isNone) then do
          let ledger := ledger.forgetReceipts
          guard (ledger.activeMoves < 4096)
          let ledger ← ledger.reserve intent.destination answers
          let ledger ← ledger.insertMove intent.id (ledger.newMove intent source row)
          ledger.bumpRevision
        else none
  else none

def setMove (ledger : Ledger) (id : String) (move : Move) : Ledger :=
  ledger.setMoves (ledger.moves.insert id move)

def withPhase (move : Move) (phase : Phase) : Move := { move with phase := phase }

def transition (ledger : Ledger) (job : Job) (before after : Phase) : Option Ledger :=
  if job.move.phase = after then some ledger
  else if job.move.phase = before then
    (ledger.setMove job.id (withPhase job.move after)).bumpRevision
  else none

def acknowledgedMove (move : Move) : Move := { move with receiptAcknowledged := true }

def acknowledge (ledger : Ledger) (job : Job) : Option Ledger :=
  if job.move.phase.finished then
    if job.move.receiptAcknowledged then some ledger
    else (ledger.setMove job.id (acknowledgedMove job.move)).bumpRevision
  else none

def cancelRequested (move : Move) : Move := { move with cancellationRequested := true }

def cancel (ledger : Ledger) (job : Job) : Option Ledger :=
  if job.move.phase.early then
    if job.move.cancellationRequested then some ledger
    else (ledger.setMove job.id (cancelRequested job.move)).bumpRevision
  else none

/-- `verify_authority`: the destination is what `lookup` returns. -/
def destinationAuthoritative (ledger : Ledger) (job : Job) : Bool :=
  (ledger.lookup job.move.object).any fun current =>
    decide (current.volume = job.destination.volume) &&
      (decide (current.generation = job.destination.generation) &&
        (decide (current.relativeKey = job.destination.relativeKey) &&
          (decide (some current.fileIdentity = job.destination.fileIdentity) &&
            (decide (current.bytes = job.source.bytes) &&
              (decide (current.digest = job.source.digest) &&
              decide (job.source.revision + 1 = current.revision))))))

def withState (row : Row) (state : State) : Row := { row with state := state }

def retire (ledger : Ledger) (job : Job) (evidence : Publication) : Option Ledger :=
  if evidence.bytes = job.source.bytes ∧ evidence.digest = job.source.digest ∧
      evidence.fileIdentity = job.source.fileIdentity then
    if job.move.phase = .complete then some ledger
    else if job.move.phase = .retiring ∧ ledger.destinationAuthoritative job = true ∧
        job.sourceRow.state = .published then do
      let ledger ← ledger.updateRow job.move.sourceOperation job.sourceRow
        (withState job.sourceRow .cancelled)
      ledger.transition job .retiring .complete
    else none
  else none

def verifiedRow (row : Row) (evidence : Publication) : Row :=
  { row with
    fileIdentity := some evidence.fileIdentity
    digest := some evidence.digest
    materializedBytes := evidence.bytes }

def verify (ledger : Ledger) (job : Job) (evidence : Publication) : Option Ledger :=
  if evidence.bytes = job.source.bytes ∧ evidence.digest = job.source.digest ∧
      job.destination.state = .reserved ∧
      identityAgrees job.destination evidence.fileIdentity = true then
    if job.move.phase = .verified then
      if job.destination.digest = some evidence.digest then some ledger else none
    else if job.move.phase = .reserved ∧ evidence.bytes ≤ job.destination.bytes then do
      let ledger ← ledger.updateRow job.move.destinationOperation job.destination
        (verifiedRow job.destination evidence)
      ledger.transition job .reserved .verified
    else none
  else none

def retiredRow (row : Row) (id : String) : Row :=
  { row with object := ⟨row.object.kind, "retired:" ++ id⟩ }

def movedRow (row : Row) (job : Job) : Row :=
  { row with
    object := job.move.object
    state := .published
    bytes := job.source.bytes
    locationRevision := job.source.revision + 1 }

def movedFile (recording : RecordingFile) (row : Row) : RecordingFile :=
  { recording with path := row.destinationPath, fileIdentity := row.fileIdentity }

def moveRecording (ledger : Ledger) (object : Object) (row : Row) : Option Ledger :=
  if object.kind = .recording then
    match ledger.recordings[object.id]? with
    | some recording =>
      if recording.finalized then
        some (ledger.setRecordings (ledger.recordings.insert object.id (movedFile recording row)))
      else none
    | none => none
  else some ledger

def publishMove (ledger : Ledger) (job : Job) : Option Ledger :=
  if job.move.phase = .published then some ledger
  else if job.move.phase = .filePublished ∧
      ledger.lookup job.move.object = some job.source ∧ job.source.revision < i64Max ∧
      job.destination.state = .reserved ∧ job.destination.fileIdentity.isSome = true ∧
      job.destination.digest = some job.source.digest then do
    let ledger ← ledger.updateRow job.move.sourceOperation job.sourceRow
      (retiredRow job.sourceRow job.id)
    let ledger ← ledger.moveRecording job.move.object job.destination
    let ledger ← ledger.updateRow job.move.destinationOperation job.destination
      (movedRow job.destination job)
    ledger.transition job .filePublished .published
  else none

/-- `validate_evidence`. -/
def validEvidence (job : Job) : Cancellation → Bool
  | .empty =>
    job.destination.fileIdentity.isNone && (decide (job.destination.materializedBytes = 0) &&
      decide (job.move.phase = .reserved))
  | .file relativeKey bytes fileIdentity digest =>
    (decide (relativeKey = job.destination.relativeKey) || decide (relativeKey =
      job.id ++ ".tmp")) &&
      (decide (some fileIdentity = job.destination.fileIdentity) &&
        (decide (job.destination.materializedBytes ≤ bytes) &&
          (decide (bytes ≤ job.destination.bytes) &&
          ((decide (job.move.phase = .reserved) ||
            (decide (bytes = job.source.bytes) && decide (digest = job.source.digest))) &&
            (decide (job.move.phase ≠ .filePublished) ||
              decide (relativeKey = job.destination.relativeKey))))))

def withCancellation (move : Move) (evidence : Cancellation) : Move :=
  { move with cancellation := some evidence }

def verifyCancellation (ledger : Ledger) (job : Job) (evidence : Cancellation) : Option Ledger :=
  if job.move.cancellationRequested then
    match job.move.cancellation with
    | some existing => if existing = evidence then some ledger else none
    | none =>
      if job.move.phase.early = true ∧ ledger.lookup job.move.object = some job.source ∧
          validEvidence job evidence = true then
        (ledger.setMove job.id (withCancellation job.move evidence)).bumpRevision
      else none
  else none

def completeCancellation (ledger : Ledger) (job : Job) : Option Ledger :=
  if job.move.cancellationRequested = true ∧ job.move.cancellation.isSome = true then
    if job.move.phase = .cancelled then some ledger
    else if job.move.phase.early = true ∧ ledger.lookup job.move.object = some job.source ∧
        job.destination.state = .reserved then do
      let ledger ← ledger.updateRow job.move.destinationOperation job.destination
        (withState job.destination .cancelled)
      ledger.transition job job.move.phase .cancelled
    else none
  else none

def Step.cancelling : Step → Bool
  | .cancel _ | .cancellationVerified _ _ | .cancelled _ | .acknowledged _ => true
  | _ => false

def advanceJob (ledger : Ledger) (job : Job) : Step → Option Ledger
  | .verified evidence => ledger.verify job evidence
  | .filePublished _ => ledger.transition job .verified .filePublished
  | .publish _ => ledger.publishMove job
  | .retiring _ =>
    if ledger.destinationAuthoritative job then ledger.transition job .published .retiring else none
  | .retired evidence => ledger.retire job evidence
  | .cancellationVerified _ evidence => ledger.verifyCancellation job evidence
  | .cancelled _ => ledger.completeCancellation job
  | .acknowledged _ => ledger.acknowledge job
  | .cancel _ => ledger.cancel job

def advance (ledger : Ledger) (step : Step) (answers : Answers) : Option Ledger :=
  match ledger.load step.id with
  | none => none
  | some job =>
    if answers.permitted && (!job.move.cancellationRequested || step.cancelling) then
      ledger.advanceJob job step
    else none

def unmoved (ledger : Ledger) (object : Object) : Bool :=
  ledger.moves.toList.all fun entry =>
    decide (entry.2.object ≠ object) || (entry.2.phase.finished && entry.2.receiptAcknowledged)

/-- `recordings::begin` for the candidate its query selects. -/
def beginRetirement (ledger : Ledger) (operation : String) (answers : Answers) : Option Ledger :=
  match ledger.allocations[operation]? with
  | none => none
  | some row =>
    if answers.permitted && (decide (row.object.kind = .recording) &&
      (decide (row.state = .published) &&
        ((ledger.bindings[row.volume]?).any Binding.writable &&
          ((ledger.recordings[row.object.id]?).any RecordingFile.finalized &&
            (ledger.recordingActive row.object && (ledger.unmoved row.object &&
              !ledger.hidden operation)))))) then
      (ledger.setRetirements
        (ledger.retirements.insert operation ⟨row.object.id, row.volume, false,
          false⟩)).bumpRevision
    else none

def completedRetirement (retirement : Retirement) : Retirement :=
    { retirement with complete := true }

def completeRetirement (ledger : Ledger) (evidence : Publication) (answers : Answers) :
    Option Ledger :=
  match ledger.retirements[evidence.operation]?, ledger.allocations[evidence.operation]? with
  | some retirement, some row =>
    if answers.permitted && (decide (row.bytes = evidence.bytes) &&
        (decide (row.fileIdentity = some evidence.fileIdentity) &&
          decide (row.digest = some evidence.digest))) then
      if retirement.complete then some ledger
      else do
        let ledger ← ledger.updateRow evidence.operation row (withState row .cancelled)
        let ledger := ledger.setRecordings (ledger.recordings.erase retirement.recordingId)
        let ledger := ledger.setRetirements
          (ledger.retirements.insert evidence.operation (completedRetirement retirement))
        ledger.bumpRevision
    else none
  | _, _ => none

def acknowledgedRetirement (retirement : Retirement) : Retirement :=
  { retirement with acknowledged := true }

def acknowledgeRetirement (ledger : Ledger) (operation : String) : Option Ledger :=
  match ledger.retirements[operation]? with
  | some retirement =>
    if retirement.complete then
      some (ledger.setRetirements (ledger.retirements.insert operation
        (acknowledgedRetirement retirement)))
    else none
  | none => none

/-- The other journals (images, exports, interrupted writers) release an allocation
when their removal is complete. None of them holds an object that is being moved. -/
def release (ledger : Ledger) (operation : String) (answers : Answers) : Option Ledger :=
  match ledger.allocations[operation]? with
  | none => none
  | some row =>
    if answers.permitted && ledger.unmoved row.object then do
      let ledger ← ledger.updateRow operation row (withState row .cancelled)
      ledger.bumpRevision
    else none

def insertRecording (ledger : Ledger) (id path : String) : Option Ledger :=
  if ledger.recordings[id]?.isNone then
    some (ledger.setRecordings (ledger.recordings.insert id ⟨path, false, 0, none⟩))
  else none

inductive Request
  | bind (id : String) (config : BindingConfig)
  | setDraining (volume : String) (generation : Nat) (draining : Bool)
  | reserve (allocation : Allocation)
  | grow (growth : Growth)
  | materialize (request : Materialization)
  | publish (publication : Publication)
  | finalize (publication : Publication)
  | beginMove (intent : Intent)
  | advanceMove (step : Step)
  | beginRetirement (operation : String)
  | completeRetirement (evidence : Publication)
  | acknowledgeRetirement (operation : String)
  | release (operation : String)
  | insertRecording (id path : String)
deriving DecidableEq, Repr

def dispatch (ledger : Ledger) (answers : Answers) : Request → Option Ledger
  | .bind id config => ledger.bind id config
  | .setDraining volume generation draining => ledger.setDraining volume generation draining
  | .reserve allocation => ledger.reserve allocation answers
  | .grow growth => ledger.grow growth answers
  | .materialize request => ledger.checkpoint request answers
  | .publish publication => ledger.publish publication answers
  | .finalize publication => ledger.finalize publication answers
  | .beginMove intent => ledger.beginMove intent answers
  | .advanceMove step => ledger.advance step answers
  | .beginRetirement operation => ledger.beginRetirement operation answers
  | .completeRetirement evidence => ledger.completeRetirement evidence answers
  | .acknowledgeRetirement operation => ledger.acknowledgeRetirement operation
  | .release operation => ledger.release operation answers
  | .insertRecording id path => ledger.insertRecording id path

structure Call where
  request : Request
  answers : Answers
  commits : Bool
deriving DecidableEq, Repr

/-- `execute`: a refused request and one that does not commit leave nothing behind. -/
def execute (ledger : Ledger) (call : Call) : Ledger :=
  if call.commits then (ledger.dispatch call.answers call.request).getD ledger else ledger

def run (calls : List Call) : Ledger := calls.foldl execute initial

end Ledger

end KeepPeek.Volumes
