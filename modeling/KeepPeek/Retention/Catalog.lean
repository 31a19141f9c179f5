import Mathlib.Data.Prod.Lex
import Mathlib.Data.List.MinMax
import KeepPeek.Retention.EventMatching

/-! The catalog as retention sees it: recordings with their stored decisions,
cleanup claims, retirements, canonical events and the queues that the triggers
fill. Each operation is one transaction; one that fails leaves the catalog as
it was. The other tables answer through flags of the operations. -/
namespace KeepPeek.Retention

open Lib

/-- How policies and decisions are serialized, as far as it matters. -/
structure Codec where
  digest : Policy → String
  rulesFit : List String → Bool
  policyFits : Policy → Bool

inductive Attention
  | settled
  | pending
  | quarantined
deriving DecidableEq, Repr

structure StoredDecision where
  policyRevision : Nat
  fingerprint : String
  eventRevision : Nat
  deadlineMs : Option Timestamp
  matchingRules : List String
  reason : Reason
deriving DecidableEq

/-- A row of `recording_files` with the decision that its deletion cascades to, an
active maintenance claim, and a pending eviction of its archived copy. -/
structure RecordingFile where
  sourceId : Option String
  logicalStreamId : Option String
  startedAtMs : Timestamp
  endedAtMs : Option Timestamp
  finalized : Bool
  isProtected : Bool
  cleanupPending : Bool
  cleanupRetentionExpiry : Bool
  retentionPending : Attention
  retentionGeneration : Nat
  maintained : Bool
  evicting : Bool
  decision : Option StoredDecision
deriving DecidableEq

structure Settings where
  json : String
  policies : Std.ExtTreeMap String Policy

structure Runtime where
  generation : Nat
  settings : Option Settings
  requested : Option Settings
  requestPending : Bool
  complete : Bool
  cursor : Option String
  highWater : Option String
  workClock : Nat
  overflow : Bool
  overflowNext : Bool
  spansReady : Bool

abbrev Place := Timestamp ×ₗ String

structure Range where
  lowerMs : Timestamp
  upperMs : Timestamp
deriving DecidableEq

structure Work where
  range : Range
  cursor : Option Place
  next : Option Range
  highWater : Option Place
  lastProcessed : Nat
  generation : Nat
  queued : Option Range
deriving DecidableEq

def Range.widen (range : Range) : Option Range → Range
  | none => range
  | some other => ⟨min other.lowerMs range.lowerMs, max other.upperMs range.upperMs⟩

/-- `ON CONFLICT` of the queue: the same generation looks again, a later one waits. -/
def Work.enqueue (work : Work) (range : Range) (generation : Nat) : Work :=
  if work.generation = generation then { work with next := some (range.widen work.next) }
  else { work with queued := some (range.widen work.queued) }

def newWork (range : Range) (generation : Nat) : Work :=
  ⟨range, none, none, none, 0, generation, none⟩

/-- The recordings a sweep or a job went past while they were claimed are kept
beside the tables, in `passedOver`. -/
structure Catalog where
  files : Std.ExtTreeMap String RecordingFile
  retirements : Std.ExtTreeMap String Bool
  events : EventCatalog
  eventRevision : Nat
  runtime : Runtime
  policies : Std.ExtTreeMap String Policy
  spans : Std.ExtTreeMap String Int
  work : Std.ExtTreeMap String Work
  passedOver : Std.ExtTreeMap String Unit

def Catalog.empty : Catalog where
  files := ∅
  retirements := ∅
  events := EventCatalog.initializeIndex []
  eventRevision := 0
  runtime := ⟨0, none, none, false, true, none, none, 0, false, false, false⟩
  policies := ∅
  spans := ∅
  work := ∅
  passedOver := ∅

theorem timestampMax_bounds : -(2 ^ 63) ≤ (2 ^ 63 - 1 : Int) ∧ (2 ^ 63 - 1 : Int) < 2 ^ 63 := by
  decide

def timestampMax : Timestamp := ⟨2 ^ 63 - 1, timestampMax_bounds⟩

namespace RecordingFile

variable (file : RecordingFile)

def snapshot : Except String Snapshot :=
  match file.sourceId with
  | none => .error "recording camera identity is missing"
  | some cameraId =>
    match file.logicalStreamId with
    | none => .error "recording stream identity is missing"
    | some streamId =>
      if camera : validIdentity cameraId then
        if stream : validIdentity streamId then
          match file.endedAtMs with
          | none => .error "finalized recording end is missing"
          | some ended =>
            match Interval.new file.startedAtMs ended with
            | .error message => .error message
            | .ok interval => .ok ⟨cameraId, streamId, interval, file.isProtected, camera, stream⟩
        else .error "retention identity must contain 1 to 256 bytes without NUL"
      else .error "retention identity must contain 1 to 256 bytes without NUL"

def deadline : Option Timestamp :=
  file.decision.bind StoredDecision.deadlineMs

def expired (now : Timestamp) : Bool :=
  file.deadline.all fun deadline => decide (deadline ≤ now)

def span : Option Int :=
  match file.endedAtMs with
  | none => none
  | some ended =>
    if file.startedAtMs.val < ended.val ∧ ended.val - file.startedAtMs.val < 2 ^ 63 then
      some (ended.val - file.startedAtMs.val)
    else none

def place (id : String) : Place :=
  toLex (file.startedAtMs, id)

end RecordingFile

namespace Catalog

variable (catalog : Catalog)

def lastFile : Option String :=
  (catalog.files.toList.argmax Prod.fst).map Prod.fst

def setFile (id : String) (file : RecordingFile) : Catalog :=
  { catalog with files := catalog.files.insert id file }

def retiring (id : String) : Bool :=
  catalog.retirements[id]? == some false

def setRetirement (id : String) (complete : Bool) : Catalog :=
  { catalog with retirements := catalog.retirements.insert id complete }

/-- An `UPDATE` of one row of `recording_files`, behind the triggers that fence it. -/
def updateFile (id : String) (change : RecordingFile → RecordingFile) : Except String Catalog :=
  match catalog.files[id]? with
  | none => .ok catalog
  | some file =>
    if catalog.retiring id then .error "recording retirement owns this object"
    else if file.maintained then .error "recording maintenance is pending"
    else .ok (catalog.setFile id (change file))

def stamp : Nat :=
  catalog.runtime.generation + if catalog.runtime.requestPending then 1 else 0

/-! ### Decisions -/

def recordingSnapshot (id : String) : Except String Snapshot :=
  match catalog.files[id]? with
  | none => .error "retention requires an unclaimed finalized recording"
  | some file =>
    if file.finalized && !file.cleanupPending && !file.maintained && !catalog.retiring id then
      file.snapshot
    else .error "retention requires an unclaimed finalized recording"

def checkRevision (codec : Codec) (previous : Option StoredDecision) (revision : Nat)
    (policy : Policy) : Except String Unit :=
  match previous with
  | none => .ok ()
  | some previous =>
    if revision < previous.policyRevision then .error "stale retention policy revision"
    else if revision = previous.policyRevision ∧ codec.digest policy ≠ previous.fingerprint then
      .error "retention policy revision was reused with different rules"
    else .ok ()

def storedDecision (codec : Codec) (revision : Nat) (policy : Policy) (decision : Decision) :
    StoredDecision where
  policyRevision := revision
  fingerprint := codec.digest policy
  eventRevision := catalog.eventRevision
  deadlineMs := decision.deadlineMs
  matchingRules := decision.matchingRules
  reason := decision.reason

def evidence (snapshot : Snapshot) (requiresEvents : Bool) : Except String (List TimelineEvent) :=
  if requiresEvents then catalog.events.matching snapshot else .ok []

/-- The decision of `commit_snapshot`, before it is written. -/
def resolveDecision (codec : Codec) (file : RecordingFile) (snapshot : Snapshot) (revision : Nat)
    (policy : Policy) (requiresEvents : Bool) : Except String Decision := do
  checkRevision codec file.decision revision policy
  let events ← catalog.evidence snapshot requiresEvents
  policy.resolve (snapshot.recording file.deadline) events

def commitSnapshot (codec : Codec) (id : String) (revision : Nat) (policy : Policy)
    (requiresEvents : Bool) : Except String Catalog :=
  match catalog.recordingSnapshot id, catalog.files[id]? with
  | .error message, _ => .error message
  | .ok _, none => .error "retention requires an unclaimed finalized recording"
  | .ok snapshot, some file =>
    match catalog.resolveDecision codec file snapshot revision policy requiresEvents with
    | .error message => .error message
    | .ok decision =>
      if revision < 2 ^ 63 ∧ codec.rulesFit decision.matchingRules then
        .ok (catalog.setFile id
          { file with decision := some (catalog.storedDecision codec revision policy decision) })
      else .error "CHECK constraint failed"

def recordSpan (id : String) : Catalog :=
  match catalog.files[id]? with
  | none => catalog
  | some file =>
    match file.sourceId, file.span with
    | some camera, some span =>
      { catalog with spans := catalog.spans.insert camera (max (catalog.spans.getD camera 0) span) }
    | _, _ => catalog

def fileWritten (id : String) : Catalog :=
  match catalog.files[id]? with
  | none => catalog
  | some file =>
    if !file.finalized then catalog
    else
      let spanned := catalog.recordSpan id
      if catalog.runtime.settings.isSome then
        spanned.setFile id
          { file with
            retentionPending := .pending
            retentionGeneration :=
              if file.retentionPending = .pending then file.retentionGeneration
              else catalog.stamp }
      else spanned

/-! ### Claims and retirements -/

def policyFor (file : RecordingFile) : Option Policy :=
  (catalog.policies[file.sourceId.getD ""]?).or catalog.policies[""]?

def cameraWorks (file : RecordingFile) : Bool :=
  file.sourceId.any fun camera => decide (camera ∈ catalog.work)

def ready : Bool :=
  !catalog.runtime.requestPending && catalog.runtime.complete

/-- What automatic cleanup and volume retirement both ask of a recording; `expiry`
asks for a decision of the current policies besides. -/
def deletable (file : RecordingFile) (expiry : Bool) (now : Timestamp) : Bool :=
  file.finalized && !file.isProtected && file.retentionPending == .settled &&
    (!expiry || ((catalog.policyFor file).isSome && file.decision.isSome &&
      file.retentionGeneration == catalog.runtime.generation)) &&
    !catalog.cameraWorks file && file.expired now && !file.maintained

/-- A new cleanup claim on the row that the query finds. `free` says that no
allocation, archived copy or reader holds it. -/
def claimCleanup (id : String) (expiry free : Bool) (now : Timestamp) : Except String Catalog :=
  if !catalog.ready then .error "retention activation fences automatic cleanup"
  else
    match catalog.files[id]? with
    | none => .ok catalog
    | some file =>
      if catalog.deletable file expiry now && free then
        if file.expired now then
          catalog.updateFile id fun file =>
            { file with cleanupPending := true, cleanupRetentionExpiry := expiry }
        else .error "committed retention deadline prevents automatic cleanup"
      else .ok catalog

def cancelCleanup (id : String) : Except String Catalog :=
  { catalog with passedOver := catalog.passedOver.erase id }.updateFile id fun file =>
    { file with cleanupPending := false, cleanupRetentionExpiry := false }

def eraseFile (id : String) : Catalog :=
  { catalog with files := catalog.files.erase id, passedOver := catalog.passedOver.erase id }

/-- The claimed row is deleted. `indexDeletable` answers for the playback index. -/
def completeCleanup (id : String) (indexDeletable : Bool) : Except String Catalog :=
  match catalog.files[id]? with
  | none => .ok catalog
  | some file =>
    if !file.cleanupPending then .ok catalog
    else if !indexDeletable then .error "archive playback index prevents deletion"
    else if file.maintained then .error "recording maintenance is pending"
    else .ok (catalog.eraseFile id)

/-- A hold or its release. `imageFree` says that no image retirement owns its evidence. -/
def setRecordingProtected (id : String) (isProtected imageFree : Bool) : Except String Catalog :=
  match catalog.files[id]? with
  | none => .ok catalog
  | some file =>
    if file.cleanupPending && isProtected != file.isProtected then
      .error "automatic cleanup owns this recording"
    else if isProtected && !file.isProtected && !imageFree then
      .error "image retirement owns this evidence"
    else
      catalog.updateFile id fun file =>
        { file with
          isProtected
          cleanupPending := !isProtected && file.cleanupPending }

/-- A new volume retirement of the row that the query finds. `free` says that its
allocation is published on a writable volume and no move or archived copy holds it. -/
def beginRetirement (id : String) (expiry free : Bool) (now : Timestamp) :
    Except String Catalog :=
  if !catalog.ready then .error "retention activation fences automatic cleanup"
  else
    match catalog.files[id]? with
    | none => .ok catalog
    | some file =>
      if catalog.deletable file expiry now && !file.cleanupPending &&
          decide (id ∉ catalog.retirements) && free then
        if file.expired now then
          .ok (catalog.setRetirement id false)
        else .error "committed retention deadline prevents automatic cleanup"
      else .ok catalog

def completeRetirement (id : String) (evidence indexDeletable : Bool) (now : Timestamp) :
    Except String Catalog :=
  match catalog.retirements[id]? with
  | none => .error "recording retirement is missing"
  | some true => .ok catalog
  | some false =>
    if (catalog.files[id]?).any fun file => !file.expired now then
      .error "committed retention deadline prevents automatic cleanup"
    else if !evidence then .error "recording retirement evidence changed"
    else if !indexDeletable then .error "archive playback index prevents deletion"
    else if (catalog.files[id]?).any RecordingFile.maintained then
      .error "recording maintenance is pending"
    else .ok ((catalog.eraseFile id).setRetirement id true)

/-! ### Recordings and events -/

structure NewRecording where
  sourceId : Option String
  logicalStreamId : Option String
  startedAtMs : Timestamp
  endedAtMs : Option Timestamp
  finalized : Bool
deriving DecidableEq

def NewRecording.file (recording : NewRecording) : RecordingFile where
  sourceId := recording.sourceId
  logicalStreamId := recording.logicalStreamId
  startedAtMs := recording.startedAtMs
  endedAtMs := recording.endedAtMs
  finalized := recording.finalized
  isProtected := false
  cleanupPending := false
  cleanupRetentionExpiry := false
  retentionPending := .settled
  retentionGeneration := 0
  maintained := false
  evicting := false
  decision := none

/-- `upsert_recording` for a new segment, the one call the program makes. Its id is not
empty and has no row, so nothing is said about the update of a row. -/
def insertRecording (id : String) (recording : NewRecording) : Catalog :=
  if id = "" ∨ id ∈ catalog.files then catalog
  else (catalog.setFile id recording.file).fileWritten id

def finalizeRecording (id : String) (endedAtMs : Option Timestamp) : Except String Catalog :=
  match catalog.updateFile id fun file =>
      { file with finalized := true, endedAtMs := endedAtMs.or file.endedAtMs } with
  | .error message => .error message
  | .ok written => .ok (written.fileWritten id)

def setMaintained (id : String) (maintained : Bool) : Catalog :=
  match catalog.files[id]? with
  | none => catalog
  | some file => catalog.setFile id { file with maintained }

def setEvicting (id : String) (evicting : Bool) : Catalog :=
  match catalog.files[id]? with
  | none => catalog
  | some file => catalog.setFile id { file with evicting }

def usesEvents (camera : String) : Bool :=
  ((catalog.policies[camera]?).or catalog.policies[""]?).any Policy.requiresEventEvidence

def eventRange (event : TimelineEvent) : Range where
  lowerMs := event.startTimeMs
  upperMs :=
    match event.endTimeMs with
    | none => timestampMax
    | some ended =>
      if event.startTimeMs.val < ended.val then ended
      else (checkedAdd event.startTimeMs 1).getD timestampMax

def workMax : Nat := 1024

def overflowed : Runtime :=
  let runtime := catalog.runtime
  if runtime.requestPending then runtime
  else if runtime.complete then
    { runtime with
      overflow := true
      complete := false
      cursor := none
      highWater := catalog.lastFile }
  else { runtime with overflow := true, overflowNext := true }

def enqueueEvent (event : TimelineEvent) : Catalog :=
  if !catalog.usesEvents event.cameraId then catalog
  else
    match catalog.work[event.cameraId]? with
    | some work =>
      { catalog with
        work := catalog.work.insert event.cameraId
          (work.enqueue (eventRange event) catalog.stamp) }
    | none =>
      if catalog.work.size < workMax then
        { catalog with
          work := catalog.work.insert event.cameraId (newWork (eventRange event) catalog.stamp) }
      else { catalog with runtime := catalog.overflowed }

def enqueueVersion : Option TimelineEvent → Catalog
  | none => catalog
  | some event => catalog.enqueueEvent event

def writeEvent (event : TimelineEvent) : Except String Catalog :=
  match catalog.events.writeEvent event with
  | .error message => .error message
  | .ok events =>
    .ok { (catalog.enqueueVersion catalog.events.events[event.id]?).enqueueEvent event with
      events
      eventRevision := catalog.eventRevision + 1 }

def deleteEvent (id : String) : Catalog :=
  match catalog.events.events[id]? with
  | none => catalog
  | some event =>
    { catalog.enqueueEvent event with
      events := catalog.events.deleteEvent id
      eventRevision := catalog.eventRevision + 1 }

end Catalog

end KeepPeek.Retention
