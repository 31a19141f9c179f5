import KeepPeek.Retention.Catalog

/-! The retention runtime: a requested policy set becomes active once the work of
the old one is done, a sweep evaluates every recording that was there, triggers
queue what changes afterwards, and a job per camera visits the recordings an event
may be evidence for. One call of `step` is one transaction. -/
namespace KeepPeek.Retention

open Lib

structure Progress where
  evaluated : Nat
  quarantined : Nat
  pending : Bool
deriving DecidableEq, Repr

namespace Progress

def idle : Progress := ⟨0, 0, false⟩
def waiting : Progress := ⟨0, 0, true⟩

def wait (progress : Progress) : Progress :=
  { progress with pending := true }

end Progress

namespace Catalog

variable (codec : Codec) (catalog : Catalog)

/-! ### Evaluation -/

def finishFile (id : String) (attention : Attention) : Except String Catalog :=
  catalog.updateFile id fun file =>
    { file with
      retentionPending := attention
      retentionGeneration := catalog.runtime.generation }

def nextRevision (file : RecordingFile) : Nat :=
  match file.decision with
  | none => 1
  | some previous => previous.policyRevision + 1

/-- Whether a decision was committed, and the catalog after it. The span is
recorded before the decision can fail. -/
def commitFile (id : String) (file : RecordingFile) (policy : Policy) : Bool × Catalog :=
  match catalog.recordingSnapshot id with
  | .error _ => (false, catalog)
  | .ok snapshot =>
    if 2 ^ 63 ≤ snapshot.interval.endMs.val - snapshot.interval.startMs.val then (false, catalog)
    else
      match (catalog.recordSpan id).commitSnapshot codec id (nextRevision file) policy
          policy.requiresEventEvidence with
      | .error _ => (false, catalog.recordSpan id)
      | .ok committed => (true, committed)

/-- A recording without a policy owes nothing; a failed evaluation quarantines it. -/
def evaluate (id : String) : Except String (Progress × Catalog) :=
  match catalog.files[id]? with
  | none => .ok (.idle, catalog)
  | some file =>
    if file.evicting then
      (catalog.finishFile id .pending).map fun marked => (.waiting, marked)
    else
      match catalog.policyFor file with
      | none => (catalog.finishFile id .settled).map fun finished => (⟨1, 0, false⟩, finished)
      | some policy =>
        match catalog.commitFile codec id file policy with
        | (true, committed) =>
          (committed.finishFile id .settled).map fun finished => (⟨1, 0, false⟩, finished)
        | (false, failed) =>
          (failed.finishFile id .quarantined).map fun finished => (⟨0, 1, false⟩, finished)

def pendingFile : Option String :=
  ((catalog.files.toList.filter fun (id, file) =>
    file.retentionPending == .pending &&
      decide (file.retentionGeneration ≤ catalog.runtime.generation) &&
      !file.cleanupPending && !catalog.retiring id && !file.evicting).argmin
    fun (id, file) => (toLex (file.retentionGeneration, id) : Nat ×ₗ String)).map Prod.fst

/-! ### The sweep -/

def passOver (id : String) : Catalog :=
  { catalog with passedOver := catalog.passedOver.insert id () }

def sweepFile : Option (String × RecordingFile) :=
  (catalog.files.toList.filter fun (id, _) =>
    decide (catalog.runtime.cursor.getD "" < id) &&
      decide (id ≤ catalog.runtime.highWater.getD "")).argmin Prod.fst

def sweepEnd : Runtime :=
  let runtime := catalog.runtime
  { runtime with
    spansReady := true
    workClock := runtime.workClock + 1
    cursor := if runtime.overflowNext then none else runtime.cursor
    highWater := if runtime.overflowNext then catalog.lastFile else runtime.highWater
    complete := !runtime.overflowNext
    overflow := runtime.overflowNext
    overflowNext := false }

def sweepTo (id : String) : Catalog :=
  { catalog with
    runtime := { catalog.runtime with
      cursor := some id
      workClock := catalog.runtime.workClock + 1 } }

def sweepVisit (id : String) (file : RecordingFile) : Except String (Progress × Catalog) :=
  if !file.finalized then .ok (.idle, catalog)
  else if file.cleanupPending then .ok (.idle, (catalog.recordSpan id).passOver id)
  else (catalog.recordSpan id).evaluate codec id

def backfill : Except String (Progress × Catalog) :=
  match catalog.sweepFile with
  | none => .ok (.waiting, { catalog with runtime := catalog.sweepEnd })
  | some (id, file) =>
    if !validIdentity id then
      .error "retention identity must contain 1 to 256 bytes without NUL"
    else
      (catalog.sweepVisit codec id file).map fun (progress, visited) =>
        (progress.wait, visited.sweepTo id)

/-! ### Event work -/

def loadJob : Option (String × Work) :=
  (catalog.work.toList.filter fun (_, work) =>
    decide (work.generation ≤ catalog.runtime.generation)).argmin
      fun (camera, work) => (toLex (work.lastProcessed, camera) : Nat ×ₗ String)

def validJob (camera : String) (work : Work) : Bool :=
  validIdentity camera && decide (work.range.lowerMs ≤ work.range.upperMs) &&
    work.cursor.all (fun cursor => validIdentity (ofLex cursor).2) &&
    work.highWater.all fun highWater => validIdentity (ofLex highWater).2

def setWork (camera : String) (work : Work) : Catalog :=
  { catalog with work := catalog.work.insert camera work }

def turn (camera : String) (work : Work) : Catalog :=
  { catalog with runtime := { catalog.runtime with
      workClock := catalog.runtime.workClock + 1 } }.setWork camera
    { work with lastProcessed := catalog.runtime.workClock + 1 }

def Work.restart (work : Work) (range : Range) : Work :=
  { work with range, cursor := none, highWater := none }

def finishJob (camera : String) (work : Work) : Catalog :=
  match work.next, work.queued with
  | some range, _ => catalog.setWork camera { Work.restart work range with next := none }
  | none, some range =>
    catalog.setWork camera
      { Work.restart work range with queued := none, generation := catalog.stamp }
  | none, none => { catalog with work := catalog.work.erase camera }

def cameraFiles (camera : String) : List (String × RecordingFile) :=
  catalog.files.toList.filter fun (_, file) => decide (file.sourceId = some camera)

def initializeWater (camera : String) (work : Work) : Option Place :=
  work.highWater.or
    (((catalog.cameraFiles camera).argmax fun (id, file) => file.place id).map
      fun (id, file) => file.place id)

/-- The next recording of the job: behind its cursor, or from as far before its range
as the camera's longest recording reaches. -/
def candidate (camera : String) (work : Work) (span : Int) : Option (String × RecordingFile) :=
  ((catalog.cameraFiles camera).filter fun (id, file) =>
    decide (file.startedAtMs < work.range.upperMs) &&
      match work.cursor with
      | some cursor => decide (cursor < file.place id)
      | none => decide (work.range.lowerMs.val - span ≤ file.startedAtMs.val)).argmin
    fun (id, file) => file.place id

def jobVisit (id : String) (file : RecordingFile) (work : Work) :
    Except String (Progress × Catalog) :=
  if file.finalized && file.endedAtMs.any (fun ended => decide (work.range.lowerMs < ended)) then
    if catalog.retiring id then .ok (.idle, catalog)
    else if file.cleanupPending then .ok (.idle, catalog.passOver id)
    else catalog.evaluate codec id
  else .ok (.idle, catalog)

def jobStep (camera : String) (work : Work) : Except String (Progress × Catalog) :=
  let turned := catalog.turn camera work
  let work := { work with lastProcessed := turned.runtime.workClock }
  match turned.spans[camera]?, turned.initializeWater camera work with
  | none, _ => .ok (.waiting, turned.finishJob camera work)
  | some _, none => .ok (.waiting, turned.finishJob camera work)
  | some span, some highWater =>
    let work := { work with highWater := some highWater }
    let watered := turned.setWork camera work
    match watered.candidate camera work span with
    | none => .ok (.waiting, watered.finishJob camera work)
    | some (id, file) =>
      if !validIdentity id then
        .error "retention identity must contain 1 to 256 bytes without NUL"
      else if highWater < file.place id then .ok (.waiting, watered.finishJob camera work)
      else
        (watered.jobVisit codec id file work).map fun (progress, visited) =>
          (progress.wait, visited.setWork camera { work with cursor := some (file.place id) })

def eventStep : Except String (Option (Progress × Catalog)) :=
  match catalog.loadJob with
  | none => .ok none
  | some (camera, work) =>
    if validJob camera work then (catalog.jobStep codec camera work).map some
    else .error "invalid retention event work"

/-! ### Activation -/

def request (settings : Option Settings) : Catalog :=
  if catalog.runtime.requestPending &&
      catalog.runtime.requested.map Settings.json != settings.map Settings.json then catalog
  else
    { catalog with runtime := { catalog.runtime with
        requested := settings
        requestPending :=
          catalog.runtime.settings.map Settings.json != settings.map Settings.json } }

def claimsPending : Bool :=
  catalog.files.toList.any (fun (_, file) => file.cleanupPending || file.evicting) ||
    catalog.retirements.toList.any fun (_, complete) => !complete

def requestedPolicies : Std.ExtTreeMap String Policy :=
  match catalog.runtime.requested with
  | none => ∅
  | some settings => settings.policies

def activate : Except String Catalog :=
  if catalog.requestedPolicies.toList.all fun (_, policy) => codec.policyFits policy then
    if catalog.runtime.generation + 1 < 2 ^ 63 then
      .ok { catalog with
        policies := catalog.requestedPolicies
        runtime := { catalog.runtime with
          generation := catalog.runtime.generation + 1
          settings := catalog.runtime.requested
          requestPending := false
          cursor := none
          highWater := catalog.lastFile
          complete := catalog.runtime.requested.isNone } }
    else .error "retention generation exhausted"
  else .error "retention policy metadata limit exceeded"

/-! ### Steps -/

def requiresEvents : Bool :=
  catalog.policies.toList.any fun (_, policy) => policy.requiresEventEvidence

/-- Catches up with the event index first; the flag says whether it is current. -/
def reconcileEvents : Except String (Bool × Catalog) :=
  if catalog.requiresEvents then
    (catalog.events.reconcile 16).map fun (events, current) => (current, { catalog with events })
  else .ok (true, catalog)

def settledStep : Except String (Progress × Catalog) :=
  match catalog.pendingFile with
  | some id =>
    (catalog.evaluate codec id).map fun (progress, evaluated) => (progress.wait, evaluated)
  | none =>
    match catalog.eventStep codec with
    | .error message => .error message
    | .ok (some stepped) => .ok stepped
    | .ok none =>
      if !catalog.runtime.requestPending then .ok (.idle, catalog)
      else if catalog.claimsPending then .ok (.waiting, catalog)
      else (catalog.activate codec).map fun activated => (.waiting, activated)

/-- During the sweep, events have every other turn once the spans are known. -/
def sweepStep : Except String (Progress × Catalog) :=
  if catalog.runtime.spansReady && catalog.runtime.workClock % 2 == 1 then
    match catalog.eventStep codec with
    | .error message => .error message
    | .ok (some stepped) => .ok stepped
    | .ok none => catalog.backfill codec
  else catalog.backfill codec

def step : Except String (Progress × Catalog) :=
  match catalog.reconcileEvents with
  | .error message => .error message
  | .ok (false, reconciled) => .ok (.waiting, reconciled)
  | .ok (true, reconciled) =>
    if reconciled.runtime.complete then reconciled.settledStep codec
    else reconciled.sweepStep codec

/-! ### Histories -/

inductive Op
  | insertRecording (id : String) (recording : NewRecording)
  | finalizeRecording (id : String) (endedAtMs : Option Timestamp)
  | setMaintained (id : String) (maintained : Bool)
  | setEvicting (id : String) (evicting : Bool)
  | setProtected (id : String) (isProtected imageFree : Bool)
  | claimCleanup (id : String) (expiry free : Bool)
  | cancelCleanup (id : String)
  | completeCleanup (id : String) (indexDeletable : Bool)
  | beginRetirement (id : String) (expiry free : Bool)
  | completeRetirement (id : String) (evidence indexDeletable : Bool)
  | writeEvent (event : TimelineEvent)
  | deleteEvent (id : String)
  | reconcileEvents (limit : Nat)
  | commitRetention (id : String) (revision : Nat) (policy : Policy)
  | request (settings : Option Settings)
  | step

def reconcileIndex (limit : Nat) : Except String Catalog :=
  (catalog.events.reconcile limit).map fun (events, _) => { catalog with events }

def transact (now : Timestamp) : Op → Except String Catalog
  | .insertRecording id recording => .ok (catalog.insertRecording id recording)
  | .finalizeRecording id endedAtMs => catalog.finalizeRecording id endedAtMs
  | .setMaintained id maintained => .ok (catalog.setMaintained id maintained)
  | .setEvicting id evicting => .ok (catalog.setEvicting id evicting)
  | .setProtected id isProtected imageFree =>
    catalog.setRecordingProtected id isProtected imageFree
  | .claimCleanup id expiry free => catalog.claimCleanup id expiry free now
  | .cancelCleanup id => catalog.cancelCleanup id
  | .completeCleanup id indexDeletable => catalog.completeCleanup id indexDeletable
  | .beginRetirement id expiry free => catalog.beginRetirement id expiry free now
  | .completeRetirement id evidence indexDeletable =>
    catalog.completeRetirement id evidence indexDeletable now
  | .writeEvent event => catalog.writeEvent event
  | .deleteEvent id => .ok (catalog.deleteEvent id)
  | .reconcileEvents limit => catalog.reconcileIndex limit
  | .commitRetention id revision policy =>
    if 0 < revision then catalog.commitSnapshot codec id revision policy true
    else .error "retention policy revision must be positive"
  | .request settings => .ok (catalog.request settings)
  | .step => (catalog.step codec).map Prod.snd

def next (input : Timestamp × Op) : Catalog :=
  match catalog.transact codec input.1 input.2 with
  | .ok changed => changed
  | .error _ => catalog

def run (inputs : List (Timestamp × Op)) : Catalog :=
  inputs.foldl (next codec) .empty

end Catalog

end KeepPeek.Retention
