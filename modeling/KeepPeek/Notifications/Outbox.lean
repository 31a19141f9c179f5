import KeepPeek.Lib.Limits
import KeepPeek.Lib.Run
import KeepPeek.Lib.Text
import KeepPeek.Lib.TreeMap

/-! The notification store of `notifications/`: rules, logical notifications and the
outbox behind one mutex, candidate processing, delivery workers and control calls.
A call that reads the rules before it takes the lock is two actions. Filter and
schedule, cooldowns, rate limits, attachments and persistence answer through the
action; all their answers are allowed. `κ` holds digests of notification keys. -/
namespace KeepPeek.Notifications

open Lib

inductive Channel
  | browser
  | push
  | webhook
  | forwarder
deriving DecidableEq, Repr

inductive Stage
  | preliminary
  | enriched
  | recovery
deriving DecidableEq, Repr

inductive Severity
  | info
  | warning
  | critical
deriving DecidableEq, Repr

inductive Lifecycle
  | event
  | outage
  | storage
  | recording
  | test
deriving DecidableEq, Repr

structure Action where
  enabled : Bool
  channel : Channel
  attachmentRequired : Bool
  allowSecondDelivery : Bool
deriving DecidableEq, Repr

structure EnrichmentPolicy where
  deadlineMs : Nat
  maximumRevisions : Nat
  maximumAttempts : Nat
  wakeAfterDeadline : Bool
deriving DecidableEq, Repr

structure FailurePolicy where
  maximumAttempts : Nat
  maximumRetryIntervalMs : Nat
  expiryMs : Nat
deriving DecidableEq, Repr

structure Rule where
  id : String
  ownerId : String
  enabled : Bool
  sourceIds : List String
  enrichment : EnrichmentPolicy
  actions : List Action
  failure : FailurePolicy
deriving DecidableEq, Repr

structure RuleRecord where
  ownerId : String
  draft : Rule
  draftRevision : Nat
  active : Option Rule
  activeRevision : Nat
deriving DecidableEq, Repr

structure Candidate where
  sourceId : String
  sourceIdentity : String
  lifecycle : Lifecycle
  eventKind : Option String
  severity : Severity
  revision : Nat
  stage : Stage
  occurredAtMs : Int
deriving DecidableEq, Repr

/-- What `logical_id` hashes. -/
structure LogicalKey where
  ruleId : String
  sourceId : String
  identity : String
  lifecycle : Lifecycle
deriving DecidableEq, Repr

structure LogicalNotification where
  ruleId : String
  sourceId : String
  sourceIdentity : String
  lifecycle : Lifecycle
  stage : Stage
  highestRevision : Nat
  enrichmentAttempts : Nat
  enrichmentDeadlineAtMs : Int
  updatedAtMs : Int
deriving DecidableEq, Repr

inductive OutboxStatus
  | pending
  | retrying
  | delivering
  | delivered
  | failed
  | expired
  | suppressed
deriving DecidableEq, Repr

def OutboxStatus.isPending : OutboxStatus → Bool
  | .pending | .retrying => true
  | _ => false

structure OutboxItem (κ : Type) where
  logicalId : κ
  actionIndex : Nat
  stage : Stage
  channel : Channel
  priority : Int
  status : OutboxStatus
  attemptCount : Nat
  maxAttempts : Nat
  maxRetryIntervalMs : Nat
  nextAttemptAtMs : Int
  expiresAtMs : Int
  updatedAtMs : Int
deriving DecidableEq

structure Delivery (κ : Type) where
  id : Nat
  logicalId : κ
  ruleId : String
  stage : Stage
  channel : Channel
  attempt : Nat
  maxAttempts : Nat
  maxRetryIntervalMs : Nat
  expiresAtMs : Int
deriving DecidableEq

/-- A call between its reading of the rules and its critical section. -/
inductive OpenCall
  | process (rules : List Rule) (candidate : Candidate)
  | test (rule : Rule)
deriving DecidableEq

structure Store (κ : Type) where
  rules : Std.ExtTreeMap String RuleRecord
  logical : κ → Option LogicalNotification
  outbox : Std.ExtTreeMap Nat (OutboxItem κ)
  nextOutboxId : Nat
  suppressedSources : List String
  calls : Nat → Option OpenCall

def maxPendingOutbox : Nat := 10000

def addMillis (timestampMs : Int) (durationMs : Nat) : Int :=
  min (timestampMs + min (durationMs : Int) i64Max) i64Max

def minRetryIntervalMs : Nat := 1000

def retryInterval (attempt : Nat) : Nat := minRetryIntervalMs * 2 ^ min (attempt - 1) 20

def supportsReplacement : Channel → Bool
  | .browser | .push => true
  | _ => false

def isTrackedOperationalEvent (candidate : Candidate) : Bool :=
  candidate.eventKind.any fun kind =>
    kind == "camera_offline" || kind == "stream_stale" || kind == "decode_unavailable" ||
      kind == "recording_interrupted"

/-- Whether a version of a rule allows deliveries of an action on a channel. -/
def Rule.allows (rule : Rule) (index : Nat) (channel : Channel) : Bool :=
  rule.enabled && rule.actions[index]?.any fun action => action.enabled && action.channel == channel

structure Answer where
  matched : Bool
  admitted : Bool
  attachment : Bool
  rateLimited : Nat → Bool

namespace Store

variable {κ : Type} [DecidableEq κ]

def «open» (rules : List Rule) : Store κ where
  rules := rules.foldl (fun table rule => table.insert rule.id ⟨rule.ownerId, rule, 1,
    some rule, 1⟩) ∅
  logical _ := none
  outbox := ∅
  nextOutboxId := 1
  suppressedSources := []
  calls _ := none

def activeRule (store : Store κ) (id : String) : Option Rule :=
  store.rules[id]?.bind RuleRecord.active

def activeRules (store : Store κ) : List Rule :=
  store.rules.toList.filterMap fun record => record.2.active

def pendingOutboxCount (store : Store κ) : Nat :=
  store.outbox.toList.countP fun item => item.2.status.isPending

def outboxKeyExists (store : Store κ) (logicalId : κ) (index : Nat) (stage : Stage) : Bool :=
  store.outbox.toList.any fun item =>
    decide (item.2.logicalId = logicalId) && (decide (item.2.actionIndex = index) &&
      decide (item.2.stage = stage))

def putLogical (store : Store κ) (id : κ) (logical : LogicalNotification) : Store κ :=
  { store with logical := fun other => if other = id then some logical else store.logical other }

def putItem (store : Store κ) (id : Nat) (item : OutboxItem κ) : Store κ :=
  { store with outbox := store.outbox.insert id item }

def buildOutboxItem (rule : Rule) (candidate : Candidate) (logicalId : κ) (index : Nat)
    (action : Action) : OutboxItem κ where
  logicalId := logicalId
  actionIndex := index
  stage := candidate.stage
  channel := action.channel
  priority := if candidate.severity = .critical then 100 else 0
  status := .pending
  attemptCount := 0
  maxAttempts := rule.failure.maximumAttempts
  maxRetryIntervalMs := rule.failure.maximumRetryIntervalMs
  nextAttemptAtMs := candidate.occurredAtMs
  expiresAtMs := addMillis candidate.occurredAtMs rule.failure.expiryMs
  updatedAtMs := candidate.occurredAtMs

/-- Whether `enqueue_action` gets as far as inserting an item. -/
def queues (store : Store κ) (candidate : Candidate) (logicalId : κ) (replacement : Bool)
    (answer : Answer) (index : Nat) (action : Action) : Bool :=
  action.enabled && !(replacement && !supportsReplacement action.channel &&
    !action.allowSecondDelivery) &&
    !(action.attachmentRequired && !answer.attachment) && !answer.rateLimited index &&
    decide (store.pendingOutboxCount < maxPendingOutbox) &&
    !store.outboxKeyExists logicalId index candidate.stage

def takeOutboxId (store : Store κ) : Store κ :=
  { store with nextOutboxId := store.nextOutboxId + 1 }

def enqueueAction (store : Store κ) (rule : Rule) (candidate : Candidate) (logicalId : κ)
    (replacement : Bool) (answer : Answer) (index : Nat) (action : Action) : Store κ :=
  if store.queues candidate logicalId replacement answer index action then
    (store.putItem store.nextOutboxId
      (buildOutboxItem rule candidate logicalId index action)).takeOutboxId
  else store

def enqueueActions (store : Store κ) (rule : Rule) (candidate : Candidate) (logicalId : κ)
    (replacement : Bool) (answer : Answer) : Store κ :=
  rule.actions.zipIdx.foldl
    (fun store entry => store.enqueueAction rule candidate logicalId replacement answer
      entry.2 entry.1)
    store

def newLogical (rule : Rule) (candidate : Candidate) : LogicalNotification where
  ruleId := rule.id
  sourceId := candidate.sourceId
  sourceIdentity := candidate.sourceIdentity
  lifecycle := candidate.lifecycle
  stage := candidate.stage
  highestRevision := candidate.revision
  enrichmentAttempts := 0
  enrichmentDeadlineAtMs := addMillis candidate.occurredAtMs rule.enrichment.deadlineMs
  updatedAtMs := candidate.occurredAtMs

def collapse (logical : LogicalNotification) (candidate : Candidate) : LogicalNotification :=
  { logical with highestRevision := candidate.revision, updatedAtMs := candidate.occurredAtMs }

def replace (logical : LogicalNotification) (candidate : Candidate) : LogicalNotification :=
  { logical with
    stage := candidate.stage
    highestRevision := candidate.revision
    enrichmentAttempts :=
      if candidate.stage = .enriched ∧ isTrackedOperationalEvent candidate = false then
        logical.enrichmentAttempts + 1
      else logical.enrichmentAttempts
    updatedAtMs := candidate.occurredAtMs }

/-- Whether a later revision of a known notification is delivered again. -/
def replaces (rule : Rule) (candidate : Candidate) (existing : LogicalNotification) : Bool :=
  let tracked := isTrackedOperationalEvent candidate
  let enriched := decide (candidate.stage = .enriched)
  let wanted := decide (candidate.stage = .recovery) ||
    (enriched && (decide (existing.stage = .preliminary) || tracked))
  let late := !tracked && enriched &&
    decide (existing.enrichmentDeadlineAtMs < candidate.occurredAtMs)
  let exhausted := !tracked && enriched &&
    decide (rule.enrichment.maximumAttempts ≤ existing.enrichmentAttempts)
  wanted && !exhausted && !(late && !rule.enrichment.wakeAfterDeadline)

def processExisting (store : Store κ) (rule : Rule) (candidate : Candidate) (logicalId : κ)
    (existing : LogicalNotification) (answer : Answer) : Store κ :=
  if candidate.revision ≤ existing.highestRevision then store
  else if isTrackedOperationalEvent candidate = false ∧ candidate.stage = .enriched ∧
      rule.enrichment.maximumRevisions < candidate.revision then
    store.putLogical logicalId (collapse existing candidate)
  else if replaces rule candidate existing then
    (store.putLogical logicalId (replace existing candidate)).enqueueActions rule candidate
      logicalId true answer
  else store.putLogical logicalId (collapse existing candidate)

def candidateKey (rule : Rule) (candidate : Candidate) : LogicalKey :=
  ⟨rule.id, candidate.sourceId, candidate.sourceIdentity, candidate.lifecycle⟩

def processRule (digest : LogicalKey → κ) (store : Store κ) (rule : Rule) (candidate : Candidate)
    (answer : Answer) : Store κ :=
  let logicalId := digest (candidateKey rule candidate)
  match store.logical logicalId with
  | some existing => store.processExisting rule candidate logicalId existing answer
  | none =>
    if answer.admitted then
      (store.putLogical logicalId (newLogical rule candidate)).enqueueActions rule candidate
        logicalId false answer
    else store

/-- `process_in_state`: a rule matches only if it is enabled and the source is not
suppressed. -/
def processInState (digest : LogicalKey → κ) (store : Store κ) (rules : List Rule)
    (candidate : Candidate) (answer : Rule → Answer) : Store κ :=
  rules.foldl
    (fun store rule =>
      if rule.enabled && (answer rule).matched &&
          !store.suppressedSources.contains candidate.sourceId then
        store.processRule digest rule candidate (answer rule)
      else store)
    store

def logicalActive (store : Store κ) (id : κ) : Bool :=
  store.outbox.toList.any fun item =>
    decide (item.2.logicalId = id) && (item.2.status.isPending || decide (item.2.status =
      .delivering))

/-- `prune_terminal_notifications`: forgets terminal notifications, here those of
`removed` that are terminal, with their outbox items. -/
def prune (store : Store κ) (removed : κ → Bool) : Store κ :=
  { store with
    logical := fun id => if removed id && !store.logicalActive id then none else store.logical id
    outbox := store.outbox.filter fun _ item =>
      !(removed item.logicalId && !store.logicalActive item.logicalId) }

def setCall (store : Store κ) (call : Nat) (value : Option OpenCall) : Store κ :=
  { store with calls := fun other => if other = call then value else store.calls other }

/-- The bounds `set_profile_suppressed_sources` asks of its argument. -/
def sourcesWithinBounds (sources : List String) : Bool :=
  decide (sources.length ≤ 127) && sources.all fun source =>
    !(Text.trim source.toList).isEmpty && decide (source.utf8ByteSize ≤ 256)

def withStatus (item : OutboxItem κ) (status : OutboxStatus) (nowMs : Int) : OutboxItem κ :=
  { item with status := status, updatedAtMs := nowMs }

def mapOutbox (store : Store κ) (change : OutboxItem κ → OutboxItem κ) : Store κ :=
  { store with outbox := store.outbox.map fun _ item => change item }

def setSuppressed (store : Store κ) (sources : List String) : Store κ :=
  { store with suppressedSources := sources }

def suppressItem (store : Store κ) (sources : List String) (nowMs : Int) (item : OutboxItem κ) :
    OutboxItem κ :=
  if item.status.isPending && (store.logical item.logicalId).any fun logical =>
      sources.contains logical.sourceId then withStatus item .suppressed nowMs
  else item

def setProfileSuppressedSources (store : Store κ) (sources : List String) (nowMs : Int) : Store κ :=
  if sourcesWithinBounds sources then
    (store.setSuppressed sources).mapOutbox (store.suppressItem sources nowMs)
  else store

def cancelItem (store : Store κ) (ruleId : String) (active : Option Rule) (nowMs : Int)
    (item : OutboxItem κ) : OutboxItem κ :=
  if item.status.isPending && (store.logical item.logicalId).any fun logical =>
      decide (logical.ruleId = ruleId) &&
        !(active.any fun rule => rule.allows item.actionIndex item.channel) then
    withStatus item .expired nowMs
  else item

def cancelDisabledOutbox (store : Store κ) (ruleId : String) (active : Option Rule) (nowMs : Int) :
    Store κ :=
  store.mapOutbox (store.cancelItem ruleId active nowMs)

def putRule (store : Store κ) (id : String) (record : RuleRecord) : Store κ :=
  { store with rules := store.rules.insert id record }

def eraseRule (store : Store κ) (id : String) : Store κ :=
  { store with rules := store.rules.erase id }

def saveDraft (store : Store κ) (draft : Rule) (expectedDraftRevision : Nat) (persisted : Bool) :
    Store κ :=
  match store.rules[draft.id]? with
  | some existing =>
    if existing.ownerId = draft.ownerId ∧ existing.draftRevision = expectedDraftRevision ∧
        persisted = true then
      store.putRule draft.id
        ⟨draft.ownerId, draft, existing.draftRevision + 1, existing.active, existing.activeRevision⟩
    else store
  | none =>
    if expectedDraftRevision = 0 ∧ persisted = true then
      store.putRule draft.id ⟨draft.ownerId, draft, 1, none, 0⟩
    else store

/-- The record a control call may change: owner and revisions agree. -/
def editable (store : Store κ) (ruleId ownerId : String) (activeRevision draftRevision : Nat) :
    Option RuleRecord :=
  store.rules[ruleId]?.filter fun record =>
    decide (record.ownerId = ownerId) && (decide (record.activeRevision = activeRevision) &&
      decide (record.draftRevision = draftRevision))

def activated (record : RuleRecord) : RuleRecord :=
  { record with active := some record.draft, activeRevision := record.activeRevision + 1 }

/-- `activate`; `accepted` says that the draft is valid and could be persisted. -/
def activate (store : Store κ) (ruleId ownerId : String) (activeRevision draftRevision : Nat)
    (accepted : Bool) (nowMs : Int) : Store κ :=
  match store.editable ruleId ownerId activeRevision draftRevision with
  | some record =>
    if accepted then
      (store.putRule ruleId (activated record)).cancelDisabledOutbox ruleId
        (some record.draft) nowMs
    else store
  | none => store

def delete (store : Store κ) (ruleId ownerId : String) (activeRevision draftRevision : Nat)
    (persisted : Bool) (nowMs : Int) : Store κ :=
  match store.editable ruleId ownerId activeRevision draftRevision with
  | some _ =>
    if persisted then (store.eraseRule ruleId).cancelDisabledOutbox ruleId none nowMs
    else store
  | none => store

def due (store : Store κ) (channel : Channel) (nowMs : Int) : List (Nat × OutboxItem κ) :=
  store.outbox.toList.filter fun item =>
    decide (item.2.channel = channel) && (item.2.status.isPending &&
      (decide (item.2.nextAttemptAtMs ≤ nowMs) && (store.logical item.2.logicalId).isSome))

/-- The due item of the highest priority, the oldest of these. -/
def nextDueOutboxId (store : Store κ) (channel : Channel) (nowMs : Int) :
    Option (Nat × OutboxItem κ) :=
  (store.due channel nowMs).foldl
    (fun best item =>
      match best with
      | none => some item
      | some chosen => if chosen.2.priority < item.2.priority then some item else some chosen)
    none

def claimItem (item : OutboxItem κ) (nowMs : Int) : OutboxItem κ :=
  { item with status := .delivering, attemptCount := item.attemptCount + 1, updatedAtMs := nowMs }

def deliveryOf (id : Nat) (item : OutboxItem κ) (logical : LogicalNotification) : Delivery κ where
  id := id
  logicalId := item.logicalId
  ruleId := logical.ruleId
  stage := item.stage
  channel := item.channel
  attempt := item.attemptCount + 1
  maxAttempts := item.maxAttempts
  maxRetryIntervalMs := item.maxRetryIntervalMs
  expiresAtMs := item.expiresAtMs

/-- The loop of `claim_due`. Every turn that does not return takes an item out of
the pending ones, so their number is enough fuel. -/
def claimLoop (channel : Channel) (nowMs : Int) : Nat → Store κ → Option (Delivery κ) × Store κ
  | 0, store => (none, store)
  | fuel + 1, store =>
    match store.nextDueOutboxId channel nowMs with
    | none => (none, store)
    | some (id, item) =>
      match store.logical item.logicalId with
      | none => (none, store)
      | some logical =>
        if item.expiresAtMs ≤ nowMs then
          claimLoop channel nowMs fuel (store.putItem id (withStatus item .expired nowMs))
        else (some (deliveryOf id item logical), store.putItem id (claimItem item nowMs))

def claimDue (store : Store κ) (channel : Channel) (nowMs : Int) :
    Option (Delivery κ) × Store κ :=
  claimLoop channel nowMs (store.pendingOutboxCount + 1) store

inductive DeliveryOutcome
  | delivered
  | permanent
  | transient (retryAfterMs : Option Nat)
deriving DecidableEq, Repr

def retryAt (delivery : Delivery κ) (retryAfterMs : Option Nat) (nowMs : Int) : Int :=
  addMillis nowMs (min (max (retryAfterMs.getD (retryInterval delivery.attempt)) minRetryIntervalMs)
    delivery.maxRetryIntervalMs)

def deliveryTransition (delivery : Delivery κ) (outcome : DeliveryOutcome) (nowMs : Int) :
    OutboxStatus × Option Int :=
  match outcome with
  | .delivered => (.delivered, none)
  | .permanent => (.failed, none)
  | .transient retryAfterMs =>
    if delivery.maxAttempts ≤ delivery.attempt then (.failed, none)
    else if delivery.expiresAtMs ≤ retryAt delivery retryAfterMs nowMs then (.expired, none)
    else (.retrying, some (retryAt delivery retryAfterMs nowMs))

def claimValid (store : Store κ) (delivery : Delivery κ) (item : OutboxItem κ) : Bool :=
  decide (item.status = .delivering) && decide (item.attemptCount = delivery.attempt) &&
    decide (item.logicalId = delivery.logicalId) && decide (item.channel = delivery.channel) &&
    decide (item.stage = delivery.stage) &&
    (store.logical delivery.logicalId).any fun logical => decide (logical.ruleId = delivery.ruleId)

def finishItem (item : OutboxItem κ) (transition : OutboxStatus × Option Int) (nowMs : Int) :
    OutboxItem κ :=
  { item with
    status := transition.1
    nextAttemptAtMs := transition.2.getD item.nextAttemptAtMs
    updatedAtMs := nowMs }

def finishDelivery (store : Store κ) (delivery : Delivery κ) (outcome : DeliveryOutcome)
    (nowMs : Int) (removed : κ → Bool) : Store κ :=
  match store.outbox[delivery.id]? with
  | none => store
  | some item =>
    if store.claimValid delivery item then
      (store.putItem delivery.id
        (finishItem item (deliveryTransition delivery outcome nowMs) nowMs)).prune removed
    else store

/-- The candidate of `test_rule`: the rule's first source, or none of the cameras. -/
def testCandidate (rule : Rule) (identity : String) (eventKind : Option String) (nowMs : Int) :
    Candidate where
  sourceId := rule.sourceIds.head?.getD "notification-test"
  sourceIdentity := identity
  lifecycle := .test
  eventKind := eventKind
  severity := .info
  revision := 1
  stage := .preliminary
  occurredAtMs := nowMs

inductive Op (κ : Type)
  | setProfileSuppressedSources (sources : List String) (nowMs : Int)
  | saveDraft (draft : Rule) (expectedDraftRevision : Nat) (persisted : Bool)
  | activate (ruleId ownerId : String) (activeRevision draftRevision : Nat) (accepted : Bool)
      (nowMs : Int)
  | delete (ruleId ownerId : String) (activeRevision draftRevision : Nat) (persisted : Bool)
      (nowMs : Int)
  | beginProcess (call : Nat) (candidate : Candidate)
  | finishProcess (call : Nat) (identity : String) (revision : Nat) (answer : Rule → Answer)
      (before after : κ → Bool)
  | beginTest (call : Nat) (ruleId : String)
  | finishTest (call : Nat) (identity : String) (eventKind : Option String) (answer : Answer)
      (nowMs : Int) (before after : κ → Bool)
  | claimDue (channel : Channel) (nowMs : Int)
  | finishDelivery (delivery : Delivery κ) (outcome : DeliveryOutcome) (nowMs : Int)
      (removed : κ → Bool)

/-- `normalize_operational_interval` may replace identity and revision. -/
def normalized (candidate : Candidate) (identity : String) (revision : Nat) : Candidate :=
  { candidate with sourceIdentity := identity, revision := revision }

def finishProcess (digest : LogicalKey → κ) (store : Store κ) (call : Nat) (identity : String)
    (revision : Nat) (answer : Rule → Answer) (before after : κ → Bool) : Store κ :=
  match store.calls call with
  | some (.process rules candidate) =>
    ((((store.setCall call none).prune before).processInState digest rules
      (normalized candidate identity revision) answer).prune after)
  | _ => store

def finishTest (digest : LogicalKey → κ) (store : Store κ) (call : Nat) (identity : String)
    (eventKind : Option String) (answer : Answer) (nowMs : Int) (before after : κ → Bool) :
    Store κ :=
  match store.calls call with
  | some (.test rule) =>
    ((((store.setCall call none).prune before).processRule digest rule
      (testCandidate rule identity eventKind nowMs) answer).prune after)
  | _ => store

def step (digest : LogicalKey → κ) (store : Store κ) : Op κ → Store κ
  | .setProfileSuppressedSources sources nowMs => store.setProfileSuppressedSources sources nowMs
  | .saveDraft draft expected persisted => store.saveDraft draft expected persisted
  | .activate ruleId ownerId activeRevision draftRevision accepted nowMs =>
    store.activate ruleId ownerId activeRevision draftRevision accepted nowMs
  | .delete ruleId ownerId activeRevision draftRevision persisted nowMs =>
    store.delete ruleId ownerId activeRevision draftRevision persisted nowMs
  | .beginProcess call candidate => store.setCall call (some (.process store.activeRules candidate))
  | .finishProcess call identity revision answer before after =>
    store.finishProcess digest call identity revision answer before after
  | .beginTest call ruleId =>
    match store.activeRule ruleId with
    | some rule => store.setCall call (some (.test rule))
    | none => store
  | .finishTest call identity eventKind answer nowMs before after =>
    store.finishTest digest call identity eventKind answer nowMs before after
  | .claimDue channel nowMs => (store.claimDue channel nowMs).2
  | .finishDelivery delivery outcome nowMs removed =>
    store.finishDelivery delivery outcome nowMs removed

end Store

end KeepPeek.Notifications
