import Mathlib.Data.Prod.Lex
import Mathlib.Data.List.Sort
import KeepPeek.Lib.Table
import KeepPeek.Notifications.Outbox

/-! The process-local tables of the notification runtime, `state.rs`, and what fills and
prunes them: admission of a candidate with cooldowns and rate limits, the outbox, delivery
attempts, provider receipts and inbox receipts.

The rules a call works with are its argument, since it reads them before it takes the
lock. History, texts and payloads are left out. -/
namespace KeepPeek.Notifications

open Lib

inductive Trigger
  | eventCreated
  | eventUpdated
  | eventEnded
  | outageStarted
  | recovery
  | storageHealth
  | recordingHealth
  | test
deriving DecidableEq, Repr

inductive RateLimitScope
  | rule
  | channel
  | principal
  | global
deriving DecidableEq, Repr

structure RateLimit where
  scope : RateLimitScope
  maximum : Nat
  windowMs : Nat
deriving DecidableEq, Repr

structure CriticalBypass where
  maximum : Nat
  windowMs : Nat
deriving DecidableEq, Repr

inductive CooldownScope
  | event
  | cameraEventKind
  | group
  | rule
  | outage
deriving DecidableEq, Repr

structure Cooldown where
  scope : CooldownScope
  durationMs : Nat
deriving DecidableEq, Repr

structure RuntimeRule extends Rule where
  triggers : List Trigger
  cooldowns : List Cooldown
  rateLimits : List RateLimit
  criticalBypass : Option CriticalBypass
deriving DecidableEq, Repr

structure RuntimeCandidate extends Candidate where
  trigger : Trigger
  groupIds : List String
deriving DecidableEq, Repr

structure Logical extends LogicalNotification where
  ownerId : String
deriving DecidableEq, Repr

structure InboxReceipt where
  seenAtMs : Option Int
  acknowledgedAtMs : Option Int
  clearedAtMs : Option Int
deriving DecidableEq, Repr

structure IntervalKey where
  sourceId : String
  lifecycle : Lifecycle
  eventKind : String
deriving DecidableEq, Repr

structure OperationalInterval where
  identity : String
  revision : Nat
  active : Bool
  updatedAtMs : Int
deriving DecidableEq, Repr

structure CooldownKey where
  ruleId : String
  scope : CooldownScope
  value : String
deriving DecidableEq, Repr

abbrev RateKey := String × String

structure RateWindow where
  startedAtMs : Int
  count : Nat
deriving DecidableEq, Repr

structure Item (κ : Type) extends OutboxItem κ where
  providerReceipt : Option String
  nextReceiptCheckAtMs : Option Int
  providerReceiptExpiresAtMs : Option Int
  providerAcknowledgedAtMs : Option Int
  providerExpiredAtMs : Option Int
deriving DecidableEq

structure DeliveryAttempt (κ : Type) where
  outboxId : Nat
  logicalId : κ
  channel : Channel
  stage : Stage
  attempt : Nat
  status : OutboxStatus
  attemptedAtMs : Int
deriving DecidableEq

structure Created where
  ruleId : String
  occurredAtMs : Int
  criticalBypass : Bool
deriving DecidableEq, Repr

/-- `created`, `usedKeys` and `pruneErrors` are kept beside the tables: the notifications
created, the rate keys consumed and the errors that prune calls returned so far. -/
structure RuntimeState (κ : Type) where
  logical : Table κ Logical
  intervals : Table IntervalKey OperationalInterval
  receipts : Table (κ × String) InboxReceipt
  cooldowns : Table CooldownKey Int
  rateWindows : Table RateKey RateWindow
  outbox : Std.ExtTreeMap Nat (Item κ)
  attempts : List (DeliveryAttempt κ)
  nextOutboxId : Nat
  suppressedSources : List String
  created : List Created
  usedKeys : List RateKey
  pruneErrors : List String

def maxTerminalNotifications : Nat := 2000
def maxLogicalNotifications : Nat := maxPendingOutbox + maxTerminalNotifications
def maxDeliveryAttempts : Nat := 50000
def maxCooldownWindows : Nat := 10000
def maxRateWindows : Nat := 4096
def maxInactiveOperationalIntervals : Nat := 4096
def maxOperationalIntervals : Nat := 8192

structure ScheduleStatus where
  active : Bool
  quiet : Bool
deriving DecidableEq, Repr

/-- What the runtime asks of its surroundings: the digest of a key, a rule's filter, its
schedule, and the order in which an unstable sort leaves inactive intervals. -/
structure Host (κ : Type) where
  digest : LogicalKey → κ
  filterMatches : RuntimeRule → RuntimeCandidate → Bool
  status : RuntimeRule → Int → Option ScheduleStatus
  /-- Later times are not representable in the calendar. -/
  status_le : ∀ rule timestampMs answer, status rule timestampMs = some answer →
    timestampMs ≤ 8210266876799999
  sortIntervals : List (Int × IntervalKey) → List (Int × IntervalKey)
  sortIntervals_perm : ∀ intervals, (sortIntervals intervals).Perm intervals
  sortIntervals_sorted : ∀ intervals,
    (sortIntervals intervals).Pairwise fun left right => left.1 ≤ right.1

inductive Suppression
  | outsideSchedule
  | quietHours
  | runtimeProfile
deriving DecidableEq, Repr

inductive MatchResult
  | noMatch
  | suppressed (reason : Suppression)
  | «match»
deriving DecidableEq, Repr

/-- `Rule::matches`; `none` is the error of a schedule that has no status at that time. -/
def RuntimeRule.matches {κ : Type} (host : Host κ) (rule : RuntimeRule)
    (candidate : RuntimeCandidate) : Option MatchResult :=
  if !rule.enabled || !rule.triggers.contains candidate.trigger then some .noMatch
  else if !host.filterMatches rule candidate then some .noMatch
  else
    (host.status rule candidate.occurredAtMs).map fun schedule =>
      if !schedule.active then .suppressed .outsideSchedule
      else if schedule.quiet &&
          !(decide (candidate.severity = .critical) && rule.criticalBypass.isSome) then
        .suppressed .quietHours
      else .«match»

def cooldownKeysOf (rule : RuntimeRule) (candidate : RuntimeCandidate) (cooldown : Cooldown) :
    List CooldownKey :=
  match cooldown.scope with
  | .event =>
    if candidate.lifecycle = .event then
      [⟨rule.id, .event, candidate.sourceId ++ ":" ++ candidate.sourceIdentity⟩]
    else []
  | .cameraEventKind =>
    [⟨rule.id, .cameraEventKind, candidate.sourceId ++ ":" ++ candidate.eventKind.getD ""⟩]
  | .group => candidate.groupIds.map fun groupId => ⟨rule.id, .group, groupId⟩
  | .rule => [⟨rule.id, .rule, rule.id⟩]
  | .outage =>
    if candidate.lifecycle = .outage then
      [⟨rule.id, .outage, candidate.sourceId ++ ":" ++ candidate.sourceIdentity⟩]
    else []

def cooldownKeys (rule : RuntimeRule) (candidate : RuntimeCandidate) : List (CooldownKey × Nat) :=
  rule.cooldowns.flatMap fun cooldown =>
    (cooldownKeysOf rule candidate cooldown).map fun key => (key, cooldown.durationMs)

def Channel.asStr : Channel → String
  | .browser => "browser"
  | .push => "push"
  | .webhook => "webhook"
  | .forwarder => "forwarder"

/-- Tests are counted apart from everything else. -/
def rateKey (scope : RateLimitScope) (rule : RuntimeRule) (candidate : RuntimeCandidate)
    (channel : Option Channel) : RateKey :=
  let before := if candidate.trigger = .test then "test_" else ""
  match scope with
  | .rule => (before ++ "rule", rule.id)
  | .channel => (before ++ "channel", (channel.map Channel.asStr).getD "unknown")
  | .principal => (before ++ "principal", rule.ownerId)
  | .global => (before ++ "global", "*")

def criticalBypassKey (rule : RuntimeRule) : RateKey := ("critical_bypass", rule.id)

inductive NewNotificationAdmission
  | accepted (criticalBypass : Bool)
  | suppressed (reason : String) (nextEligibleAtMs : Option Int)
deriving DecidableEq, Repr

def Item.receiptPending {κ : Type} (item : Item κ) : Bool :=
  decide (item.status = .delivered) && item.providerReceipt.isSome &&
    item.providerAcknowledgedAtMs.isNone && item.providerExpiredAtMs.isNone &&
    item.nextReceiptCheckAtMs.isSome

def Item.active {κ : Type} (item : Item κ) : Bool :=
  item.status.isPending || decide (item.status = .delivering) || item.receiptPending

namespace RuntimeState

variable {κ : Type}

def empty [DecidableEq κ] : RuntimeState κ where
  logical := ∅
  intervals := ∅
  receipts := ∅
  cooldowns := ∅
  rateWindows := ∅
  outbox := ∅
  attempts := []
  nextOutboxId := 1
  suppressedSources := []
  created := []
  usedKeys := []
  pruneErrors := []

variable (state : RuntimeState κ)

def pendingOutboxCount : Nat :=
  state.outbox.toList.countP fun item => item.2.status.isPending

def logicalCapacityAvailable : Bool :=
  decide (state.logical.size < maxLogicalNotifications)

def cooldownCapacityFor (keys : List CooldownKey) : Bool :=
  decide (state.cooldowns.size + (keys.filter fun key =>
    decide (key ∉ state.cooldowns)).dedup.length
    ≤ maxCooldownWindows)

def pushAttempt (attempt : DeliveryAttempt κ) : RuntimeState κ :=
  let attempts := state.attempts ++ [attempt]
  { state with attempts := attempts.drop (attempts.length - maxDeliveryAttempts) }

def oldestRateWindows (windows : Table RateKey RateWindow) : List RateKey :=
  let oldest := windows.entries.map fun entry =>
    (toLex (entry.2.startedAtMs, toLex entry.1) : Int ×ₗ String ×ₗ String)
  ((oldest.insertionSort (· ≤ ·)).take (windows.size - maxRateWindows)).map fun entry =>
    ofLex (ofLex entry).2

def pruneOldestRateWindows (windows : Table RateKey RateWindow) : Table RateKey RateWindow :=
  windows.retain fun key _ => decide (key ∉ oldestRateWindows windows)

def oldestInactiveIntervals (host : Host κ) (intervals : Table IntervalKey OperationalInterval) :
    List IntervalKey :=
  let inactive := (intervals.entries.filter fun entry => !entry.2.active).map fun entry =>
    (entry.2.updatedAtMs, entry.1)
  ((host.sortIntervals inactive).take (inactive.length - maxInactiveOperationalIntervals)).map
    Prod.snd

/-- What `prune_operational_intervals` keeps; `prune` checks the size that is left. -/
def pruneOperationalIntervals (host : Host κ) (intervals : Table IntervalKey OperationalInterval) :
    Table IntervalKey OperationalInterval :=
  intervals.retain fun key _ => decide (key ∉ oldestInactiveIntervals host intervals)

section Prune

variable [LinearOrder κ]

def activeLogicalIds : List κ :=
  (state.outbox.toList.filter fun item => item.2.active).map fun item => item.2.logicalId

def terminal : List (Int ×ₗ κ) :=
  let terminal := (state.logical.entries.filter fun entry =>
    decide (entry.1 ∉ state.activeLogicalIds)).map fun entry => toLex (entry.2.updatedAtMs, entry.1)
  terminal.insertionSort (· ≥ ·)

def removed : List κ :=
  (state.terminal.drop maxTerminalNotifications).map fun entry => (ofLex entry).2

def pruneTerminalNotifications : RuntimeState κ :=
  { state with
    logical := state.logical.retain fun id _ => decide (id ∉ state.removed)
    receipts := state.receipts.retain fun key _ => decide (key.1 ∉ state.removed)
    attempts := state.attempts.filter fun attempt => decide (attempt.logicalId ∉ state.removed)
    outbox := state.outbox.filter fun _ item => decide (item.logicalId ∉ state.removed) }

def retainCooldowns (nowMs : Int) : RuntimeState κ :=
  { state with
    cooldowns := state.cooldowns.retain fun _ eligibleAtMs => decide (nowMs < eligibleAtMs) }

def pruneWindows (host : Host κ) : RuntimeState κ :=
  { state with
    rateWindows := pruneOldestRateWindows state.rateWindows
    intervals := pruneOperationalIntervals host state.intervals }

/-- `prune`: what it leaves behind, and the error it returns if it does. A failed call keeps
the tables it had pruned until then. -/
def prune (host : Host κ) (nowMs : Int) : Except String Unit × RuntimeState κ :=
  let kept := state.retainCooldowns nowMs
  if maxCooldownWindows < kept.cooldowns.size then
    (.error "notification process-local cooldown limit reached", kept)
  else
    let windowed := kept.pruneWindows host
    if maxOperationalIntervals < windowed.intervals.size then
      (.error "notification process-local operational interval limit reached", windowed)
    else
      let pruned := windowed.pruneTerminalNotifications
      if maxLogicalNotifications < pruned.logical.size then
        (.error "notification process-local logical notification limit reached", pruned)
      else (.ok (), pruned)

end Prune

def cooldownEligibleAt (rule : RuntimeRule) (candidate : RuntimeCandidate) : Option Int :=
  (cooldownKeys rule candidate).foldl
    (fun next entry =>
      match state.cooldowns.lookup entry.1 with
      | some eligibleAtMs =>
        if candidate.occurredAtMs < eligibleAtMs then
          some (next.elim eligibleAtMs fun value => max value eligibleAtMs)
        else next
      | none => next)
    none

def putCooldown (key : CooldownKey) (eligibleAtMs : Int) : RuntimeState κ :=
  { state with cooldowns := state.cooldowns.insert key eligibleAtMs }

/-- `none` if there is no room for the rule's cooldowns. -/
def startCooldowns (rule : RuntimeRule) (candidate : RuntimeCandidate) : Option (RuntimeState κ) :=
  let cooldowns := cooldownKeys rule candidate
  if state.cooldownCapacityFor (cooldowns.map Prod.fst) then
    some (cooldowns.foldl
      (fun state entry => state.putCooldown entry.1
        (addMillis candidate.occurredAtMs entry.2)) state)
  else none

def rateLimitedForKey (maximum windowMs : Nat) (key : RateKey) (nowMs : Int) : Bool :=
  (state.rateWindows.lookup key).any fun window =>
    decide (nowMs < addMillis window.startedAtMs windowMs) && decide (maximum ≤ window.count)

def RateWindow.consume (window : RateWindow) (windowMs : Nat) (nowMs : Int) : RateWindow :=
  if addMillis window.startedAtMs windowMs ≤ nowMs then ⟨nowMs, 1⟩
  else { window with count := min (window.count + 1) u64Max }

def consumeRateForKey (windowMs : Nat) (key : RateKey) (nowMs : Int) : RuntimeState κ :=
  let window := (state.rateWindows.lookup key).getD ⟨nowMs, 0⟩
  { state with
    rateWindows := state.rateWindows.insert key (RateWindow.consume window windowMs nowMs)
    usedKeys := state.usedKeys ++ [key] }

def rateLimited (limit : RateLimit) (rule : RuntimeRule) (candidate : RuntimeCandidate)
    (channel : Option Channel) : Bool :=
  state.rateLimitedForKey limit.maximum limit.windowMs (rateKey limit.scope rule candidate channel)
    candidate.occurredAtMs

def consumeRate (limit : RateLimit) (rule : RuntimeRule) (candidate : RuntimeCandidate)
    (channel : Option Channel) : RuntimeState κ :=
  state.consumeRateForKey limit.windowMs (rateKey limit.scope rule candidate channel)
    candidate.occurredAtMs

def ruleLimits (rule : RuntimeRule) : List RateLimit :=
  rule.rateLimits.filter fun limit => decide (limit.scope ≠ .channel)

def channelLimits (rule : RuntimeRule) : List RateLimit :=
  rule.rateLimits.filter fun limit => decide (limit.scope = .channel)

def ruleRateLimited (rule : RuntimeRule) (candidate : RuntimeCandidate) : Bool :=
  (ruleLimits rule).any fun limit => state.rateLimited limit rule candidate none

def consumeRuleRateLimits (rule : RuntimeRule) (candidate : RuntimeCandidate) : RuntimeState κ :=
  (ruleLimits rule).foldl (fun state limit => state.consumeRate limit rule candidate none) state

def channelRateLimited (rule : RuntimeRule) (candidate : RuntimeCandidate) (channel : Channel) :
    Bool :=
  (channelLimits rule).any fun limit => state.rateLimited limit rule candidate (some channel)

def consumeChannelRateLimits (rule : RuntimeRule) (candidate : RuntimeCandidate)
    (channel : Channel) : RuntimeState κ :=
  (channelLimits rule).foldl
    (fun state limit => state.consumeRate limit rule candidate (some channel)) state

/-- A matched candidate's time has a status, so the `expect` of the source holds. -/
def quietBypass (host : Host κ) (rule : RuntimeRule) (candidate : RuntimeCandidate) : Bool :=
  decide (candidate.severity = .critical) &&
    (host.status rule candidate.occurredAtMs).any ScheduleStatus.quiet

def criticalBypassAvailable (rule : RuntimeRule) (candidate : RuntimeCandidate) : Bool :=
  decide (candidate.severity = .critical) && rule.criticalBypass.any fun bypass =>
    !state.rateLimitedForKey bypass.maximum bypass.windowMs (criticalBypassKey rule)
      candidate.occurredAtMs

def consumeCriticalBypass (rule : RuntimeRule) (candidate : RuntimeCandidate) : RuntimeState κ :=
  match rule.criticalBypass with
  | some bypass =>
    state.consumeRateForKey bypass.windowMs (criticalBypassKey rule) candidate.occurredAtMs
  | none => state

def needsBypass (host : Host κ) (rule : RuntimeRule) (candidate : RuntimeCandidate) : Bool :=
  quietBypass host rule candidate || (state.cooldownEligibleAt rule candidate).isSome ||
    state.ruleRateLimited rule candidate

def suppressionReason (host : Host κ) (rule : RuntimeRule) (candidate : RuntimeCandidate) :
    String :=
  if quietBypass host rule candidate then "critical_bypass_limited"
  else if (state.cooldownEligibleAt rule candidate).isSome then "cooldown"
  else "rate_limited"

def admitNewNotification (host : Host κ) (rule : RuntimeRule) (candidate : RuntimeCandidate) :
    NewNotificationAdmission × RuntimeState κ :=
  let criticalBypass := state.needsBypass host rule candidate
  if criticalBypass && !state.criticalBypassAvailable rule candidate then
    (.suppressed (state.suppressionReason host rule candidate)
      (state.cooldownEligibleAt rule candidate), state)
  else if !state.logicalCapacityAvailable then (.suppressed "logical_state_full" none, state)
  else
    match state.startCooldowns rule candidate with
    | none => (.suppressed "cooldown_state_full" none, state)
    | some started =>
      (.accepted criticalBypass,
        if criticalBypass then started.consumeCriticalBypass rule candidate else started)

section Process

variable [LinearOrder κ]

def putLogical (id : κ) (logical : Logical) : RuntimeState κ :=
  { state with logical := state.logical.insert id logical }

def putReceipt (key : κ × String) (receipt : InboxReceipt) : RuntimeState κ :=
  { state with receipts := state.receipts.insert key receipt }

def putItem (id : Nat) (item : Item κ) : RuntimeState κ :=
  { state with outbox := state.outbox.insert id item }

def logCreated (entry : Created) : RuntimeState κ :=
  { state with created := state.created ++ [entry] }

def insertNewLogical (rule : RuntimeRule) (candidate : RuntimeCandidate) (logicalId : κ) :
    RuntimeState κ :=
  ((state.putLogical logicalId
      { Store.newLogical rule.toRule candidate.toCandidate with
        ownerId := rule.ownerId }).putReceipt
    (logicalId, rule.ownerId) ⟨none, none, none⟩).consumeRuleRateLimits rule candidate

def outboxKeyExists (logicalId : κ) (index : Nat) (stage : Stage) : Bool :=
  state.outbox.toList.any fun item =>
    decide (item.2.logicalId = logicalId) && decide (item.2.actionIndex = index) &&
      decide (item.2.stage = stage)

def buildItem (rule : RuntimeRule) (candidate : RuntimeCandidate) (logicalId : κ) (index : Nat)
    (action : Action) : Item κ :=
  { Store.buildOutboxItem rule.toRule candidate.toCandidate logicalId index action with
    providerReceipt := none
    nextReceiptCheckAtMs := none
    providerReceiptExpiresAtMs := none
    providerAcknowledgedAtMs := none
    providerExpiredAtMs := none }

/-- Whether `enqueue_action` gets as far as inserting an item. -/
def queues (rule : RuntimeRule) (candidate : RuntimeCandidate) (logicalId : κ)
    (replacement attachment : Bool) (index : Nat) (action : Action) : Bool :=
  action.enabled &&
    !(replacement && !supportsReplacement action.channel && !action.allowSecondDelivery) &&
    !(action.attachmentRequired && !attachment) &&
    !state.channelRateLimited rule candidate action.channel &&
    decide (state.pendingOutboxCount < maxPendingOutbox) &&
    !state.outboxKeyExists logicalId index candidate.stage

def takeOutboxId : RuntimeState κ := { state with nextOutboxId := state.nextOutboxId + 1 }

def enqueueAction (rule : RuntimeRule) (candidate : RuntimeCandidate) (logicalId : κ)
    (replacement attachment : Bool) (index : Nat) (action : Action) : RuntimeState κ :=
  if state.queues rule candidate logicalId replacement attachment index action then
    ((state.putItem state.nextOutboxId
      (buildItem rule candidate logicalId index action)).takeOutboxId).consumeChannelRateLimits
        rule candidate action.channel
  else state

def enqueueActions (rule : RuntimeRule) (candidate : RuntimeCandidate) (logicalId : κ)
    (replacement attachment : Bool) : RuntimeState κ :=
  rule.actions.zipIdx.foldl
    (fun state entry =>
      state.enqueueAction rule candidate logicalId replacement attachment entry.2 entry.1) state

def processExisting (rule : RuntimeRule) (candidate : RuntimeCandidate) (logicalId : κ)
    (existing : Logical) (attachment : Bool) : RuntimeState κ :=
  let collapsed : Logical :=
    { Store.collapse existing.toLogicalNotification candidate.toCandidate with
      ownerId := existing.ownerId }
  if candidate.revision ≤ existing.highestRevision then state
  else if isTrackedOperationalEvent candidate.toCandidate = false ∧ candidate.stage = .enriched ∧
      rule.enrichment.maximumRevisions < candidate.revision then
    state.putLogical logicalId collapsed
  else if Store.replaces rule.toRule candidate.toCandidate existing.toLogicalNotification then
    (state.putLogical logicalId
      { Store.replace existing.toLogicalNotification candidate.toCandidate with
        ownerId := existing.ownerId }).enqueueActions rule candidate logicalId true attachment
  else state.putLogical logicalId collapsed

def candidateLogicalId (host : Host κ) (rule : RuntimeRule) (candidate : RuntimeCandidate) : κ :=
  host.digest (Store.candidateKey rule.toRule candidate.toCandidate)

def createNewNotification (rule : RuntimeRule) (candidate : RuntimeCandidate) (logicalId : κ)
    (attachment criticalBypass : Bool) : RuntimeState κ :=
  ((state.insertNewLogical rule candidate logicalId).logCreated
    ⟨rule.id, candidate.occurredAtMs, criticalBypass⟩).enqueueActions rule candidate logicalId false
      attachment

def processRule (host : Host κ) (rule : RuntimeRule) (candidate : RuntimeCandidate)
    (attachment : Bool) : RuntimeState κ :=
  let logicalId := candidateLogicalId host rule candidate
  match state.logical.lookup logicalId with
  | some existing => state.processExisting rule candidate logicalId existing attachment
  | none =>
    match state.admitNewNotification host rule candidate with
    | (.accepted criticalBypass, admitted) =>
      admitted.createNewNotification rule candidate logicalId attachment criticalBypass
    | (.suppressed _ _, unchanged) => unchanged

def startsInterval (candidate : RuntimeCandidate) : Bool :=
  decide (candidate.trigger = .outageStarted) || decide (candidate.trigger = .storageHealth) ||
    decide (candidate.trigger = .recordingHealth)

def closesInterval (candidate : RuntimeCandidate) : Bool :=
  decide (candidate.trigger = .recovery) &&
    (decide (candidate.lifecycle = .outage) || decide (candidate.lifecycle = .storage) ||
      decide (candidate.lifecycle = .recording))

def intervalKey (candidate : RuntimeCandidate) : IntervalKey :=
  ⟨candidate.sourceId, candidate.lifecycle, candidate.eventKind.getD ""⟩

def putInterval (key : IntervalKey) (interval : OperationalInterval) : RuntimeState κ :=
  { state with intervals := state.intervals.insert key interval }

def renamed (candidate : RuntimeCandidate) (identity : String) (revision : Nat) :
    RuntimeCandidate :=
  { candidate with sourceIdentity := identity, revision := revision }

def openInterval (candidate : RuntimeCandidate) :
    Except String (RuntimeCandidate × RuntimeState κ) :=
  match (state.intervals.lookup (intervalKey candidate)).filter OperationalInterval.active with
  | some existing => .ok (renamed candidate existing.identity existing.revision, state)
  | none =>
    if intervalKey candidate ∉ state.intervals ∧ maxOperationalIntervals ≤ state.intervals.size then
      .error "notification process-local operational interval limit reached"
    else
      .ok (renamed candidate candidate.sourceIdentity 1, state.putInterval (intervalKey candidate)
        ⟨candidate.sourceIdentity, 1, true, candidate.occurredAtMs⟩)

def closeInterval (candidate : RuntimeCandidate) : RuntimeCandidate × RuntimeState κ :=
  match (state.intervals.lookup (intervalKey candidate)).filter OperationalInterval.active with
  | some existing =>
    let revision := min (existing.revision + 1) u64Max
    (renamed candidate existing.identity revision, state.putInterval (intervalKey candidate)
      ⟨existing.identity, revision, false, candidate.occurredAtMs⟩)
  | none => (candidate, state)

def normalizeOperationalInterval (candidate : RuntimeCandidate) :
    Except String (RuntimeCandidate × RuntimeState κ) :=
  if isTrackedOperationalEvent candidate.toCandidate then .ok (candidate, state)
  else if startsInterval candidate then state.openInterval candidate
  else if closesInterval candidate then .ok (state.closeInterval candidate)
  else .ok (candidate, state)

def pruneAt (host : Host κ) (nowMs : Int) : Bool × RuntimeState κ :=
  match state.prune host nowMs with
  | (.ok _, pruned) => (true, pruned)
  | (.error message, kept) => (false, { kept with pruneErrors := kept.pruneErrors ++ [message] })

/-- A suppressed source turns every match into a suppression. -/
def profiled (candidate : RuntimeCandidate) (result : MatchResult) : MatchResult :=
  if decide (result = .«match») && state.suppressedSources.contains candidate.sourceId then
    .suppressed .runtimeProfile
  else result

def processInState (host : Host κ) (candidate : RuntimeCandidate)
    (matched : List (MatchResult × RuntimeRule)) (attachment : RuntimeRule → Bool) :
    RuntimeState κ :=
  matched.foldl
    (fun state entry =>
      if entry.1 = .«match» then state.processRule host entry.2 candidate (attachment entry.2)
      else state)
    state

/-- `process` from where it holds the lock. -/
def processMatched (host : Host κ) (candidate : RuntimeCandidate)
    (matched : List (MatchResult × RuntimeRule)) (attachment : RuntimeRule → Bool) :
    RuntimeState κ :=
  let first := state.pruneAt host candidate.occurredAtMs
  if first.1 then
    match first.2.normalizeOperationalInterval candidate with
    | .error _ => first.2
    | .ok (normalized, opened) =>
      ((opened.processInState host normalized matched attachment).pruneAt host
        candidate.occurredAtMs).2
  else first.2

/-- `process`: an error of one rule's schedule ends the call before it touches the state. -/
def process (host : Host κ) (rules : List RuntimeRule) (candidate : RuntimeCandidate)
    (attachment : RuntimeRule → Bool) : RuntimeState κ :=
  match rules.mapM fun rule => (rule.matches host candidate).map fun result => (result, rule) with
  | none => state
  | some matched =>
    state.processMatched host candidate
      (matched.map fun entry => (state.profiled candidate entry.1, entry.2)) attachment

def testCandidate (rule : RuntimeRule) (identity : String) (eventKind : Option String)
    (nowMs : Int) : RuntimeCandidate :=
  { Store.testCandidate rule.toRule identity eventKind nowMs with
    trigger := .test
    groupIds := [] }

/-- `test_rule` from where it holds the lock. The test ignores the rule's cooldowns. -/
def testRule (host : Host κ) (rule : RuntimeRule) (identity : String) (eventKind : Option String)
    (nowMs : Int) : RuntimeState κ :=
  let first := state.pruneAt host nowMs
  if first.1 then
    ((first.2.processRule host { rule with cooldowns := [] }
      (testCandidate rule identity eventKind nowMs) false).pruneAt host nowMs).2
  else first.2

end Process

section Deliveries

variable [LinearOrder κ]

def mapOutbox (change : Item κ → Item κ) : RuntimeState κ :=
  { state with outbox := state.outbox.map fun _ item => change item }

def Item.withStatus (item : Item κ) (status : OutboxStatus) (nowMs : Int) : Item κ :=
  { item with status := status, updatedAtMs := nowMs }

def suppressItem (sources : List String) (nowMs : Int) (item : Item κ) : Item κ :=
  if item.status.isPending && (state.logical.lookup item.logicalId).any fun logical =>
      sources.contains logical.sourceId then Item.withStatus item .suppressed nowMs
  else item

def setProfileSuppressedSources (sources : List String) (nowMs : Int) : RuntimeState κ :=
  if Store.sourcesWithinBounds sources then
    { state.mapOutbox (state.suppressItem sources nowMs) with suppressedSources := sources }
  else state

def cancelItem (ruleId : String) (active : Option Rule) (nowMs : Int) (item : Item κ) : Item κ :=
  if item.status.isPending && (state.logical.lookup item.logicalId).any fun logical =>
      decide (logical.ruleId = ruleId) &&
        !(active.any fun rule => rule.allows item.actionIndex item.channel) then
    Item.withStatus item .expired nowMs
  else item

def cancelDisabledOutbox (ruleId : String) (active : Option Rule) (nowMs : Int) : RuntimeState κ :=
  state.mapOutbox (state.cancelItem ruleId active nowMs)

def due (channel : Channel) (nowMs : Int) : List (Nat × Item κ) :=
  state.outbox.toList.filter fun item =>
    decide (item.2.channel = channel) && item.2.status.isPending &&
      decide (item.2.nextAttemptAtMs ≤ nowMs) && (state.logical.lookup item.2.logicalId).isSome

/-- The due item of the highest priority, the oldest of these. -/
def nextDueOutboxId (channel : Channel) (nowMs : Int) : Option (Nat × Item κ) :=
  (state.due channel nowMs).foldl
    (fun best item =>
      match best with
      | none => some item
      | some chosen => if chosen.2.priority < item.2.priority then some item else some chosen)
    none

def claimItem (item : Item κ) (nowMs : Int) : Item κ :=
  { item with status := .delivering, attemptCount := item.attemptCount + 1, updatedAtMs := nowMs }

/-- The loop of `claim_due`. Every turn that does not return takes an item out of
the pending ones, so their number is enough fuel. -/
def claimLoop (channel : Channel) (nowMs : Int) : Nat → RuntimeState κ →
    Option (Delivery κ) × RuntimeState κ
  | 0, state => (none, state)
  | fuel + 1, state =>
    match state.nextDueOutboxId channel nowMs with
    | none => (none, state)
    | some (id, item) =>
      match state.logical.lookup item.logicalId with
      | none => (none, state)
      | some logical =>
        if item.expiresAtMs ≤ nowMs then
          claimLoop channel nowMs fuel (state.putItem id (Item.withStatus item .expired nowMs))
        else
          (some (Store.deliveryOf id item.toOutboxItem logical.toLogicalNotification),
            state.putItem id (claimItem item nowMs))

def claimDue (channel : Channel) (nowMs : Int) : Option (Delivery κ) × RuntimeState κ :=
  claimLoop channel nowMs (state.pendingOutboxCount + 1) state

structure ProviderReceipt where
  id : String
  expireSeconds : Nat
deriving DecidableEq, Repr

def pushoverMinRetryIntervalMs : Nat := 5000

def claimValid (delivery : Delivery κ) (item : Item κ) : Bool :=
  decide (item.status = .delivering) && decide (item.attemptCount = delivery.attempt) &&
    decide (item.logicalId = delivery.logicalId) && decide (item.channel = delivery.channel) &&
    decide (item.stage = delivery.stage) &&
    (state.logical.lookup delivery.logicalId).any fun logical =>
      decide (logical.ruleId = delivery.ruleId)

/-- The item after a delivery: only a delivered one keeps the provider's receipt. -/
def finishItem (item : Item κ) (transition : OutboxStatus × Option Int)
    (receipt : Option ProviderReceipt) (nowMs : Int) : Item κ :=
  let receipt := if transition.1 = .delivered then receipt else none
  { item with
    toOutboxItem := Store.finishItem item.toOutboxItem transition nowMs
    providerReceipt := receipt.map ProviderReceipt.id
    nextReceiptCheckAtMs := receipt.map fun _ => addMillis nowMs pushoverMinRetryIntervalMs
    providerReceiptExpiresAtMs := receipt.map fun receipt =>
      addMillis nowMs (receipt.expireSeconds * 1000) }

def applyDeliveryTransition (delivery : Delivery κ) (item : Item κ)
    (transition : OutboxStatus × Option Int) (receipt : Option ProviderReceipt) (nowMs : Int) :
    RuntimeState κ :=
  (state.putItem delivery.id (finishItem item transition receipt nowMs)).pushAttempt
    ⟨delivery.id, delivery.logicalId, delivery.channel, delivery.stage, delivery.attempt,
      transition.1, nowMs⟩

def finishDelivery (host : Host κ) (delivery : Delivery κ) (outcome : Store.DeliveryOutcome)
    (receipt : Option ProviderReceipt) (nowMs : Int) : RuntimeState κ :=
  match state.outbox[delivery.id]? with
  | none => state
  | some item =>
    if state.claimValid delivery item then
      ((state.applyDeliveryTransition delivery item
        (Store.deliveryTransition delivery outcome nowMs) receipt nowMs).pruneAt host nowMs).2
    else state

structure ReceiptCheck (κ : Type) where
  outboxId : Nat
  logicalId : κ
  ruleId : String
  stage : Stage
  receipt : String
  receiptExpiresAtMs : Int
  maxRetryIntervalMs : Nat
deriving DecidableEq

inductive ReceiptOutcome
  | pending (expiresAtMs : Option Int)
  | acknowledged (acknowledgedAtMs : Int)
  | expired (expiredAtMs : Option Int)
  | transient (retryAfterMs : Option Nat)
  | permanent
deriving DecidableEq, Repr

def receiptDue (nowMs : Int) : List (Nat × Item κ) :=
  state.outbox.toList.filter fun item =>
    decide (item.2.channel = .push) && item.2.receiptPending &&
      item.2.nextReceiptCheckAtMs.any (fun next => decide (next ≤ nowMs)) &&
      (state.logical.lookup item.2.logicalId).isSome

def nextReceiptDue (nowMs : Int) : Option (Nat × Item κ) :=
  (state.receiptDue nowMs).foldl
    (fun best item =>
      match best with
      | none => some item
      | some chosen =>
        if item.2.nextReceiptCheckAtMs.getD 0 < chosen.2.nextReceiptCheckAtMs.getD 0 then some item
        else some chosen)
    none

def checkLater (item : Item κ) (nowMs : Int) (intervalMs : Nat) : Item κ :=
  { item with nextReceiptCheckAtMs := some (addMillis nowMs intervalMs), updatedAtMs := nowMs }

def claimDueReceipt (nowMs : Int) : RuntimeState κ :=
  match state.nextReceiptDue nowMs with
  | none => state
  | some (id, item) => state.putItem id (checkLater item nowMs pushoverMinRetryIntervalMs)

def receiptClaimValid (check : ReceiptCheck κ) (item : Item κ) : Bool :=
  decide (item.status = .delivered) && decide (item.channel = .push) &&
    decide (item.logicalId = check.logicalId) && decide (item.stage = check.stage) &&
    decide (item.providerReceipt = some check.receipt) && item.providerAcknowledgedAtMs.isNone &&
    item.providerExpiredAtMs.isNone &&
    (state.logical.lookup check.logicalId).any fun logical => decide (logical.ruleId = check.ruleId)

def expireReceipt (item : Item κ) (expiredAtMs nowMs : Int) : Item κ :=
  { item with
    providerExpiredAtMs := some expiredAtMs, nextReceiptCheckAtMs := none, updatedAtMs := nowMs }

def receiptItem (check : ReceiptCheck κ) (item : Item κ) (outcome : ReceiptOutcome) (nowMs : Int) :
    Item κ :=
  match outcome with
  | .pending expiresAtMs =>
    let expiresAtMs := expiresAtMs.getD check.receiptExpiresAtMs
    if expiresAtMs ≤ nowMs then expireReceipt item expiresAtMs nowMs
    else
      { checkLater item nowMs pushoverMinRetryIntervalMs with
        providerReceiptExpiresAtMs := some expiresAtMs }
  | .acknowledged acknowledgedAtMs =>
    { item with
      providerAcknowledgedAtMs := some acknowledgedAtMs
      nextReceiptCheckAtMs := none
      updatedAtMs := nowMs }
  | .expired expiredAtMs => expireReceipt item (expiredAtMs.getD nowMs) nowMs
  | .transient retryAfterMs =>
    if check.receiptExpiresAtMs ≤ nowMs then expireReceipt item check.receiptExpiresAtMs nowMs
    else
      checkLater item nowMs (min (max (retryAfterMs.getD pushoverMinRetryIntervalMs)
        pushoverMinRetryIntervalMs) (max check.maxRetryIntervalMs pushoverMinRetryIntervalMs))
  | .permanent => { item with nextReceiptCheckAtMs := none, updatedAtMs := nowMs }

def finishReceipt (host : Host κ) (check : ReceiptCheck κ) (outcome : ReceiptOutcome)
    (nowMs : Int) : RuntimeState κ :=
  match state.outbox[check.outboxId]? with
  | none => state
  | some item =>
    if state.receiptClaimValid check item then
      ((state.putItem check.outboxId (receiptItem check item outcome nowMs)).pruneAt host nowMs).2
    else state

inductive ReceiptUpdate
  | seen
  | acknowledged
  | cleared
deriving DecidableEq, Repr

def ReceiptUpdate.apply (update : ReceiptUpdate) (receipt : InboxReceipt) (nowMs : Int) :
    InboxReceipt :=
  match update with
  | .seen => { receipt with seenAtMs := some (receipt.seenAtMs.getD nowMs) }
  | .acknowledged => { receipt with acknowledgedAtMs := some (receipt.acknowledgedAtMs.getD nowMs) }
  | .cleared => { receipt with clearedAtMs := some nowMs }

def updateReceipt (host : Host κ) (logicalId : κ) (principalId : String) (update : ReceiptUpdate)
    (nowMs : Int) : RuntimeState κ :=
  if (state.logical.lookup logicalId).any fun logical => decide (logical.ownerId = principalId) then
    match state.receipts.lookup (logicalId, principalId) with
    | none => state
    | some receipt =>
      ((state.putReceipt (logicalId, principalId) (update.apply receipt nowMs)).pruneAt
        host nowMs).2
  else state

inductive ClearScope
  | all
  | rule (ruleId : String)
  | before (beforeMs : Int)
deriving DecidableEq, Repr

def clearScopeMatches (logicalId : κ) (principalId : String) : ClearScope → Bool
  | .all => true
  | .rule ruleId => (state.logical.lookup logicalId).any fun logical =>
      decide (logical.ownerId = principalId) && decide (logical.ruleId = ruleId)
  | .before beforeMs => (state.logical.lookup logicalId).any fun logical =>
      decide (logical.ownerId = principalId) && decide (logical.updatedAtMs < beforeMs)

def clearedKeys (principalId : String) (scope : ClearScope) : List (κ × String) :=
  (state.receipts.entries.filter fun entry =>
    decide (entry.1.2 = principalId) && entry.2.clearedAtMs.isNone &&
      state.clearScopeMatches entry.1.1 principalId scope).map Sigma.fst

def clearReceipt (key : κ × String) (nowMs : Int) : RuntimeState κ :=
  match state.receipts.lookup key with
  | some receipt => state.putReceipt key { receipt with clearedAtMs := some nowMs }
  | none => state

def clearScope (host : Host κ) (principalId : String) (scope : ClearScope) (nowMs : Int) :
    RuntimeState κ :=
  (((state.clearedKeys principalId scope).foldl (fun state key => state.clearReceipt key nowMs)
    state).pruneAt host nowMs).2

/-- What the runtime is asked to do. A call that works with rules brings the ones it read;
deliveries and receipt checks are whatever a worker hands in. -/
inductive Call (κ : Type)
  | process (rules : List RuntimeRule) (candidate : RuntimeCandidate)
      (attachment : RuntimeRule → Bool)
  | testRule (rule : RuntimeRule) (identity : String) (eventKind : Option String) (nowMs : Int)
  | setProfileSuppressedSources (sources : List String) (nowMs : Int)
  | changeRule (ruleId : String) (active : Option Rule) (nowMs : Int)
  | claimDue (channel : Channel) (nowMs : Int)
  | finishDelivery (delivery : Delivery κ) (outcome : Store.DeliveryOutcome)
      (receipt : Option ProviderReceipt) (nowMs : Int)
  | claimDueReceipt (nowMs : Int)
  | finishReceipt (check : ReceiptCheck κ) (outcome : ReceiptOutcome) (nowMs : Int)
  | updateReceipt (logicalId : κ) (principalId : String) (update : ReceiptUpdate) (nowMs : Int)
  | clearScope (principalId : String) (scope : ClearScope) (nowMs : Int)

def step (host : Host κ) (state : RuntimeState κ) : Call κ → RuntimeState κ
  | .process rules candidate attachment => state.process host rules candidate attachment
  | .testRule rule identity eventKind nowMs => state.testRule host rule identity eventKind nowMs
  | .setProfileSuppressedSources sources nowMs => state.setProfileSuppressedSources sources nowMs
  | .changeRule ruleId active nowMs => state.cancelDisabledOutbox ruleId active nowMs
  | .claimDue channel nowMs => (state.claimDue channel nowMs).2
  | .finishDelivery delivery outcome receipt nowMs =>
    state.finishDelivery host delivery outcome receipt nowMs
  | .claimDueReceipt nowMs => state.claimDueReceipt nowMs
  | .finishReceipt check outcome nowMs => state.finishReceipt host check outcome nowMs
  | .updateReceipt logicalId principalId update nowMs =>
    state.updateReceipt host logicalId principalId update nowMs
  | .clearScope principalId scope nowMs => state.clearScope host principalId scope nowMs

end Deliveries

end RuntimeState

end KeepPeek.Notifications
