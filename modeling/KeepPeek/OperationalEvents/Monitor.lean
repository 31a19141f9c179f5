import KeepPeek.Notifications.Runtime

/-! The retry queue of the operational event monitor, `operational_events.rs`: transitions
wait in it until they are persisted, notified and forwarded. Of an event the fields are kept
that its notifications read, and of a notification those that are not the same in all.

An item leaves the queue when it was forwarded. While forwarding fails the queue fills with
what is persisted already, and then new transitions are dropped. -/
namespace KeepPeek.OperationalEvents

open Lib Notifications

inductive OperationalEventKind
  | cameraOffline | streamStale | decodeUnavailable | recordingInterrupted
deriving DecidableEq

def OperationalEventKind.asStr : OperationalEventKind → String
  | .cameraOffline => "camera_offline"
  | .streamStale => "stream_stale"
  | .decodeUnavailable => "decode_unavailable"
  | .recordingInterrupted => "recording_interrupted"

structure OperationalEventKey where
  cameraId : String
  streamId : Option String
  kind : OperationalEventKind

structure OperationalEvidence where
  cause : String
  explanation : String
  affectedStreams : List String
  recordingInterrupted : Bool
  source : String

structure OperationalEvent where
  id : String
  key : OperationalEventKey
  evidence : OperationalEvidence
  critical : Bool
  revision : Nat
  startTimeMs : Int
  durationMs : Option Nat

inductive OperationalTransitionKind
  | started | updated | recovered | flap
deriving DecidableEq

/-- A transition, with the name of its camera that the queue keeps beside it and the link
that `camera_deep_link` makes of the camera's id. -/
structure OperationalTransition where
  kind : OperationalTransitionKind
  event : OperationalEvent
  occurredAtMs : Int
  sourceName : Option String
  deepLink : String

structure PendingTransition where
  transition : OperationalTransition
  persisted : Bool := false
  notificationsPublished : Bool := false

def maxPendingTransitions : Nat := 4096

structure NotificationPayload where
  evidence : OperationalEvidence
  streamId : Option String

structure NotificationCandidate extends RuntimeCandidate where
  sourceName : Option String
  payload : NotificationPayload
  iconKey : String
  durationMs : Option Nat
  deepLink : String

def notificationCandidates (transition : OperationalTransition) : List NotificationCandidate :=
  let event := transition.event
  let candidate (trigger : Trigger) (revision : Nat) (stage : Stage) (occurredAtMs : Int) :
      NotificationCandidate :=
    { trigger, revision, stage, occurredAtMs
      sourceId := event.key.cameraId
      sourceName := transition.sourceName
      sourceIdentity := event.id
      lifecycle := .outage
      eventKind := some event.key.kind.asStr
      payload := ⟨event.evidence, event.key.streamId⟩
      groupIds := []
      iconKey := "alert"
      durationMs := event.durationMs
      severity := if event.critical then .critical else .warning
      deepLink := transition.deepLink }
  match transition.kind with
  | .started => [candidate .outageStarted event.revision .preliminary event.startTimeMs]
  | .updated => [candidate .eventUpdated event.revision .enriched transition.occurredAtMs]
  | .recovered => [candidate .recovery event.revision .recovery transition.occurredAtMs]
  | .flap =>
    [candidate .outageStarted 1 .preliminary event.startTimeMs,
      candidate .recovery event.revision .recovery transition.occurredAtMs]

def extendPending (pending : List PendingTransition) (transitions : List OperationalTransition) :
    List PendingTransition :=
  transitions.foldl (fun pending transition =>
    if pending.length = maxPendingTransitions then pending
    else pending ++ [⟨transition, false, false⟩]) pending

/-! The three loops of `flush_pending_with`, each with what it did. The results of the calls
are given by their number in the flush. -/

def persistPending (persist : Nat → Bool) :
    Nat → List PendingTransition → List PendingTransition × List OperationalEvent
  | _, [] => ([], [])
  | call, item :: rest =>
    if item.persisted then
      let (rest, done) := persistPending persist call rest
      (item :: rest, done)
    else if persist call then
      let (rest, done) := persistPending persist (call + 1) rest
      ({ item with persisted := true } :: rest, item.transition.event :: done)
    else (item :: rest, [])

def publishPending : List PendingTransition → List PendingTransition × List NotificationCandidate
  | [] => ([], [])
  | item :: rest =>
    if item.persisted then
      let (rest, done) := publishPending rest
      ({ item with notificationsPublished := true } :: rest,
        if item.notificationsPublished then done else notificationCandidates
          item.transition ++ done)
    else (item :: rest, [])

def forwardPending (forward : Nat → Bool) :
    Nat → List PendingTransition → List PendingTransition × List OperationalTransition
  | _, [] => ([], [])
  | call, item :: rest =>
    if item.persisted ∧ forward call then
      let (rest, done) := forwardPending forward (call + 1) rest
      (rest, item.transition :: done)
    else (item :: rest, [])

/-- The queue, and what was persisted, published and forwarded so far. -/
structure Monitor where
  pending : List PendingTransition := []
  persisted : List OperationalEvent := []
  published : List NotificationCandidate := []
  forwarded : List OperationalTransition := []

/-- What the engine found is queued, or the queue is flushed. -/
inductive Turn
  | extend (transitions : List OperationalTransition)
  | flush (persist forward : Nat → Bool)

def Turn.arisen : Turn → List OperationalTransition
  | .extend transitions => transitions
  | .flush _ _ => []

namespace Monitor

def persist (results : Nat → Bool) (monitor : Monitor) : Monitor :=
  let (pending, done) := persistPending results 0 monitor.pending
  { monitor with pending, persisted := monitor.persisted ++ done }

def publish (monitor : Monitor) : Monitor :=
  let (pending, done) := publishPending monitor.pending
  { monitor with pending, published := monitor.published ++ done }

def forward (results : Nat → Bool) (monitor : Monitor) : Monitor :=
  let (pending, done) := forwardPending results 0 monitor.pending
  { monitor with pending, forwarded := monitor.forwarded ++ done }

def turn (monitor : Monitor) : Turn → Monitor
  | .extend transitions => { monitor with pending := extendPending monitor.pending transitions }
  | .flush persist forward => ((monitor.persist persist).publish).forward forward

/-- What is persisted is a first part of what arose, in its order, and nothing else is notified
or forwarded; everything persisted is notified once, if `complete`. -/
def Ordered (complete : Bool) (arisen : List OperationalTransition) (monitor : Monitor) : Prop :=
  ∃ known later, arisen = known ++ later ∧ monitor.persisted = known.map (·.event) ∧
    monitor.published <+: known.flatMap notificationCandidates ∧
    (complete → monitor.published = known.flatMap notificationCandidates) ∧
    monitor.forwarded <+: known

/-- Now and in the next flush the order is kept, and everything that arose is persisted if the
calls succeed. -/
def Kept (monitor : Monitor) (arisen : List OperationalTransition) : Prop :=
  monitor.Ordered true arisen ∧ ∀ results,
    (monitor.persist results).Ordered false arisen ∧
    ((monitor.persist results).publish).Ordered true arisen ∧
    ((∀ call, results call = true) → (monitor.persist results).persisted = arisen.map (·.event))

def taken (monitor : Monitor) (turn : Turn) : List OperationalTransition :=
  turn.arisen.take (maxPendingTransitions - monitor.pending.length)

/-- The transitions that find a place in the queue when they arise. -/
def accepted : Monitor → List Turn → List OperationalTransition
  | _, [] => []
  | monitor, turn :: turns => monitor.taken turn ++ accepted (monitor.turn turn) turns

def Room (monitor : Monitor) : Turn → Prop
  | .extend transitions => monitor.pending.length + transitions.length ≤ maxPendingTransitions
  | .flush _ _ => True

end Monitor

def queue (held stored fresh : List OperationalTransition) : List PendingTransition :=
  held.map (⟨·, true, true⟩) ++ (stored.map (⟨·, true, false⟩) ++ fresh.map (⟨·, false, false⟩))

section Loops

variable (results : Nat → Bool) (held stored fresh : List OperationalTransition) (call : Nat)

theorem persistPending_queue : ∃ done later, fresh = done ++ later ∧
    persistPending results call (queue held [] fresh) =
      (queue held done later, done.map (·.event)) ∧
    ((∀ call, results call = true) → later = []) := by
  induction held with
  | nil =>
    induction fresh generalizing call with
    | nil => exact ⟨[], [], rfl, rfl, fun _ => rfl⟩
    | cons first fresh ih =>
      by_cases succeeds : results call = true
      · obtain ⟨done, later, rfl, loop, all⟩ := ih (call + 1)
        refine ⟨first :: done, later, rfl, ?_, all⟩
        simp_all [persistPending, queue, -List.map_append]
      · exact ⟨[], first :: fresh, rfl, by simp [persistPending, queue, succeeds],
          fun all => absurd (all call) succeeds⟩
  | cons first held ih =>
    obtain ⟨done, later, rfl, loop, all⟩ := ih
    refine ⟨done, later, rfl, ?_, all⟩
    simp_all [persistPending, queue, -List.map_append]

theorem publishPending_queue : publishPending (queue held stored fresh) =
    (queue (held ++ stored) [] fresh, stored.flatMap notificationCandidates) := by
  induction held with
  | nil =>
    induction stored with
    | nil => cases fresh <;> rfl
    | cons first stored ih => simp_all [publishPending, queue]
  | cons first held ih => simp_all [publishPending, queue]

theorem forwardPending_queue : ∃ gone left, held = gone ++ left ∧
    forwardPending results call (queue held [] fresh) = (queue left [] fresh, gone) := by
  induction held generalizing call with
  | nil => exact ⟨[], [], rfl, by cases fresh <;> rfl⟩
  | cons first held ih =>
    by_cases succeeds : results call = true
    · obtain ⟨gone, left, rfl, loop⟩ := ih (call + 1)
      refine ⟨first :: gone, left, rfl, ?_⟩
      simp_all [forwardPending, queue, -List.map_append]
    · exact ⟨[], first :: held, rfl, by simp [forwardPending, queue, succeeds]⟩

end Loops

theorem extendPending_eq (transitions : List OperationalTransition)
    (pending : List PendingTransition) (bounded : pending.length ≤ maxPendingTransitions) :
    extendPending pending transitions = pending ++
      (transitions.take (maxPendingTransitions - pending.length)).map (⟨·, false, false⟩) := by
  induction transitions generalizing pending with
  | nil => simp [extendPending]
  | cons first transitions ih =>
    rw [extendPending, List.foldl_cons, ← extendPending]
    by_cases full : pending.length = maxPendingTransitions
    · rw [if_pos full, ih pending bounded, full]
      simp
    · rw [if_neg full, ih _ (by simp; omega)]
      have room : maxPendingTransitions - pending.length =
          (maxPendingTransitions - (pending.length + 1)) + 1 := by omega
      simp [room]

namespace Monitor

variable {arisen : List OperationalTransition} {monitor : Monitor}

/-- The monitor that has forwarded `sent`, holds `held` for forwarding only, and has yet to
persist `fresh`. -/
def of (sent held fresh : List OperationalTransition) : Monitor where
  pending := queue held [] fresh
  persisted := (sent ++ held).map (·.event)
  published := (sent ++ held).flatMap notificationCandidates
  forwarded := sent

theorem of_ordered (sent held fresh : List OperationalTransition) :
    (of sent held fresh).Ordered true (sent ++ held ++ fresh) :=
  ⟨sent ++ held, fresh, rfl, rfl, List.prefix_refl _, fun _ => rfl, List.prefix_append _ _⟩

theorem publish_of (sent held fresh : List OperationalTransition) (results : Nat → Bool) :
    ∃ done later, fresh = done ++ later ∧ ((∀ call, results call = true) → later = []) ∧
      (of sent held fresh).persist results =
        { of sent held fresh with
          pending := queue held done later
          persisted := (sent ++ held ++ done).map (·.event) } ∧
      ((of sent held fresh).persist results).publish = of sent (held ++ done) later := by
  obtain ⟨done, later, split, loop, all⟩ := persistPending_queue results held fresh 0
  have persisted : (of sent held fresh).persist results = { of sent held fresh with
      pending := queue held done later, persisted := (sent ++ held ++ done).map (·.event) } := by
    simp [Monitor.persist, of, loop]
  refine ⟨done, later, split, all, persisted, ?_⟩
  rw [persisted]
  simp [publish, of, publishPending_queue]

/-- Where the transitions are that found a place in the queue. -/
def Accounts (arisen : List OperationalTransition) (monitor : Monitor) : Prop :=
  monitor.pending.length ≤ maxPendingTransitions ∧
    ∃ sent held fresh, arisen = sent ++ held ++ fresh ∧ monitor = of sent held fresh

theorem Accounts.kept (accounts : monitor.Accounts arisen) : monitor.Kept arisen := by
  obtain ⟨-, sent, held, fresh, rfl, rfl⟩ := accounts
  refine ⟨of_ordered sent held fresh, fun results => ?_⟩
  obtain ⟨done, later, rfl, all, persisted, published⟩ := publish_of sent held fresh results
  rw [published, persisted]
  refine ⟨⟨sent ++ held ++ done, later, by simp, rfl, by simp [of], nofun, by simp [of]⟩, ?_,
    fun succeed => ?_⟩
  · simpa using of_ordered sent (held ++ done) later
  · simp [all succeed]

theorem Accounts.turn (accounts : monitor.Accounts arisen) (turn : Turn) :
    (monitor.turn turn).Accounts (arisen ++ monitor.taken turn) := by
  obtain ⟨bounded, sent, held, fresh, rfl, rfl⟩ := accounts
  cases turn with
  | extend transitions =>
    refine ⟨?_, sent, held, _, List.append_assoc _ _ _, ?_⟩
    · simp only [Monitor.turn, extendPending_eq _ _ bounded, List.length_append, List.length_map,
        List.length_take]
      omega
    · simp only [Monitor.turn, extendPending_eq _ _ bounded]
      simp [of, queue, taken, Turn.arisen]
  | flush persist forward =>
    obtain ⟨done, later, rfl, -, -, published⟩ := publish_of sent held fresh persist
    -- Only a first part of what is held leaves the queue.
    obtain ⟨gone, left, split, loop⟩ := forwardPending_queue forward (held ++ done) later 0
    have flushed : (of sent held (done ++ later)).turn (.flush persist forward) =
        of (sent ++ gone) left later := by
      rw [split] at loop published
      rw [Monitor.turn, published, Monitor.forward]
      simp [of, loop]
    rw [flushed]
    refine ⟨?_, sent ++ gone, left, later, ?_, rfl⟩
    · have length := congrArg List.length split
      simp only [of, queue, List.length_append, List.length_map] at bounded length ⊢
      omega
    · simp only [taken, Turn.arisen, List.take_nil, List.append_nil, List.append_assoc]
      rw [← List.append_assoc held, split, List.append_assoc]

theorem Accounts.run (accounts : monitor.Accounts arisen) (turns : List Turn) :
    (turns.foldl Monitor.turn monitor).Accounts (arisen ++ accepted monitor turns) := by
  induction turns generalizing monitor arisen with
  | nil => simpa [accepted] using accounts
  | cons turn turns ih => simpa [accepted] using ih (accounts.turn turn)

theorem accepted_eq (turns : List Turn) (room : AllSteps turn Room monitor turns) :
    accepted monitor turns = turns.flatMap Turn.arisen := by
  induction turns generalizing monitor with
  | nil => rfl
  | cons turn turns ih =>
    obtain ⟨here, room⟩ := room
    rw [accepted, ih room, List.flatMap_cons, taken, List.take_of_length_le]
    cases turn with
    | extend transitions => exact Nat.le_sub_of_add_le (by rwa [Nat.add_comm])
    | flush persist forward => exact Nat.zero_le _

/-- Whatever forwarding does, no transition that found a place in the queue is lost. -/
theorem outage_events_kept (turns : List Turn) :
    (turns.foldl turn {}).Kept (accepted {} turns) ∧
      (AllSteps turn Room {} turns → accepted {} turns = turns.flatMap Turn.arisen) := by
  have initial : ({} : Monitor).Accounts [] := ⟨Nat.zero_le _, [], [], [], rfl, rfl⟩
  exact ⟨(initial.run turns).kept, accepted_eq turns⟩

theorem outage_event_lost_when_forwarding_fails :
    ¬∀ turns : List Turn, (turns.foldl turn {}).Kept (turns.flatMap Turn.arisen) := by
  intro kept
  let transition : OperationalTransition :=
    { kind := .started
      event := ⟨"event", ⟨"camera", none, .cameraOffline⟩, ⟨"", "", [], false, ""⟩, false,
        1, 0, none⟩
      occurredAtMs := 0
      sourceName := none
      deepLink := "/camera?camera=camera" }
  let first := List.replicate maxPendingTransitions transition
  have extended : ({} : Monitor).turn (.extend first) = of [] [] first := by
    simp [Monitor.turn, extendPending_eq, of, queue, first]
  -- Everything is persisted and notified, nothing is forwarded.
  have flushed :
      (of [] [] first).turn (.flush (fun _ => true) fun _ => false) = of [] first [] := by
    obtain ⟨done, later, split, all, -, published⟩ := publish_of [] [] first fun _ => true
    rw [all fun _ => rfl, List.append_nil] at split
    rw [Monitor.turn, published, all fun _ => rfl, ← split, Monitor.forward]
    have waits (items) : forwardPending (fun _ => false) 0 items = (items, []) := by
      cases items <;> simp [forwardPending]
    simp [of, waits]
  have full : (of [] first []).turn (.extend [transition]) = of [] first [] := by
    simp [Monitor.turn, extendPending_eq, of, queue, first]
  have everything := ((kept [.extend first, .flush (fun _ => true) fun _ => false,
    .extend [transition]]).2 fun _ => true).2.2 fun _ => rfl
  obtain ⟨done, later, split, -, persisted, -⟩ := publish_of [] first [] fun _ => true
  obtain ⟨rfl, rfl⟩ := List.nil_eq_append_iff.mp split
  simp only [List.foldl_cons, List.foldl_nil, extended, flushed, full, persisted] at everything
  simpa [Turn.arisen, first] using congrArg List.length everything

theorem forwardPending_all (held : List OperationalTransition) (call : Nat) :
    forwardPending (fun _ => true) call (queue held [] []) = ([], held) := by
  induction held generalizing call with
  | nil => rfl
  | cons first held ih => simp_all [forwardPending, queue]

/-- A flush whose calls all succeed empties the queue: what found a place in it is then
persisted, notified and forwarded, in order and once. -/
theorem successful_flush_settles (turns : List Turn) :
    (turns.foldl turn {}).turn (.flush (fun _ => true) (fun _ => true)) =
      { pending := []
        persisted := (accepted {} turns).map (·.event)
        published := (accepted {} turns).flatMap notificationCandidates
        forwarded := accepted {} turns } := by
  have initial : ({} : Monitor).Accounts [] := ⟨Nat.zero_le _, [], [], [], rfl, rfl⟩
  obtain ⟨-, sent, held, fresh, arisen, state⟩ := initial.run turns
  obtain ⟨done, later, rfl, all, -, published⟩ := publish_of sent held fresh fun _ => true
  cases all fun _ => rfl
  rw [List.nil_append] at arisen
  rw [state, turn, published, arisen]
  simp [Monitor.forward, of, forwardPending_all]

end Monitor

end KeepPeek.OperationalEvents
