import KeepPeek.Lib.Run

/-! The MQTT forwarder: `Handle::update_config` against the publisher thread of
`event_forwarder/runtime.rs`. Every atomic access to the shared configuration and
generation is an action of its own; an interleaving is a list of actions, and an
action whose thread is not at that point (or waits for the lock) does nothing.
What the broker, the outbox and the shutdown flag answer is part of the action. -/
namespace KeepPeek.EventForwarder

open Lib

structure MqttForwarderConfig where
  revision : Nat
  enabled : Bool
  brokerUrl : String
  forwarderId : String
  retryMinMs : Nat
  retryMaxMs : Nat
deriving DecidableEq, Repr

/-- `BrokerSession::new(&config)`: a session keeps the broker, client and
credentials of the configuration it was built from. -/
structure BrokerSession where
  config : MqttForwarderConfig
deriving DecidableEq, Repr

inductive Publication
  | status (forwarderId state : String)
  | event (sequence : Nat)
deriving DecidableEq, Repr

def statusPublication (config : MqttForwarderConfig) (state : String) : Publication :=
  .status config.forwarderId state

def nextRetryDelay (current : Nat) (config : MqttForwarderConfig) : Nat :=
  if current = 0 then config.retryMinMs else min (current * 2) config.retryMaxMs

/-- `update_config` after validation. It holds the write lock from the first of
these points until it returns. -/
inductive Update
  | written (config : MqttForwarderConfig)
  | stored (config : MqttForwarderConfig)
deriving DecidableEq, Repr

inductive Phase
  | top
  | began
  | read (current : MqttForwarderConfig)
  | loaded (current : MqttForwarderConfig)
  | connected (current : MqttForwarderConfig)
  | stopped
deriving DecidableEq, Repr

inductive ConnectOutcome
  | failed
  | statusRejected
  | connected
deriving DecidableEq, Repr

inductive DeliveryOutcome
  | unreadable
  | idle (pollFailed : Bool)
  | published (sequence : Nat) (failed : Bool)
deriving DecidableEq, Repr

/-- A publication handed to a session. `floor` is the newest revision whose
`update_config` had returned when the sending iteration began. -/
structure Sent where
  session : BrokerSession
  publication : Publication
  floor : Nat
deriving DecidableEq, Repr

structure Forwarder where
  config : MqttForwarderConfig
  generation : Nat
  update : Option Update
  phase : Phase
  appliedGeneration : Nat
  session : Option BrokerSession
  retryDelay : Nat
  -- Not in the source: what the statement about later iterations refers to.
  returned : Nat
  floor : Nat
  sent : List Sent
deriving DecidableEq, Repr

def Forwarder.open (config : MqttForwarderConfig) : Forwarder where
  config := config
  generation := config.revision
  update := none
  phase := .top
  appliedGeneration := 0
  session := none
  retryDelay := 0
  returned := config.revision
  floor := 0
  sent := []

inductive Action
  | writeConfig (config : MqttForwarderConfig)
  | storeGeneration
  | returnUpdate
  | begin (cancelled : Bool)
  | readConfig
  | loadGeneration
  | connect (cancelled : Bool) (outcome : ConnectOutcome)
  | deliver (outcome : DeliveryOutcome)
deriving DecidableEq, Repr

namespace Forwarder

variable {state : Forwarder}

def writeConfig (state : Forwarder) (config : MqttForwarderConfig) : Forwarder :=
  match state.update with
  | none => { state with config := config, update := some (.written config) }
  | some _ => state

def storeGeneration (state : Forwarder) : Forwarder :=
  match state.update with
  | some (.written config) =>
    { state with generation := config.revision, update := some (.stored config) }
  | _ => state

def returnUpdate (state : Forwarder) : Forwarder :=
  match state.update with
  | some (.stored config) => { state with update := none, returned := config.revision }
  | _ => state

def begin (state : Forwarder) (cancelled : Bool) : Forwarder :=
  match state.phase with
  | .top =>
    if cancelled then { state with phase := .stopped }
    else { state with phase := .began, floor := state.returned }
  | _ => state

/-- The read lock is granted only while no `update_config` holds the write lock. -/
def readConfig (state : Forwarder) : Forwarder :=
  match state.phase, state.update with
  | .began, none => { state with phase := .read state.config }
  | _, _ => state

/-- A changed generation drops the session and the retry delay. -/
def applyGeneration (state : Forwarder) : Forwarder :=
  if state.generation = state.appliedGeneration then state
  else { state with session := none, appliedGeneration := state.generation, retryDelay := 0 }

def enter (state : Forwarder) (phase : Phase) : Forwarder :=
  { state with phase := phase }

def loadGeneration (state : Forwarder) : Forwarder :=
  match state.phase with
  | .read current => state.applyGeneration.enter (if current.enabled then .loaded current else .top)
  | _ => state

def retry (state : Forwarder) (current : MqttForwarderConfig) : Forwarder :=
  { state with
    phase := .top, session := none, retryDelay := nextRetryDelay state.retryDelay current }

def send (state : Forwarder) (session : BrokerSession) (publication : Publication) : Forwarder :=
  { state with sent := state.sent ++ [⟨session, publication, state.floor⟩] }

def install (state : Forwarder) (current : MqttForwarderConfig) : Forwarder :=
  { state with phase := .connected current, session := some ⟨current⟩, retryDelay := 0 }

def connect (state : Forwarder) (cancelled : Bool) (outcome : ConnectOutcome) : Forwarder :=
  match state.phase with
  | .loaded current =>
    if state.retryDelay ≠ 0 ∧ cancelled then state.enter .stopped
    else match state.session, outcome with
      | some _, _ => state.enter (.connected current)
      | none, .failed => state.retry current
      | none, .statusRejected =>
        (state.send ⟨current⟩ (statusPublication current "connected")).retry current
      | none, .connected =>
        (state.send ⟨current⟩ (statusPublication current "connected")).install current
  | _ => state

def acknowledge (state : Forwarder) : Forwarder :=
  { state with phase := .top, retryDelay := 0 }

def deliver (state : Forwarder) (outcome : DeliveryOutcome) : Forwarder :=
  match state.phase, state.session with
  | .connected current, some session =>
    match outcome with
    | .unreadable => state.enter .top
    | .idle false => state.enter .top
    | .idle true => state.retry current
    | .published sequence true => (state.send session (.event sequence)).retry current
    | .published sequence false => (state.send session (.event sequence)).acknowledge
  | _, _ => state

def step (state : Forwarder) : Action → Forwarder
  | .writeConfig config => state.writeConfig config
  | .storeGeneration => state.storeGeneration
  | .returnUpdate => state.returnUpdate
  | .begin cancelled => state.begin cancelled
  | .readConfig => state.readConfig
  | .loadGeneration => state.loadGeneration
  | .connect cancelled outcome => state.connect cancelled outcome
  | .deliver outcome => state.deliver outcome

def run (config : MqttForwarderConfig) (actions : List Action) : Forwarder :=
  actions.foldl step (Forwarder.open config)

/-- Calls of `update_config` carry strictly increasing revisions. -/
def RaisesRevision (state : Forwarder) : Action → Prop
  | .writeConfig config => state.config.revision < config.revision
  | _ => True

instance : ∀ (state : Forwarder) (action : Action), Decidable (state.RaisesRevision action)
  | state, .writeConfig config => inferInstanceAs (Decidable (state.config.revision <
      config.revision))
  | _, .storeGeneration | _, .returnUpdate | _, .begin _ | _, .readConfig | _, .loadGeneration
  | _, .connect _ _ | _, .deliver _ => .isTrue trivial

/-- No `update_config` stores its generation between the configuration read and
the generation load of an iteration. -/
def Undisturbed (state : Forwarder) : Action → Prop
  | .storeGeneration => ∀ current, state.phase ≠ .read current
  | _ => True

def UpToDate (state : Forwarder) : Prop :=
  ∀ sent ∈ state.sent, sent.floor ≤ sent.session.config.revision

instance (state : Forwarder) : Decidable state.UpToDate :=
  inferInstanceAs (Decidable (∀ sent ∈ state.sent, _))

def Shared (state : Forwarder) : Prop :=
  match state.update with
  | some (.written config) => config = state.config
  | some (.stored config) => config = state.config ∧ state.generation = state.config.revision
  | none => state.generation = state.config.revision

/-- What the publisher may rely on at each point of an iteration. -/
def Holds (state : Forwarder) : Prop :=
  match state.phase with
  | .began => state.floor ≤ state.returned
  | .read current => state.floor ≤ current.revision ∧ state.generation = current.revision
  | .loaded current => state.floor ≤ current.revision ∧ state.appliedGeneration = current.revision
  | .connected current =>
    state.floor ≤ current.revision ∧ state.appliedGeneration = current.revision
  | _ => True

structure Consistent (state : Forwarder) : Prop where
  shared : state.Shared
  returned_le : state.returned ≤ state.config.revision
  session : ∀ session, state.session = some session →
    session.config.revision = state.appliedGeneration
  holds : state.Holds
  upToDate : state.UpToDate

theorem open_consistent (cfg : MqttForwarderConfig) : (Forwarder.open cfg).Consistent where
  shared := rfl
  returned_le := Nat.le_refl _
  session := by
    intro session h
    cases h
  holds := trivial
  upToDate := by
    intro sent h
    cases h

theorem Consistent.of_publisher {before after : Forwarder} (h : before.Consistent)
    (cfg : after.config = before.config) (generation : after.generation = before.generation)
    (update : after.update = before.update) (returned : after.returned = before.returned)
    (session : ∀ session, after.session = some session →
      session.config.revision = after.appliedGeneration)
    (holds : after.Holds) (upToDate : after.UpToDate) : after.Consistent where
  shared := by
    unfold Shared
    rw [cfg, generation, update]
    exact h.shared
  returned_le := by
    rw [cfg, returned]
    exact h.returned_le
  session := session
  holds := holds
  upToDate := upToDate

theorem UpToDate.send (h : state.UpToDate) {session : BrokerSession}
    (current : state.floor ≤ session.config.revision) (pub : Publication) :
    (state.send session pub).UpToDate := by
  intro sent hsent
  rcases List.mem_append.mp hsent with old | new
  · exact h sent old
  · rw [List.mem_singleton.mp new]
    exact current

theorem writeConfig_consistent (h : state.Consistent) {cfg : MqttForwarderConfig}
    (raises : state.config.revision < cfg.revision) : (state.writeConfig cfg).Consistent := by
  unfold writeConfig
  split
  · exact {
      shared := rfl
      returned_le := Nat.le_trans h.returned_le (Nat.le_of_lt raises)
      session := h.session
      holds := h.holds
      upToDate := h.upToDate }
  · exact h

/-- An update's moves leave the publisher's words alone; a later generation
matters only to a publisher between its two reads. -/
theorem Holds.of_update {before after : Forwarder} (h : before.Holds)
    (phase : after.phase = before.phase) (floor : after.floor = before.floor)
    (applied : after.appliedGeneration = before.appliedGeneration)
    (returned : before.returned ≤ after.returned)
    (generation : ∀ current, before.phase = .read current → after.generation = before.generation) :
    after.Holds := by
  unfold Holds at h ⊢
  rw [phase, floor, applied]
  cases hphase : before.phase with
  | began =>
    rw [hphase] at h
    exact Nat.le_trans h returned
  | read current =>
    rw [hphase] at h
    exact ⟨h.1, (generation current hphase).trans h.2⟩
  | loaded current =>
    rw [hphase] at h
    exact h
  | connected current =>
    rw [hphase] at h
    exact h
  | top => trivial
  | stopped => trivial

theorem storeGeneration_consistent (h : state.Consistent)
    (undisturbed : ∀ current, state.phase ≠ .read current) : state.storeGeneration.Consistent := by
  unfold storeGeneration
  split
  next config written =>
    have same : config = state.config := by
      have := h.shared
      rwa [Shared, written] at this
    exact {
      shared := ⟨same, congrArg MqttForwarderConfig.revision same⟩
      returned_le := h.returned_le
      session := h.session
      holds := h.holds.of_update rfl rfl rfl (Nat.le_refl _)
        (fun current hread => absurd hread (undisturbed current))
      upToDate := h.upToDate }
  next => exact h

theorem returnUpdate_consistent (h : state.Consistent) : state.returnUpdate.Consistent := by
  unfold returnUpdate
  split
  next config stored =>
    have shared := h.shared
    rw [Shared, stored] at shared
    rcases shared with ⟨rfl, generation⟩
    exact {
      shared := generation
      returned_le := Nat.le_refl _
      session := h.session
      holds := h.holds.of_update rfl rfl rfl h.returned_le (fun _ _ => rfl)
      upToDate := h.upToDate }
  next => exact h

theorem begin_consistent (h : state.Consistent) (cancelled : Bool) :
    (state.begin cancelled).Consistent := by
  unfold begin
  split
  · split
    · exact h.of_publisher rfl rfl rfl rfl h.session trivial h.upToDate
    · exact h.of_publisher rfl rfl rfl rfl h.session (Nat.le_refl _) h.upToDate
  · exact h

theorem readConfig_consistent (h : state.Consistent) : state.readConfig.Consistent := by
  unfold readConfig
  split
  next began free =>
    have floor : state.floor ≤ state.returned := by
      have := h.holds
      rwa [Holds, began] at this
    have generation : state.generation = state.config.revision := by
      have := h.shared
      rwa [Shared, free] at this
    exact h.of_publisher rfl rfl rfl rfl h.session
      ⟨Nat.le_trans floor h.returned_le, generation⟩ h.upToDate
  next => exact h

theorem applyGeneration_applied (s : Forwarder) :
    s.applyGeneration.appliedGeneration = s.generation := by
  unfold applyGeneration
  split
  next same => exact same.symm
  next => rfl

theorem applyGeneration_session (h : state.Consistent) (session : BrokerSession)
    (kept : state.applyGeneration.session = some session) :
    session.config.revision = state.applyGeneration.appliedGeneration := by
  unfold applyGeneration at kept ⊢
  split at kept
  next same =>
    rw [if_pos same]
    exact h.session session kept
  next => cases kept

theorem applyGeneration_frame (s : Forwarder) :
    s.applyGeneration.config = s.config ∧ s.applyGeneration.generation = s.generation ∧
      s.applyGeneration.update = s.update ∧ s.applyGeneration.returned = s.returned ∧
      s.applyGeneration.floor = s.floor ∧ s.applyGeneration.sent = s.sent := by
  unfold applyGeneration
  split <;> simp

theorem loadGeneration_consistent (h : state.Consistent) : state.loadGeneration.Consistent := by
  unfold loadGeneration
  split
  next current hread =>
    have holds := h.holds
    rw [Holds, hread] at holds
    rcases state.applyGeneration_frame with ⟨config, generation, update, returned, floor, sent⟩
    have upToDate : state.applyGeneration.UpToDate := by
      unfold UpToDate
      rw [sent]
      exact h.upToDate
    have entitled : state.applyGeneration.floor ≤ current.revision ∧
        state.applyGeneration.appliedGeneration = current.revision := by
      rw [floor, applyGeneration_applied]
      exact holds
    have session := applyGeneration_session h
    by_cases enabled : current.enabled
    · rw [if_pos enabled]
      exact h.of_publisher config generation update returned session entitled upToDate
    · rw [if_neg enabled]
      exact h.of_publisher config generation update returned session trivial upToDate
  next => exact h

theorem retry_consistent (h : state.Consistent) (current : MqttForwarderConfig) :
    (state.retry current).Consistent := by
  have dropped : ∀ session, (state.retry current).session = some session →
      session.config.revision = (state.retry current).appliedGeneration := by
    intro session kept
    cases kept
  exact h.of_publisher rfl rfl rfl rfl dropped trivial h.upToDate

theorem send_consistent {s : Forwarder} (h : s.Consistent) {session : BrokerSession}
    (current : s.floor ≤ session.config.revision) (pub : Publication) :
    (s.send session pub).Consistent :=
  h.of_publisher rfl rfl rfl rfl h.session h.holds (h.upToDate.send current pub)

theorem connect_consistent (h : state.Consistent) (cancelled : Bool) (outcome : ConnectOutcome) :
    (state.connect cancelled outcome).Consistent := by
  unfold connect
  split
  next current loaded =>
    have holds := h.holds
    rw [Holds, loaded] at holds
    have sent := @send_consistent _ h ⟨current⟩ holds.1 (statusPublication current "connected")
    split
    · exact h.of_publisher rfl rfl rfl rfl h.session trivial h.upToDate
    split
    · exact h.of_publisher rfl rfl rfl rfl h.session holds h.upToDate
    · exact retry_consistent h current
    · exact retry_consistent sent current
    have built : ∀ session : BrokerSession, some ⟨current⟩ = some session →
        session.config.revision = state.appliedGeneration := by
      intro session installed
      cases installed
      exact holds.2.symm
    exact sent.of_publisher rfl rfl rfl rfl built holds sent.upToDate
  next => exact h

theorem deliver_consistent (h : state.Consistent) (outcome : DeliveryOutcome) :
    (state.deliver outcome).Consistent := by
  unfold deliver
  split
  next current session connected opened =>
    have holds := h.holds
    rw [Holds, connected] at holds
    have fresh : state.floor ≤ session.config.revision := by
      rw [h.session session opened, holds.2]
      exact holds.1
    split
    · exact h.of_publisher rfl rfl rfl rfl h.session trivial h.upToDate
    · exact h.of_publisher rfl rfl rfl rfl h.session trivial h.upToDate
    · exact retry_consistent h current
    next sequence =>
      exact retry_consistent (send_consistent h fresh (.event sequence)) current
    next sequence =>
      have sent := send_consistent h fresh (.event sequence)
      exact sent.of_publisher rfl rfl rfl rfl sent.session trivial sent.upToDate
  next => exact h

theorem step_consistent {action : Action} (h : state.Consistent)
    (raises : state.RaisesRevision action) (undisturbed : state.Undisturbed action) :
    (state.step action).Consistent := by
  cases action with
  | writeConfig config => exact writeConfig_consistent h raises
  | storeGeneration => exact storeGeneration_consistent h undisturbed
  | returnUpdate => exact returnUpdate_consistent h
  | begin cancelled => exact begin_consistent h cancelled
  | readConfig => exact readConfig_consistent h
  | loadGeneration => exact loadGeneration_consistent h
  | connect cancelled outcome => exact connect_consistent h cancelled outcome
  | deliver outcome => exact deliver_consistent h outcome

/-- A publication sent by an iteration that began after `update_config` returned
goes through a session built from that configuration or a later one, as long as
no update lands between an iteration's two reads. -/
theorem run_upToDate (config : MqttForwarderConfig) (actions : List Action)
    (raises : AllSteps step RaisesRevision (Forwarder.open config) actions)
    (undisturbed : AllSteps step Undisturbed (Forwarder.open config) actions) :
    (run config actions).UpToDate := by
  have safe := raises.and undisturbed
  have consistent : (run config actions).Consistent := by
    apply safe.foldl_invariant _ (open_consistent config)
    intro state action h both
    exact step_consistent h both.1 both.2
  exact consistent.upToDate

def firstConfig : MqttForwarderConfig :=
  ⟨1, true, "mqtt://old:1883", "mqtt", 250, 30000⟩

def secondConfig : MqttForwarderConfig :=
  ⟨2, true, "mqtt://new:1883", "mqtt", 250, 30000⟩

theorem run_upToDate_quiet :
    (run firstConfig [.begin false, .readConfig, .loadGeneration, .connect false .connected,
      .deliver (.idle false), .writeConfig secondConfig, .storeGeneration, .returnUpdate,
      .begin false, .readConfig, .loadGeneration, .connect false .connected,
      .deliver (.published 7 false)]).UpToDate := by
  apply run_upToDate
  · decide
  · simp [AllSteps, Undisturbed, step, Forwarder.open, begin, readConfig, loadGeneration, enter,
      connect, install, send, deliver, applyGeneration, firstConfig, writeConfig]

/-- The first iteration reads the old configuration and loads the generation only
after the update has returned: the session it builds from the old configuration
is stamped with the new generation, and the next iteration publishes through it. -/
theorem update_between_reads_keeps_old_session :
    AllSteps step RaisesRevision (Forwarder.open firstConfig)
        [.begin false, .readConfig, .writeConfig secondConfig, .storeGeneration, .returnUpdate,
          .loadGeneration, .connect false .connected, .deliver (.idle false), .begin false,
          .readConfig, .loadGeneration, .connect false .connected,
          .deliver (.published 7 false)] ∧
      ¬ (run firstConfig
        [.begin false, .readConfig, .writeConfig secondConfig, .storeGeneration, .returnUpdate,
          .loadGeneration, .connect false .connected, .deliver (.idle false), .begin false,
          .readConfig, .loadGeneration, .connect false .connected,
          .deliver (.published 7 false)]).UpToDate := by
  decide

end Forwarder

end KeepPeek.EventForwarder
