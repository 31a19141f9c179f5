import Mathlib.Data.List.Basic
import Mathlib.Data.List.Nodup
import Mathlib.Order.Basic
import Mathlib.Data.Int.Order.Basic
import Mathlib.Algebra.Group.Int.Defs
import Mathlib.Algebra.GroupWithZero.Nat
import KeepPeek.Lib.Except

/-! Retention decisions of `storage/retention.rs`: intervals, rules and the
evaluation of a policy over a snapshot of canonical events. Times are signed
64-bit milliseconds. -/
namespace KeepPeek.Retention

open Lib

variable {r : Recording} {e : TimelineEvent} {obs : List Observation}
  {events : List TimelineEvent}

/-- An `i64` number of milliseconds. -/
abbrev Timestamp := { ms : Int // -(2 ^ 63) ≤ ms ∧ ms < 2 ^ 63 }

instance : Preorder Timestamp := (@Subtype.instLinearOrder Int Int.instLinearOrder _).toPreorder

instance : DecidableLE Timestamp := fun left right => Int.decLe left.val right.val

instance : DecidableLT Timestamp := fun left right => Int.decLt left.val right.val

def checkedAdd (time : Timestamp) (duration : Nat) : Option Timestamp :=
  if h : time.val + duration < 2 ^ 63 then
    some ⟨time.val + duration, by
      have := time.property
      omega, h⟩
  else none

def maxRules : Nat := 16

def maxEvents : Nat := 256

structure Interval where
  startMs : Timestamp
  endMs : Timestamp
  nonempty : startMs.val < endMs.val
deriving DecidableEq

def Interval.overlaps (self other : Interval) : Bool :=
  decide (self.startMs.val < other.endMs.val) && decide (other.startMs.val < self.endMs.val)

inductive Predicate
  | continuous
  | motion
  | event (eventType : String)
deriving DecidableEq, Repr

/-- Of a timeline event, what the catalog keys on and what retention reads. -/
structure TimelineEvent where
  id : String
  revision : Nat
  cameraId : String
  stream : Option String
  source : String
  kind : String
  startTimeMs : Timestamp
  endTimeMs : Option Timestamp
deriving DecidableEq

structure Rule where
  id : String
  durationMs : Nat
  predicate : Predicate
deriving DecidableEq, Repr

def Rule.matches (rule : Rule) (event : TimelineEvent) : Bool :=
  match rule.predicate with
  | .continuous => false
  | .motion => event.kind == "motion"
  | .event eventType => event.kind == eventType

/-- `Policy::new` admits at most sixteen rules with distinct ids. -/
structure Policy where
  rules : List Rule
  bounded : rules.length ≤ maxRules
  unique : (rules.map Rule.id).Nodup
deriving DecidableEq

def Policy.requiresEventEvidence (policy : Policy) : Bool :=
  policy.rules.any fun rule => rule.durationMs != 0 && rule.predicate != .continuous

structure Recording where
  cameraId : String
  streamId : String
  interval : Interval
  isProtected : Bool
  committedDeadlineMs : Option Timestamp
deriving DecidableEq

inductive Reason
  | matchingRules
  | committedDeadline
  | isProtected
  | noMatchingEvidence
deriving DecidableEq, Repr

structure Decision where
  deadlineMs : Option Timestamp
  matchingRules : List String
  isProtected : Bool
  reason : Reason
deriving DecidableEq

/-- In scope of a recording: camera-wide, or on the recording's stream. -/
def TimelineEvent.inScope (event : TimelineEvent) (cameraId streamId : String) : Bool :=
  event.cameraId == cameraId && event.stream.all (· == streamId)

/-- The end of the interval an event is evidence for; `none` when an open event
starts after the recording. -/
def observedEnd (recording : Recording) (event : TimelineEvent) :
    Except String (Option Timestamp) :=
  match event.endTimeMs with
  | some endMs =>
    if endMs.val < event.startTimeMs.val then .error "retention event ends before it starts"
    else if endMs = event.startTimeMs then
      match checkedAdd endMs 1 with
      | some next => .ok (some next)
      | none => .error "retention pulse exceeds the UTC range"
    else .ok (some endMs)
  | none =>
    if recording.interval.endMs.val ≤ event.startTimeMs.val then .ok none
    else .ok (some recording.interval.endMs)

abbrev Observation := Interval × TimelineEvent

def Interval.new (startMs endMs : Timestamp) : Except String Interval :=
  if h : startMs.val < endMs.val then .ok ⟨startMs, endMs, h⟩
  else .error "retention interval must have a start before its end"

/-- One turn of the loop of `recording_events`. -/
def observe (recording : Recording) (observations : List Observation) (event : TimelineEvent) :
    Except String (List Observation) :=
  if event.inScope recording.cameraId recording.streamId then
    if event.id.isEmpty || observations.any (fun previous => previous.2.id == event.id) then
      .error "retention needs unique canonical current event revisions"
    else
      match observedEnd recording event with
      | .error message => .error message
      | .ok none => .ok observations
      | .ok (some endMs) =>
        match Interval.new event.startTimeMs endMs with
        | .error message => .error message
        | .ok interval => .ok (observations ++ [(interval, event)])
  else .ok observations

def recordingEvents (recording : Recording) (events : List TimelineEvent) :
    Except String (List Observation) :=
  if maxEvents < events.length then .error "retention event snapshot limit exceeded"
  else if recording.cameraId.isEmpty || recording.streamId.isEmpty then
    .error "retention requires a stable camera and stream identity"
  else events.foldlM (observe recording) []

def laterDeadline (deadline : Option Timestamp) (candidate : Timestamp) : Timestamp :=
  match deadline with
  | none => candidate
  | some previous => if previous.val ≤ candidate.val then candidate else previous

def Rule.applies (rule : Rule) (recording : Recording) (observations : List Observation) : Bool :=
  rule.predicate == .continuous ||
    observations.any fun observation =>
      recording.interval.overlaps observation.1 && rule.matches observation.2

/-- One turn of the loop of `Policy::resolve` over its rules. -/
def resolveRule (recording : Recording) (applies : Rule → Bool)
    (resolved : Option Timestamp × List String) (rule : Rule) :
    Except String (Option Timestamp × List String) :=
  if rule.durationMs = 0 then .ok resolved
  else if applies rule then
    match checkedAdd recording.interval.endMs rule.durationMs with
    | none => .error "retention deadline exceeds the UTC range"
    | some deadline =>
      .ok (some (laterDeadline resolved.1 deadline), resolved.2 ++ [rule.id])
  else .ok resolved

def decisionReason (recording : Recording) (deadlineMs : Option Timestamp) : Reason :=
  if recording.isProtected then .isProtected
  else if recording.committedDeadlineMs.any
      (fun previous => deadlineMs.all fun candidate => decide (candidate.val ≤ previous.val)) then
    .committedDeadline
  else if deadlineMs.isSome then .matchingRules
  else .noMatchingEvidence

def mergedDeadline (recording : Recording) (deadlineMs : Option Timestamp) : Option Timestamp :=
  match recording.committedDeadlineMs with
  | none => deadlineMs
  | some committed => some (laterDeadline deadlineMs committed)

def decisionFor (recording : Recording) (resolved : Option Timestamp × List String) : Decision where
  deadlineMs := mergedDeadline recording resolved.1
  matchingRules := resolved.2
  isProtected := recording.isProtected
  reason := decisionReason recording resolved.1

/-- The rules of a policy evaluated for a recording, given which rules apply. -/
def Policy.evaluate (policy : Policy) (recording : Recording) (applies : Rule → Bool) :
    Except String Decision :=
  (policy.rules.foldlM (resolveRule recording applies) (none, [])).map (decisionFor recording)

def Policy.resolve (policy : Policy) (recording : Recording) (events : List TimelineEvent) :
    Except String Decision :=
  match recordingEvents recording events with
  | .error message => .error message
  | .ok observations =>
    policy.evaluate recording fun rule => rule.applies recording observations

/-- Whether an event is evidence for an interval: open events last, and a pulse
covers its own millisecond. -/
def TimelineEvent.overlaps (event : TimelineEvent) (interval : Interval) : Bool :=
  decide (event.startTimeMs.val < interval.endMs.val) &&
    event.endTimeMs.all fun endMs =>
      decide (interval.startMs.val < endMs.val) ||
        (decide (endMs = event.startTimeMs) &&
          decide (interval.startMs.val ≤ event.startTimeMs.val))

/-- What a policy asks of the events themselves, whatever their number: the rule
is continuous, or some event in scope is evidence of its kind. -/
def Rule.evidenced (rule : Rule) (recording : Recording) (events : List TimelineEvent) : Bool :=
  rule.predicate == .continuous ||
    events.any fun event =>
      event.inScope recording.cameraId recording.streamId &&
        (event.overlaps recording.interval && rule.matches event)

theorem checkedAdd_eq_some {time next : Timestamp} {duration : Nat}
    (h : checkedAdd time duration = some next) : next.val = time.val + duration := by
  unfold checkedAdd at h
  split at h
  · cases h
    rfl
  · cases h

theorem Interval.new_eq_ok {startMs endMs : Timestamp} {interval : Interval}
    (h : Interval.new startMs endMs = .ok interval) :
    interval.startMs = startMs ∧ interval.endMs = endMs := by
  unfold Interval.new at h
  split at h
  · cases h
    exact ⟨rfl, rfl⟩
  · cases h

theorem observedEnd_none (h : observedEnd r e = .ok none) : e.overlaps r.interval = false := by
  unfold observedEnd at h
  unfold TimelineEvent.overlaps
  split at h
  · split at h
    · cases h
    · split at h
      · split at h <;> cases h
      · cases h
  · split at h
    next late =>
      rw [decide_eq_false (by omega), Bool.false_and]
    next => cases h

theorem observedEnd_some {endMs : Timestamp} {interval : Interval}
    (h : observedEnd r e = .ok (some endMs))
    (hinterval : Interval.new e.startTimeMs endMs = .ok interval) :
    r.interval.overlaps interval = e.overlaps r.interval := by
  rcases Interval.new_eq_ok hinterval with ⟨hstart, hend⟩
  have nonempty := r.interval.nonempty
  unfold Interval.overlaps TimelineEvent.overlaps
  rw [hstart, hend]
  unfold observedEnd at h
  split at h
  next finish hfinish =>
    rw [hfinish]
    split at h
    next => cases h
    next ordered =>
      split at h
      next pulse =>
        split at h
        next next hnext =>
          have hval := checkedAdd_eq_some hnext
          cases h
          subst pulse
          rw [Bool.eq_iff_iff]
          simp only [Option.all_some, Bool.and_eq_true, Bool.or_eq_true, decide_eq_true_eq,
            true_and]
          omega
        next => cases h
      next longer =>
        cases h
        rw [Bool.eq_iff_iff]
        simp only [Option.all_some, Bool.and_eq_true, Bool.or_eq_true, decide_eq_true_eq, longer,
          false_and, or_false]
        omega
  next hopen =>
    rw [hopen]
    split at h
    next => cases h
    next =>
      cases h
      simp [nonempty]

theorem Rule.applies_append (r : Rule) (recording : Recording)
    (obs : List Observation) (observation : Observation) :
    r.applies recording (obs ++ [observation]) = (r.applies recording obs ||
        (recording.interval.overlaps observation.1 && r.matches observation.2)) := by
  unfold Rule.applies
  rw [List.any_append, Bool.or_assoc]
  simp

theorem Rule.evidenced_append (r : Rule) (recording : Recording)
    (before after : List TimelineEvent) :
    r.evidenced recording (before ++ after) =
      (r.evidenced recording before || r.evidenced recording after) := by
  unfold Rule.evidenced
  rw [List.any_append]
  cases r.predicate == .continuous <;> simp

theorem observe_applies {after : List Observation} (h : observe r obs e = .ok after) (ru : Rule) :
    ru.applies r after = (ru.applies r obs || ru.evidenced r [e]) := by
  have single : ru.evidenced r [e] = (ru.predicate == .continuous ||
      (e.inScope r.cameraId r.streamId && (e.overlaps r.interval && ru.matches e))) := by
    simp [Rule.evidenced]
  have absorb : ∀ b, ru.applies r obs =
      (ru.applies r obs || (ru.predicate == .continuous || (b && false))) := by
    intro b
    unfold Rule.applies
    cases ru.predicate == .continuous <;> simp
  rw [single]
  unfold observe at h
  split at h
  next inside =>
    split at h
    next => cases h
    next =>
      split at h
      next => cases h
      next unbounded =>
        cases h
        rw [observedEnd_none unbounded, Bool.false_and]
        exact absorb _
      next endMs bounded =>
        split at h
        next => cases h
        next interval hinterval =>
          cases h
          rw [Rule.applies_append, observedEnd_some bounded hinterval, inside, Bool.true_and]
          unfold Rule.applies
          cases ru.predicate == .continuous <;> simp
  next outside =>
    cases h
    rw [eq_false_of_ne_true outside]
    exact absorb true

theorem observe_all_applies {after : List Observation}
    (h : events.foldlM (observe r) obs = .ok after) (ru : Rule) :
    ru.applies r after = (ru.applies r obs || ru.evidenced r events) := by
  induction events generalizing obs with
  | nil =>
    cases h
    unfold Rule.applies Rule.evidenced
    cases ru.predicate == .continuous <;> simp
  | cons e events ih =>
    rw [List.foldlM_cons] at h
    cases hone : observe r obs e with
    | error message =>
      rw [hone] at h
      cases h
    | ok next =>
      rw [hone] at h
      have evidence := Rule.evidenced_append ru r [e] events
      rw [List.singleton_append] at evidence
      rw [ih h, observe_applies hone, evidence, Bool.or_assoc]

theorem recordingEvents_applies (h : recordingEvents r events = .ok obs)
    (ru : Rule) : ru.applies r obs = ru.evidenced r events := by
  unfold recordingEvents at h
  split at h
  · cases h
  split at h
  · cases h
  · rw [observe_all_applies h]
    unfold Rule.applies Rule.evidenced
    cases ru.predicate == .continuous <;> simp

theorem observedEnd_of_overlaps
    (ordered : ∀ finish, e.endTimeMs = some finish → e.startTimeMs.val ≤ finish.val)
    (h : e.overlaps r.interval = true) :
    ∃ endMs, observedEnd r e = .ok (some endMs) ∧ e.startTimeMs.val < endMs.val := by
  unfold TimelineEvent.overlaps at h
  rw [Bool.and_eq_true, decide_eq_true_eq] at h
  have hbefore := h.1
  unfold observedEnd
  split
  next finish hfinish =>
    have hordered := ordered finish hfinish
    rw [if_neg (by omega)]
    split
    next pulse =>
      -- A pulse before the recording's end leaves room for its millisecond.
      have hroom : finish.val + (1 : Nat) < 2 ^ 63 := by
        have := r.interval.endMs.property
        subst pulse
        omega
      refine ⟨⟨finish.val + (1 : Nat), by have := finish.property; omega, hroom⟩, ?_, ?_⟩
      · unfold checkedAdd
        rw [dif_pos hroom]
      · dsimp only
        omega
    next longer =>
      have hne : finish.val ≠ e.startTimeMs.val := fun same => longer (Subtype.ext same)
      exact ⟨finish, rfl, by omega⟩
  next =>
    rw [if_neg (by omega)]
    exact ⟨r.interval.endMs, rfl, hbefore⟩

theorem observe_accepts (named : e.id.isEmpty = false)
    (ordered : ∀ finish, e.endTimeMs = some finish → e.startTimeMs.val ≤ finish.val)
    (hoverlaps : e.overlaps r.interval = true)
    (fresh : ∀ observation ∈ obs, observation.2.id ≠ e.id) :
    observe r obs e = .ok obs ∨ ∃ interval, observe r obs e = .ok (obs ++ [(interval, e)]) := by
  unfold observe
  by_cases inside : e.inScope r.cameraId r.streamId
  · have hfresh : (obs.any fun previous => previous.2.id == e.id) = false := by
      rw [List.any_eq_false]
      intro observation hobservation
      simpa using fresh observation hobservation
    rcases observedEnd_of_overlaps ordered hoverlaps with ⟨endMs, hend, hlt⟩
    right
    refine ⟨⟨e.startTimeMs, endMs, hlt⟩, ?_⟩
    rw [if_pos inside, named, hfresh, hend]
    simp [Interval.new, hlt]
  · exact Or.inl (if_neg inside)

theorem observe_all_accepts
    (evidence : ∀ e ∈ events, e.id.isEmpty = false ∧ (∀ finish, e.endTimeMs = some finish →
      e.startTimeMs.val ≤ finish.val) ∧ e.overlaps r.interval = true)
    (distinct : events.Pairwise fun left right => left.id ≠ right.id)
    (fresh : ∀ observation ∈ obs, ∀ e ∈ events, observation.2.id ≠ e.id) :
    ∃ after, events.foldlM (observe r) obs = .ok after := by
  induction events generalizing obs with
  | nil => exact ⟨obs, rfl⟩
  | cons e events ih =>
    rcases evidence e List.mem_cons_self with ⟨named, ordered, hoverlaps⟩
    rcases List.pairwise_cons.mp distinct with ⟨hhead, htail⟩
    have hrest : ∀ other ∈ events, _ := fun other hother =>
      evidence other (List.mem_cons_of_mem _ hother)
    have hlater : ∀ observation ∈ obs, ∀ other ∈ events, observation.2.id ≠ other.id :=
      fun observation hobservation other hother =>
        fresh observation hobservation other (List.mem_cons_of_mem _ hother)
    rcases observe_accepts named ordered hoverlaps
      (fun observation hobservation => fresh observation hobservation e List.mem_cons_self) with
      skipped | ⟨interval, observed⟩
    · rw [foldlM_cons_of_ok skipped]
      exact ih hrest htail hlater
    · rw [foldlM_cons_of_ok observed]
      apply ih hrest htail
      intro observation hobservation other hother
      rcases List.mem_append.mp hobservation with old | new
      · exact hlater observation old other hother
      · rw [List.mem_singleton.mp new]
        exact hhead other hother

theorem recordingEvents_accepts (bounded : events.length ≤ maxEvents)
    (camera : r.cameraId.isEmpty = false) (stream : r.streamId.isEmpty = false)
    (evidence : ∀ e ∈ events, e.id.isEmpty = false ∧ (∀ finish, e.endTimeMs = some finish →
      e.startTimeMs.val ≤ finish.val) ∧ e.overlaps r.interval = true)
    (distinct : events.Pairwise fun left right => left.id ≠ right.id) :
    ∃ obs, recordingEvents r events = .ok obs := by
  unfold recordingEvents
  rw [if_neg (by omega), camera, stream]
  apply observe_all_accepts evidence distinct
  intro observation hobservation
  cases hobservation

theorem Rule.evidenced_iff {ru : Rule} :
    ru.evidenced r events = true ↔ ru.predicate = .continuous ∨ ∃ e ∈ events,
      e.inScope r.cameraId r.streamId = true ∧ e.overlaps r.interval = true ∧
      ru.matches e = true := by
  simp [Rule.evidenced]

theorem Policy.resolve_of_accepted (h : recordingEvents r events = .ok obs) (p : Policy) :
    p.resolve r events = p.evaluate r fun rule => rule.evidenced r events := by
  unfold Policy.resolve
  rw [h]
  exact congrArg (p.evaluate r) (funext (recordingEvents_applies h))

end KeepPeek.Retention
