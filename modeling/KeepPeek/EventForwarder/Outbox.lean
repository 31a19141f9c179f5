import KeepPeek.Lib.Limits
import KeepPeek.Lib.Run
import Mathlib.Algebra.GroupWithZero.Nat
import Mathlib.Data.Finset.Basic

/-! The outbox of the MQTT forwarder (`event_forwarder/outbox.rs`) between its two threads.
The writer inserts; the publisher hands the front to the broker and removes it once the
broker has acknowledged it. Every call holds the lock of the outbox, so an interleaving is
a list of calls. What the broker answers is part of the call. -/
namespace KeepPeek.EventForwarder.Outbox

open Lib

structure Publication where
  dedupKey : String
  topic : String
  payload : List UInt8
  qos : UInt8
  retain : Bool
  eventTimestampMs : Int
  contentType : String
  payloadFormatIndicator : Option UInt8
  correlationData : List UInt8
deriving DecidableEq, Repr

structure OutboxItem where
  sequence : Nat
  publication : Publication
  attempts : Nat
deriving DecidableEq, Repr

structure OutboxState where
  nextSequence : Nat
  pending : List (OutboxItem × Nat)
  pendingBytes : Nat
  seenKeys : Finset String
  deliveredKeys : List String
deriving DecidableEq

inductive EnqueueResult
  | inserted
  | duplicate
deriving DecidableEq, Repr

inductive EnqueueError
  /-- `MQTT outbox capacity exceeded: item limit reached` -/
  | itemLimit
  | full (limitBytes attemptedBytes : Nat)
  /-- `MQTT outbox sequence exhausted` -/
  | sequenceExhausted
deriving DecidableEq, Repr

def maxPendingItems : Nat := 10000

def maxDeliveryReceipts : Nat := 100000

def publicationSize (publication : Publication) : Nat :=
  saturatingAdd (saturatingAdd (saturatingAdd (saturatingAdd publication.dedupKey.utf8ByteSize
    publication.topic.utf8ByteSize) publication.payload.length)
      publication.contentType.utf8ByteSize)
    publication.correlationData.length

/-- `outbox_max_mb` of a configuration that passed `validate`. -/
structure OutboxLimit where
  maxMb : Nat
  positive : 0 < maxMb
  bounded : maxMb ≤ 65536

def OutboxLimit.bytes (limit : OutboxLimit) : Nat := min (limit.maxMb * (1024 * 1024)) (2 ^ 64 - 1)

namespace OutboxState

def empty : OutboxState := ⟨0, [], 0, ∅, []⟩

def insert (state : OutboxState) (publication : Publication) (attemptedBytes : Nat) :
    OutboxState where
  nextSequence := state.nextSequence + 1
  pending := state.pending ++
    [(⟨state.nextSequence + 1, publication, 0⟩, publicationSize publication)]
  pendingBytes := attemptedBytes
  seenKeys := Insert.insert publication.dedupKey state.seenKeys
  deliveredKeys := state.deliveredKeys

def enqueue (state : OutboxState) (publication : Publication) (limitBytes : Nat) :
    Except EnqueueError EnqueueResult × OutboxState :=
  if publication.dedupKey ∈ state.seenKeys then (.ok .duplicate, state)
  else if state.pending.length = maxPendingItems then (.error .itemLimit, state)
  else
    let attemptedBytes := saturatingAdd state.pendingBytes (publicationSize publication)
    if limitBytes < attemptedBytes then (.error (.full limitBytes attemptedBytes), state)
    else if state.nextSequence = 2 ^ 63 - 1 then (.error .sequenceExhausted, state)
    else (.ok .inserted, state.insert publication attemptedBytes)

def next (state : OutboxState) : Option OutboxItem := state.pending.head?.map Prod.fst

def attempted (entry : OutboxItem × Nat) : OutboxItem × Nat :=
  ({ entry.1 with attempts := saturatingAdd entry.1.attempts 1 }, entry.2)

/-- Without the item there is `MQTT outbox item was not found`, and nothing changes. -/
def markAttempt (state : OutboxState) (sequence : Nat) : OutboxState :=
  match state.pending.findIdx? fun entry => entry.1.sequence = sequence with
  | none => state
  | some index => { state with pending := state.pending.modify index attempted }

def remember (state : OutboxState) (key : String) : OutboxState :=
  match state.deliveredKeys ++ [key] with
  | [] => state
  | expired :: rest =>
    if maxDeliveryReceipts < (expired :: rest).length then
      { state with deliveredKeys := rest, seenKeys := state.seenKeys.erase expired }
    else { state with deliveredKeys := expired :: rest }

def markDelivered (state : OutboxState) (sequence : Nat) : OutboxState :=
  match state.pending.find? fun entry => entry.1.sequence = sequence with
  | none => state
  | some (item, bytes) =>
    { state with
      pending := state.pending.eraseP fun entry => entry.1.sequence = sequence
      pendingBytes := state.pendingBytes - bytes }.remember item.publication.dedupKey

def publications (state : OutboxState) : List Publication :=
  state.pending.map fun entry => entry.1.publication

def keys (state : OutboxState) : List String := state.publications.map Publication.dedupKey

@[simp] theorem publications_insert (state : OutboxState) (pub : Publication) (bytes : Nat) :
    (state.insert pub bytes).publications = state.publications ++ [pub] := by
  simp [publications, insert]

@[simp] theorem keys_insert (state : OutboxState) (pub : Publication) (bytes : Nat) :
    (state.insert pub bytes).keys = state.keys ++ [pub.dedupKey] := by
  simp [keys]

structure Sound (state : OutboxState) : Prop where
  sizes : state.pending.map Prod.snd = state.publications.map publicationSize
  bytes : state.pendingBytes = (state.publications.map publicationSize).sum
  few : state.pending.length ≤ maxPendingItems
  distinct : (state.keys ++ state.deliveredKeys).Nodup
  seen : ∀ key, key ∈ state.seenKeys ↔ key ∈ state.keys ∨ key ∈ state.deliveredKeys

variable {state after : OutboxState} {pub : Publication} {entry : OutboxItem × Nat}
  {rest : List (OutboxItem × Nat)}

theorem enqueue_inserted {limit : OutboxLimit}
    (h : state.enqueue pub limit.bytes = (.ok .inserted, after)) :
    pub.dedupKey ∉ state.seenKeys ∧ state.pending.length ≠ maxPendingItems ∧
      state.pendingBytes + publicationSize pub ≤ limit.bytes ∧
      after = state.insert pub (state.pendingBytes + publicationSize pub) := by
  unfold enqueue at h
  split at h
  · cases h
  next fresh =>
    split at h
    · cases h
    next room =>
      dsimp only at h
      split at h
      · cases h
      next within =>
        have bound : limit.bytes ≤ 65536 * (1024 * 1024) := by
          have := limit.bounded
          unfold OutboxLimit.bytes
          omega
        have exact : saturatingAdd state.pendingBytes (publicationSize pub) =
            state.pendingBytes + publicationSize pub := by
          unfold saturatingAdd u64Max at within ⊢
          omega
        rw [exact] at h within
        split at h
        · cases h
        · cases h
          exact ⟨fresh, room, by omega, rfl⟩

theorem enqueue_refused {limitBytes : Nat} {result : Except EnqueueError EnqueueResult}
    (h : state.enqueue pub limitBytes = (result, after)) (refused : result ≠ .ok .inserted) :
    after = state := by
  unfold enqueue at h
  dsimp only at h
  split_ifs at h
  · cases h
    rfl
  · cases h
    rfl
  · cases h
    rfl
  · cases h
    rfl
  · cases h
    exact absurd rfl refused

theorem Sound.insert (h : state.Sound) (fresh : pub.dedupKey ∉ state.seenKeys)
    (room : state.pending.length ≠ maxPendingItems) :
    (state.insert pub (state.pendingBytes + publicationSize pub)).Sound := by
  constructor
  · simp only [publications_insert, List.map_append, ← h.sizes]
    simp [OutboxState.insert]
  · simp only [publications_insert, List.map_append, List.sum_append, ← h.bytes]
    rfl
  · have := h.few
    simp only [OutboxState.insert, List.length_append, List.length_singleton]
    omega
  · rw [keys_insert, List.append_assoc]
    refine List.perm_middle.nodup_iff.mpr (List.nodup_cons.mpr ⟨?_, h.distinct⟩)
    intro mem
    exact fresh ((h.seen _).mpr (List.mem_append.mp mem))
  · intro key
    rw [keys_insert]
    simp only [OutboxState.insert, Finset.mem_insert, List.mem_append, List.mem_singleton, h.seen]
    tauto

theorem markAttempt_front (front : state.pending = entry :: rest) :
    state.markAttempt entry.1.sequence = { state with pending := attempted entry :: rest } := by
  simp [markAttempt, front, List.findIdx?_cons]

theorem Sound.markAttempt (h : state.Sound) (front : state.pending = entry :: rest) :
    (state.markAttempt entry.1.sequence).Sound ∧
      (state.markAttempt entry.1.sequence).publications = state.publications := by
  have same : (state.markAttempt entry.1.sequence).publications = state.publications := by
    simp [markAttempt_front front, publications, front, attempted]
  have keys : (state.markAttempt entry.1.sequence).keys = state.keys :=
    congrArg (List.map Publication.dedupKey) same
  refine ⟨⟨?_, ?_, ?_, ?_, ?_⟩, same⟩
  · rw [same, ← h.sizes, markAttempt_front front, front]
    rfl
  · rw [same, ← h.bytes, markAttempt_front front]
  · have := h.few
    rw [markAttempt_front front]
    simpa [front] using this
  · rw [keys, markAttempt_front front]
    exact h.distinct
  · rw [keys, markAttempt_front front]
    exact h.seen

theorem markDelivered_front (front : state.pending = entry :: rest)
    (few : state.deliveredKeys.length ≤ maxDeliveryReceipts) :
    ∃ forgotten kept, state.deliveredKeys ++ [entry.1.publication.dedupKey] = forgotten ++ kept ∧
      forgotten.length = state.deliveredKeys.length + 1 - maxDeliveryReceipts ∧
      state.markDelivered entry.1.sequence = ⟨state.nextSequence, rest,
        state.pendingBytes - entry.2,
        state.seenKeys \ forgotten.toFinset, kept⟩ := by
  cases all : state.deliveredKeys ++ [entry.1.publication.dedupKey] with
  | nil => simp at all
  | cons expired later =>
    have length := congrArg List.length all
    rw [List.length_append, List.length_singleton, List.length_cons] at length
    by_cases many : maxDeliveryReceipts < later.length + 1
    · refine ⟨[expired], later, rfl, ?_, ?_⟩
      · rw [List.length_singleton]
        omega
      · simp [markDelivered, front, remember, all, many, Finset.sdiff_singleton_eq_erase]
    · refine ⟨[], expired :: later, rfl, ?_, ?_⟩
      · rw [List.length_nil]
        omega
      · simp [markDelivered, front, remember, all, many]

theorem Sound.remove (h : state.Sound) (front : state.pending = entry :: rest)
    {forgotten kept : List String}
    (all : state.deliveredKeys ++ [entry.1.publication.dedupKey] = forgotten ++ kept) :
    Sound ⟨state.nextSequence, rest, state.pendingBytes - entry.2,
      state.seenKeys \ forgotten.toFinset, kept⟩ := by
  have sizes := h.sizes
  have bytes := h.bytes
  simp only [publications, front, List.map_cons, List.cons.injEq, List.sum_cons] at sizes bytes
  -- The receipts with the new one, and the keys behind the front, are the keys there were.
  have same : (state.keys ++ state.deliveredKeys).Perm
      (forgotten ++ (kept ++ rest.map fun entry => entry.1.publication.dedupKey)) := by
    rw [← List.append_assoc, ← all]
    refine List.perm_append_comm.trans (.of_eq ?_)
    simp [keys, publications, front]
  have distinct := same.nodup_iff.mp h.distinct
  have waiting : keys ⟨state.nextSequence, rest, state.pendingBytes - entry.2,
      state.seenKeys \ forgotten.toFinset, kept⟩ = rest.map fun entry =>
        entry.1.publication.dedupKey := by
    simp [keys, publications]
  constructor
  · exact sizes.2
  · simp only [publications]
    omega
  · have := h.few
    rw [front, List.length_cons] at this
    exact Nat.le_of_succ_le this
  · rw [waiting]
    exact List.perm_append_comm.nodup_iff.mp distinct.of_append_right
  · intro key
    have known := h.seen key
    have apart := List.disjoint_of_nodup_append distinct
    rw [← List.mem_append, same.mem_iff, List.mem_append] at known
    rw [waiting, Finset.mem_sdiff, List.mem_toFinset, known]
    constructor
    · rintro ⟨gone | held, current⟩
      · exact absurd gone current
      · exact (List.mem_append.mp held).symm
    · intro held
      have held := List.mem_append.mpr held.symm
      exact ⟨Or.inr held, fun gone => apart gone held⟩

end OutboxState

open OutboxState

/-- Where the publisher stands with the item it took. -/
inductive Publisher
  | idle
  | publishing (item : OutboxItem)
  | acknowledged (item : OutboxItem)
  | refused (item : OutboxItem)
deriving DecidableEq, Repr

def Publisher.item : Publisher → Option OutboxItem
  | .idle => none
  | .publishing item | .acknowledged item | .refused item => some item

structure Forwarding where
  outbox : OutboxState
  publisher : Publisher
  -- Not in the source: what was inserted, acknowledged and removed so far.
  inserted : List Publication
  acknowledged : List Publication
  delivered : List Publication

inductive Call
  | enqueue (publication : Publication) (limit : OutboxLimit)
  | next
  | publish (accepted : Bool)
  | mark

namespace Forwarding

def start : Forwarding := ⟨.empty, .idle, [], [], []⟩

/-- A call of a thread that is not at that point does nothing. -/
def step (system : Forwarding) : Call → Forwarding
  | .enqueue publication limit =>
    match system.outbox.enqueue publication limit.bytes with
    | (.ok .inserted, outbox) =>
      { system with outbox, inserted := system.inserted ++ [publication] }
    | (_, outbox) => { system with outbox }
  | .next =>
    match system.publisher, system.outbox.next with
    | .idle, some item => { system with publisher := .publishing item }
    | _, _ => system
  | .publish accepted =>
    match system.publisher with
    | .publishing item =>
      if accepted then
        { system with
          publisher := .acknowledged item
          acknowledged := system.acknowledged ++ [item.publication] }
      else { system with publisher := .refused item }
    | _ => system
  | .mark =>
    match system.publisher with
    | .acknowledged item =>
      { system with
        outbox := system.outbox.markDelivered item.sequence
        publisher := .idle
        delivered := system.delivered ++ [item.publication] }
    | .refused item =>
      { system with outbox := system.outbox.markAttempt item.sequence, publisher := .idle }
    | _ => system

def run (calls : List Call) : Forwarding := calls.foldl step start

def remembered (delivered : List Publication) : List String :=
  (delivered.map Publication.dedupKey).drop (delivered.length - maxDeliveryReceipts)

def unmarked : Publisher → List Publication
  | .acknowledged item => [item.publication]
  | _ => []

structure Sound (system : Forwarding) : Prop where
  outbox : system.outbox.Sound
  order : system.inserted = system.delivered ++ system.outbox.publications
  acknowledged : system.acknowledged = system.delivered ++ unmarked system.publisher
  front : ∀ item ∈ system.publisher.item, ∃ entry rest, system.outbox.pending = entry :: rest ∧
    entry.1.sequence = item.sequence ∧ entry.1.publication = item.publication
  receipts : system.outbox.deliveredKeys = remembered system.delivered

variable {system : Forwarding}

theorem start_sound : start.Sound := by
  refine ⟨?_, rfl, rfl, ?_, rfl⟩
  · constructor <;> simp [start, empty, publications, keys]
  · intro item held
    cases held

theorem length_remembered (delivered : List Publication) :
    (remembered delivered).length ≤ maxDeliveryReceipts := by
  simp only [remembered, List.length_drop, List.length_map]
  omega

theorem remembered_append {delivered : List Publication} {pub : Publication}
    {forgotten kept : List String}
    (all : remembered delivered ++ [pub.dedupKey] = forgotten ++ kept)
    (length : forgotten.length = (remembered delivered).length + 1 - maxDeliveryReceipts) :
    kept = remembered (delivered ++ [pub]) := by
  have shorter : (remembered delivered ++ [pub.dedupKey]).drop forgotten.length = kept := by
    rw [all, List.drop_left]
  have early : delivered.length - maxDeliveryReceipts ≤
      (delivered.map Publication.dedupKey).length := by
    rw [List.length_map]
    omega
  have known : (remembered delivered).length =
      delivered.length - (delivered.length - maxDeliveryReceipts) := by
    simp [remembered]
  have count : delivered.length - maxDeliveryReceipts +
      (delivered.length - (delivered.length - maxDeliveryReceipts) + 1 - maxDeliveryReceipts) =
      (delivered ++ [pub]).length - maxDeliveryReceipts := by
    rw [List.length_append, List.length_singleton]
    omega
  rw [← shorter, length, known, remembered, ← List.drop_append_of_le_length early, List.drop_drop,
    count, remembered, List.map_append, List.map_singleton]

theorem Sound.enqueue (h : system.Sound) (pub : Publication) (limit : OutboxLimit) :
    (system.step (.enqueue pub limit)).Sound := by
  simp only [step]
  split
  next outbox inserted =>
    obtain ⟨fresh, room, -, rfl⟩ := enqueue_inserted inserted
    refine ⟨h.outbox.insert fresh room, ?_, h.acknowledged, ?_, h.receipts⟩
    · simp [h.order]
    · intro item held
      obtain ⟨entry, rest, front, same⟩ := h.front item held
      exact ⟨entry, _, congrArg (· ++ _) front, same⟩
  next result outbox refused enqueued =>
    rw [enqueue_refused enqueued refused]
    exact h

theorem Sound.next (h : system.Sound) : (system.step .next).Sound := by
  simp only [step]
  split
  next item idle taken =>
    refine ⟨h.outbox, h.order, ?_, ?_, h.receipts⟩
    · simpa [idle, unmarked] using h.acknowledged
    · rintro item' ⟨⟩
      obtain ⟨entry, front, rfl⟩ := Option.map_eq_some_iff.mp taken
      obtain ⟨rest, front⟩ := List.head?_eq_some_iff.mp front
      exact ⟨entry, rest, front, rfl, rfl⟩
  · exact h

theorem Sound.publish (h : system.Sound) (accepted : Bool) :
    (system.step (.publish accepted)).Sound := by
  simp only [step]
  split
  next item publishing =>
    have front := h.front item (by simp [publishing, Publisher.item])
    have acknowledged := h.acknowledged
    simp only [publishing, unmarked, List.append_nil] at acknowledged
    have held {publisher : Publisher} (same : publisher.item = some item) : ∀ item' ∈
      publisher.item,
        ∃ entry rest, system.outbox.pending = entry :: rest ∧
          entry.1.sequence = item'.sequence ∧ entry.1.publication = item'.publication := by
      rw [same]
      rintro item' ⟨⟩
      exact front
    cases accepted with
    | true => exact ⟨h.outbox, h.order, by simp [acknowledged, unmarked], held rfl, h.receipts⟩
    | false => exact ⟨h.outbox, h.order, by simp [acknowledged, unmarked], held rfl, h.receipts⟩
  · exact h

/-- The item that was acknowledged is still the front, so the front is what goes. -/
theorem Sound.mark (h : system.Sound) : (system.step .mark).Sound := by
  simp only [step]
  split
  next item acknowledged =>
    obtain ⟨entry, rest, front, sequence, publication⟩ :=
      h.front item (by simp [acknowledged, Publisher.item])
    have few : system.outbox.deliveredKeys.length ≤ maxDeliveryReceipts := by
      rw [h.receipts]
      exact length_remembered _
    obtain ⟨forgotten, kept, all, length, after⟩ := markDelivered_front front few
    rw [← sequence, ← publication, after]
    refine ⟨h.outbox.remove front all, ?_, ?_, ?_, ?_⟩
    · simp [h.order, publications, front]
    · simpa [acknowledged, unmarked, publication] using h.acknowledged
    · intro item held
      cases held
    · rw [h.receipts] at all length
      exact remembered_append all length
  next item refused =>
    obtain ⟨entry, rest, front, sequence, -⟩ := h.front item (by simp [refused, Publisher.item])
    obtain ⟨sound, same⟩ := h.outbox.markAttempt front
    rw [← sequence]
    refine ⟨sound, h.order.trans (by rw [same]), ?_, ?_, ?_⟩
    · simpa [refused, unmarked] using h.acknowledged
    · intro item held
      cases held
    · rw [markAttempt_front front]
      exact h.receipts
  · exact h

theorem Sound.step (h : system.Sound) : ∀ call, (system.step call).Sound
  | .enqueue publication limit => h.enqueue publication limit
  | .next => h.next
  | .publish accepted => h.publish accepted
  | .mark => h.mark

theorem run_sound (calls : List Call) : (run calls).Sound :=
  foldl_invariant (fun _ call h => h.step call) start_sound calls

theorem Sound.acknowledged_first (h : system.Sound) : system.acknowledged <+: system.inserted := by
  rw [h.acknowledged, h.order, List.prefix_append_right_inj]
  cases held : system.publisher with
  | acknowledged item =>
    obtain ⟨entry, rest, front, -, publication⟩ := h.front item (by simp [held, Publisher.item])
    simp [unmarked, publications, front, publication]
  | idle => exact List.nil_prefix
  | publishing item => exact List.nil_prefix
  | refused item => exact List.nil_prefix

/-- Whatever the two threads do and the broker answers, the broker has acknowledged the first
publications that were inserted, in their order; the counter, the bound on the items and the set
of keys are exact; and a publication goes in only with a key that is neither pending nor among the
last receipts, and when its bytes fit. -/
theorem outbox_is_bounded_fifo (calls : List Call) :
    (run calls).acknowledged <+: (run calls).inserted ∧
    (run calls).outbox.pendingBytes = ((run calls).outbox.publications.map publicationSize).sum ∧
    (run calls).outbox.pending.length ≤ 10000 ∧
    (∀ key, key ∈ (run calls).outbox.seenKeys ↔
      key ∈ (run calls).outbox.keys ∨ key ∈ (run calls).outbox.deliveredKeys) ∧
    (run calls).outbox.deliveredKeys = ((run calls).delivered.map Publication.dedupKey).drop
      ((run calls).delivered.length - 100000) ∧
    ∀ publication (limit : OutboxLimit) after,
      (run calls).outbox.enqueue publication limit.bytes = (.ok .inserted, after) →
      publication.dedupKey ∉ (run calls).outbox.keys ∧
      publication.dedupKey ∉ ((run calls).delivered.map Publication.dedupKey).drop
        ((run calls).delivered.length - 100000) ∧
      after.pendingBytes ≤ limit.bytes := by
  have h := run_sound calls
  have receipts := h.receipts
  simp only [remembered, maxDeliveryReceipts] at receipts
  refine ⟨h.acknowledged_first, h.outbox.bytes, h.outbox.few, h.outbox.seen, receipts, ?_⟩
  · intro publication limit after inserted
    obtain ⟨fresh, -, within, rfl⟩ := enqueue_inserted inserted
    rw [h.outbox.seen, not_or, receipts] at fresh
    exact ⟨fresh.1, fresh.2, within⟩

def round : List Call := [.next, .publish true, .mark]

theorem round_delivers (h : system.Sound) (idle : system.publisher = .idle) :
    ∃ after, round.foldl step system = after ∧ after.Sound ∧ after.publisher = .idle ∧
      after.inserted = system.inserted ∧
      after.outbox.pending.length = system.outbox.pending.length - 1 := by
  have sound := (h.next.publish true).mark
  refine ⟨_, rfl, sound, ?_⟩
  have before := congrArg List.length h.order
  have order := congrArg List.length sound.order
  cases waiting : system.outbox.pending with
  | nil => simp [round, step, idle, OutboxState.next, waiting]
  | cons entry rest =>
    simp [round, step, idle, OutboxState.next, waiting, publications] at before order ⊢
    omega

theorem rounds_deliver {n : Nat} (h : system.Sound) (idle : system.publisher = .idle)
    (few : system.outbox.pending.length ≤ n) :
    ((List.replicate n round).flatten.foldl step system).acknowledged = system.inserted := by
  induction n generalizing system with
  | zero =>
    rw [h.order, publications, List.eq_nil_of_length_eq_zero (Nat.le_zero.mp few)]
    simpa [idle, unmarked] using h.acknowledged
  | succ n ih =>
    obtain ⟨after, delivered, sound, free, same, fewer⟩ := round_delivers h idle
    rw [List.replicate_succ, List.flatten_cons, List.foldl_append, delivered,
      ih sound free (by omega), same]

/-- Nothing inserted is lost: after any history a publisher that settles the item it holds and
goes its rounds gets everything acknowledged, in order and once. -/
theorem accepting_broker_gets_all (calls : List Call) :
    (run (calls ++ ([.publish true, .mark] ++
      (List.replicate maxPendingItems round).flatten))).acknowledged = (run calls).inserted := by
  have h := run_sound calls
  have sound := (h.publish true).mark
  rw [run, List.foldl_append, ← run, List.foldl_append]
  refine (rounds_deliver sound ?_ sound.outbox.few).trans ?_
  all_goals cases held : (run calls).publisher <;> simp [step, held]

end Forwarding

end KeepPeek.EventForwarder.Outbox
