import KeepPeek.Notifications.Delivery

/-! The `pending_deliveries` counter. All calls but those that deliver queue new items, settle
pending ones and remove what is over. A call counts under the lock what it queues or settles;
most calls add that to the counter, or take it off, only after they released the lock. -/
namespace KeepPeek.Notifications.Store

open Lib

variable {κ : Type} {s before middle after : Store κ} {old item : OutboxItem κ} {id : Nat}

def liveCount (store : Store κ) : Nat := store.outbox.toList.countP fun entry => entry.2.live

def Numbered (store : Store κ) : Prop :=
  ∀ (id : Nat) item, store.outbox[id]? = some item → id < store.nextOutboxId

/-- An item as the calls that do not deliver it leave it. -/
structure Later (old item : OutboxItem κ) : Prop where
  attempts : item.attemptCount = old.attemptCount
  limit : item.maxAttempts = old.maxAttempts
  pending : item.status.isPending = true → old.status.isPending = true
  delivering : item.status = .delivering ↔ old.status = .delivering

theorem Later.refl (i : OutboxItem κ) : Later i i := ⟨rfl, rfl, fun h => h, Iff.rfl⟩

theorem Later.settled (pending : old.status.isPending = true) {status : OutboxStatus} (nowMs : Int)
    (dead : status.isPending = false ∧ status ≠ .delivering) :
    Later old (withStatus old status nowMs) where
  attempts := rfl
  limit := rfl
  pending _ := pending
  delivering := by
    have idle : old.status ≠ .delivering := by
      intro delivering
      simp [delivering, OutboxStatus.isPending] at pending
    simp [withStatus, dead.2, idle]

structure Changes (queued settled : Nat) (before after : Store κ) : Prop where
  next : after.nextOutboxId = before.nextOutboxId + queued
  live : after.liveCount + settled = before.liveCount + queued
  items : ∀ (id : Nat) item, after.outbox[id]? = some item →
    (∃ old, before.outbox[id]? = some old ∧ Later old item) ∨
      before.nextOutboxId ≤ id ∧ id < after.nextOutboxId ∧ item.attemptCount = 0
  delivering : ∀ (id : Nat) old, before.outbox[id]? = some old → old.status = .delivering →
    ∃ item, after.outbox[id]? = some item ∧ Later old item

variable {queued settled : Nat}

theorem Changes.numbered (changes : Changes queued settled before after)
    (numbered : before.Numbered) : after.Numbered := by
  intro id item stored
  have next := changes.next
  rcases changes.items id item stored with ⟨old, earlier, -⟩ | ⟨-, below, -⟩
  · have := numbered id old earlier
    omega
  · exact below

theorem Changes.counted (changes : Changes queued settled before after)
    (numbered : before.Numbered) :
    after.Numbered ∧ after.liveCount + settled = before.liveCount + queued :=
  ⟨changes.numbered numbered, changes.live⟩

theorem Changes.trans {more other : Nat} (first : Changes queued settled before middle)
    (second : Changes more other middle after) :
    Changes (queued + more) (settled + other) before after where
  next := by rw [second.next, first.next, Nat.add_assoc]
  live := by
    have := first.live
    have := second.live
    omega
  items id item stored := by
    have next := first.next
    have further := second.next
    rcases second.items id item stored with ⟨between, found, later⟩ | ⟨least, below, unsent⟩
    · rcases first.items id between found with ⟨old, earlier, changed⟩ | ⟨least, below, unsent⟩
      · exact .inl ⟨old, earlier, later.attempts.trans changed.attempts,
          later.limit.trans changed.limit, fun h => changed.pending (later.pending h),
          later.delivering.trans changed.delivering⟩
      · exact .inr ⟨least, by omega, later.attempts.trans unsent⟩
    · exact .inr ⟨by omega, below, unsent⟩
  delivering id old earlier sending := by
    obtain ⟨between, found, changed⟩ := first.delivering id old earlier sending
    obtain ⟨item, stored, later⟩ := second.delivering id between found
      (changed.delivering.mpr sending)
    exact ⟨item, stored, later.attempts.trans changed.attempts, later.limit.trans changed.limit,
      fun h => changed.pending (later.pending h), later.delivering.trans changed.delivering⟩

theorem Changes.same (outbox : after.outbox = before.outbox)
    (next : after.nextOutboxId = before.nextOutboxId) : Changes 0 0 before after where
  next := next
  live := by simp [liveCount, outbox]
  items _ item stored := .inl ⟨item, outbox ▸ stored, .refl item⟩
  delivering _ old stored _ := ⟨old, outbox ▸ stored, .refl old⟩

theorem liveCount_putItem (stored : s.outbox[id]? = some old) (i : OutboxItem κ) :
    (s.putItem id i).liveCount + old.live.toNat = s.liveCount + i.live.toNat := by
  have counted := countP_toList_replace (fun entry => entry.2.live) stored i
  change _ + cond old.live 1 0 = _ + cond i.live 1 0
  simp only [Bool.cond_eq_ite]
  exact counted

theorem expires (stored : s.outbox[id]? = some old) (pending : old.status.isPending = true)
    (nowMs : Int) : Changes 0 1 s (s.putItem id (withStatus old .expired nowMs)) where
  next := rfl
  live := by
    have counted := liveCount_putItem stored (withStatus old .expired nowMs)
    rw [(live_iff old).mpr (.inl pending)] at counted
    exact counted
  items other found hfound := by
    rcases getElem?_insert_cases hfound with ⟨rfl, rfl⟩ | ⟨_, kept⟩
    · exact .inl ⟨old, stored, .settled pending nowMs ⟨rfl, by decide⟩⟩
    · exact .inl ⟨found, kept, .refl found⟩
  delivering other found hfound sending := by
    have ne : other ≠ id := by
      rintro rfl
      cases stored.symm.trans hfound
      simp [sending, OutboxStatus.isPending] at pending
    exact ⟨found, (getElem?_insert_of_ne ne _ _).trans hfound, .refl found⟩

theorem enqueues (numbered : s.Numbered) (live : item.live = true)
    (unsent : item.attemptCount = 0) :
    Changes 1 0 s (s.putItem s.nextOutboxId item).takeOutboxId where
  next := rfl
  live := by
    have fresh : s.outbox[s.nextOutboxId]? = none := by
      cases stored : s.outbox[s.nextOutboxId]? with
      | none => rfl
      | some old => exact absurd (numbered _ old stored) (Nat.lt_irrefl _)
    have counted := countP_toList_insert_new (fun entry => entry.2.live) fresh item
    rw [if_pos live] at counted
    exact counted
  items other found hfound := by
    rcases getElem?_insert_cases hfound with ⟨rfl, rfl⟩ | ⟨_, kept⟩
    · exact .inr ⟨Nat.le_refl _, Nat.lt_succ_self _, unsent⟩
    · exact .inl ⟨found, kept, .refl found⟩
  delivering other found hfound _ := by
    have below := numbered other found hfound
    exact ⟨found, (getElem?_insert_of_ne (Nat.ne_of_lt below) _ _).trans hfound, .refl found⟩

theorem settles (outbox : middle.outbox = s.outbox) (next : middle.nextOutboxId = s.nextOutboxId)
    {status : OutboxStatus} (dead : status.isPending = false ∧ status ≠ .delivering) (nowMs : Int)
    {test : OutboxItem κ → Bool}
    (tested : ∀ item, test item = true → item.status.isPending = true) :
    Changes 0 (s.outbox.toList.countP fun entry => test entry.2) s
      (middle.mapOutbox fun item => if test item then withStatus item status nowMs else item) := by
  have later : ∀ item, Later item (if test item then withStatus item status nowMs else item) := by
    intro item
    split
    next selected => exact .settled (tested item selected) nowMs dead
    next => exact .refl item
  have changed : ∀ item : OutboxItem κ,
      (if test item then withStatus item status nowMs else item).live =
        (item.live && !test item) := by
    intro item
    cases test item <;> simp [OutboxItem.live, withStatus, dead]
  refine ⟨next, ?_, ?_, ?_⟩
  · simp only [liveCount, mapOutbox, Std.ExtTreeMap.toList_map, List.countP_map, outbox]
    induction s.outbox.toList with
    | nil => rfl
    | cons entry entries ih =>
      have live : test entry.2 = true → entry.2.live = true := by
        intro selected
        simp [OutboxItem.live, tested entry.2 selected]
      simp only [List.countP_cons, Function.comp_apply, changed]
      cases selected : test entry.2 <;> cases hlive : entry.2.live <;> simp_all <;> omega
  · intro id item stored
    simp only [mapOutbox, Std.ExtTreeMap.getElem?_map, Option.map_eq_some_iff, outbox] at stored
    obtain ⟨old, earlier, rfl⟩ := stored
    exact .inl ⟨old, earlier, later old⟩
  · intro id old earlier _
    refine ⟨_, ?_, later old⟩
    simp [mapOutbox, Std.ExtTreeMap.getElem?_map, outbox, earlier]

def suppresses (store : Store κ) (sources : List String) (item : OutboxItem κ) : Bool :=
  item.status.isPending && (store.logical item.logicalId).any fun logical =>
    sources.contains logical.sourceId

def cancels (store : Store κ) (ruleId : String) (active : Option Rule)
    (item : OutboxItem κ) : Bool :=
  item.status.isPending && (store.logical item.logicalId).any fun logical =>
    decide (logical.ruleId = ruleId) &&
      !(active.any fun rule => rule.allows item.actionIndex item.channel)

def cancelled (store : Store κ) (ruleId : String) (active : Option Rule) : Nat :=
  store.outbox.toList.countP fun entry => store.cancels ruleId active entry.2

theorem cancelDisabledOutbox_changes {changed : Store κ} (outbox : changed.outbox = s.outbox)
    (next : changed.nextOutboxId = s.nextOutboxId) (logical : changed.logical = s.logical)
    (ruleId : String) (active : Option Rule) (nowMs : Int) :
    Changes 0 (s.cancelled ruleId active) s (changed.cancelDisabledOutbox ruleId active nowMs) := by
  unfold cancelDisabledOutbox cancelItem
  rw [logical]
  exact settles outbox next ⟨rfl, by decide⟩ nowMs fun item h => (Bool.and_eq_true_iff.mp h).1

def expiredBy (channel : Channel) (nowMs : Int) : Nat → Store κ → Nat
  | 0, _ => 0
  | fuel + 1, store =>
    match store.nextDueOutboxId channel nowMs with
    | none => 0
    | some (id, item) =>
      if (store.logical item.logicalId).isSome && decide (item.expiresAtMs ≤ nowMs) then
        expiredBy channel nowMs fuel (store.putItem id (withStatus item .expired nowMs)) + 1
      else 0

theorem claimLoop_cases (channel : Channel) (nowMs : Int) (fuel : Nat) (s : Store κ) :
    ∃ expired, Changes 0 (expiredBy channel nowMs fuel s) s expired ∧
      (claimLoop channel nowMs fuel s = (none, expired) ∨ ∃ id item logical,
        s.outbox[id]? = some item ∧ expired.outbox[id]? = some item ∧
        item.status.isPending = true ∧ item.nextAttemptAtMs ≤ nowMs ∧ nowMs < item.expiresAtMs ∧
        claimLoop channel nowMs fuel s =
          (some (deliveryOf id item logical), expired.putItem id (claimItem item nowMs))) := by
  induction fuel generalizing s with
  | zero => exact ⟨s, .same rfl rfl, .inl rfl⟩
  | succ fuel ih =>
    cases hnext : s.nextDueOutboxId channel nowMs with
    | none => exact ⟨s, by simpa [expiredBy, hnext] using .same rfl rfl, by simp [claimLoop, hnext]⟩
    | some entry =>
      obtain ⟨id, item⟩ := entry
      have mem := nextDueOutboxId_mem hnext
      obtain ⟨stored, -, pending⟩ := mem_due mem
      simp only [due, List.mem_filter, Bool.and_eq_true, decide_eq_true_eq] at mem
      obtain ⟨logical, hlogical⟩ := Option.isSome_iff_exists.mp mem.2.2.2.2
      by_cases late : item.expiresAtMs ≤ nowMs
      · obtain ⟨expired, changes, result⟩ := ih (s.putItem id (withStatus item .expired nowMs))
        have both := (expires stored pending nowMs).trans changes
        simp only [claimLoop, expiredBy, hnext, hlogical, late]
        refine ⟨expired, by simpa [Nat.add_comm] using both, result.imp_right ?_⟩
        rintro ⟨taken, found, known, earlier, later, waiting, rest⟩
        refine ⟨taken, found, known, ?_, later, waiting, rest⟩
        rcases getElem?_insert_cases earlier with ⟨rfl, rfl⟩ | ⟨_, kept⟩
        · cases waiting
        · exact kept
      · simp only [claimLoop, expiredBy, hnext, hlogical, late]
        exact ⟨s, by simpa using .same rfl rfl, .inr ⟨id, item, logical, stored, stored, pending,
          mem.2.2.2.1, by omega, by simp⟩⟩

def Queues (before after : Store κ) : Prop := ∃ queued, Changes queued 0 before after

theorem Queues.trans (first : Queues before middle) (second : Queues middle after) :
    Queues before after := by
  obtain ⟨queued, changes⟩ := first
  obtain ⟨more, further⟩ := second
  exact ⟨queued + more, changes.trans further⟩

theorem Queues.same (outbox : after.outbox = before.outbox)
    (next : after.nextOutboxId = before.nextOutboxId) : Queues before after :=
  ⟨0, .same outbox next⟩

theorem Queues.numbered (queues : Queues before after) (numbered : before.Numbered) :
    after.Numbered := by
  obtain ⟨_, changes⟩ := queues
  exact changes.numbered numbered

theorem Queues.counts (queues : Queues before after) :
    Changes (after.nextOutboxId - before.nextOutboxId) 0 before after := by
  obtain ⟨queued, changes⟩ := queues
  rwa [changes.next, Nat.add_sub_cancel_left]

theorem numbered_putItem (numbered : s.Numbered) (stored : s.outbox[id]? = some old) :
    (s.putItem id item).Numbered := by
  intro other found hfound
  rcases getElem?_insert_cases hfound with ⟨rfl, -⟩ | ⟨-, kept⟩
  · exact numbered other old stored
  · exact numbered other found kept

theorem finishItem_live (delivery : Delivery κ) (delivering : item.status = .delivering)
    (outcome : DeliveryOutcome) (nowMs : Int) :
    (finishItem item (deliveryTransition delivery outcome nowMs) nowMs).live.toNat +
        (if !(deliveryTransition delivery outcome nowMs).1.isPending then 1 else 0) =
      item.live.toNat := by
  have sent : (deliveryTransition delivery outcome nowMs).1 ≠ .delivering := by
    unfold deliveryTransition
    split
    · nofun
    · nofun
    split
    · nofun
    · split <;> nofun
  cases pending : (deliveryTransition delivery outcome nowMs).1.isPending <;>
    simp [OutboxItem.live, finishItem, delivering, sent, pending]

variable [DecidableEq κ]

theorem prune_queues (s : Store κ) (removed : κ → Bool) : Queues s (s.prune removed) := by
  have active : ∀ (id : Nat) item, (id, item) ∈ s.outbox.toList → item.live = true →
      s.logicalActive item.logicalId = true := fun id item mem live =>
    List.any_eq_true.mpr ⟨(id, item), mem, by simpa [OutboxItem.live] using live⟩
  refine ⟨0, rfl, ?_, ?_, ?_⟩
  · simp only [liveCount, prune, Std.ExtTreeMap.toList_filter, List.countP_filter, Nat.add_zero]
    apply List.countP_congr
    intro entry mem
    have := active entry.1 entry.2 mem
    cases live : entry.2.live <;> simp_all
  · intro id item stored
    rw [prune, Std.ExtTreeMap.getElem?_filter', Option.filter_eq_some_iff] at stored
    exact .inl ⟨item, stored.1, .refl item⟩
  · intro id old earlier sending
    have kept := active id old (Std.ExtTreeMap.mem_toList_iff_getElem?_eq_some.mpr earlier)
      ((live_iff old).mpr (.inr sending))
    refine ⟨old, ?_, .refl old⟩
    rw [prune, Std.ExtTreeMap.getElem?_filter', Option.filter_eq_some_iff]
    exact ⟨earlier, by simp [kept]⟩

theorem setCall_prune_queues (s : Store κ) (call : Nat) (removed : κ → Bool) :
    Queues s ((s.setCall call none).prune removed) := by
  refine .trans ?_ (prune_queues _ removed)
  exact .same rfl rfl

theorem enqueueActions_queues (numbered : s.Numbered) (r : Rule) (c : Candidate)
    (logicalId : κ) (replacement : Bool) (answer : Answer) :
    Queues s (s.enqueueActions r c logicalId replacement answer) := by
  refine @foldl_invariant _ _ _ (Queues s) ?_ _ (.same rfl rfl) r.actions.zipIdx
  intro next entry queues
  unfold enqueueAction
  split
  · exact queues.trans ⟨1, enqueues (queues.numbered numbered) rfl rfl⟩
  · exact queues

theorem processRule_queues (numbered : s.Numbered) (digest : LogicalKey → κ) (r : Rule)
    (c : Candidate) (answer : Answer) :
    Queues s (s.processRule digest r c answer) := by
  have written : ∀ id logical replacement, Queues s
      ((s.putLogical id logical).enqueueActions r c id replacement answer) := by
    intro id logical replacement
    have same : Queues s (s.putLogical id logical) := .same rfl rfl
    exact same.trans (enqueueActions_queues (same.numbered numbered) ..)
  unfold processRule processExisting
  dsimp only
  split
  · split
    · exact .same rfl rfl
    split
    · exact .same rfl rfl
    split
    · exact written _ _ true
    · exact .same rfl rfl
  · split
    · exact written _ _ false
    · exact .same rfl rfl

theorem processInState_queues (numbered : s.Numbered) (digest : LogicalKey → κ)
    (rules : List Rule) (c : Candidate) (answer : Rule → Answer) :
    Queues s (s.processInState digest rules c answer) := by
  refine @foldl_invariant _ _ _ (Queues s) ?_ _ (.same rfl rfl) rules
  intro next rule queues
  split
  · exact queues.trans (processRule_queues (queues.numbered numbered) ..)
  · exact queues

/-- What `finish_delivery` takes off: one, unless the claim is stale or the item is retried. -/
def finishedBy (store : Store κ) (delivery : Delivery κ) (outcome : DeliveryOutcome) (nowMs : Int) :
    Nat :=
  match store.outbox[delivery.id]? with
  | none => 0
  | some item =>
    if store.claimValid delivery item && !(deliveryTransition delivery outcome
      nowMs).1.isPending then 1
    else 0

/-- What a call does to the counter; `decrement_counter` stops at zero. -/
inductive Adjustment
  | add (amount : Nat)
  | subtract (amount : Nat)
deriving DecidableEq, Repr

namespace Adjustment

def apply : Adjustment → Nat → Nat
  | .add amount, counter => counter + amount
  | .subtract amount, counter => counter - amount

def added : Adjustment → Nat
  | .add amount => amount
  | .subtract _ => 0

def removed : Adjustment → Nat
  | .add _ => 0
  | .subtract amount => amount

theorem apply_add_removed (adjustment : Adjustment) (counter : Nat) :
    adjustment.apply counter + adjustment.removed =
      max counter adjustment.removed + adjustment.added := by
  cases adjustment with
  | add amount => simp [apply, added, removed]
  | subtract amount =>
    simp only [apply, added, removed]
    omega

end Adjustment

/-- What a call has counted when it releases the lock. Each queued item takes one id. -/
def counted (digest : LogicalKey → κ) (store : Store κ) : Op κ → Adjustment
  | .setProfileSuppressedSources sources _ =>
    .subtract (if sourcesWithinBounds sources then
      store.outbox.toList.countP fun entry => store.suppresses sources entry.2 else 0)
  | .activate ruleId ownerId activeRevision draftRevision accepted _ =>
    .subtract (match store.editable ruleId ownerId activeRevision draftRevision with
      | some record => if accepted then store.cancelled ruleId (some record.draft) else 0
      | none => 0)
  | .delete ruleId ownerId activeRevision draftRevision persisted _ =>
    .subtract (match store.editable ruleId ownerId activeRevision draftRevision with
      | some _ => if persisted then store.cancelled ruleId none else 0
      | none => 0)
  | .claimDue channel nowMs =>
    .subtract (expiredBy channel nowMs (store.pendingOutboxCount + 1) store)
  | .finishDelivery delivery outcome nowMs _ => .subtract (store.finishedBy delivery outcome nowMs)
  | op => .add ((store.step digest op).nextOutboxId - store.nextOutboxId)

def Op.delivers : Op κ → Bool
  | .claimDue .. => true
  | .finishDelivery .. => true
  | _ => false

theorem step_changes (numbered : s.Numbered) (digest : LogicalKey → κ) {op : Op κ}
    (other : op.delivers = false) :
    Changes (counted digest s op).added (counted digest s op).removed s (step digest s op) := by
  cases op with
  | setProfileSuppressedSources sources nowMs =>
    simp only [step, counted, setProfileSuppressedSources, Adjustment.added, Adjustment.removed]
    split
    · exact @settles _ s (s.setSuppressed sources) rfl rfl .suppressed ⟨rfl, by decide⟩ nowMs _
        fun item h => (Bool.and_eq_true_iff.mp h).1
    · exact .same rfl rfl
  | activate ruleId ownerId activeRevision draftRevision accepted nowMs =>
    simp only [step, counted, activate, Adjustment.added, Adjustment.removed]
    cases s.editable ruleId ownerId activeRevision draftRevision with
    | none => exact .same rfl rfl
    | some record =>
      cases accepted
      · exact .same rfl rfl
      · exact @cancelDisabledOutbox_changes _ s (s.putRule ruleId _) rfl rfl rfl ..
  | delete ruleId ownerId activeRevision draftRevision persisted nowMs =>
    simp only [step, counted, delete, Adjustment.added, Adjustment.removed]
    cases s.editable ruleId ownerId activeRevision draftRevision with
    | none => exact .same rfl rfl
    | some record =>
      cases persisted
      · exact .same rfl rfl
      · exact @cancelDisabledOutbox_changes _ s (s.eraseRule ruleId) rfl rfl rfl ..
  | saveDraft draft expected persisted =>
    apply Queues.counts
    dsimp only [step]
    rcases saveDraft_cases s draft expected persisted with same | ⟨record, same, -⟩
    · rw [same]
      exact .same rfl rfl
    · rw [same]
      exact .same rfl rfl
  | beginProcess call candidate => exact Queues.counts (.same rfl rfl)
  | beginTest call ruleId =>
    apply Queues.counts
    unfold step
    dsimp only
    split
    · exact .same rfl rfl
    · exact .same rfl rfl
  | finishProcess call identity revision answer before after =>
    apply Queues.counts
    unfold step finishProcess
    dsimp only
    split
    next rules candidate _ =>
      have pruned := setCall_prune_queues s call before
      exact (pruned.trans (processInState_queues (pruned.numbered numbered) ..)).trans
        (prune_queues _ after)
    next => exact .same rfl rfl
  | finishTest call identity eventKind answer nowMs before after =>
    apply Queues.counts
    unfold step finishTest
    dsimp only
    split
    next rule _ =>
      have pruned := setCall_prune_queues s call before
      exact (pruned.trans (processRule_queues (pruned.numbered numbered) ..)).trans
        (prune_queues _ after)
    next => exact .same rfl rfl
  | claimDue channel nowMs => cases other
  | finishDelivery delivery outcome nowMs removed => cases other

theorem step_live (numbered : s.Numbered) (digest : LogicalKey → κ) (op : Op κ) :
    (step digest s op).Numbered ∧ (step digest s op).liveCount + (counted digest s op).removed =
      s.liveCount + (counted digest s op).added := by
  cases op with
  | claimDue channel nowMs =>
    obtain ⟨expired, changes, same | ⟨id, item, logical, -, stored, pending, -, -, same⟩⟩ :=
      claimLoop_cases channel nowMs (s.pendingOutboxCount + 1) s
    · simp only [step, claimDue, same]
      exact changes.counted numbered
    · simp only [step, claimDue, same]
      refine ⟨numbered_putItem (changes.numbered numbered) stored, ?_⟩
      have claimed := liveCount_putItem stored (claimItem item nowMs)
      rw [(live_iff item).mpr (.inl pending)] at claimed
      exact (congrArg (· + _) (Nat.add_right_cancel claimed)).trans changes.live
  | finishDelivery delivery outcome nowMs removed =>
    simp only [step, finishDelivery, counted, finishedBy]
    cases stored : s.outbox[delivery.id]? with
    | none => exact ⟨numbered, rfl⟩
    | some item =>
      by_cases valid : s.claimValid delivery item = true
      · have delivering : item.status = .delivering := by
          simp only [claimValid, Bool.and_eq_true, decide_eq_true_eq] at valid
          exact valid.1.1.1.1.1
        have finished := liveCount_putItem stored
          (finishItem item (deliveryTransition delivery outcome nowMs) nowMs)
        have live := finishItem_live delivery delivering outcome nowMs
        obtain ⟨queued, changes⟩ := prune_queues (s.putItem delivery.id
          (finishItem item (deliveryTransition delivery outcome nowMs) nowMs)) removed
        have pruned := changes.live
        have next := changes.next
        simp only [valid, Bool.true_and, if_true, Adjustment.added, Adjustment.removed]
        refine ⟨changes.numbered (numbered_putItem numbered stored), ?_⟩
        simp only [prune] at next
        omega
      · simpa [valid, Adjustment.added, Adjustment.removed] using numbered
  | _ => exact (step_changes numbered digest rfl).counted numbered

/-- `activate` and `delete` record what they counted before they release the lock. -/
def recordsLocked : Op κ → Bool
  | .activate .. => true
  | .delete .. => true
  | _ => false

structure Metered (κ : Type) where
  store : Store κ
  counter : Nat
  unrecorded : List Adjustment

namespace Metered

inductive Op (κ : Type)
  | call (op : Store.Op κ)
  | record (adjustment : Adjustment)

def step (digest : LogicalKey → κ) (metered : Metered κ) : Op κ → Metered κ
  | .call op =>
    let adjustment := counted digest metered.store op
    if recordsLocked op then
      ⟨metered.store.step digest op, adjustment.apply metered.counter, metered.unrecorded⟩
    else ⟨metered.store.step digest op, metered.counter, adjustment :: metered.unrecorded⟩
  | .record adjustment =>
    if adjustment ∈ metered.unrecorded then
      { metered with
        counter := adjustment.apply metered.counter
        unrecorded := metered.unrecorded.erase adjustment }
    else metered

/-- The adjustment the step makes takes off no more than the counter holds. -/
def Covered (digest : LogicalKey → κ) (metered : Metered κ) : Op κ → Prop
  | .call op => recordsLocked op = true → (counted digest metered.store op).removed ≤
      metered.counter
  | .record adjustment =>
    adjustment ∈ metered.unrecorded → adjustment.removed ≤ metered.counter

def added (metered : Metered κ) : Nat := (metered.unrecorded.map Adjustment.added).sum

def removed (metered : Metered κ) : Nat := (metered.unrecorded.map Adjustment.removed).sum

def Exact (metered : Metered κ) : Prop :=
  metered.counter + metered.added = metered.store.liveCount + metered.removed

structure Sound (metered : Metered κ) : Prop where
  numbered : metered.store.Numbered
  enough : metered.store.liveCount + metered.removed ≤ metered.counter + metered.added

/-- A step keeps the counter from falling behind, and keeps it exact when it is covered. -/
theorem step_sound (digest : LogicalKey → κ) (metered : Metered κ) (op : Op κ)
    (sound : metered.Sound) : (metered.step digest op).Sound ∧
      ((metered.step digest op).Exact ↔ metered.Exact ∧ metered.Covered digest op) := by
  have enough := sound.enough
  cases op with
  | call op =>
    obtain ⟨numbered, live⟩ := step_live sound.numbered digest op
    have applied := (counted digest metered.store op).apply_add_removed metered.counter
    simp only [step, Covered, Exact]
    split
    next locked =>
      refine ⟨⟨numbered, ?_⟩, ?_⟩
      all_goals
        simp only [added, removed, locked, forall_const] at enough ⊢
        omega
    next locked =>
      refine ⟨⟨numbered, ?_⟩, ?_⟩
      all_goals
        simp only [added, removed, locked, Bool.false_eq_true, false_imp_iff, and_true,
          List.map_cons, List.sum_cons] at enough ⊢
        omega
  | record adjustment =>
    simp only [step, Covered, Exact]
    split
    next mem =>
      have applied := adjustment.apply_add_removed metered.counter
      have split := List.perm_cons_erase mem
      have adds := (split.map Adjustment.added).sum_eq
      have removes := (split.map Adjustment.removed).sum_eq
      rw [List.map_cons, List.sum_cons] at adds removes
      refine ⟨⟨sound.numbered, ?_⟩, ?_⟩
      all_goals
        simp only [added, removed, mem, forall_const] at enough ⊢
        omega
    next absent => exact ⟨sound, by simp [absent]⟩

def «open» (rules : List Rule) : Metered κ := ⟨Store.open rules, 0, []⟩

/-- At rest the counter is exact just when no decrement of the run met a counter that was too
small for it. -/
theorem counter_exact_iff_covered (digest : LogicalKey → κ) (rules : List Rule) (ops : List (Op κ))
    (rest : (ops.foldl (step digest) (Metered.open rules)).unrecorded = []) :
    (ops.foldl (step digest) (Metered.open rules)).counter =
        (ops.foldl (step digest) (Metered.open rules)).store.liveCount ↔
      AllSteps (step digest) (Covered digest) (Metered.open rules) ops := by
  have empty : (Metered.open rules : Metered κ).Sound :=
    ⟨fun id item stored => by simp [Metered.open, Store.open] at stored, Nat.le_refl _⟩
  have run := @good_foldl_iff_allSteps _ _ (step digest) (Covered digest) (fun _ => True)
    (fun metered _ => metered.Sound) (fun metered _ => metered.Exact) (fun _ _ _ => trivial)
    (fun metered _ op _ sound => (step_sound digest metered op sound).1)
    (fun metered _ op _ sound => (step_sound digest metered op sound).2) _ [] empty ops trivial
  have initial : (Metered.open rules : Metered κ).Exact := rfl
  rw [Exact, added, removed, rest] at run
  simpa [initial] using run

/-- The worker delivers the item and takes it off before the call that queued it adds it. -/
def overtakingRun : List (Op LogicalKey) :=
  (deliveredRun.take 4).map .call ++
    [.record (.subtract 1), .record (.add 1), .record (.add 0), .record (.subtract 0)]

theorem overtaken_counter_is_too_large :
    (overtakingRun.foldl (step fun key => key) (.open [pushRule])).unrecorded = [] ∧
      (overtakingRun.foldl (step fun key => key) (.open [pushRule])).counter = 1 ∧
      (overtakingRun.foldl (step fun key => key) (.open [pushRule])).store.liveCount = 0 := by
  decide +kernel

theorem counter_exact_of_recorded_item :
    AllSteps (step fun key => key) (Covered fun key => key) (.open [pushRule])
      (claimedRun.map Op.call ++ [.record (.add 1), .record (.add 0), .record (.subtract 0)]) := by
  refine (counter_exact_iff_covered (fun key => key) [pushRule] _ ?_).mp ?_
  · decide +kernel
  · decide +kernel

end Metered

end KeepPeek.Notifications.Store
