import KeepPeek.Notifications.Tables

/-! The tables of the notification runtime over whole runs: what each call changes, and that
the tables stay linked and within their limits. -/
namespace KeepPeek.Notifications.RuntimeState

open Lib

variable {κ : Type} [LinearOrder κ] {state : RuntimeState κ}
variable {logicalId : κ} {id count pending : Nat} {i : Item Nat}

/-! ### The changes of each call -/

section Admission

omit [LinearOrder κ]

theorem sameTables_consumeLimits (limits : List RateLimit) (r : RuntimeRule)
    (c : RuntimeCandidate) (channel : Option Channel) :
    SameTables state
      (limits.foldl (fun state limit => state.consumeRate limit r c channel) state) := by
  refine @foldl_invariant _ _ _ (SameTables state) ?_ _ (SameTables.refl state) limits
  intro next limit same
  exact same.trans ⟨rfl, rfl, rfl, rfl, rfl, rfl, rfl, rfl⟩

theorem mem_putAll {entries : List (CooldownKey × Nat)} {nowMs : Int} {key : CooldownKey}
    {cooldowns : Table CooldownKey Int} (mem : key ∈ putAll cooldowns entries nowMs) :
    key ∈ cooldowns ∨ key ∈ entries.map Prod.fst := by
  induction entries generalizing cooldowns with
  | nil => exact .inl mem
  | cons entry entries ih =>
    rcases ih mem with mem | mem
    · rcases (AList.mem_insert _).mp mem with rfl | mem
      · exact .inr List.mem_cons_self
      · exact .inl mem
    · exact .inr (List.mem_cons_of_mem _ mem)

/-- The check of `cooldown_capacity_for` counts every key that can be added. -/
theorem size_putAll_le {entries : List (CooldownKey × Nat)} (nowMs : Int)
    (room : state.cooldownCapacityFor (entries.map Prod.fst) = true) :
    (putAll state.cooldowns entries nowMs).size ≤ maxCooldownWindows := by
  refine le_trans ?_ (of_decide_eq_true room)
  have known : (putAll state.cooldowns entries nowMs).keys ⊆ state.cooldowns.keys ++
      ((entries.map Prod.fst).filter fun key => decide (key ∉ state.cooldowns)).dedup := by
    intro key mem
    by_cases old : key ∈ state.cooldowns
    · exact List.mem_append_left _ (AList.mem_keys.mp old)
    apply List.mem_append_right
    rcases mem_putAll (AList.mem_keys.mpr mem) with stored | new
    · exact absurd stored old
    · exact List.mem_dedup.mpr (List.mem_filter.mpr ⟨new, decide_eq_true old⟩)
  have length := (List.subperm_of_subset (AList.keys_nodup _) known).length_le
  rw [List.length_append] at length
  exact length

end Admission

variable {host : Host κ} {r : RuntimeRule} {c : RuntimeCandidate}

theorem admitNewNotification_tables {admitted : RuntimeState κ} {bypass : Bool}
    (h : state.admitNewNotification host r c = (.accepted bypass, admitted)) :
    TableSteps host state admitted ∧ admitted.logical.size < maxLogicalNotifications := by
  obtain ⟨capacity, -, cooldowns, started, rfl, rfl⟩ := admitNewNotification_accepted h
  have room : state.logical.size < maxLogicalNotifications := of_decide_eq_true capacity
  have steps := Relation.ReflTransGen.single (.cooldowns state _ (size_putAll_le c.occurredAtMs
    cooldowns) : TableStep host state _)
  split
  · unfold consumeCriticalBypass
    split
    · exact ⟨steps.tail (.same ⟨rfl, rfl, rfl, rfl, rfl, rfl, rfl, rfl⟩), room⟩
    · exact ⟨steps, room⟩
  · exact ⟨steps, room⟩

theorem enqueueAction_tables (known : logicalId ∈ state.logical) (replacement attachment : Bool)
    (index : Nat) (action : Action) :
    TableSteps host state (state.enqueueAction r c logicalId replacement attachment index
      action) ∧ (state.enqueueAction r c logicalId replacement attachment index
      action).logical = state.logical := by
  unfold enqueueAction
  split
  · next queued =>
    simp only [queues, Bool.and_eq_true, decide_eq_true_eq, Bool.not_eq_true'] at queued
    obtain ⟨⟨-, room⟩, fresh⟩ := queued
    have same : SameTables _ (RuntimeState.consumeChannelRateLimits
        ((state.putItem state.nextOutboxId (buildItem r c logicalId index action)).takeOutboxId) r c
        action.channel) := sameTables_consumeLimits _ _ _ _
    have added : TableStep host state ((state.putItem state.nextOutboxId
        (buildItem r c logicalId index action)).takeOutboxId) :=
      .enqueue state known fresh room
    exact ⟨.tail (.single added) (.same same), same.logical⟩
  · exact ⟨.refl, rfl⟩

theorem enqueueActions_tables (known : logicalId ∈ state.logical) (replacement attachment : Bool) :
    TableSteps host state (state.enqueueActions r c logicalId replacement attachment) := by
  unfold enqueueActions
  have both := @foldl_invariant _ _ (fun (state : RuntimeState κ) (entry : Action × Nat) =>
      state.enqueueAction r c logicalId replacement attachment entry.2 entry.1)
    (fun next : RuntimeState κ => TableSteps host state next ∧ next.logical = state.logical)
    (by
      rintro next entry ⟨steps, same⟩
      have here : logicalId ∈ next.logical := same ▸ known
      obtain ⟨more, kept⟩ := (enqueueAction_tables here replacement attachment entry.2 entry.1 :
        TableSteps host next _ ∧ _)
      exact ⟨steps.trans more, kept.trans same⟩)
    state ⟨.refl, rfl⟩ r.actions.zipIdx
  exact both.1

theorem processExisting_tables (known : logicalId ∈ state.logical) (existing : Logical)
    (attachment : Bool) :
    TableSteps host state (state.processExisting r c logicalId existing attachment) := by
  simp only [processExisting]
  split
  · exact .refl
  split
  · exact .single (.update state _ known)
  split
  · refine .head (.update state _ known) (enqueueActions_tables ?_ true attachment)
    exact (AList.mem_insert _).mpr (.inl rfl)
  · exact .single (.update state _ known)

theorem createNewNotification_tables (room : state.logical.size < maxLogicalNotifications)
    (logicalId : κ) (attachment bypass : Bool) :
    TableSteps host state (state.createNewNotification r c logicalId attachment bypass) := by
  have created : TableStep host state ((state.putLogical logicalId
      { Store.newLogical r.toRule c.toCandidate with ownerId := r.ownerId }).putReceipt
      (logicalId, r.ownerId) ⟨none, none, none⟩) :=
    .create state logicalId _ r.ownerId _ room
  have counted : SameTables _ (state.insertNewLogical r c logicalId) :=
    sameTables_consumeLimits (ruleLimits r) r c none
  have logged : SameTables _ ((state.insertNewLogical r c logicalId).logCreated
      ⟨r.id, c.occurredAtMs, bypass⟩) :=
    counted.trans ⟨rfl, rfl, rfl, rfl, rfl, rfl, rfl, rfl⟩
  have known : logicalId ∈ ((state.insertNewLogical r c logicalId).logCreated
      ⟨r.id, c.occurredAtMs, bypass⟩).logical := by
    rw [logged.logical]
    exact (AList.mem_insert _).mpr (.inl rfl)
  exact .head created (.head (.same logged) (enqueueActions_tables known false attachment))

theorem processRule_tables (attachment : Bool) :
    TableSteps host state (state.processRule host r c attachment) := by
  simp only [processRule]
  split
  · next existing found =>
    exact processExisting_tables (Table.mem_of_lookup found) existing attachment
  split
  · next bypass admitted admission =>
    obtain ⟨steps, room⟩ := admitNewNotification_tables admission
    exact steps.trans (createNewNotification_tables room _ attachment bypass)
  · next admission => rw [admitNewNotification_suppressed admission]

theorem processInState_tables (matched : List (MatchResult × RuntimeRule))
    (attachment : RuntimeRule → Bool) :
    TableSteps host state (state.processInState host c matched attachment) := by
  unfold processInState
  refine @foldl_invariant _ _ _ (TableSteps host state) ?_ _ .refl matched
  intro next entry steps
  split
  · exact steps.trans (processRule_tables _)
  · exact steps

theorem process_tables (rules : List RuntimeRule) (attachment : RuntimeRule → Bool) :
    TableSteps host state (state.process host rules c attachment) := by
  unfold process
  split
  · exact .refl
  simp only [processMatched]
  have first : TableSteps host state (state.pruneAt host c.occurredAtMs).2 :=
    .single (.prune state _)
  split
  · split
    · exact first
    next ok =>
    apply first.trans
    obtain ⟨-, -, rfl | ⟨interval, rfl, room⟩⟩ := normalizeOperationalInterval_ok ok
    · exact .tail (processInState_tables _ attachment) (.prune _ _)
    · exact .head (.interval _ _ _ room) (.tail (processInState_tables _ attachment) (.prune _ _))
  · exact first

theorem testRule_tables (identity : String) (eventKind : Option String) (nowMs : Int) :
    TableSteps host state (state.testRule host r identity eventKind nowMs) := by
  simp only [testRule]
  have first : TableSteps host state (state.pruneAt host nowMs).2 := .single (.prune state _)
  split
  · exact first.trans (.tail (processRule_tables false) (.prune _ _))
  · exact first

/-! Deliveries and receipts. -/

theorem suppressItem_settles (sources : List String) (nowMs : Int) (i : Item κ) :
    Item.SameKey (state.suppressItem sources nowMs i) i ∧
      ((state.suppressItem sources nowMs i).status.isPending = true →
        i.status.isPending = true) := by
  unfold suppressItem
  split
  · exact ⟨⟨rfl, rfl, rfl⟩, nofun⟩
  · exact ⟨⟨rfl, rfl, rfl⟩, id⟩

theorem cancelItem_settles (ruleId : String) (active : Option Rule) (nowMs : Int) (i : Item κ) :
    Item.SameKey (state.cancelItem ruleId active nowMs i) i ∧
      ((state.cancelItem ruleId active nowMs i).status.isPending = true →
        i.status.isPending = true) := by
  unfold cancelItem
  split
  · exact ⟨⟨rfl, rfl, rfl⟩, nofun⟩
  · exact ⟨⟨rfl, rfl, rfl⟩, id⟩

theorem setProfileSuppressedSources_tables (sources : List String) (nowMs : Int) :
    TableSteps host state (state.setProfileSuppressedSources sources nowMs) := by
  unfold setProfileSuppressedSources
  split
  · have suppressed : TableStep host state (state.mapOutbox (state.suppressItem sources nowMs)) :=
      .settleAll state (fun i => (suppressItem_settles sources nowMs i).1)
        fun i => (suppressItem_settles sources nowMs i).2
    exact .tail (.single suppressed) (.same ⟨rfl, rfl, rfl, rfl, rfl, rfl, rfl, rfl⟩)
  · exact .refl

theorem cancelDisabledOutbox_tables (ruleId : String) (active : Option Rule) (nowMs : Int) :
    TableSteps host state (state.cancelDisabledOutbox ruleId active nowMs) :=
  .single (.settleAll state (fun i => (cancelItem_settles ruleId active nowMs i).1)
    fun i => (cancelItem_settles ruleId active nowMs i).2)

omit [LinearOrder κ] in
theorem stored_of_mem_filter {test : Nat × Item κ → Bool} {i : Item κ}
    (mem : (id, i) ∈ state.outbox.toList.filter test) :
    state.outbox[id]? = some i ∧ test (id, i) = true := by
  obtain ⟨listed, passed⟩ := List.mem_filter.mp mem
  exact ⟨Std.ExtTreeMap.mem_toList_iff_getElem?_eq_some.mp listed, passed⟩

theorem nextDueOutboxId_stored {channel : Channel} {nowMs : Int} {i : Item κ}
    (h : state.nextDueOutboxId channel nowMs = some (id, i)) :
    state.outbox[id]? = some i := by
  refine (stored_of_mem_filter (mem_of_foldl_choose (fun best item => ?_) h)).1
  cases best with
  | none => exact .inl rfl
  | some chosen => exact ite_eq_or_eq _ _ _

theorem nextReceiptDue_stored {nowMs : Int} {i : Item κ}
    (h : state.nextReceiptDue nowMs = some (id, i)) : state.outbox[id]? = some i := by
  refine (stored_of_mem_filter (mem_of_foldl_choose (fun best item => ?_) h)).1
  cases best with
  | none => exact .inl rfl
  | some chosen => exact ite_eq_or_eq _ _ _

theorem claimLoop_tables (channel : Channel) (nowMs : Int) (fuel : Nat) (s : RuntimeState κ) :
    TableSteps host s (claimLoop channel nowMs fuel s).2 := by
  induction fuel generalizing s with
  | zero => exact .refl
  | succ fuel ih =>
    rw [claimLoop]
    split
    · exact .refl
    next id i due =>
    have stored := nextDueOutboxId_stored due
    split
    · exact .refl
    split
    · have expired : TableStep host s (s.putItem id (Item.withStatus i .expired nowMs)) :=
        .settle s stored ⟨rfl, rfl, rfl⟩ nofun
      exact .head expired (ih _)
    · exact .single (.settle s stored ⟨rfl, rfl, rfl⟩ nofun)

theorem claimDueReceipt_tables (nowMs : Int) :
    TableSteps host state (state.claimDueReceipt nowMs) := by
  unfold claimDueReceipt
  split
  · exact .refl
  · next due => exact .single (.settle state (nextReceiptDue_stored due) ⟨rfl, rfl, rfl⟩ id)

omit [LinearOrder κ] in
theorem receiptItem_settles (check : ReceiptCheck κ) (i : Item κ) (outcome : ReceiptOutcome)
    (nowMs : Int) :
    Item.SameKey (receiptItem check i outcome nowMs) i ∧
      (receiptItem check i outcome nowMs).status = i.status := by
  cases outcome with
  | pending expiresAtMs =>
    simp only [receiptItem]
    split <;> exact ⟨⟨rfl, rfl, rfl⟩, rfl⟩
  | transient retryAfterMs =>
    simp only [receiptItem]
    split <;> exact ⟨⟨rfl, rfl, rfl⟩, rfl⟩
  | _ => exact ⟨⟨rfl, rfl, rfl⟩, rfl⟩

theorem finishReceipt_tables (check : ReceiptCheck κ) (outcome : ReceiptOutcome) (nowMs : Int) :
    TableSteps host state (state.finishReceipt host check outcome nowMs) := by
  unfold finishReceipt
  split
  · exact .refl
  next i stored =>
  split
  · obtain ⟨same, status⟩ := receiptItem_settles check i outcome nowMs
    have settled : TableStep host state
        (state.putItem check.outboxId (receiptItem check i outcome nowMs)) :=
      .settle state stored same fun pending => status ▸ pending
    exact .tail (.single settled) (.prune _ nowMs)
  · exact .refl

theorem updateReceipt_tables (logicalId : κ) (principalId : String) (update : ReceiptUpdate)
    (nowMs : Int) :
    TableSteps host state (state.updateReceipt host logicalId principalId update nowMs) := by
  unfold updateReceipt
  split
  · split
    · exact .refl
    · next found =>
      exact .tail (.single (.receipt state _ (Table.mem_of_lookup found))) (.prune _ nowMs)
  · exact .refl

theorem clearScope_tables (principalId : String) (scope : ClearScope) (nowMs : Int) :
    TableSteps host state (state.clearScope host principalId scope nowMs) := by
  unfold clearScope
  refine .tail ?_ (.prune _ nowMs)
  refine @foldl_invariant _ _ _ (TableSteps host state) ?_ _ .refl _
  intro next key steps
  unfold clearReceipt
  split
  · next found => exact steps.tail (.receipt next _ (Table.mem_of_lookup found))
  · exact steps

omit [LinearOrder κ] in
/-- A transient outcome is the only one that makes an item pending again. -/
theorem deliveryTransition_settles {delivery : Delivery κ} {outcome : Store.DeliveryOutcome}
    {nowMs : Int} (final : ∀ retryAfterMs, outcome ≠ .transient retryAfterMs) :
    (Store.deliveryTransition delivery outcome nowMs).1.isPending = false := by
  cases outcome with
  | delivered => rfl
  | permanent => rfl
  | transient retryAfterMs => exact absurd rfl (final retryAfterMs)

theorem finishDelivery_tables (delivery : Delivery κ) (outcome : Store.DeliveryOutcome)
    (receipt : Option ProviderReceipt) (nowMs : Int)
    (room : ∀ retryAfterMs, outcome = .transient retryAfterMs → state.pendingOutboxCount <
      maxPendingOutbox) :
    TableSteps host state (state.finishDelivery host delivery outcome receipt nowMs) := by
  unfold finishDelivery
  split
  · exact .refl
  next i stored =>
  split
  · next valid =>
    simp only [claimValid, Bool.and_eq_true, decide_eq_true_eq] at valid
    have known : delivery.logicalId ∈ state.logical := by
      cases found : state.logical.lookup delivery.logicalId with
      | some logical => exact Table.mem_of_lookup found
      | none =>
        rw [found] at valid
        cases valid.2
    have finished : TableStep host state (state.putItem delivery.id (finishItem i
        (Store.deliveryTransition delivery outcome nowMs) receipt nowMs)) := by
      by_cases retried : ∃ retryAfterMs, outcome = .transient retryAfterMs
      · obtain ⟨retryAfterMs, rfl⟩ := retried
        exact .retry state stored ⟨rfl, rfl, rfl⟩ (room retryAfterMs rfl)
      refine .settle state stored ⟨rfl, rfl, rfl⟩ fun pending => ?_
      have final := @deliveryTransition_settles κ delivery outcome nowMs
        fun retryAfterMs same => retried ⟨retryAfterMs, same⟩
      exact absurd (final.symm.trans pending) Bool.false_ne_true
    exact .tail (.tail (.single finished) (.attempt _ known)) (.prune _ nowMs)
  · exact .refl

/-- The condition of the runs below: a delivery that ends with a transient outcome finds room
among the pending items. -/
def RetryFits (state : RuntimeState κ) (call : Call κ) : Prop :=
  ∀ delivery retryAfterMs receipt nowMs,
    call = .finishDelivery delivery (.transient retryAfterMs) receipt nowMs →
    state.pendingOutboxCount < maxPendingOutbox

theorem step_tables (call : Call κ) (fits : RetryFits state call) :
    TableSteps host state (step host state call) := by
  cases call with
  | process rules c attachment => exact process_tables rules attachment
  | testRule r identity eventKind nowMs => exact testRule_tables identity eventKind nowMs
  | setProfileSuppressedSources sources nowMs =>
    exact setProfileSuppressedSources_tables sources nowMs
  | changeRule ruleId active nowMs => exact cancelDisabledOutbox_tables ruleId active nowMs
  | claimDue channel nowMs => exact claimLoop_tables channel nowMs _ state
  | finishDelivery delivery outcome receipt nowMs =>
    apply finishDelivery_tables
    rintro retryAfterMs rfl
    exact fits delivery retryAfterMs receipt nowMs rfl
  | claimDueReceipt nowMs => exact claimDueReceipt_tables nowMs
  | finishReceipt check outcome nowMs => exact finishReceipt_tables check outcome nowMs
  | updateReceipt logicalId principalId update nowMs =>
    exact updateReceipt_tables logicalId principalId update nowMs
  | clearScope principalId scope nowMs => exact clearScope_tables principalId scope nowMs

/-- Every run whose transient deliveries find room keeps the tables sound. -/
theorem tables_stay_sound (host : Host κ) {calls : List (Call κ)}
    (fits : AllSteps (step host) RetryFits empty calls) : Sound (calls.foldl (step host) empty) :=
  AllSteps.foldl_invariant (fun _ call sound fits => TableSteps.sound (step_tables call fits) sound)
    sound_empty fits

/-! ### A retry that finds no room

A worker claims the only item, ten thousand candidates fill the outbox, and then the claimed
delivery ends with a transient outcome. -/

theorem not_mem_removed {i : Item κ} (stored : state.outbox[id]? = some i)
    (active : i.active = true) : i.logicalId ∉ state.removed := by
  intro mem
  have busy : i.logicalId ∈ state.activeLogicalIds :=
    List.mem_map.mpr ⟨(id, i), List.mem_filter.mpr
      ⟨Std.ExtTreeMap.mem_toList_iff_getElem?_eq_some.mpr stored, active⟩, rfl⟩
  obtain ⟨entry, dropped, same⟩ := List.mem_map.mp mem
  have listed := (List.perm_insertionSort _ _).mem_iff.mp (List.mem_of_mem_drop dropped)
  obtain ⟨other, idle, rfl⟩ := List.mem_map.mp listed
  rw [← same] at busy
  exact of_decide_eq_true (List.mem_filter.mp idle).2 busy

theorem pruned_outbox {i : Item κ} (stored : state.outbox[id]? = some i)
    (active : i.active = true) (nowMs : Int) :
    (state.pruned host nowMs).outbox[id]? = some i := by
  have kept : i.logicalId ∉ ((state.retainCooldowns nowMs).pruneWindows host).removed :=
    not_mem_removed stored active
  simp only [pruned, pruneTerminalNotifications]
  rw [Std.ExtTreeMap.getElem?_filter']
  exact Option.filter_eq_some_iff.mpr ⟨stored, decide_eq_true kept⟩

theorem pendingOutboxCount_pruned (nowMs : Int) :
    (state.pruned host nowMs).pendingOutboxCount = state.pendingOutboxCount := by
  simp only [pendingOutboxCount, pruned, pruneTerminalNotifications]
  rw [Std.ExtTreeMap.toList_filter, List.countP_filter]
  apply List.countP_congr
  rintro ⟨id, i⟩ listed
  have stored : ((state.retainCooldowns nowMs).pruneWindows host).outbox[id]? = some i :=
    Std.ExtTreeMap.mem_toList_iff_getElem?_eq_some.mp listed
  constructor
  · intro both
    exact (Bool.and_eq_true _ _ ▸ both).1
  · intro pending
    have kept := not_mem_removed stored (by simp [Item.active, pending])
    simp [pending, kept]

/-- A rule that matches every event and queues one delivery for it. -/
def queueRule : RuntimeRule :=
  { ownerRule "a" 1 1 with
    actions := [⟨true, .webhook, false, false⟩]
    failure := ⟨3, 5000, 60000⟩
    rateLimits := [] }

def queuedEvent (number : Nat) : RuntimeCandidate :=
  eventAt (String.ofList (List.replicate number 'x')) 0

theorem queuedEvent_id (number : Nat) :
    candidateLogicalId openHost queueRule (queuedEvent number) = 2 * number := by
  simp [candidateLogicalId, openHost, Store.candidateKey, queuedEvent, eventAt, queueRule,
    ownerRule]

def queuedLogical (number : Nat) : Logical :=
  { Store.newLogical queueRule.toRule (queuedEvent number).toCandidate with
    ownerId := queueRule.ownerId }

def queuedItem (number : Nat) : Item Nat :=
  buildItem queueRule (queuedEvent number) (2 * number) 0 ⟨true, .webhook, false, false⟩

/-- The tables with the notification of one more event, and with its item. -/
def withLogical (state : RuntimeState Nat) (number : Nat) : RuntimeState Nat :=
  ((state.putLogical (2 * number) (queuedLogical number)).putReceipt (2 * number, queueRule.ownerId)
    ⟨none, none, none⟩).logCreated ⟨queueRule.id, 0, false⟩

def withEvent (state : RuntimeState Nat) (number : Nat) : RuntimeState Nat :=
  ((withLogical state number).putItem state.nextOutboxId (queuedItem number)).takeOutboxId

/-- The tables after the first `count` events, when `pending` of their items are pending and
that of the first is being delivered. -/
structure Filled (count pending : Nat) (state : RuntimeState Nat) : Prop where
  sound : Sound state
  size : state.logical.size ≤ count
  known : ∀ id ∈ state.logical, id < 2 * count
  pending : state.pendingOutboxCount = pending
  suppressed : state.suppressedSources = []
  claimed : state.outbox[1]? = some (claimItem (queuedItem 0) 0)
  first : state.logical.lookup 0 = some (queuedLogical 0)

variable {state : RuntimeState Nat}

section

variable (filled : Filled count pending state)
include filled

theorem Filled.pruned : Filled count pending (state.pruned openHost 0) where
  sound := filled.sound.pruned openHost 0
  size := le_trans size_pruneTerminal filled.size
  known id mem := by
    obtain ⟨logical, found, -⟩ := Table.mem_retain.mp mem
    exact filled.known id (Table.mem_of_lookup found)
  pending := (pendingOutboxCount_pruned 0).trans filled.pending
  suppressed := filled.suppressed
  claimed := pruned_outbox filled.claimed rfl 0
  first := by
    have kept : 0 ∉ ((state.retainCooldowns 0).pruneWindows openHost).removed :=
      not_mem_removed filled.claimed rfl
    refine (Table.lookup_retain _ _ _).trans ?_
    exact Option.filter_eq_some_iff.mpr ⟨filled.first, decide_eq_true kept⟩

theorem Filled.processRule_eq (few : count < maxLogicalNotifications)
    (room : pending < maxPendingOutbox) :
    state.processRule openHost queueRule (queuedEvent count) false = withEvent state count := by
  have unknown : state.logical.lookup (2 * count) = none := by
    cases found : state.logical.lookup (2 * count) with
    | none => rfl
    | some logical => exact absurd (filled.known _ (Table.mem_of_lookup found)) (Nat.lt_irrefl _)
  have admitted : state.admitNewNotification openHost queueRule (queuedEvent count) =
      (.accepted false, state) := by
    have free : state.needsBypass openHost queueRule (queuedEvent count) = false := rfl
    have capacity : state.logicalCapacityAvailable = true :=
      decide_eq_true (Nat.lt_of_le_of_lt filled.size few)
    have started : state.startCooldowns queueRule (queuedEvent count) = some state :=
      if_pos (decide_eq_true filled.sound.cooldowns)
    simp only [admitNewNotification]
    rw [free, capacity, started]
    rfl
  have queued : (withLogical state count).queues queueRule (queuedEvent count) (2 * count) false
      false 0 ⟨true, .webhook, false, false⟩ = true := by
    have fresh : (withLogical state count).outboxKeyExists (2 * count) 0 .preliminary = false := by
      apply List.any_eq_false.mpr
      rintro ⟨id, i⟩ listed
      have stored : state.outbox[id]? = some i :=
        Std.ExtTreeMap.mem_toList_iff_getElem?_eq_some.mp listed
      have below := filled.known _ (filled.sound.linked.items id i stored)
      simp [Nat.ne_of_lt below]
    have fits : (withLogical state count).pendingOutboxCount < maxPendingOutbox :=
      filled.pending.symm ▸ room
    simp only [queues]
    rw [Bool.and_eq_true, Bool.and_eq_true]
    exact ⟨⟨rfl, decide_eq_true fits⟩, Bool.not_eq_true' _ ▸ fresh⟩
  simp only [processRule]
  rw [queuedEvent_id, unknown]
  simp only
  rw [admitted]
  exact if_pos queued

theorem Filled.withEvent (few : count < maxLogicalNotifications)
    (room : pending < maxPendingOutbox) :
    Filled (count + 1) (pending + 1) (withEvent state count) where
  sound := by
    rw [← filled.processRule_eq few room]
    exact TableSteps.sound (processRule_tables false) filled.sound
  size := le_trans (Table.size_insert_le _ _ _) (Nat.succ_le_succ filled.size)
  known id mem := by
    rcases (AList.mem_insert _).mp mem with rfl | mem
    · omega
    · have := filled.known id mem
      omega
  pending := by
    have added := pendingOutboxCount_addItem filled.sound.linked (queuedItem count)
    exact added.trans (congrArg (· + 1) filled.pending)
  suppressed := filled.suppressed
  claimed := by
    have older := Nat.ne_of_lt (filled.sound.linked.fresh _ _ filled.claimed)
    exact (getElem?_insert_of_ne older _ _).trans filled.claimed
  first := by
    have := filled.known 0 (Table.mem_of_lookup filled.first)
    exact (AList.lookup_insert_ne (by omega)).trans filled.first

theorem Filled.process (few : count < maxLogicalNotifications) (room : pending < maxPendingOutbox) :
    Filled (count + 1) (pending + 1) (state.process openHost [queueRule] (queuedEvent count)
      (fun _ => false)) := by
  have matched : ([queueRule].mapM fun r => (r.matches openHost (queuedEvent count)).map
      fun result => (result, r)) = some [(.«match», queueRule)] := rfl
  have kept : state.profiled (queuedEvent count) .«match» = .«match» := by
    unfold profiled
    rw [filled.suppressed]
    rfl
  have time : (queuedEvent count).occurredAtMs = 0 := rfl
  have normalized : (state.pruned openHost 0).normalizeOperationalInterval (queuedEvent count) =
      .ok (queuedEvent count, state.pruned openHost 0) := rfl
  have added := filled.pruned.withEvent few room
  unfold RuntimeState.process
  rw [matched]
  simp only [List.map_cons, List.map_nil, kept, processMatched]
  rw [time, filled.sound.pruneAt_eq]
  simp only [if_true]
  rw [normalized]
  simp only [processInState, List.foldl_cons, List.foldl_nil, if_true]
  rw [filled.pruned.processRule_eq few room, added.sound.pruneAt_eq]
  exact added.pruned

end

/-- The events after the first one. -/
def laterCalls (count : Nat) : List (Call Nat) :=
  (List.range count).map fun number =>
    .process [queueRule] (queuedEvent (number + 1)) fun _ => false

def claimedFirst : RuntimeState Nat :=
  step openHost (step openHost empty (.process [queueRule] (queuedEvent 0) fun _ => false))
    (.claimDue .webhook 0)

theorem filled_claimedFirst : Filled 1 0 claimedFirst where
  sound := by
    refine TableSteps.sound (step_tables _ nofun) (TableSteps.sound (step_tables _ nofun)
      sound_empty)
  size := by decide +kernel
  known := by
    have all : ∀ id ∈ claimedFirst.logical.keys, id < 2 * 1 := by decide +kernel
    exact fun id mem => all id (AList.mem_keys.mp mem)
  pending := by decide +kernel
  suppressed := by decide +kernel
  claimed := by decide +kernel
  first := by decide +kernel

theorem filled_laterCalls (room : count ≤ maxPendingOutbox) :
    Filled (count + 1) count ((laterCalls count).foldl (step openHost) claimedFirst) := by
  induction count with
  | zero => exact filled_claimedFirst
  | succ count ih =>
    have before := ih (Nat.le_of_succ_le room)
    have few : count + 1 < maxLogicalNotifications :=
      Nat.lt_of_le_of_lt room (Nat.lt_add_of_pos_right (by decide))
    unfold laterCalls at before ⊢
    rw [List.range_succ, List.map_append, List.foldl_append]
    exact before.process few room

def firstDelivery : Delivery Nat :=
  Store.deliveryOf 1 (queuedItem 0).toOutboxItem (queuedLogical 0).toLogicalNotification

/-- The retry adds the item to the pending ones without asking for room. -/
theorem Filled.retried (filled : Filled count pending state) :
    (state.finishDelivery openHost firstDelivery (.transient none) none 0).pendingOutboxCount =
      pending + 1 := by
  have valid : state.claimValid firstDelivery (claimItem (queuedItem 0) 0) = true := by
    have found : state.logical.lookup firstDelivery.logicalId = some (queuedLogical 0) :=
      filled.first
    unfold claimValid
    rw [found]
    decide +kernel
  have stored : state.outbox[firstDelivery.id]? = some (claimItem (queuedItem 0) 0) :=
    filled.claimed
  have transition : Store.deliveryTransition firstDelivery (.transient none) 0 =
      (.retrying, some 1000) := by decide +kernel
  have moved := pendingOutboxCount_putItem filled.claimed
    (finishItem (claimItem (queuedItem 0) 0) (.retrying, some 1000) none 0)
  have pruned : (state.applyDeliveryTransition firstDelivery (claimItem (queuedItem 0) 0)
      (.retrying, some 1000) none 0).pruneAt openHost 0 = (true, _) :=
    RuntimeState.pruneAt_eq openHost 0 filled.sound.logical filled.sound.cooldowns
      filled.sound.intervals
  unfold finishDelivery
  rw [stored]
  simp only
  rw [if_pos valid, transition, pruned]
  refine (pendingOutboxCount_pruned 0).trans ?_
  exact moved.trans (congrArg (· + 1) filled.pending)

/-- A run that leaves 10001 items pending or retrying. -/
theorem retry_exceeds_pending_limit :
    ∃ calls : List (Call Nat),
      maxPendingOutbox < (calls.foldl (step openHost) empty).pendingOutboxCount := by
  have retried := (filled_laterCalls (Nat.le_refl maxPendingOutbox)).retried
  refine ⟨.process [queueRule] (queuedEvent 0) (fun _ => false) :: .claimDue .webhook 0 ::
    (laterCalls maxPendingOutbox ++ [.finishDelivery firstDelivery (.transient none) none 0]), ?_⟩
  rw [List.foldl_cons, List.foldl_cons, List.foldl_append, List.foldl_cons, List.foldl_nil]
  exact Nat.lt_of_lt_of_eq (Nat.lt_succ_self _) retried.symm

/-- The same delivery ends while there is room. -/
def retriedCalls : List (Call Nat) :=
  [.process [queueRule] (queuedEvent 0) fun _ => false, .claimDue .webhook 0,
    .finishDelivery firstDelivery (.transient none) none 0]

theorem tables_stay_sound_of_retry :
    AllSteps (step openHost) RetryFits empty retriedCalls ∧
      Sound (retriedCalls.foldl (step openHost) empty) ∧
      (retriedCalls.foldl (step openHost) empty).pendingOutboxCount = 1 := by
  have fits : AllSteps (step openHost) RetryFits empty retriedCalls := by
    refine ⟨nofun, nofun, ?_, trivial⟩
    intro delivery retryAfterMs receipt nowMs _
    exact filled_claimedFirst.pending.trans_lt (by decide)
  exact ⟨fits, tables_stay_sound openHost fits, filled_claimedFirst.retried⟩

end KeepPeek.Notifications.RuntimeState
