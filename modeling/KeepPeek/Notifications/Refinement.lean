import KeepPeek.Notifications.Bounds
import KeepPeek.Notifications.Delivery

/-! The runtime and the store do the same to notifications and outbox: settings, claims,
deliveries and pruning of the one are those of the other, for some choice of what pruning
forgets. -/
namespace KeepPeek.Notifications.RuntimeState

open Lib
open Std (ExtTreeMap)

variable {κ : Type} [LinearOrder κ] {s : RuntimeState κ}
variable (rules : ExtTreeMap String RuleRecord) (calls : Nat → Option OpenCall)

/-- What the store keeps of a state, beside the rules and the calls that are open. -/
def store (state : RuntimeState κ) : Store κ where
  rules := rules
  logical id := (state.logical.lookup id).map Logical.toLogicalNotification
  outbox := state.outbox.map fun _ item => item.toOutboxItem
  nextOutboxId := state.nextOutboxId
  suppressedSources := state.suppressedSources
  calls := calls

@[simp] theorem logical_store (id : κ) : (s.store rules calls).logical id =
    (s.logical.lookup id).map Logical.toLogicalNotification := rfl

/-! ### Single changes -/

theorem store_attempts (attempts : List (DeliveryAttempt κ)) :
    ({ s with attempts } : RuntimeState κ).store rules calls = s.store rules calls := rfl

theorem store_putItem (id : Nat) (item : Item κ) :
    (s.putItem id item).store rules calls =
      (s.store rules calls).putItem id item.toOutboxItem := by
  simp only [store, putItem, Store.putItem, Store.mk.injEq, true_and, and_true]
  apply ExtTreeMap.ext_getElem?
  intro other
  simp only [ExtTreeMap.getElem?_map, ExtTreeMap.getElem?_insert]
  split <;> rfl

theorem store_mapOutbox {change : Item κ → Item κ} {image : OutboxItem κ → OutboxItem κ}
    (commutes : ∀ item, (change item).toOutboxItem = image item.toOutboxItem) :
    (s.mapOutbox change).store rules calls = (s.store rules calls).mapOutbox image := by
  simp only [store, mapOutbox, Store.mapOutbox, ExtTreeMap.map_map, commutes]

theorem pendingOutboxCount_store :
    (s.store rules calls).pendingOutboxCount = s.pendingOutboxCount := by
  simp only [store, Store.pendingOutboxCount, pendingOutboxCount, ExtTreeMap.toList_map,
    List.countP_map]
  rfl

/-! ### Settings -/

theorem store_setProfileSuppressedSources (sources : List String) (nowMs : Int) :
    (s.setProfileSuppressedSources sources nowMs).store rules calls =
      (s.store rules calls).setProfileSuppressedSources sources nowMs := by
  have commutes (item : Item κ) : (s.suppressItem sources nowMs item).toOutboxItem =
      (s.store rules calls).suppressItem sources nowMs item.toOutboxItem := by
    simp only [suppressItem, Store.suppressItem, store, Option.any_map]
    split <;> rfl
  unfold setProfileSuppressedSources Store.setProfileSuppressedSources
  split
  · have mapped := store_mapOutbox (s := s) rules calls commutes
    exact congrArg (Store.setSuppressed · sources) mapped
  · rfl

theorem store_cancelDisabledOutbox (ruleId : String) (active : Option Rule) (nowMs : Int) :
    (s.cancelDisabledOutbox ruleId active nowMs).store rules calls =
      (s.store rules calls).cancelDisabledOutbox ruleId active nowMs := by
  apply store_mapOutbox
  intro item
  simp only [cancelItem, Store.cancelItem, store, Option.any_map]
  split <;> rfl

/-! ### Claims -/

theorem due_store (channel : Channel) (nowMs : Int) :
    (s.store rules calls).due channel nowMs =
      (s.due channel nowMs).map fun entry => (entry.1, entry.2.toOutboxItem) := by
  simp only [store, Store.due, due, ExtTreeMap.toList_map, List.filter_map, Function.comp_def,
    Option.isSome_map, Bool.and_assoc]

theorem nextDueOutboxId_store (channel : Channel) (nowMs : Int) :
    (s.store rules calls).nextDueOutboxId channel nowMs =
      (s.nextDueOutboxId channel nowMs).map fun entry => (entry.1, entry.2.toOutboxItem) := by
  unfold Store.nextDueOutboxId nextDueOutboxId
  rw [due_store, List.foldl_map]
  apply @List.foldl_hom _ _ _ (Option.map _) _ _ _ none
  intro best entry
  cases best with
  | none => rfl
  | some chosen =>
    simp only [Option.map_some]
    split <;> rfl

theorem claimLoop_store (channel : Channel) (nowMs : Int) (fuel : Nat) (s : RuntimeState κ) :
    Store.claimLoop channel nowMs fuel (s.store rules calls) =
      ((claimLoop channel nowMs fuel s).1,
        (claimLoop channel nowMs fuel s).2.store rules calls) := by
  induction fuel generalizing s with
  | zero => rfl
  | succ fuel ih =>
    simp only [Store.claimLoop, claimLoop, nextDueOutboxId_store]
    cases s.nextDueOutboxId channel nowMs with
    | none => rfl
    | some entry =>
      simp only [Option.map_some, logical_store]
      cases s.logical.lookup entry.2.logicalId with
      | none => rfl
      | some logical =>
        simp only [Option.map_some]
        split
        · rw [← ih, store_putItem]
          rfl
        · rw [store_putItem]
          rfl

theorem claimDue_store (channel : Channel) (nowMs : Int) :
    (s.store rules calls).claimDue channel nowMs =
      ((s.claimDue channel nowMs).1, (s.claimDue channel nowMs).2.store rules calls) := by
  unfold Store.claimDue claimDue
  rw [pendingOutboxCount_store, claimLoop_store]

/-- A worker gets a delivery, or nothing of its channel is due any more. -/
theorem due_claimDue_eq_nil {channel : Channel} {nowMs : Int}
    (unclaimed : (s.claimDue channel nowMs).1 = none) :
    (s.claimDue channel nowMs).2.due channel nowMs = [] := by
  have claimed := claimDue_store (s := s) ∅ (fun _ => none) channel nowMs
  have none_due : ((s.store ∅ fun _ => none).claimDue channel nowMs).2.due channel nowMs = [] :=
    Store.claimLoop_eq_none (Nat.lt_succ_self _) ((congrArg Prod.fst claimed).trans unclaimed)
  rw [claimed, due_store] at none_due
  exact List.map_eq_nil_iff.mp none_due

/-! ### Pruning -/

theorem prune_nothing (t : Store κ) : t.prune (fun _ => false) = t := by
  simp only [Store.prune, Bool.false_and, Bool.not_false, Bool.false_eq_true, if_false]
  congr 1
  apply ExtTreeMap.ext_getElem?
  intro id
  rw [ExtTreeMap.getElem?_filter']
  cases t.outbox[id]? <;> rfl

theorem store_pruneTerminal : s.pruneTerminalNotifications.store rules calls =
    (s.store rules calls).prune fun id => decide (id ∈ s.removed) := by
  have settled (id : κ) (gone : id ∈ s.removed) :
      (s.store rules calls).logicalActive id = false := by
    simp only [store, Store.logicalActive, ExtTreeMap.toList_map, List.any_map, List.any_eq_false]
    rintro ⟨number, item⟩ listed busy
    have stored := ExtTreeMap.mem_toList_iff_getElem?_eq_some.mp listed
    simp only [Function.comp_apply, Bool.and_eq_true, decide_eq_true_eq] at busy
    refine not_mem_removed stored ?_ (busy.1 ▸ gone)
    simp only [Item.active, busy.2, Bool.true_or]
  have forgotten (id : κ) : (decide (id ∈ s.removed) && !(s.store rules calls).logicalActive id) =
      decide (id ∈ s.removed) := by
    by_cases gone : id ∈ s.removed
    · simp [gone, settled id gone]
    · simp [gone]
  simp only [Store.prune, forgotten]
  simp only [store, pruneTerminalNotifications, Store.mk.injEq, true_and, and_true]
  constructor
  · funext id
    rw [Table.lookup_retain]
    cases s.logical.lookup id with
    | none => simp
    | some logical => by_cases gone : id ∈ s.removed <;> simp [gone]
  · apply ExtTreeMap.ext_getElem?
    intro id
    simp only [ExtTreeMap.getElem?_map, ExtTreeMap.getElem?_filter', Option.filter_map,
      Function.comp_def, decide_not]

theorem store_pruneAt (host : Host κ) (nowMs : Int) :
    ∃ removed, (s.pruneAt host nowMs).2.store rules calls =
      (s.store rules calls).prune removed := by
  have pruned : ∃ removed, (s.prune host nowMs).2.store rules calls =
      (s.store rules calls).prune removed := by
    have same : (s.store rules calls).prune (fun _ => false) = s.store rules calls :=
      prune_nothing _
    simp only [prune]
    split
    · exact ⟨_, same.symm⟩
    split
    · exact ⟨_, same.symm⟩
    split <;> exact ⟨_, store_pruneTerminal rules calls⟩
  unfold pruneAt
  split
  next after result => rwa [result] at pruned
  next message kept result => rwa [result] at pruned

/-! ### Deliveries -/

theorem store_applyDeliveryTransition (delivery : Delivery κ) (item : Item κ)
    (transition : OutboxStatus × Option Int) (receipt : Option ProviderReceipt) (nowMs : Int) :
    (s.applyDeliveryTransition delivery item transition receipt nowMs).store rules calls =
      (s.store rules calls).putItem delivery.id
        (Store.finishItem item.toOutboxItem transition nowMs) := by
  unfold applyDeliveryTransition pushAttempt
  rw [store_attempts, store_putItem]
  rfl

theorem store_finishDelivery (host : Host κ) (delivery : Delivery κ)
    (outcome : Store.DeliveryOutcome) (receipt : Option ProviderReceipt) (nowMs : Int) :
    ∃ removed, (s.finishDelivery host delivery outcome receipt nowMs).store rules calls =
      (s.store rules calls).finishDelivery delivery outcome nowMs removed := by
  have found : (s.store rules calls).outbox[delivery.id]? =
      s.outbox[delivery.id]?.map Item.toOutboxItem := ExtTreeMap.getElem?_map
  unfold finishDelivery Store.finishDelivery
  rw [found]
  cases s.outbox[delivery.id]? with
  | none => exact ⟨fun _ => false, rfl⟩
  | some item =>
    have valid : (s.store rules calls).claimValid delivery item.toOutboxItem =
        s.claimValid delivery item := by
      simp only [Store.claimValid, claimValid, logical_store, Option.any_map]
    simp only [Option.map_some, valid]
    split
    · obtain ⟨removed, pruned⟩ := @store_pruneAt κ _ (s.applyDeliveryTransition delivery item
        (Store.deliveryTransition delivery outcome nowMs) receipt nowMs) rules calls host nowMs
      rw [store_applyDeliveryTransition] at pruned
      exact ⟨removed, pruned⟩
    · exact ⟨fun _ => false, rfl⟩

/-- The operation of the store that a call is, if pruning forgets `removed`. -/
def Call.op (removed : κ → Bool) : Call κ → Option (Store.Op κ)
  | .setProfileSuppressedSources sources nowMs => some (.setProfileSuppressedSources sources nowMs)
  | .claimDue channel nowMs => some (.claimDue channel nowMs)
  | .finishDelivery delivery outcome _ nowMs => some
      (.finishDelivery delivery outcome nowMs removed)
  | _ => none

theorem step_store (host : Host κ) (call : Call κ) :
    ∃ removed, ∀ op ∈ call.op removed,
      (s.step host call).store rules calls = (s.store rules calls).step host.digest op := by
  cases call with
  | setProfileSuppressedSources sources nowMs =>
    refine ⟨fun _ => false, fun op is => ?_⟩
    cases is
    exact store_setProfileSuppressedSources rules calls sources nowMs
  | claimDue channel nowMs =>
    refine ⟨fun _ => false, fun op is => ?_⟩
    cases is
    exact (congrArg Prod.snd (claimDue_store rules calls channel nowMs)).symm
  | finishDelivery delivery outcome receipt nowMs =>
    obtain ⟨removed, same⟩ := store_finishDelivery rules calls host delivery outcome receipt nowMs
    refine ⟨removed, fun op is => ?_⟩
    cases is
    exact same
  | _ => exact ⟨fun _ => false, fun op is => absurd is (Option.not_mem_none op)⟩

end KeepPeek.Notifications.RuntimeState
