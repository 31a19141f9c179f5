import KeepPeek.Notifications.Metrics

/-! Workers claim items of the outbox, hold them while they send, and report how it went.
Whatever the other calls do in between, an item has one holder at a time, is handed out at
most as often as it allows and only within its times, and never again once it is settled. -/
namespace KeepPeek.Notifications.Store

open Lib

variable {κ : Type} {store after : Store κ} {item : OutboxItem κ} {id : Nat}

/-- The workers' side of a run: who holds what, and how often each item was handed out. -/
structure Desk (κ : Type) where
  store : Store κ
  held : List (Delivery κ)
  attempts : Nat → Nat

namespace Desk

variable {desk next : Desk κ}

def «open» (rules : List Rule) : Desk κ := ⟨Store.open rules, [], fun _ => 0⟩

def hand (desk : Desk κ) (store : Store κ) (delivery : Delivery κ) : Desk κ where
  store := store
  held := delivery :: desk.held
  attempts := Function.update desk.attempts delivery.id (desk.attempts delivery.id + 1)

/-- What is known of an item: its count is that of its deliveries, and a pending one has an
attempt left. -/
structure Tracks (desk : Desk κ) (id : Nat) (item : OutboxItem κ) : Prop where
  below : id < desk.store.nextOutboxId
  counted : desk.attempts id = item.attemptCount
  pending : item.status.isPending = true → item.attemptCount < max 1 item.maxAttempts

structure Sound (desk : Desk κ) : Prop where
  items : ∀ (id : Nat) item, desk.store.outbox[id]? = some item → desk.Tracks id item
  fresh : ∀ id, desk.store.nextOutboxId ≤ id → desk.attempts id = 0
  held : ∀ delivery ∈ desk.held, ∃ item, desk.store.outbox[delivery.id]? = some item ∧
    item.status = .delivering ∧ item.attemptCount = delivery.attempt ∧
    item.maxAttempts = delivery.maxAttempts
  distinct : (desk.held.map Delivery.id).Nodup

theorem sound_open (rules : List Rule) : (Desk.open rules : Desk κ).Sound where
  items _ _ h := by simp [Desk.open, Store.open] at h
  fresh _ _ := rfl
  held := nofun
  distinct := List.nodup_nil

theorem Sound.change {queued settled : Nat} (sound : desk.Sound)
    (changes : Changes queued settled desk.store after) : Sound { desk with store := after } where
  items id item stored := by
    have next := changes.next
    rcases changes.items id item stored with ⟨old, earlier, later⟩ | ⟨least, below, unsent⟩
    · obtain ⟨below, counted, pending⟩ := sound.items id old earlier
      rw [← later.attempts, ← later.limit] at pending
      exact ⟨by dsimp only; omega, counted.trans later.attempts.symm,
        fun h => pending (later.pending h)⟩
    · exact ⟨below, (sound.fresh id least).trans unsent.symm, by omega⟩
  fresh id least := by
    have next := changes.next
    exact sound.fresh id (by dsimp only at least; omega)
  held delivery mem := by
    obtain ⟨old, earlier, sending, attempt, limit⟩ := sound.held delivery mem
    obtain ⟨item, stored, later⟩ := changes.delivering delivery.id old earlier sending
    exact ⟨item, stored, later.delivering.mpr sending, later.attempts.trans attempt,
      later.limit.trans limit⟩
  distinct := sound.distinct

theorem Sound.hand (sound : desk.Sound) (stored : desk.store.outbox[id]? = some item)
    (pending : item.status.isPending = true) (logical : LogicalNotification) (nowMs : Int) :
    (desk.hand (desk.store.putItem id (claimItem item nowMs))
      (deliveryOf id item logical)).Sound := by
  obtain ⟨below, counted, left⟩ := sound.items id item stored
  have idle : ∀ delivery ∈ desk.held, delivery.id ≠ id := by
    rintro delivery mem rfl
    obtain ⟨other, found, sending, -⟩ := sound.held delivery mem
    cases stored.symm.trans found
    simp [sending, OutboxStatus.isPending] at pending
  constructor
  · intro other found hfound
    rcases getElem?_insert_cases hfound with ⟨rfl, rfl⟩ | ⟨ne, kept⟩
    · exact ⟨below, by simp [Desk.hand, deliveryOf, claimItem, counted], fun live => by cases live⟩
    · obtain ⟨below, counted, left⟩ := sound.items other found kept
      exact ⟨below, by simp [Desk.hand, deliveryOf, ne, counted], left⟩
  · intro other least
    have ne : other ≠ id := by
      rintro rfl
      exact absurd below (Nat.not_lt.mpr least)
    simpa [Desk.hand, deliveryOf, ne] using sound.fresh other least
  · rintro delivery (_ | ⟨_, mem⟩)
    · exact ⟨claimItem item nowMs, Std.ExtTreeMap.getElem?_insert_self, rfl, rfl, rfl⟩
    · obtain ⟨other, found, sending, attempt⟩ := sound.held delivery mem
      exact ⟨other, (getElem?_insert_of_ne (idle delivery mem) _ _).trans found, sending, attempt⟩
  · refine List.nodup_cons.mpr ⟨fun mem => ?_, sound.distinct⟩
    obtain ⟨delivery, held, same⟩ := List.mem_map.mp mem
    exact idle delivery held same

theorem deliveryTransition_pending {delivery : Delivery κ} {outcome : DeliveryOutcome} {nowMs : Int}
    (h : (deliveryTransition delivery outcome nowMs).1.isPending = true) :
    delivery.attempt < delivery.maxAttempts := by
  unfold deliveryTransition at h
  split at h
  · cases h
  · cases h
  split at h
  · cases h
  next left => exact Nat.lt_of_not_le left

/-- The item left the queue for good after `count` attempts; it may have been removed since. -/
structure Settled (desk : Desk κ) (id count : Nat) : Prop where
  below : id < desk.store.nextOutboxId
  dead : ∀ item, desk.store.outbox[id]? = some item → item.live = false
  counted : desk.attempts id = count

variable [DecidableEq κ]

/-- A worker finishes only what it holds, and then no longer holds it. -/
def step (digest : LogicalKey → κ) (desk : Desk κ) : Op κ → Desk κ
  | .claimDue channel nowMs =>
    match desk.store.claimDue channel nowMs with
    | (none, store) => { desk with store := store }
    | (some delivery, store) => desk.hand store delivery
  | .finishDelivery delivery outcome nowMs removed =>
    if delivery ∈ desk.held then
      { desk with
        store := desk.store.finishDelivery delivery outcome nowMs removed
        held := desk.held.erase delivery }
    else desk
  | op => { desk with store := desk.store.step digest op }

/-- One change at the desk. -/
inductive Moves : Desk κ → Desk κ → Prop
  | change {desk : Desk κ} {after : Store κ} {queued settled : Nat}
      (changes : Changes queued settled desk.store after) : Moves desk { desk with store := after }
  | hand {desk : Desk κ} {id : Nat} {item : OutboxItem κ}
      (stored : desk.store.outbox[id]? = some item)
      (pending : item.status.isPending = true) (logical : LogicalNotification) (nowMs : Int) :
    Moves desk (desk.hand (desk.store.putItem id (claimItem item nowMs))
      (deliveryOf id item logical))
  | finish {desk : Desk κ} {delivery : Delivery κ} {item : OutboxItem κ}
      (held : delivery ∈ desk.held)
      (stored : desk.store.outbox[delivery.id]? = some item) (outcome : DeliveryOutcome)
      (nowMs : Int) :
    Moves desk { desk with
      store := desk.store.putItem delivery.id
        (finishItem item (deliveryTransition delivery outcome nowMs) nowMs)
      held := desk.held.erase delivery }
  | drop {desk : Desk κ} (delivery : Delivery κ) :
    Moves desk { desk with held := desk.held.erase delivery }

theorem step_moves {digest : LogicalKey → κ} (numbered : desk.store.Numbered) (op : Op κ) :
    Relation.ReflTransGen Moves desk (step digest desk op) := by
  cases op with
  | claimDue channel nowMs =>
    obtain ⟨expired, changes, same | ⟨id, item, logical, -, stored, pending, -, -, same⟩⟩ :=
      claimLoop_cases channel nowMs (desk.store.pendingOutboxCount + 1) desk.store
    · simp only [step, claimDue, same]
      exact .single (.change changes)
    · simp only [step, claimDue, same]
      exact .tail (.single (.change changes)) (.hand stored pending logical nowMs)
  | finishDelivery delivery outcome nowMs removed =>
    simp only [step]
    split
    next held =>
      unfold finishDelivery
      split
      · exact .single (.drop delivery)
      next item stored =>
        split
        · obtain ⟨_, pruned⟩ := prune_queues (desk.store.putItem delivery.id
            (finishItem item (deliveryTransition delivery outcome nowMs) nowMs)) removed
          exact .tail (.single (.finish held stored outcome nowMs)) (.change pruned)
        · exact .single (.drop delivery)
    next => exact .refl
  | _ => exact .single (.change (step_changes numbered digest rfl))

theorem Sound.drop (sound : desk.Sound) (delivery : Delivery κ) :
    Sound { desk with held := desk.held.erase delivery } where
  items id item stored := by
    obtain ⟨below, counted, left⟩ := sound.items id item stored
    exact ⟨below, counted, left⟩
  fresh := sound.fresh
  held other mem := sound.held other (List.mem_of_mem_erase mem)
  distinct := sound.distinct.sublist (List.erase_sublist.map Delivery.id)

theorem Sound.finish (sound : desk.Sound) {delivery : Delivery κ} (held : delivery ∈ desk.held)
    (stored : desk.store.outbox[delivery.id]? = some item) (outcome : DeliveryOutcome)
    (nowMs : Int) :
    Sound { desk with
      store := desk.store.putItem delivery.id
        (finishItem item (deliveryTransition delivery outcome nowMs) nowMs)
      held := desk.held.erase delivery } := by
  obtain ⟨other, found, -, attempt, limit⟩ := sound.held delivery held
  cases stored.symm.trans found
  have once := ((List.perm_cons_erase held).map Delivery.id).nodup_iff.mp sound.distinct
  constructor
  · intro id new hnew
    rcases getElem?_insert_cases hnew with ⟨rfl, rfl⟩ | ⟨-, kept⟩
    · obtain ⟨below, counted, -⟩ := sound.items delivery.id item stored
      refine ⟨below, counted, fun waiting => ?_⟩
      have left := deliveryTransition_pending waiting
      simp only [finishItem]
      omega
    · obtain ⟨below, counted, left⟩ := sound.items id new kept
      exact ⟨below, counted, left⟩
  · exact sound.fresh
  · intro kept mem
    obtain ⟨old, earlier, sending⟩ := (sound.drop delivery).held kept mem
    have ne : kept.id ≠ delivery.id := fun same =>
      (List.nodup_cons.mp once).1 (List.mem_map.mpr ⟨kept, mem, same⟩)
    exact ⟨old, (getElem?_insert_of_ne ne _ _).trans earlier, sending⟩
  · exact (sound.drop delivery).distinct

theorem Sound.moves (sound : desk.Sound) (moves : Moves desk next) : next.Sound := by
  cases moves with
  | change changes => exact sound.change changes
  | hand stored pending logical nowMs => exact sound.hand stored pending logical nowMs
  | finish held stored outcome nowMs => exact sound.finish held stored outcome nowMs
  | drop delivery => exact sound.drop delivery

theorem Settled.moves {count : Nat} (settled : desk.Settled id count) (sound : desk.Sound)
    (moves : Moves desk next) : next.Settled id count := by
  obtain ⟨below, dead, counted⟩ := settled
  -- What is handed out or finished is another item: it is live.
  have other : ∀ {key : Nat} {found}, desk.store.outbox[key]? = some found → found.live = true →
      id ≠ key := by
    rintro key found stored live rfl
    simp [dead found stored] at live
  cases moves with
  | change changes =>
    have next := changes.next
    refine ⟨by dsimp only; omega, fun item stored => ?_, counted⟩
    rcases changes.items id item stored with ⟨old, earlier, later⟩ | ⟨least, -, -⟩
    · have gone := dead old earlier
      rw [← Bool.not_eq_true, live_iff] at gone ⊢
      exact fun live => gone (live.imp later.pending later.delivering.mp)
    · omega
  | hand stored pending logical nowMs =>
    have ne := other stored ((live_iff _).mpr (.inl pending))
    refine ⟨below, fun item found => ?_, by simpa [Desk.hand, deliveryOf, ne] using counted⟩
    exact dead item ((getElem?_insert_of_ne ne _ _).symm.trans found)
  | @finish delivery _ held _ outcome nowMs =>
    obtain ⟨old, stored, sending, -⟩ := sound.held delivery held
    have ne := other stored ((live_iff _).mpr (.inr sending))
    exact ⟨below, fun item found =>
      dead item ((getElem?_insert_of_ne ne _ _).symm.trans found), counted⟩
  | drop delivery => exact ⟨below, dead, counted⟩

theorem Sound.call (sound : desk.Sound) (digest : LogicalKey → κ) (op : Op κ) :
    (step digest desk op).Sound ∧
      ∀ id count, desk.Settled id count → (step digest desk op).Settled id count := by
  have numbered : desk.store.Numbered := fun id item stored => (sound.items id item stored).below
  have moves : Relation.ReflTransGen Moves desk (step digest desk op) := step_moves numbered op
  generalize step digest desk op = next at moves ⊢
  induction moves with
  | refl => exact ⟨sound, fun _ _ settled => settled⟩
  | tail _ moves ih =>
    exact ⟨ih.1.moves moves, fun id count settled => (ih.2 id count settled).moves ih.1 moves⟩

/-- In every run: no item has two holders; an item is handed out when it is due, before it
expires and while it has an attempt left; and none is handed out after it is settled. -/
theorem attempts_follow_the_outbox (digest : LogicalKey → κ) (rules : List Rule)
    (ops : List (Op κ)) :
    let desk := ops.foldl (step digest) (Desk.open rules)
    (desk.held.map Delivery.id).Nodup ∧
      (∀ channel nowMs delivery, (desk.store.claimDue channel nowMs).1 = some delivery →
        desk.attempts delivery.id < max 1 delivery.maxAttempts ∧
          ∃ item, desk.store.outbox[delivery.id]? = some item ∧ item.status.isPending = true ∧
            item.nextAttemptAtMs ≤ nowMs ∧ nowMs < item.expiresAtMs) ∧
      ∀ (id : Nat) item, desk.store.outbox[id]? = some item → item.live = false →
        ∀ later : List (Op κ), (later.foldl (step digest) desk).attempts id = desk.attempts id := by
  intro desk
  have sound : desk.Sound :=
    foldl_invariant (fun _ op sound => (sound.call digest op).1) (sound_open rules) ops
  refine ⟨sound.distinct, ?_, ?_⟩
  · intro channel nowMs delivery claimed
    obtain ⟨expired, -, same | ⟨id, item, logical, stored, -, pending, due, early, same⟩⟩ :=
      claimLoop_cases channel nowMs (desk.store.pendingOutboxCount + 1) desk.store
    · simp [claimDue, same] at claimed
    · simp only [claimDue, same, Option.some.injEq] at claimed
      subst claimed
      obtain ⟨-, counted, left⟩ := sound.items id item stored
      exact ⟨counted ▸ left pending, item, stored, pending, due, early⟩
  · intro id item stored dead later
    have settled : desk.Settled id (desk.attempts id) := by
      refine ⟨(sound.items id item stored).below, fun found hfound => ?_, rfl⟩
      cases stored.symm.trans hfound
      exact dead
    have kept := @foldl_invariant _ _ (step digest)
      (fun next => next.Sound ∧ next.Settled id (desk.attempts id))
      (fun next op h => (h.1.call digest op).imp_right fun keeps => keeps id _ h.2)
      desk ⟨sound, settled⟩ later
    exact kept.2.counted

end Desk

end KeepPeek.Notifications.Store
