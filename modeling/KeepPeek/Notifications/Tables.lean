import KeepPeek.Notifications.RateLimits

/-! The tables of the notification runtime: how they refer to each other, their limits, and
the changes that keep both. -/
namespace KeepPeek.Notifications.RuntimeState

open Lib

variable {κ : Type}

/-- Every entry refers to a notification, and the outbox has one item for each action and
stage of one. -/
structure Linked (state : RuntimeState κ) : Prop where
  items : ∀ (id : Nat) (item : Item κ), state.outbox[id]? = some item →
    item.logicalId ∈ state.logical
  fresh : ∀ (id : Nat) (item : Item κ), state.outbox[id]? = some item → id < state.nextOutboxId
  unique : ∀ (first second : Nat) (left right : Item κ), state.outbox[first]? = some left →
    state.outbox[second]? = some right → left.logicalId = right.logicalId →
    left.actionIndex = right.actionIndex → left.stage = right.stage → first = second
  receipts : ∀ key ∈ state.receipts, key.1 ∈ state.logical
  attempts : ∀ attempt ∈ state.attempts, attempt.logicalId ∈ state.logical

/-- What the references of an item depend on. -/
def Item.SameKey (left right : Item κ) : Prop :=
  left.logicalId = right.logicalId ∧ left.actionIndex = right.actionIndex ∧ left.stage = right.stage

variable {s : RuntimeState κ}

section

variable (linked : Linked s)
include linked

theorem Linked.ofAttempts {attempts : List (DeliveryAttempt κ)}
    (known : ∀ attempt ∈ attempts, attempt.logicalId ∈ s.logical) :
    Linked { s with attempts := attempts } :=
  ⟨linked.items, linked.fresh, linked.unique, linked.receipts, known⟩

theorem Linked.attempts_push {attempt : DeliveryAttempt κ} (known : attempt.logicalId ∈ s.logical)
    (dropped : Nat) :
    ∀ other ∈ (s.attempts ++ [attempt]).drop dropped, other.logicalId ∈ s.logical := by
  intro other mem
  rcases List.mem_append.mp (List.mem_of_mem_drop mem) with mem | mem
  · exact linked.attempts other mem
  · rw [List.mem_singleton.mp mem]
    exact known

theorem Linked.ofSameKeys {outbox : Std.ExtTreeMap Nat (Item κ)}
    (same : ∀ (id : Nat) (item : Item κ), outbox[id]? = some item →
      ∃ old, s.outbox[id]? = some old ∧ Item.SameKey item old) :
    Linked { s with outbox := outbox } where
  items id item found := by
    obtain ⟨old, stored, key, -, -⟩ := same id item found
    rw [key]
    exact linked.items id old stored
  fresh id item found := by
    obtain ⟨old, stored, -⟩ := same id item found
    exact linked.fresh id old stored
  unique first second left right foundLeft foundRight logical index stage := by
    obtain ⟨oldLeft, storedLeft, l1, l2, l3⟩ := same first left foundLeft
    obtain ⟨oldRight, storedRight, r1, r2, r3⟩ := same second right foundRight
    exact linked.unique first second oldLeft oldRight storedLeft storedRight
      (l1 ▸ r1 ▸ logical) (l2 ▸ r2 ▸ index) (l3 ▸ r3 ▸ stage)
  receipts := linked.receipts
  attempts := linked.attempts

theorem Linked.restatus {id : Nat} {old i : Item κ} (stored : s.outbox[id]? = some old)
    (same : Item.SameKey i old) : Linked (s.putItem id i) := by
  apply linked.ofSameKeys
  intro other found foundEq
  rcases getElem?_insert_cases foundEq with ⟨rfl, rfl⟩ | ⟨-, kept⟩
  · exact ⟨old, stored, same⟩
  · exact ⟨found, kept, rfl, rfl, rfl⟩

theorem Linked.mapOutbox {change : Item κ → Item κ}
    (same : ∀ item, Item.SameKey (change item) item) :
    Linked (s.mapOutbox change) := by
  apply linked.ofSameKeys
  intro id item found
  rw [Std.ExtTreeMap.getElem?_map] at found
  obtain ⟨old, stored, rfl⟩ := Option.map_eq_some_iff.mp found
  exact ⟨old, stored, same old⟩

end

/-- The same tables, whatever happened to the counters and the logs of the run. -/
structure SameTables (state after : RuntimeState κ) : Prop where
  logical : after.logical = state.logical
  intervals : after.intervals = state.intervals
  receipts : after.receipts = state.receipts
  cooldowns : after.cooldowns = state.cooldowns
  outbox : after.outbox = state.outbox
  attempts : after.attempts = state.attempts
  nextOutboxId : after.nextOutboxId = state.nextOutboxId
  pruneErrors : after.pruneErrors = state.pruneErrors

theorem SameTables.refl (s : RuntimeState κ) : SameTables s s :=
  ⟨rfl, rfl, rfl, rfl, rfl, rfl, rfl, rfl⟩

theorem SameTables.trans {s middle after : RuntimeState κ} (first : SameTables s middle)
    (second : SameTables middle after) : SameTables s after where
  logical := second.logical.trans first.logical
  intervals := second.intervals.trans first.intervals
  receipts := second.receipts.trans first.receipts
  cooldowns := second.cooldowns.trans first.cooldowns
  outbox := second.outbox.trans first.outbox
  attempts := second.attempts.trans first.attempts
  nextOutboxId := second.nextOutboxId.trans first.nextOutboxId
  pruneErrors := second.pruneErrors.trans first.pruneErrors

variable [LinearOrder κ]

theorem linked_empty : Linked (empty : RuntimeState κ) where
  items _ _ found := by simp [empty] at found
  fresh _ _ found := by simp [empty] at found
  unique _ _ _ _ found := by simp [empty] at found
  receipts _ mem := by cases mem
  attempts _ mem := by cases mem

theorem Linked.putLogical (linked : Linked s) (id : κ) (logical : Logical) :
    Linked (s.putLogical id logical) where
  items other item found := (AList.mem_insert _).mpr (.inr (linked.items other item found))
  fresh := linked.fresh
  unique := linked.unique
  receipts key mem := (AList.mem_insert _).mpr (.inr (linked.receipts key mem))
  attempts attempt mem := (AList.mem_insert _).mpr (.inr (linked.attempts attempt mem))

theorem Linked.putReceipt (linked : Linked s) {key : κ × String} (known : key.1 ∈ s.logical)
    (receipt : InboxReceipt) : Linked (s.putReceipt key receipt) where
  items := linked.items
  fresh := linked.fresh
  unique := linked.unique
  receipts other mem := by
    rcases (AList.mem_insert _).mp mem with rfl | mem
    · exact known
    · exact linked.receipts other mem
  attempts := linked.attempts

theorem Linked.addItem (linked : Linked s) {i : Item κ}
    (known : i.logicalId ∈ s.logical)
    (fresh : s.outboxKeyExists i.logicalId i.actionIndex i.stage = false) :
    Linked ((s.putItem s.nextOutboxId i).takeOutboxId) := by
  have noKey : ∀ (id : Nat) (old : Item κ), s.outbox[id]? = some old → ¬Item.SameKey old i := by
    rintro id old stored ⟨logical, index, stage⟩
    unfold outboxKeyExists at fresh
    have none_same := List.any_eq_false.mp fresh (id, old)
      (Std.ExtTreeMap.mem_toList_iff_getElem?_eq_some.mpr stored)
    simp [logical, index, stage] at none_same
  have cases_of : ∀ (id : Nat) (found : Item κ),
      (s.putItem s.nextOutboxId i).takeOutboxId.outbox[id]? = some found →
      (id = s.nextOutboxId ∧ found = i) ∨ s.outbox[id]? = some found := by
    intro id found foundEq
    by_cases here : id = s.nextOutboxId
    · subst here
      have same := Std.ExtTreeMap.getElem?_insert_self.symm.trans foundEq
      cases same
      exact .inl ⟨rfl, rfl⟩
    · exact .inr ((getElem?_insert_of_ne here _ _).symm.trans foundEq)
  constructor
  · intro id found foundEq
    rcases cases_of id found foundEq with ⟨-, rfl⟩ | old
    · exact known
    · exact linked.items id found old
  · intro id found foundEq
    rcases cases_of id found foundEq with ⟨rfl, -⟩ | old
    · exact Nat.lt_succ_self _
    · exact Nat.lt_succ_of_lt (linked.fresh id found old)
  · intro first second left right foundLeft foundRight logical index stage
    rcases cases_of first left foundLeft with ⟨rfl, rfl⟩ | oldLeft
    · rcases cases_of second right foundRight with ⟨rfl, -⟩ | oldRight
      · rfl
      · exact absurd ⟨logical.symm, index.symm, stage.symm⟩ (noKey second right oldRight)
    · rcases cases_of second right foundRight with ⟨rfl, rfl⟩ | oldRight
      · exact absurd ⟨logical, index, stage⟩ (noKey first left oldLeft)
      · exact linked.unique first second left right oldLeft oldRight logical index stage
  · exact linked.receipts
  · exact linked.attempts

/-! ### What a call does to the tables -/

/-- One change of the tables. -/
inductive TableStep (host : Host κ) : RuntimeState κ → RuntimeState κ → Prop
  | same {state after : RuntimeState κ} (same : SameTables state after) : TableStep host state after
  | cooldowns (state : RuntimeState κ) (cooldowns : Table CooldownKey Int)
      (room : cooldowns.size ≤ maxCooldownWindows) :
    TableStep host state { state with cooldowns := cooldowns }
  | interval (state : RuntimeState κ) (key : IntervalKey) (interval : OperationalInterval)
      (room : key ∈ state.intervals ∨ state.intervals.size < maxOperationalIntervals) :
    TableStep host state (state.putInterval key interval)
  | create (state : RuntimeState κ) (id : κ) (logical : Logical) (owner : String)
      (receipt : InboxReceipt) (room : state.logical.size < maxLogicalNotifications) :
    TableStep host state ((state.putLogical id logical).putReceipt (id, owner) receipt)
  | update (state : RuntimeState κ) {id : κ} (logical : Logical) (known : id ∈ state.logical) :
    TableStep host state (state.putLogical id logical)
  | receipt (state : RuntimeState κ) {key : κ × String} (receipt : InboxReceipt)
      (known : key ∈ state.receipts) : TableStep host state (state.putReceipt key receipt)
  | enqueue (state : RuntimeState κ) {item : Item κ} (known : item.logicalId ∈ state.logical)
      (fresh : state.outboxKeyExists item.logicalId item.actionIndex item.stage = false)
      (room : state.pendingOutboxCount < maxPendingOutbox) :
    TableStep host state ((state.putItem state.nextOutboxId item).takeOutboxId)
  | settle (state : RuntimeState κ) {id : Nat} {old item : Item κ}
      (stored : state.outbox[id]? = some old) (same : Item.SameKey item old)
      (settled : item.status.isPending = true → old.status.isPending = true) :
    TableStep host state (state.putItem id item)
  | retry (state : RuntimeState κ) {id : Nat} {old item : Item κ}
      (stored : state.outbox[id]? = some old) (same : Item.SameKey item old)
      (room : state.pendingOutboxCount < maxPendingOutbox) :
    TableStep host state (state.putItem id item)
  | settleAll (state : RuntimeState κ) {change : Item κ → Item κ}
      (same : ∀ item, Item.SameKey (change item) item)
      (settled : ∀ item, (change item).status.isPending = true → item.status.isPending = true) :
    TableStep host state (state.mapOutbox change)
  | attempt (state : RuntimeState κ) {attempt : DeliveryAttempt κ}
      (known : attempt.logicalId ∈ state.logical) : TableStep host state (state.pushAttempt attempt)
  | prune (state : RuntimeState κ) (nowMs : Int) : TableStep host state (state.pruneAt host nowMs).2

abbrev TableSteps (host : Host κ) : RuntimeState κ → RuntimeState κ → Prop :=
  Relation.ReflTransGen (TableStep host)

/-- Everything the runtime promises about its tables. -/
structure Sound (state : RuntimeState κ) : Prop where
  linked : Linked state
  logical : state.logical.size ≤ maxLogicalNotifications
  cooldowns : state.cooldowns.size ≤ maxCooldownWindows
  intervals : state.intervals.size ≤ maxOperationalIntervals
  pending : state.pendingOutboxCount ≤ maxPendingOutbox
  pruneErrors : state.pruneErrors = []

theorem sound_empty : Sound (empty : RuntimeState κ) where
  linked := linked_empty
  logical := Nat.zero_le _
  cooldowns := Nat.zero_le _
  intervals := Nat.zero_le _
  pending := Nat.zero_le _
  pruneErrors := rfl

/-! ### Pruning -/

theorem mem_logical_prune {id : κ} (known : id ∈ s.logical) (kept : id ∉ s.removed) :
    id ∈ s.pruneTerminalNotifications.logical := by
  obtain ⟨logical, found⟩ := Option.isSome_iff_exists.mp (AList.lookup_isSome.mpr known)
  exact Table.mem_retain.mpr ⟨logical, found, decide_eq_true kept⟩

theorem Linked.pruneTerminal (linked : Linked s) : Linked s.pruneTerminalNotifications := by
  have outbox_of : ∀ (id : Nat) (item : Item κ),
      s.pruneTerminalNotifications.outbox[id]? = some item →
      s.outbox[id]? = some item ∧ item.logicalId ∉ s.removed := by
    intro id item found
    simp only [pruneTerminalNotifications] at found
    rw [Std.ExtTreeMap.getElem?_filter'] at found
    obtain ⟨stored, kept⟩ := Option.filter_eq_some_iff.mp found
    exact ⟨stored, of_decide_eq_true kept⟩
  constructor
  · intro id item found
    obtain ⟨stored, kept⟩ := outbox_of id item found
    exact mem_logical_prune (linked.items id item stored) kept
  · intro id item found
    exact linked.fresh id item (outbox_of id item found).1
  · intro first second left right foundLeft foundRight
    exact linked.unique first second left right (outbox_of first left foundLeft).1
      (outbox_of second right foundRight).1
  · intro key mem
    simp only [pruneTerminalNotifications] at mem
    rw [Table.mem_retain] at mem
    obtain ⟨receipt, found, kept⟩ := mem
    have stored : key ∈ s.receipts :=
      AList.lookup_isSome.mp (Option.isSome_iff_exists.mpr ⟨receipt, found⟩)
    exact mem_logical_prune (linked.receipts key stored) (of_decide_eq_true kept)
  · intro attempt mem
    obtain ⟨stored, kept⟩ := List.mem_filter.mp mem
    exact mem_logical_prune (linked.attempts attempt stored) (of_decide_eq_true kept)

theorem pendingOutboxCount_pruneTerminal :
    s.pruneTerminalNotifications.pendingOutboxCount ≤ s.pendingOutboxCount := by
  simp only [pendingOutboxCount, pruneTerminalNotifications]
  rw [Std.ExtTreeMap.toList_filter]
  exact List.filter_sublist.countP_le

def pruned (state : RuntimeState κ) (host : Host κ) (nowMs : Int) : RuntimeState κ :=
  ((state.retainCooldowns nowMs).pruneWindows host).pruneTerminalNotifications

omit [LinearOrder κ] in
theorem size_retainCooldowns (nowMs : Int) :
    (s.retainCooldowns nowMs).cooldowns.size ≤ s.cooldowns.size := by
  simp only [RuntimeState.retainCooldowns]
  exact Table.size_retain_le _ _

omit [LinearOrder κ] in
theorem size_pruneWindows (host : Host κ) :
    (s.pruneWindows host).intervals.size ≤ s.intervals.size := by
  simp only [RuntimeState.pruneWindows, pruneOperationalIntervals]
  exact Table.size_retain_le _ _

theorem size_pruneTerminal : s.pruneTerminalNotifications.logical.size ≤ s.logical.size := by
  simp only [pruneTerminalNotifications]
  exact Table.size_retain_le _ _

omit [LinearOrder κ] in
theorem Sound.retainCooldowns (sound : Sound s) (nowMs : Int) :
    Sound (s.retainCooldowns nowMs) := by
  have linked : Linked (s.retainCooldowns nowMs) :=
    ⟨sound.linked.items, sound.linked.fresh, sound.linked.unique, sound.linked.receipts,
      sound.linked.attempts⟩
  exact ⟨linked, sound.logical, le_trans (size_retainCooldowns nowMs) sound.cooldowns,
    sound.intervals, sound.pending,
    sound.pruneErrors⟩

omit [LinearOrder κ] in
theorem Sound.pruneWindows (sound : Sound s) (host : Host κ) : Sound (s.pruneWindows host) := by
  have linked : Linked (s.pruneWindows host) :=
    ⟨sound.linked.items, sound.linked.fresh, sound.linked.unique, sound.linked.receipts,
      sound.linked.attempts⟩
  exact ⟨linked, sound.logical, sound.cooldowns, le_trans (size_pruneWindows host) sound.intervals,
    sound.pending,
    sound.pruneErrors⟩

theorem Sound.pruneTerminal (sound : Sound s) : Sound s.pruneTerminalNotifications := by
  exact ⟨sound.linked.pruneTerminal, le_trans size_pruneTerminal sound.logical, sound.cooldowns,
    sound.intervals,
    le_trans pendingOutboxCount_pruneTerminal sound.pending, sound.pruneErrors⟩

theorem Sound.pruned (sound : Sound s) (host : Host κ) (nowMs : Int) :
    Sound (s.pruned host nowMs) :=
  ((sound.retainCooldowns nowMs).pruneWindows host).pruneTerminal

theorem pruneAt_eq (host : Host κ) (nowMs : Int)
    (logical : s.logical.size ≤ maxLogicalNotifications)
    (cooldowns : s.cooldowns.size ≤ maxCooldownWindows)
    (intervals : s.intervals.size ≤ maxOperationalIntervals) :
    s.pruneAt host nowMs = (true, s.pruned host nowMs) := by
  have fewCooldowns := Nat.not_lt.mpr (le_trans (size_retainCooldowns nowMs) cooldowns)
  have fewIntervals : ¬maxOperationalIntervals <
      ((s.retainCooldowns nowMs).pruneWindows host).intervals.size :=
    Nat.not_lt.mpr (le_trans (size_pruneWindows host) intervals)
  have fewLogical : ¬maxLogicalNotifications <
      ((s.retainCooldowns nowMs).pruneWindows host).pruneTerminalNotifications.logical.size :=
    Nat.not_lt.mpr (le_trans size_pruneTerminal logical)
  unfold pruneAt
  simp only [prune]
  rw [if_neg fewCooldowns, if_neg fewIntervals, if_neg fewLogical]
  rfl

theorem Sound.pruneAt_eq (sound : Sound s) (host : Host κ) (nowMs : Int) :
    s.pruneAt host nowMs = (true, s.pruned host nowMs) :=
  RuntimeState.pruneAt_eq host nowMs sound.logical sound.cooldowns sound.intervals

/-! ### The pending items -/

omit [LinearOrder κ] in
theorem pendingOutboxCount_putItem {id : Nat} {old : Item κ} (stored : s.outbox[id]? = some old)
    (i : Item κ) :
    (s.putItem id i).pendingOutboxCount + (if old.status.isPending then 1 else 0) =
      s.pendingOutboxCount + (if i.status.isPending then 1 else 0) := by
  have counted := countP_toList_replace (fun entry => entry.2.status.isPending) stored i
  exact counted

omit [LinearOrder κ] in
theorem pendingOutboxCount_addItem (linked : Linked s) (i : Item κ) :
    ((s.putItem s.nextOutboxId i).takeOutboxId).pendingOutboxCount =
      s.pendingOutboxCount + if i.status.isPending then 1 else 0 := by
  have free : s.outbox[s.nextOutboxId]? = none := by
    cases found : s.outbox[s.nextOutboxId]? with
    | none => rfl
    | some old => exact absurd (linked.fresh _ old found) (Nat.lt_irrefl _)
  have counted := countP_toList_insert_new (fun entry => entry.2.status.isPending) free i
  exact counted

omit [LinearOrder κ] in
theorem pendingOutboxCount_mapOutbox {change : Item κ → Item κ}
    (settled : ∀ item, (change item).status.isPending = true → item.status.isPending = true) :
    (s.mapOutbox change).pendingOutboxCount ≤ s.pendingOutboxCount := by
  simp only [pendingOutboxCount, RuntimeState.mapOutbox]
  rw [Std.ExtTreeMap.toList_map, List.countP_map]
  apply List.countP_mono_left
  intro entry _ pending
  exact settled entry.2 pending

/-! ### Every change keeps the tables sound -/

omit [LinearOrder κ] in
theorem Sound.same {after : RuntimeState κ} (sound : Sound s) (same : SameTables s after) :
    Sound after := by
  obtain ⟨logical, intervals, receipts, cooldowns, outbox, attempts, nextOutboxId, errors⟩ := same
  have pending : after.pendingOutboxCount = s.pendingOutboxCount := by
    simp only [pendingOutboxCount, outbox]
  refine ⟨⟨?_, ?_, ?_, ?_, ?_⟩, ?_, ?_, ?_, ?_, ?_⟩
  · rw [outbox, logical]
    exact sound.linked.items
  · rw [outbox, nextOutboxId]
    exact sound.linked.fresh
  · rw [outbox]
    exact sound.linked.unique
  · rw [receipts, logical]
    exact sound.linked.receipts
  · rw [attempts, logical]
    exact sound.linked.attempts
  · rw [logical]
    exact sound.logical
  · rw [cooldowns]
    exact sound.cooldowns
  · rw [intervals]
    exact sound.intervals
  · rw [pending]
    exact sound.pending
  · rw [errors]
    exact sound.pruneErrors

omit [LinearOrder κ] in
theorem Sound.ofAttempts (sound : Sound s) {attempts : List (DeliveryAttempt κ)}
    (known : ∀ attempt ∈ attempts, attempt.logicalId ∈ s.logical) :
    Sound { s with attempts := attempts } :=
  ⟨sound.linked.ofAttempts known, sound.logical, sound.cooldowns, sound.intervals, sound.pending,
    sound.pruneErrors⟩

omit [LinearOrder κ] in
theorem Sound.pushAttempt (sound : Sound s) {attempt : DeliveryAttempt κ}
    (known : attempt.logicalId ∈ s.logical) : Sound (s.pushAttempt attempt) := by
  simp only [RuntimeState.pushAttempt]
  exact sound.ofAttempts (sound.linked.attempts_push known _)

theorem TableStep.sound {host : Host κ} {after : RuntimeState κ} (step : TableStep host s after)
    (sound : Sound s) : Sound after := by
  cases step with
  | same same => exact sound.same same
  | cooldowns cooldowns room =>
    have linked := sound.linked
    exact ⟨⟨linked.items, linked.fresh, linked.unique, linked.receipts, linked.attempts⟩,
      sound.logical, room, sound.intervals, sound.pending, sound.pruneErrors⟩
  | interval key interval room =>
    have linked := sound.linked
    have size : (s.putInterval key interval).intervals.size ≤ maxOperationalIntervals := by
      simp only [putInterval]
      rcases room with known | room
      · rw [Table.size_insert_known known]
        exact sound.intervals
      · exact le_trans (Table.size_insert_le _ _ _) room
    exact ⟨⟨linked.items, linked.fresh, linked.unique, linked.receipts, linked.attempts⟩,
      sound.logical, sound.cooldowns, size, sound.pending, sound.pruneErrors⟩
  | create id logical owner receipt room =>
    have size : (s.putLogical id logical).logical.size ≤ maxLogicalNotifications := by
      simp only [RuntimeState.putLogical]
      exact le_trans (Table.size_insert_le _ _ _) room
    have known : id ∈ (s.putLogical id logical).logical := (AList.mem_insert _).mpr (.inl rfl)
    exact ⟨(sound.linked.putLogical id logical).putReceipt known receipt, size, sound.cooldowns,
      sound.intervals, sound.pending, sound.pruneErrors⟩
  | @update id logical known =>
    have size : (s.putLogical id logical).logical.size ≤ maxLogicalNotifications := by
      simp only [RuntimeState.putLogical]
      rw [Table.size_insert_known known]
      exact sound.logical
    exact ⟨sound.linked.putLogical id logical, size, sound.cooldowns, sound.intervals,
      sound.pending, sound.pruneErrors⟩
  | @receipt key receipt known =>
    exact ⟨sound.linked.putReceipt (sound.linked.receipts key known) receipt, sound.logical,
      sound.cooldowns, sound.intervals, sound.pending, sound.pruneErrors⟩
  | @enqueue item known fresh room =>
    have counted := pendingOutboxCount_addItem sound.linked item
    refine ⟨sound.linked.addItem known fresh, sound.logical, sound.cooldowns, sound.intervals, ?_,
      sound.pruneErrors⟩
    split at counted <;> omega
  | @settle id old item stored same settled =>
    have moved := pendingOutboxCount_putItem stored item
    have pending : (s.putItem id item).pendingOutboxCount ≤ s.pendingOutboxCount := by
      cases new : item.status.isPending with
      | true =>
        rw [new, settled new] at moved
        exact le_of_eq (Nat.add_right_cancel moved)
      | false =>
        rw [new] at moved
        simp only [Bool.false_eq_true, if_false, Nat.add_zero] at moved
        omega
    exact ⟨sound.linked.restatus stored same, sound.logical, sound.cooldowns, sound.intervals,
      le_trans pending sound.pending, sound.pruneErrors⟩
  | @retry id old item stored same room =>
    have moved := pendingOutboxCount_putItem stored item
    have pending : (s.putItem id item).pendingOutboxCount ≤ maxPendingOutbox := by
      split at moved <;> split at moved <;> omega
    exact ⟨sound.linked.restatus stored same, sound.logical, sound.cooldowns, sound.intervals,
      pending, sound.pruneErrors⟩
  | settleAll same settled =>
    exact ⟨sound.linked.mapOutbox same, sound.logical, sound.cooldowns, sound.intervals,
      le_trans (pendingOutboxCount_mapOutbox settled) sound.pending, sound.pruneErrors⟩
  | attempt known =>
    exact sound.pushAttempt known
  | prune nowMs =>
    rw [sound.pruneAt_eq]
    exact sound.pruned host nowMs

theorem TableSteps.sound {host : Host κ} {after : RuntimeState κ}
    (steps : TableSteps host s after) (sound : Sound s) : Sound after := by
  induction steps with
  | refl => exact sound
  | tail _ step ih => exact step.sound ih

end KeepPeek.Notifications.RuntimeState
