import KeepPeek.Notifications.Outbox

/-! Which deliveries `claim_due` hands out. Items that may still be sent, a delivery
in progress included, belong to a source that is not suppressed and to an action
the active version of their rule allows; the calls that can break this are named. -/
namespace KeepPeek.Notifications

open Lib
open Std (ExtTreeMap)

def OutboxItem.live {κ : Type} (item : OutboxItem κ) : Bool :=
  item.status.isPending || decide (item.status = .delivering)

namespace Store

variable {κ : Type} {digest : LogicalKey → κ} {store before after : Store κ}
variable {channel : Channel} {item : OutboxItem κ} {ruleId : String} {nowMs : Int}

def logicalKey (logical : LogicalNotification) : LogicalKey :=
  ⟨logical.ruleId, logical.sourceId, logical.sourceIdentity, logical.lifecycle⟩

/-- The source is not suppressed and the active version of the rule allows the
action on this channel. -/
def Permitted (store : Store κ) (logical : LogicalNotification) (index : Nat) (channel : Channel) :
    Prop :=
  logical.sourceId ∉ store.suppressedSources ∧
    ∃ rule, store.activeRule logical.ruleId = some rule ∧ rule.allows index channel = true

structure Sound (digest : LogicalKey → κ) (store : Store κ) : Prop where
  keyed : ∀ id logical, store.logical id = some logical → id = digest (logicalKey logical)
  linked : ∀ (id : Nat) item, store.outbox[id]? = some item →
    ∃ logical, store.logical item.logicalId = some logical
  permitted : ∀ (id : Nat) item logical, store.outbox[id]? = some item → item.live = true →
    store.logical item.logicalId = some logical →
    store.Permitted logical item.actionIndex item.channel

theorem open_sound (digest : LogicalKey → κ) (rules : List Rule) :
    (Store.open rules : Store κ).Sound digest where
  keyed id logical h := by cases h
  linked id item h := by
    rw [Store.open, ExtTreeMap.getElem?_empty] at h
    cases h
  permitted id item logical h := by
    rw [Store.open, ExtTreeMap.getElem?_empty] at h
    cases h

/-- A later form of an outbox item: same notification and action, and live only if
it was. -/
structure Follows (item old : OutboxItem κ) : Prop where
  logicalId : item.logicalId = old.logicalId
  actionIndex : item.actionIndex = old.actionIndex
  channel : item.channel = old.channel
  live : item.live = true → old.live = true

theorem Follows.refl (i : OutboxItem κ) : Follows i i := ⟨rfl, rfl, rfl, id⟩

theorem follows_withStatus (i : OutboxItem κ) {status : OutboxStatus} (nowMs : Int)
    (dead : status.isPending = false ∧ status ≠ .delivering) :
    Follows (withStatus i status nowMs) i where
  logicalId := rfl
  actionIndex := rfl
  channel := rfl
  live h := by
    unfold OutboxItem.live withStatus at h
    dsimp only at h
    rw [dead.1, decide_eq_false dead.2] at h
    cases h

theorem Sound.of_follows (h : before.Sound digest) (logical : after.logical = before.logical)
    (items : ∀ (id : Nat) item, after.outbox[id]? = some item →
      ∃ old, before.outbox[id]? = some old ∧ Follows item old)
    (permits : ∀ (id : Nat) item known, after.outbox[id]? = some item → item.live = true →
      before.logical item.logicalId = some known →
      before.Permitted known item.actionIndex item.channel →
      after.Permitted known item.actionIndex item.channel) : after.Sound digest where
  keyed id known hknown := by
    rw [logical] at hknown
    exact h.keyed id known hknown
  linked id item hitem := by
    rcases items id item hitem with ⟨old, hold, follows⟩
    rw [logical, follows.logicalId]
    exact h.linked id old hold
  permitted id item known hitem hlive hknown := by
    rcases items id item hitem with ⟨old, hold, follows⟩
    rw [logical] at hknown
    apply permits id item known hitem hlive hknown
    rw [follows.actionIndex, follows.channel]
    rw [follows.logicalId] at hknown
    exact h.permitted id old known hold (follows.live hlive) hknown

theorem Permitted.of_same {logical : LogicalNotification} {index : Nat}
    (h : before.Permitted logical index channel) (rules : after.rules = before.rules)
    (sources : after.suppressedSources = before.suppressedSources) :
    after.Permitted logical index channel := by
  unfold Permitted activeRule at h ⊢
  rwa [rules, sources]

theorem Sound.of_items (h : before.Sound digest) (rules : after.rules = before.rules)
    (sources : after.suppressedSources = before.suppressedSources)
    (logical : after.logical = before.logical)
    (items : ∀ (id : Nat) item, after.outbox[id]? = some item →
      ∃ old, before.outbox[id]? = some old ∧ Follows item old) : after.Sound digest :=
  h.of_follows logical items fun _ _ _ _ _ _ permitted => permitted.of_same rules sources

theorem Sound.putItem (h : store.Sound digest) {id : Nat} {old : OutboxItem κ}
    (hold : store.outbox[id]? = some old) (follows : Follows item old) :
    (store.putItem id item).Sound digest := by
  have items : ∀ (other : Nat) found, (store.putItem id item).outbox[other]? = some found →
      ∃ old, store.outbox[other]? = some old ∧ Follows found old := by
    intro other found hfound
    rcases getElem?_insert_cases hfound with ⟨rfl, rfl⟩ | ⟨_, kept⟩
    · exact ⟨old, hold, follows⟩
    · exact ⟨found, kept, .refl found⟩
  exact h.of_items rfl rfl rfl items

def InProgress (store : Store κ) (item : OutboxItem κ) (logical : LogicalNotification) : Prop :=
  (∃ id : Nat, store.outbox[id]? = some item) ∧ item.status = .delivering ∧
    store.logical item.logicalId = some logical

theorem live_iff (i : OutboxItem κ) :
    i.live = true ↔ i.status.isPending = true ∨ i.status = .delivering := by
  simp [OutboxItem.live]

/-- The items a test selects leave the queue; the others that are live stay permitted. -/
theorem Sound.settle {changed : Store κ} {test : OutboxItem κ → Bool} {status : OutboxStatus}
    (h : store.Sound digest) (logical : changed.logical = store.logical)
    (outbox : changed.outbox = store.outbox) (nowMs : Int)
    (dead : status.isPending = false ∧ status ≠ .delivering)
    (permits : ∀ (id : Nat) item known, store.outbox[id]? = some item → item.live = true →
      test item = false → store.logical item.logicalId = some known →
      store.Permitted known item.actionIndex item.channel →
      changed.Permitted known item.actionIndex item.channel) :
    Sound digest
      (changed.mapOutbox fun item => if test item then withStatus item status nowMs else item) := by
  have items : ∀ (id : Nat) item, (changed.mapOutbox fun item =>
      if test item then withStatus item status nowMs else item).outbox[id]? = some item →
      ∃ old, store.outbox[id]? = some old ∧ Follows item old ∧
        (item.live = true → test old = false ∧ item = old) := by
    intro id item hitem
    rw [mapOutbox, ExtTreeMap.getElem?_map, Option.map_eq_some_iff, outbox] at hitem
    obtain ⟨old, hold, rfl⟩ := hitem
    refine ⟨old, hold, ?_⟩
    split
    next selected =>
      have follows := follows_withStatus old nowMs dead
      refine ⟨follows, fun live => ?_⟩
      simp [OutboxItem.live, withStatus, dead] at live
    next kept => exact ⟨.refl old, fun _ => ⟨eq_false_of_ne_true kept, rfl⟩⟩
  refine h.of_follows logical ?_ ?_
  · intro id item hitem
    obtain ⟨old, hold, follows, -⟩ := items id item hitem
    exact ⟨old, hold, follows⟩
  · intro id item known hitem hlive hknown permitted
    obtain ⟨old, hold, -, same⟩ := items id item hitem
    obtain ⟨kept, rfl⟩ := same hlive
    exact permits id item known hold hlive kept hknown permitted

theorem setProfileSuppressedSources_sound (h : store.Sound digest) {sources : List String}
    (nowMs : Int)
    (quiet : ∀ item logical, store.InProgress item logical → logical.sourceId ∉ sources) :
    (store.setProfileSuppressedSources sources nowMs).Sound digest := by
  unfold setProfileSuppressedSources
  split
  · refine @Sound.settle _ _ _ (store.setSuppressed sources) _ .suppressed h rfl rfl nowMs
      ⟨rfl, by decide⟩ ?_
    intro id item known hitem hlive kept hknown permitted
    refine ⟨?_, permitted.2⟩
    intro (suppressed : known.sourceId ∈ sources)
    -- A pending item of the source was just suppressed; the other live ones are
    -- deliveries in progress.
    rcases (live_iff item).mp hlive with hpending | hdelivering
    · simp [hpending, hknown, suppressed] at kept
    · exact quiet item known ⟨⟨id, hitem⟩, hdelivering, hknown⟩ suppressed
  · exact h

theorem activeRule_putRule (s : Store κ) (id : String) (record : RuleRecord) (other : String) :
    (s.putRule id record).activeRule other =
      if other = id then record.active else s.activeRule other := by
  unfold activeRule putRule
  by_cases same : other = id
  · subst same
    rw [if_pos rfl, ExtTreeMap.getElem?_insert_self]
    rfl
  · rw [if_neg same, getElem?_insert_of_ne same]

theorem activeRule_eraseRule (s : Store κ) (id other : String) :
    (s.eraseRule id).activeRule other = if other = id then none else s.activeRule other := by
  unfold activeRule eraseRule
  by_cases same : other = id
  · subst same
    rw [if_pos rfl, ExtTreeMap.getElem?_erase_self]
    rfl
  · rw [if_neg same, getElem?_erase_of_ne same]

/-- A control call that replaces the active version of one rule and cancels what it
no longer allows. -/
theorem cancelDisabledOutbox_sound {changed : Store κ} (h : store.Sound digest)
    {active : Option Rule} (nowMs : Int) (logical : changed.logical = store.logical)
    (outbox : changed.outbox = store.outbox)
    (sources : changed.suppressedSources = store.suppressedSources)
    (rules : ∀ other, changed.activeRule other = if other = ruleId then active
      else store.activeRule other)
    (quiet : ∀ item known, store.InProgress item known → known.ruleId = ruleId →
      (active.any fun rule => rule.allows item.actionIndex item.channel) = true) :
    (changed.cancelDisabledOutbox ruleId active nowMs).Sound digest := by
  refine h.settle logical outbox nowMs ⟨rfl, by decide⟩ ?_
  intro id item known hitem hlive kept hknown permitted
  refine ⟨?_, ?_⟩
  · rw [sources]
    exact permitted.1
  rw [rules]
  by_cases own : known.ruleId = ruleId
  · rw [if_pos own]
    have allowed : (active.any fun rule => rule.allows item.actionIndex item.channel) = true := by
      rcases (live_iff item).mp hlive with hpending | hdelivering
      · simpa [hpending, logical, hknown, own] using kept
      · exact quiet item known ⟨⟨id, hitem⟩, hdelivering, hknown⟩ own
    cases active with
    | none => cases allowed
    | some rule => exact ⟨rule, rfl, allowed⟩
  · rw [if_neg own]
    exact permitted.2

theorem editable_eq_some {ownerId : String} {activeRevision draftRevision : Nat}
    {record : RuleRecord}
    (h : store.editable ruleId ownerId activeRevision draftRevision = some record) :
    store.rules[ruleId]? = some record :=
  (Option.filter_eq_some_iff.mp h).1

theorem activate_sound (h : store.Sound digest) (ownerId : String)
    (activeRevision draftRevision : Nat) (accepted : Bool) (nowMs : Int)
    (quiet : ∀ record, store.rules[ruleId]? = some record → ∀ item known, store.InProgress item
      known → known.ruleId = ruleId → record.draft.allows item.actionIndex item.channel = true) :
    (store.activate ruleId ownerId activeRevision draftRevision accepted nowMs).Sound digest := by
  unfold activate
  split
  next record hrecord =>
    split
    · refine cancelDisabledOutbox_sound h nowMs rfl rfl rfl
        (activeRule_putRule store ruleId (activated record)) ?_
      intro item known inProgress own
      exact quiet record (editable_eq_some hrecord) item known inProgress own
    · exact h
  next => exact h

theorem delete_sound (h : store.Sound digest) (ownerId : String)
    (activeRevision draftRevision : Nat) (persisted : Bool) (nowMs : Int)
    (quiet : ∀ item known, store.InProgress item known → known.ruleId ≠ ruleId) :
    (store.delete ruleId ownerId activeRevision draftRevision persisted nowMs).Sound digest := by
  unfold delete
  split
  · split
    · refine cancelDisabledOutbox_sound h nowMs rfl rfl rfl (activeRule_eraseRule store ruleId) ?_
      intro item known inProgress own
      exact absurd own (quiet item known inProgress)
    · exact h
  · exact h

theorem saveDraft_cases (s : Store κ) (draft : Rule) (expected : Nat) (persisted : Bool) :
    s.saveDraft draft expected persisted = s ∨ ∃ record, s.saveDraft draft expected persisted =
      s.putRule draft.id record ∧ record.active = s.activeRule draft.id := by
  unfold saveDraft
  split
  next existing found =>
    split
    · exact .inr ⟨_, rfl, by simp [activeRule, found]⟩
    · exact .inl rfl
  next missing =>
    split
    · exact .inr ⟨_, rfl, by simp [activeRule, missing]⟩
    · exact .inl rfl

theorem saveDraft_sound (h : store.Sound digest) (draft : Rule) (expected : Nat)
    (persisted : Bool) : (store.saveDraft draft expected persisted).Sound digest := by
  rcases saveDraft_cases store draft expected persisted with same | ⟨record, same, active⟩
  · rw [same]
    exact h
  rw [same]
  refine h.of_follows rfl (fun id item hitem => ⟨item, hitem, .refl item⟩) ?_
  intro id item known _ _ _ permitted
  refine ⟨permitted.1, ?_⟩
  rw [activeRule_putRule]
  split
  next own =>
    rw [active, ← own]
    exact permitted.2
  next => exact permitted.2

theorem setCall_sound (h : store.Sound digest) (call : Nat) (value : Option OpenCall) :
    (store.setCall call value).Sound digest :=
  ⟨h.keyed, h.linked, h.permitted⟩

theorem Sound.enqueue (h : store.Sound digest) {logical : LogicalNotification}
    (known : store.logical item.logicalId = some logical)
    (permitted : store.Permitted logical item.actionIndex item.channel) :
    (store.putItem store.nextOutboxId item).takeOutboxId.Sound digest where
  keyed := h.keyed
  linked id found hfound := by
    rw [takeOutboxId, Store.putItem, ExtTreeMap.getElem?_insert] at hfound
    split at hfound
    · cases hfound
      exact ⟨logical, known⟩
    · exact h.linked id found hfound
  permitted id found other hfound hlive hother := by
    rw [takeOutboxId, Store.putItem, ExtTreeMap.getElem?_insert] at hfound
    split at hfound
    · cases hfound
      have same : some other = some logical := hother.symm.trans known
      cases same
      exact permitted.of_same rfl rfl
    · exact (h.permitted id found other hfound hlive hother).of_same rfl rfl

theorem Sound.same_key (h : store.Sound digest) (injective : digest.Injective) {key : LogicalKey}
    {known : LogicalNotification} (hknown : store.logical (digest key) = some known) :
    logicalKey known = key :=
  (injective (h.keyed _ known hknown)).symm

theorem finishItem_follows (transition : OutboxStatus × Option Int) (nowMs : Int)
    (delivering : item.status = .delivering) :
    Follows (finishItem item transition nowMs) item where
  logicalId := rfl
  actionIndex := rfl
  channel := rfl
  live _ := by
    rw [live_iff]
    exact Or.inr delivering

section Processing

variable [DecidableEq κ]
variable {logical : LogicalNotification} {r : Rule} {c : Candidate} {logicalId : κ}

theorem logical_putLogical (s : Store κ) (id other : κ) (logical : LogicalNotification) :
    (s.putLogical id logical).logical other =
      if other = id then some logical else s.logical other :=
  rfl

theorem Sound.putLogical (h : store.Sound digest) {id : κ} (key : id = digest (logicalKey logical))
    (same : ∀ known, store.logical id = some known → logical.ruleId = known.ruleId ∧
      logical.sourceId = known.sourceId) :
    (store.putLogical id logical).Sound digest where
  keyed other known hknown := by
    rw [logical_putLogical] at hknown
    split at hknown
    next own =>
      cases hknown
      rw [own]
      exact key
    next => exact h.keyed other known hknown
  linked itemId item hitem := by
    rw [logical_putLogical]
    split
    · exact ⟨logical, rfl⟩
    · exact h.linked itemId item hitem
  permitted itemId item known hitem hlive hknown := by
    rw [logical_putLogical] at hknown
    split at hknown
    next own =>
      cases hknown
      rcases h.linked itemId item hitem with ⟨old, hold⟩
      have permitted := h.permitted itemId item old hitem hlive hold
      rw [own] at hold
      rcases same old hold with ⟨hrule, hsource⟩
      unfold Permitted at permitted ⊢
      rw [hrule, hsource]
      exact permitted
    next => exact h.permitted itemId item known hitem hlive hknown

def SameRules (after before : Store κ) : Prop :=
  after.rules = before.rules ∧ after.suppressedSources = before.suppressedSources

/-- A rule works on a notification of its own that it may deliver. -/
structure Serves (store : Store κ) (rule : Rule) (logicalId : κ) (logical : LogicalNotification) :
    Prop where
  known : store.logical logicalId = some logical
  source : logical.sourceId ∉ store.suppressedSources
  active : store.activeRule logical.ruleId = some rule
  enabled : rule.enabled = true

theorem enqueueAction_sound {index : Nat} {action : Action} (replacement : Bool) (answer : Answer)
    (h : store.Sound digest) (serves : store.Serves r logicalId logical)
    (haction : r.actions[index]? = some action) :
    let after := store.enqueueAction r c logicalId replacement answer index action
    after.Sound digest ∧ after.SameRules store ∧ after.Serves r logicalId logical := by
  unfold enqueueAction
  split
  next queued =>
    refine ⟨?_, ⟨rfl, rfl⟩, serves.known, serves.source, serves.active, serves.enabled⟩
    apply h.enqueue serves.known
    refine ⟨serves.source, r, serves.active, ?_⟩
    have enabled : action.enabled = true := by
      simp only [queues, Bool.and_eq_true] at queued
      exact queued.1.1.1.1.1
    show (r.enabled && r.actions[index]?.any fun found =>
      found.enabled && found.channel == action.channel) = true
    rw [serves.enabled, haction]
    simp [enabled]
  next => exact ⟨h, ⟨rfl, rfl⟩, serves⟩

theorem enqueueActions_sound (replacement : Bool) (answer : Answer) (h : store.Sound digest)
    (serves : store.Serves r logicalId logical) :
    let after := store.enqueueActions r c logicalId replacement answer
    after.Sound digest ∧ after.SameRules store := by
  have invariant := @foldl_invariant_mem (Store κ) (Action × Nat)
    (fun store entry => store.enqueueAction r c logicalId replacement answer entry.2 entry.1)
    (fun state => (state.Sound digest ∧ state.SameRules store) ∧ state.Serves r logicalId logical)
    store ⟨⟨h, rfl, rfl⟩, serves⟩ r.actions.zipIdx
  apply And.left
  apply invariant
  rintro state entry hentry ⟨⟨sound, same⟩, serves⟩
  obtain ⟨sound, next, serves⟩ := @enqueueAction_sound _ _ _ _ _ _ c _ _ _ replacement answer
    sound serves (List.mem_zipIdx_iff_getElem?.mp hentry)
  exact ⟨⟨sound, next.1.trans same.1, next.2.trans same.2⟩, serves⟩

theorem putLogical_serves (source : logical.sourceId ∉ store.suppressedSources)
    (active : store.activeRule logical.ruleId = some r) (enabled : r.enabled = true) :
    (store.putLogical logicalId logical).Serves r logicalId logical where
  known := by rw [logical_putLogical, if_pos rfl]
  source := source
  active := active
  enabled := enabled

/-- A rule may serve a candidate's source: it is the active version of its rule and
the source is not suppressed. -/
structure Entitled (store : Store κ) (rule : Rule) (sourceId : String) : Prop where
  active : store.activeRule rule.id = some rule
  enabled : rule.enabled = true
  source : sourceId ∉ store.suppressedSources

theorem Sound.write (h : store.Sound digest) (injective : digest.Injective)
    (key : logicalKey logical = candidateKey r c) :
    (store.putLogical (digest (candidateKey r c)) logical).Sound digest := by
  apply h.putLogical
  · rw [key]
  · intro known hknown
    have hkey := key.trans (h.same_key injective hknown).symm
    simp only [logicalKey, LogicalKey.mk.injEq] at hkey
    exact ⟨hkey.1, hkey.2.1⟩

theorem Sound.deliver (h : store.Sound digest) (injective : digest.Injective)
    (key : logicalKey logical = candidateKey r c)
    (entitled : store.Entitled r c.sourceId) (replacement : Bool) (answer : Answer) :
    let after := (store.putLogical (digest (candidateKey r c)) logical).enqueueActions r
      c (digest (candidateKey r c)) replacement answer
    after.Sound digest ∧ after.SameRules store := by
  apply enqueueActions_sound replacement answer (h.write injective key)
  simp only [logicalKey, candidateKey, LogicalKey.mk.injEq] at key
  apply putLogical_serves
  · rw [key.2.1]
    exact entitled.source
  · rw [key.1]
    exact entitled.active
  · exact entitled.enabled

theorem processRule_sound (h : store.Sound digest) (injective : digest.Injective)
    (entitled : store.Entitled r c.sourceId) (answer : Answer) :
    let after := store.processRule digest r c answer
    after.Sound digest ∧ after.SameRules store := by
  unfold processRule processExisting
  dsimp only
  split
  next existing hexisting =>
    have key : logicalKey existing = candidateKey r c := h.same_key injective hexisting
    have replaced : logicalKey (replace existing c) = candidateKey r c := key
    split
    · exact ⟨h, rfl, rfl⟩
    split
    · exact ⟨h.write injective key, rfl, rfl⟩
    split
    · exact h.deliver injective replaced entitled true answer
    · exact ⟨h.write injective key, rfl, rfl⟩
  next =>
    split
    · exact h.deliver injective rfl entitled false answer
    · exact ⟨h, rfl, rfl⟩

theorem processInState_sound {rules : List Rule} (h : store.Sound digest)
    (injective : digest.Injective) (inForce : ∀ r ∈ rules, store.activeRule r.id = some r)
    (answer : Rule → Answer) :
    (store.processInState digest rules c answer).Sound digest := by
  have invariant := @foldl_invariant_mem (Store κ) Rule (fun store r =>
      if r.enabled && (answer r).matched && !store.suppressedSources.contains c.sourceId then
        store.processRule digest r c (answer r)
      else store)
    (fun state => state.Sound digest ∧ state.SameRules store) store ⟨h, rfl, rfl⟩ rules
  apply And.left
  apply invariant
  intro state r hrule sound
  split
  next matched =>
    simp only [Bool.and_eq_true, Bool.not_eq_true', List.contains_eq_mem, decide_eq_false_iff_not]
      at matched
    have entitled : state.Entitled r c.sourceId := by
      refine ⟨?_, matched.1.1, matched.2⟩
      unfold activeRule
      rw [sound.2.1]
      exact inForce r hrule
    obtain ⟨next, same⟩ := processRule_sound sound.1 injective entitled (answer r)
    exact ⟨next, same.1.trans sound.2.1, same.2.trans sound.2.2⟩
  next => exact sound

theorem prune_sound (h : store.Sound digest) (removed : κ → Bool) :
    (store.prune removed).Sound digest where
  keyed id logical hlogical := by
    dsimp only [prune] at hlogical
    split at hlogical
    · cases hlogical
    · exact h.keyed id logical hlogical
  linked id item hitem := by
    rw [prune, ExtTreeMap.getElem?_filter', Option.filter_eq_some_iff] at hitem
    rcases hitem with ⟨hitem, kept⟩
    dsimp only [prune]
    rw [Bool.not_eq_true'] at kept
    rw [kept, if_neg Bool.false_ne_true]
    exact h.linked id item hitem
  permitted id item logical hitem hlive hlogical := by
    rw [prune, ExtTreeMap.getElem?_filter', Option.filter_eq_some_iff] at hitem
    dsimp only [prune] at hlogical
    split at hlogical
    · cases hlogical
    · exact (h.permitted id item logical hitem.1 hlive hlogical).of_same rfl rfl

theorem finishDelivery_sound (h : store.Sound digest) (delivery : Delivery κ)
    (outcome : DeliveryOutcome) (nowMs : Int) (removed : κ → Bool) :
    (store.finishDelivery delivery outcome nowMs removed).Sound digest := by
  unfold finishDelivery
  split
  · exact h
  next item hitem =>
    split
    next valid =>
      have delivering : item.status = .delivering := by
        simp only [claimValid, Bool.and_eq_true, decide_eq_true_eq] at valid
        exact valid.1.1.1.1.1
      apply prune_sound
      exact h.putItem hitem (finishItem_follows _ nowMs delivering)
    · exact h

end Processing

theorem mem_due {id : Nat} (h : (id, item) ∈ store.due channel nowMs) :
    store.outbox[id]? = some item ∧ item.channel = channel ∧ item.status.isPending = true := by
  simp only [due, List.mem_filter, Bool.and_eq_true, decide_eq_true_eq] at h
  exact ⟨ExtTreeMap.mem_toList_iff_getElem?_eq_some.mp h.1, h.2.1, h.2.2.1⟩

theorem nextDueOutboxId_mem {entry : Nat × OutboxItem κ}
    (h : store.nextDueOutboxId channel nowMs = some entry) : entry ∈ store.due channel nowMs := by
  refine mem_of_foldl_choose (fun best item => ?_) h
  cases best with
  | none => exact .inl rfl
  | some chosen => exact ite_eq_or_eq _ _ _

theorem claimItem_follows (nowMs : Int) (hpending : item.status.isPending = true) :
    Follows (claimItem item nowMs) item where
  logicalId := rfl
  actionIndex := rfl
  channel := rfl
  live _ := by
    rw [live_iff]
    exact Or.inl hpending

/-- What is known of a delivery that `claim_due` returns, in the store it leaves:
it is in progress, its source is not suppressed and its rule allows it. -/
def Justified (store : Store κ) (delivery : Delivery κ) : Prop :=
  ∃ item logical, store.outbox[delivery.id]? = some item ∧
    store.logical delivery.logicalId = some logical ∧ item.logicalId = delivery.logicalId ∧
    item.status = .delivering ∧ logical.ruleId = delivery.ruleId ∧ item.channel = delivery.channel ∧
    store.Permitted logical item.actionIndex delivery.channel

theorem claimLoop_sound (fuel : Nat) (h : store.Sound digest) :
    (claimLoop channel nowMs fuel store).2.Sound digest ∧ ∀ delivery,
      (claimLoop channel nowMs fuel store).1 = some delivery →
      (claimLoop channel nowMs fuel store).2.Justified delivery := by
  induction fuel generalizing store with
  | zero => exact ⟨h, fun delivery hdelivery => by cases hdelivery⟩
  | succ fuel ih =>
    unfold claimLoop
    split
    · exact ⟨h, fun delivery hdelivery => by cases hdelivery⟩
    next id item hnext =>
      rcases mem_due (nextDueOutboxId_mem hnext) with ⟨hitem, _, hpending⟩
      split
      · exact ⟨h, fun delivery hdelivery => by cases hdelivery⟩
      next logical hlogical =>
        split
        · exact ih (h.putItem hitem (follows_withStatus item nowMs ⟨rfl, by decide⟩))
        refine ⟨h.putItem hitem (claimItem_follows nowMs hpending), ?_⟩
        intro delivery hdelivery
        cases hdelivery
        have permitted := h.permitted id item logical hitem
          ((live_iff item).mpr (Or.inl hpending)) hlogical
        exact ⟨claimItem item nowMs, logical, ExtTreeMap.getElem?_insert_self, hlogical, rfl,
          rfl, rfl, rfl, permitted.of_same rfl rfl⟩

theorem pendingOutboxCount_expire {id : Nat} (nowMs : Int) (hitem : store.outbox[id]? = some item)
    (hpending : item.status.isPending = true) :
    (store.putItem id (withStatus item .expired nowMs)).pendingOutboxCount + 1 =
      store.pendingOutboxCount := by
  have counted := countP_toList_replace (fun entry => entry.2.status.isPending) hitem
    (withStatus item .expired nowMs)
  rw [if_pos hpending] at counted
  exact counted

theorem nextDueOutboxId_eq_none (h : store.nextDueOutboxId channel nowMs = none) :
    store.due channel nowMs = [] := by
  unfold nextDueOutboxId at h
  cases hdue : store.due channel nowMs with
  | nil => rfl
  | cons first rest =>
    rw [hdue, List.foldl_cons] at h
    refine absurd h (@foldl_invariant (Option (Nat × OutboxItem κ)) (Nat × OutboxItem κ) _
      (fun best => best ≠ none) ?_ _ (by simp) rest)
    intro best item hbest
    cases best with
    | none => simp
    | some chosen =>
      dsimp only
      split
      · simp
      · simp

/-- The fuel of `claimLoop` is enough. -/
theorem claimLoop_eq_none {fuel : Nat} (enough : store.pendingOutboxCount < fuel)
    (h : (claimLoop channel nowMs fuel store).1 = none) :
    (claimLoop channel nowMs fuel store).2.due channel nowMs = [] := by
  induction fuel generalizing store with
  | zero => omega
  | succ fuel ih =>
    unfold claimLoop at h ⊢
    split at h
    next hnext => exact nextDueOutboxId_eq_none hnext
    next id item hnext =>
      have hmem := nextDueOutboxId_mem hnext
      rcases mem_due hmem with ⟨hitem, _, hpending⟩
      split at h
      next hmissing =>
        -- A due item has its notification.
        simp only [due, List.mem_filter, Bool.and_eq_true] at hmem
        rw [hmissing] at hmem
        cases hmem.2.2.2.2
      next logical hlogical =>
        split at h
        next expired =>
          rw [if_pos expired]
          apply ih _ h
          have counted := pendingOutboxCount_expire nowMs hitem hpending
          omega
        next => cases h

/-- A worker gets a delivery, or nothing of its channel is due any more. -/
theorem claimDue_exhausts_due :
    (store.claimDue channel nowMs).1.isSome ∨
      (store.claimDue channel nowMs).2.due channel nowMs = [] := by
  cases claimed : (store.claimDue channel nowMs).1 with
  | none => exact .inr (claimLoop_eq_none (Nat.lt_succ_self _) claimed)
  | some delivery => exact .inl rfl

variable [DecidableEq κ]

/-- The calls that keep the outbox in line with rules and suppression: no delivery
in progress loses its permission, and a candidate or a test is processed with rules
still in force, a test also only for a source that is not suppressed. -/
def Quiet (store : Store κ) : Op κ → Prop
  | .setProfileSuppressedSources sources _ =>
    ∀ item logical, store.InProgress item logical → logical.sourceId ∉ sources
  | .activate ruleId _ _ _ _ _ =>
    ∀ record, store.rules[ruleId]? = some record → ∀ item logical,
      store.InProgress item logical → logical.ruleId = ruleId →
      record.draft.allows item.actionIndex item.channel = true
  | .delete ruleId _ _ _ _ _ =>
    ∀ item logical, store.InProgress item logical → logical.ruleId ≠ ruleId
  | .finishProcess call _ _ _ _ _ =>
    ∀ rules candidate, store.calls call = some (.process rules candidate) →
      ∀ rule ∈ rules, store.activeRule rule.id = some rule
  | .finishTest call _ _ _ _ _ _ =>
    ∀ rule, store.calls call = some (.test rule) →
      store.Entitled rule (rule.sourceIds.head?.getD "notification-test")
  | _ => True

theorem finishProcess_sound (h : store.Sound digest) (injective : digest.Injective) {call : Nat}
    (quiet : ∀ rules candidate, store.calls call = some (.process rules candidate) →
      ∀ rule ∈ rules, store.activeRule rule.id = some rule)
    (identity : String) (revision : Nat) (answer : Rule → Answer) (before after : κ → Bool) :
    (store.finishProcess digest call identity revision answer before after).Sound digest := by
  unfold finishProcess
  split
  next rules candidate hcall =>
    apply prune_sound
    apply processInState_sound (prune_sound (setCall_sound h call none) before) injective
    exact quiet rules candidate hcall
  next => exact h

theorem finishTest_sound (h : store.Sound digest) (injective : digest.Injective) {call : Nat}
    (quiet : ∀ rule, store.calls call = some (.test rule) →
      store.Entitled rule (rule.sourceIds.head?.getD "notification-test"))
    (identity : String) (eventKind : Option String) (answer : Answer) (nowMs : Int)
    (before after : κ → Bool) : Sound digest
      (store.finishTest digest call identity eventKind answer nowMs before after) := by
  unfold finishTest
  split
  next rule hcall =>
    rcases quiet rule hcall with ⟨active, enabled, source⟩
    apply prune_sound
    refine (processRule_sound (prune_sound (setCall_sound h call none) before) injective ?_
      answer).1
    exact ⟨active, enabled, source⟩
  next => exact h

theorem step_sound (injective : digest.Injective) (op : Op κ) (h : store.Sound digest)
    (quiet : store.Quiet op) : (step digest store op).Sound digest := by
  cases op with
  | setProfileSuppressedSources sources nowMs =>
    exact setProfileSuppressedSources_sound h nowMs quiet
  | saveDraft draft expected persisted => exact saveDraft_sound h draft expected persisted
  | activate ruleId ownerId activeRevision draftRevision accepted nowMs =>
    exact activate_sound h ownerId activeRevision draftRevision accepted nowMs quiet
  | delete ruleId ownerId activeRevision draftRevision persisted nowMs =>
    exact delete_sound h ownerId activeRevision draftRevision persisted nowMs quiet
  | beginProcess call candidate => exact setCall_sound h call _
  | finishProcess call identity revision answer before after =>
    exact finishProcess_sound h injective quiet identity revision answer before after
  | beginTest call ruleId =>
    unfold step
    dsimp only
    split
    · exact setCall_sound h call _
    · exact h
  | finishTest call identity eventKind answer nowMs before after =>
    exact finishTest_sound h injective quiet identity eventKind answer nowMs before after
  | claimDue channel nowMs => exact (claimLoop_sound _ h).1
  | finishDelivery delivery outcome nowMs removed =>
    exact finishDelivery_sound h delivery outcome nowMs removed

/-- What is asked of a step: what `claim_due` hands out is permitted. -/
def HandsOutPermitted (store : Store κ) : Op κ → Prop
  | .claimDue channel nowMs => ∀ delivery, (store.claimDue channel nowMs).1 = some delivery →
      (store.claimDue channel nowMs).2.Justified delivery
  | _ => True

theorem run_hands_out_permitted (injective : digest.Injective) (rules : List Rule)
    (ops : List (Op κ)) (quiet : AllSteps (step digest) Quiet (Store.open rules) ops) :
    AllSteps (step digest) HandsOutPermitted (Store.open rules) ops := by
  refine AllSteps.of_invariant (fun store op h hquiet => step_sound injective op h hquiet) ?_
    (open_sound digest rules) quiet
  intro store op h _
  cases op with
  | claimDue channel nowMs => exact (claimLoop_sound _ h).2
  | _ => trivial

def pushRule : Rule where
  id := "motion"
  ownerId := "owner"
  enabled := true
  sourceIds := ["front"]
  enrichment := ⟨10000, 3, 3, false⟩
  actions := [⟨true, .push, false, false⟩]
  failure := ⟨5, 60000, 3600000⟩

def frontCandidate : Candidate := ⟨"front", "event-1", .event, none, .info, 1, .preliminary, 1000⟩

def frontKey : LogicalKey := ⟨"motion", "front", "event-1", .event⟩

def admitting : Answer := ⟨true, true, true, fun _ => false⟩

def claimedRun : List (Op LogicalKey) :=
  [.beginProcess 0 frontCandidate,
    .finishProcess 0 "event-1" 1 (fun _ => admitting) (fun _ => false) (fun _ => false),
    .claimDue .push 2000]

def frontDelivery (attempt : Nat) : Delivery LogicalKey :=
  ⟨1, frontKey, "motion", .preliminary, .push, attempt, 5, 60000, 3601000⟩

def deliveredRun : List (Op LogicalKey) :=
  claimedRun ++ [.finishDelivery (frontDelivery 1) .delivered 2500 (fun _ => false),
    .setProfileSuppressedSources ["front"] 3000, .claimDue .push 4000]

theorem run_hands_out_permitted_delivered :
    (((deliveredRun.take 2).foldl (step id) (Store.open [pushRule])).claimDue .push 2000).1 =
        some (frontDelivery 1) ∧
      AllSteps (step id) HandsOutPermitted (Store.open [pushRule]) deliveredRun := by
  constructor
  · decide +kernel
  · apply run_hands_out_permitted Function.injective_id
    refine ⟨trivial, ?_, trivial, trivial, ?_, trivial, trivial⟩
    · intro rules candidate hcall
      have snapshot : (step id (Store.open [pushRule]) (.beginProcess 0 frontCandidate)).calls 0 =
          some (.process [pushRule] frontCandidate) := by decide +kernel
      rw [snapshot] at hcall
      cases hcall
      decide
    · rintro item logical ⟨⟨outboxId, hitem⟩, delivering, _⟩
      have finished : ∀ entry ∈ ((deliveredRun.take 4).foldl (step id)
          (Store.open [pushRule])).outbox.toList, entry.2.status ≠ .delivering := by decide +kernel
      exact absurd delivering
        (finished (outboxId, item) (ExtTreeMap.mem_toList_iff_getElem?_eq_some.mpr hitem))

/-- The camera is suppressed while its delivery is in progress, which then fails for now. -/
def suppressedRun : List (Op LogicalKey) :=
  claimedRun ++ [.setProfileSuppressedSources ["front"] 3000,
    .finishDelivery (frontDelivery 1) (.transient none) 3500 (fun _ => false)]

/-- The rule is deleted while a candidate is between reading the rules and the lock. -/
def deletedRun : List (Op LogicalKey) :=
  [.beginProcess 0 frontCandidate, .delete "motion" "owner" 1 1 true 500,
    .finishProcess 0 "event-1" 1 (fun _ => admitting) (fun _ => false) (fun _ => false)]

def suppressedStore : Store LogicalKey := suppressedRun.foldl (step id) (Store.open [pushRule])

def deletedStore : Store LogicalKey := deletedRun.foldl (step id) (Store.open [pushRule])

theorem suppressed_and_deleted_are_handed_out :
    ((suppressedStore.claimDue .push 5000).1 = some (frontDelivery 2) ∧
        (suppressedStore.logical frontKey).map LogicalNotification.sourceId = some "front" ∧
        suppressedStore.suppressedSources = ["front"]) ∧
      (deletedStore.claimDue .push 2000).1 = some (frontDelivery 1) ∧
        deletedStore.activeRule "motion" = none := by
  decide +kernel

end Store

end KeepPeek.Notifications
