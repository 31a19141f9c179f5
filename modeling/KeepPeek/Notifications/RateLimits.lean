import Mathlib.Data.List.Dedup
import Mathlib.Logic.Relation
import KeepPeek.Lib.Except
import KeepPeek.Lib.FixedWindow
import KeepPeek.Notifications.Runtime

/-! What the rate limits of a rule bound. A counter is shared by all limits with its key, each
with a window length of its own, and every use with a shorter length may restart it. -/
namespace KeepPeek.Notifications

open Lib

/-- What `validate_rate_limits` accepts. -/
structure RuntimeRule.LimitsValid (rule : RuntimeRule) : Prop where
  scopes : (rule.rateLimits.map RateLimit.scope).Nodup
  maximum : ∀ limit ∈ rule.rateLimits, 0 < limit.maximum ∧ limit.maximum ≤ 10000
  window : ∀ limit ∈ rule.rateLimits, 0 < limit.windowMs ∧ limit.windowMs ≤ 2592000000

namespace RuntimeState

variable {κ : Type}

def RateWindow.window (window : RateWindow) : FixedWindow.Window :=
  ⟨window.startedAtMs, window.count⟩

def lastTimeMs : Int := 8210266876799999

theorem addMillis_eq {timestampMs : Int} {durationMs : Nat} (early : timestampMs ≤ lastTimeMs)
    (short : durationMs ≤ 2592000000) :
    addMillis timestampMs durationMs = timestampMs + durationMs := by
  unfold addMillis i64Max
  unfold lastTimeMs at early
  omega

theorem RateWindow.window_consume {window : RateWindow} {windowMs : Nat} {nowMs : Int}
    (early : window.startedAtMs ≤ lastTimeMs) (short : windowMs ≤ 2592000000) :
    RateWindow.window (RateWindow.consume window windowMs nowMs) =
      (RateWindow.window window).use u64Max windowMs nowMs := by
  unfold RateWindow.consume FixedWindow.Window.use RateWindow.window
  rw [addMillis_eq early short]
  split <;> rfl

/-! ### One key -/

theorem rateKey_scope {scope other : RateLimitScope} {r r' : RuntimeRule}
    {c : RuntimeCandidate} {channel channel' : Option Channel}
    (same : rateKey scope r c channel = rateKey other r' c channel') :
    scope = other := by
  unfold rateKey at same
  cases scope <;> cases other <;> first | rfl | (simp only [Prod.mk.injEq] at same; split
    at same <;> simp at same)

/-! ### What a call does to the counters -/

/-- The part of the state that rate limits are about. -/
structure Rates where
  windows : Table RateKey RateWindow
  created : List Created
  usedKeys : List RateKey

def rates (state : RuntimeState κ) : Rates :=
  ⟨state.rateWindows, state.created, state.usedKeys⟩

def Rates.use (rates : Rates) (windowMs : Nat) (key : RateKey) (nowMs : Int) : Rates :=
  { rates with
    windows := rates.windows.insert key
      (RateWindow.consume ((rates.windows.lookup key).getD ⟨nowMs, 0⟩) windowMs nowMs)
    usedKeys := rates.usedKeys ++ [key] }

def Rates.useLimits (rates : Rates) (limits : List RateLimit) (rule : RuntimeRule)
    (candidate : RuntimeCandidate) (channel : Option Channel) : Rates :=
  limits.foldl (fun rates limit =>
    rates.use limit.windowMs (rateKey limit.scope rule candidate channel)
      candidate.occurredAtMs) rates

def Rates.logCreated (rates : Rates) (entry : Created) : Rates :=
  { rates with created := rates.created ++ [entry] }

def Rates.limited (rates : Rates) (limit : RateLimit) (rule : RuntimeRule)
    (candidate : RuntimeCandidate) : Bool :=
  (rates.windows.lookup (rateKey limit.scope rule candidate none)).any fun window =>
    decide (candidate.occurredAtMs < addMillis window.startedAtMs limit.windowMs) &&
      decide (limit.maximum ≤ window.count)

/-- One change of the counters while a candidate is processed. -/
inductive RateStep (rules : List RuntimeRule) (candidate : RuntimeCandidate) : Rates → Rates → Prop
  | prune (rates : Rates) :
    RateStep rules candidate rates
      { rates with windows := pruneOldestRateWindows rates.windows }
  | bypass (rates : Rates) {rule : RuntimeRule} (mem : rule ∈ rules) (windowMs : Nat)
      (early : candidate.occurredAtMs ≤ lastTimeMs) :
    RateStep rules candidate rates
      (rates.use windowMs (criticalBypassKey rule) candidate.occurredAtMs)
  | channel (rates : Rates) {rule : RuntimeRule} (mem : rule ∈ rules) (channel : Channel)
      (early : candidate.occurredAtMs ≤ lastTimeMs) :
    RateStep rules candidate rates
      (rates.useLimits (channelLimits rule) rule candidate (some channel))
  | create (rates : Rates) {rule : RuntimeRule} (mem : rule ∈ rules) (bypass : Bool)
      (early : candidate.occurredAtMs ≤ lastTimeMs)
      (allowed : bypass = false → ∀ limit ∈ ruleLimits rule,
        rates.limited limit rule candidate = false) :
    RateStep rules candidate rates
      ((rates.useLimits (ruleLimits rule) rule candidate none).logCreated
        ⟨rule.id, candidate.occurredAtMs, bypass⟩)

abbrev RateSteps (rules : List RuntimeRule) (candidate : RuntimeCandidate) : Rates → Rates → Prop :=
  Relation.ReflTransGen (RateStep rules candidate)

theorem rates_consumeLimits (s : RuntimeState κ) (limits : List RateLimit) (r : RuntimeRule)
    (c : RuntimeCandidate) (channel : Option Channel) :
    (limits.foldl (fun s limit => s.consumeRate limit r c channel) s).rates =
      s.rates.useLimits limits r c channel := by
  induction limits generalizing s with
  | nil => rfl
  | cons limit limits ih => exact ih _

def putAll (cooldowns : Table CooldownKey Int) (entries : List (CooldownKey × Nat)) (nowMs : Int) :
    Table CooldownKey Int :=
  entries.foldl (fun table entry => table.insert entry.1 (addMillis nowMs entry.2)) cooldowns

theorem foldl_putCooldown {state : RuntimeState κ} (entries : List (CooldownKey × Nat))
    (nowMs : Int) :
    entries.foldl (fun state entry => state.putCooldown entry.1 (addMillis nowMs entry.2)) state =
      { state with cooldowns := putAll state.cooldowns entries nowMs } := by
  induction entries generalizing state with
  | nil => rfl
  | cons entry entries ih =>
    rw [List.foldl_cons, ih]
    rfl

section Process

variable {host : Host κ} {rules : List RuntimeRule} {r : RuntimeRule}
  {c : RuntimeCandidate}

theorem admitNewNotification_accepted {s admitted : RuntimeState κ} {bypass : Bool}
    (h : s.admitNewNotification host r c = (.accepted bypass, admitted)) :
    s.logicalCapacityAvailable = true ∧ s.needsBypass host r c = bypass ∧
      s.cooldownCapacityFor ((cooldownKeys r c).map Prod.fst) = true ∧
      ∃ started, started = { s with
          cooldowns := putAll s.cooldowns (cooldownKeys r c) c.occurredAtMs } ∧
        admitted = if bypass then started.consumeCriticalBypass r c else started := by
  simp only [admitNewNotification, startCooldowns, foldl_putCooldown] at h
  split at h
  · cases h
  split at h
  · cases h
  next capacity =>
  split at h
  · cases h
  next started startedEq =>
  split at startedEq
  · next room =>
    cases startedEq
    cases h
    exact ⟨by simpa using capacity, rfl, room, _, rfl, rfl⟩
  · cases startedEq

/-- An accepted candidate either needs no bypass and finds every limit open, or uses the
bypass. -/
theorem admitNewNotification_rates {s admitted : RuntimeState κ} {bypass : Bool} (mem : r ∈ rules)
    (early : c.occurredAtMs ≤ lastTimeMs)
    (h : s.admitNewNotification host r c = (.accepted bypass, admitted)) :
    RateSteps rules c s.rates admitted.rates ∧
      (bypass = false → ∀ limit ∈ ruleLimits r, admitted.rates.limited limit r c = false) := by
  obtain ⟨-, needs, -, started, same, rfl⟩ := admitNewNotification_accepted h
  have kept : started.rates = s.rates := same ▸ rfl
  cases bypass with
  | true =>
    rw [if_pos rfl, ← kept]
    refine ⟨?_, nofun⟩
    unfold consumeCriticalBypass
    split
    · next bypass _ => exact .single (.bypass _ mem bypass.windowMs early)
    · exact .refl
  | false =>
    rw [if_neg Bool.false_ne_true, kept]
    refine ⟨.refl, fun _ limit limitMem => ?_⟩
    simp only [needsBypass, Bool.or_eq_false_iff] at needs
    exact Bool.eq_false_iff.mpr (List.any_eq_false.mp needs.2 limit limitMem)

theorem admitNewNotification_suppressed {s unchanged : RuntimeState κ} {reason : String}
    {nextEligibleAtMs : Option Int}
    (h : s.admitNewNotification host r c =
      (.suppressed reason nextEligibleAtMs, unchanged)) : unchanged = s := by
  simp only [admitNewNotification] at h
  split at h
  · exact (Prod.mk.inj h).2.symm
  split at h
  · exact (Prod.mk.inj h).2.symm
  split at h
  · exact (Prod.mk.inj h).2.symm
  · cases h

theorem matches_early (matched : r.matches host c = some .«match») :
    c.occurredAtMs ≤ lastTimeMs := by
  unfold RuntimeRule.matches at matched
  split at matched
  · cases matched
  split at matched
  · cases matched
  obtain ⟨answer, status, _⟩ := Option.map_eq_some_iff.mp matched
  exact host.status_le r _ answer status

theorem normalizeOperationalInterval_ok {s opened : RuntimeState κ} {normalized : RuntimeCandidate}
    (h : s.normalizeOperationalInterval c = .ok (normalized, opened)) :
    normalized.trigger = c.trigger ∧ normalized.occurredAtMs = c.occurredAtMs ∧
      (opened = s ∨ ∃ interval, opened = s.putInterval (intervalKey c) interval ∧
        (intervalKey c ∈ s.intervals ∨ s.intervals.size < maxOperationalIntervals)) := by
  unfold normalizeOperationalInterval openInterval closeInterval at h
  split at h
  · cases h
    exact ⟨rfl, rfl, .inl rfl⟩
  split at h
  · split at h
    · cases h
      exact ⟨rfl, rfl, .inl rfl⟩
    split at h
    · cases h
    next full =>
    cases h
    refine ⟨rfl, rfl, .inr ⟨_, rfl, ?_⟩⟩
    by_cases known : intervalKey c ∈ s.intervals
    · exact .inl known
    · exact .inr (Nat.not_le.mp fun large => full ⟨known, large⟩)
  split at h
  · split at h
    · next existing found =>
      cases h
      have stored := (Option.filter_eq_some_iff.mp found).1
      exact ⟨rfl, rfl, .inr ⟨_, rfl, .inl (Table.mem_of_lookup stored)⟩⟩
    · cases h
      exact ⟨rfl, rfl, .inl rfl⟩
  · cases h
    exact ⟨rfl, rfl, .inl rfl⟩

variable [LinearOrder κ]

section

variable (s : RuntimeState κ)
include s

theorem enqueueAction_rates (mem : r ∈ rules) (early : c.occurredAtMs ≤ lastTimeMs)
    (logicalId : κ) (replacement attachment : Bool) (index : Nat) (action : Action) :
    RateSteps rules c s.rates
      (s.enqueueAction r c logicalId replacement attachment index action).rates := by
  unfold enqueueAction
  split
  · unfold consumeChannelRateLimits
    rw [rates_consumeLimits]
    exact .single (.channel _ mem _ early)
  · exact .refl

theorem enqueueActions_rates (mem : r ∈ rules) (early : c.occurredAtMs ≤ lastTimeMs)
    (logicalId : κ) (replacement attachment : Bool) :
    RateSteps rules c s.rates (s.enqueueActions r c logicalId replacement attachment).rates := by
  unfold enqueueActions
  refine @foldl_invariant _ _ _ (fun next : RuntimeState κ =>
    RateSteps rules c s.rates next.rates) ?_ _ .refl _
  intro next entry steps
  exact steps.trans (enqueueAction_rates next mem early logicalId replacement attachment _ _)

theorem processExisting_rates (mem : r ∈ rules) (early : c.occurredAtMs ≤ lastTimeMs)
    (logicalId : κ) (existing : Logical) (attachment : Bool) :
    RateSteps rules c s.rates (s.processExisting r c logicalId existing attachment).rates := by
  simp only [processExisting]
  split
  · exact .refl
  split
  · exact .refl
  split
  · have steps := enqueueActions_rates (s.putLogical logicalId
      { Store.replace existing.toLogicalNotification c.toCandidate with
        ownerId := existing.ownerId }) mem early logicalId true attachment
    exact steps
  · exact .refl

theorem processRule_rates (mem : r ∈ rules) (early : c.occurredAtMs ≤ lastTimeMs)
    (attachment : Bool) :
    RateSteps rules c s.rates (s.processRule host r c attachment).rates := by
  simp only [processRule]
  split
  · exact processExisting_rates s mem early _ _ attachment
  split
  · next bypass admitted admission =>
    obtain ⟨steps, allowed⟩ := admitNewNotification_rates mem early admission
    apply steps.trans
    refine .trans (.single (.create _ mem bypass early allowed)) ?_
    have created := rates_consumeLimits ((admitted.putLogical (candidateLogicalId host r c)
        { Store.newLogical r.toRule c.toCandidate with
          ownerId := r.ownerId }).putReceipt
        (candidateLogicalId host r c, r.ownerId) ⟨none, none, none⟩)
      (ruleLimits r) r c none
    have tail := enqueueActions_rates
      ((admitted.insertNewLogical r c (candidateLogicalId host r c)).logCreated
        ⟨r.id, c.occurredAtMs, bypass⟩) mem early
      (candidateLogicalId host r c) false attachment
    have start : ((admitted.insertNewLogical r c (candidateLogicalId host r c)).logCreated
          ⟨r.id, c.occurredAtMs, bypass⟩).rates =
        (admitted.rates.useLimits (ruleLimits r) r c none).logCreated
          ⟨r.id, c.occurredAtMs, bypass⟩ :=
      congrArg (Rates.logCreated · _) created
    rw [start] at tail
    exact tail
  · next admission =>
    rw [admitNewNotification_suppressed admission]

theorem prune_rates (nowMs : Int) : RateSteps rules c s.rates (s.prune host nowMs).2.rates := by
  simp only [prune]
  split
  · exact .refl
  · split
    · exact .single (.prune _)
    · split <;> exact .single (.prune _)

theorem pruneAt_rates (nowMs : Int) : RateSteps rules c s.rates (s.pruneAt host nowMs).2.rates := by
  have steps : RateSteps rules c s.rates (s.prune host nowMs).2.rates :=
    prune_rates s nowMs
  unfold pruneAt
  split
  · next pruned same =>
    rw [same] at steps
    exact steps
  · next message kept same =>
    rw [same] at steps
    exact steps

theorem processInState_rates (matched : List (MatchResult × RuntimeRule))
    (attachment : RuntimeRule → Bool)
    (known : ∀ entry ∈ matched, entry.1 = .«match» → entry.2 ∈ rules ∧
      c.occurredAtMs ≤ lastTimeMs) :
    RateSteps rules c s.rates (s.processInState host c matched attachment).rates := by
  unfold processInState
  refine @foldl_invariant_mem _ _ _ (fun next : RuntimeState κ =>
    RateSteps rules c s.rates next.rates) _ .refl matched ?_
  intro next entry mem steps
  split
  · next isMatch =>
    obtain ⟨ruleMem, early⟩ := known entry mem isMatch
    exact steps.trans (processRule_rates next ruleMem early _)
  · exact steps

theorem processMatched_rates (matched : List (MatchResult × RuntimeRule))
    (attachment : RuntimeRule → Bool)
    (known : ∀ entry ∈ matched, entry.1 = .«match» → entry.2 ∈ rules ∧
      c.occurredAtMs ≤ lastTimeMs) :
    ∃ normalized : RuntimeCandidate, normalized.trigger = c.trigger ∧
      normalized.occurredAtMs = c.occurredAtMs ∧
      RateSteps rules normalized s.rates (s.processMatched host c matched attachment).rates := by
  simp only [processMatched]
  split
  · split
    · exact ⟨c, rfl, rfl, pruneAt_rates s _⟩
    next normalized opened ok =>
    obtain ⟨trigger, time, intervals⟩ := normalizeOperationalInterval_ok ok
    have first : RateSteps rules normalized s.rates opened.rates := by
      rcases intervals with rfl | ⟨interval, rfl, -⟩ <;> exact pruneAt_rates s _
    refine ⟨normalized, trigger, time, first.trans ?_⟩
    refine .trans (processInState_rates opened matched attachment ?_) (pruneAt_rates _ _)
    rw [time]
    exact known
  · exact ⟨c, rfl, rfl, pruneAt_rates s _⟩

theorem process_rates (attachment : RuntimeRule → Bool) :
    ∃ normalized : RuntimeCandidate, normalized.trigger = c.trigger ∧
      normalized.occurredAtMs = c.occurredAtMs ∧
      RateSteps rules normalized s.rates (s.process host rules c attachment).rates := by
  unfold process
  split
  · exact ⟨c, rfl, rfl, .refl⟩
  next matched all =>
  apply processMatched_rates
  intro entry mem isMatch
  obtain ⟨original, originalMem, rfl⟩ := List.mem_map.mp mem
  have result : original.1 = .«match» := by
    simp only [profiled] at isMatch
    split at isMatch
    · cases isMatch
    · exact isMatch
  obtain ⟨r, ruleMem, made⟩ := exists_of_mem_mapM all originalMem
  obtain ⟨answer, answered, rfl⟩ := Option.map_eq_some_iff.mp made
  simp only at result
  rw [result] at answered
  exact ⟨ruleMem, matches_early answered⟩

end

end Process

/-! ### The counter of one limit -/

def limitKey (scope : RateLimitScope) (rule : RuntimeRule) : RateKey :=
  match scope with
  | .rule => ("rule", rule.id)
  | .channel => ("channel", "unknown")
  | .principal => ("principal", rule.ownerId)
  | .global => ("global", "*")

def createdTimes (ruleId : String) (created : List Created) : List Int :=
  (created.filter fun entry => decide (entry.ruleId = ruleId) && !entry.criticalBypass).map
    Created.occurredAtMs

/-- No rule uses the limit's counter with a shorter window. -/
def NoShorter (rules : List RuntimeRule) (rule : RuntimeRule) (limit : RateLimit) : Prop :=
  ∀ other ∈ rules, ∀ shared ∈ ruleLimits other,
    limitKey shared.scope other = limitKey limit.scope rule → limit.windowMs ≤ shared.windowMs

structure Tracked (limit : RateLimit) (rule : RuntimeRule) (nowMs : Int) (rates : Rates) :
    Prop where
  counted : ∀ window, rates.windows.lookup (limitKey limit.scope rule) = some window →
    window.startedAtMs ≤ nowMs ∧ window.startedAtMs ≤ lastTimeMs ∧
      FixedWindow.Bounded limit.maximum limit.windowMs (RateWindow.window window)
        (createdTimes rule.id rates.created)
  unused : rates.windows.lookup (limitKey limit.scope rule) = none →
    createdTimes rule.id rates.created = []

section Limit

variable {rules : List RuntimeRule} {r other : RuntimeRule} {limit : RateLimit}
  {c : RuntimeCandidate} {rates : Rates} {nowMs : Int}

theorem rateKey_of_not_test (real : c.trigger ≠ .test) (scope : RateLimitScope) :
    rateKey scope r c none = limitKey scope r := by
  unfold rateKey limitKey
  rw [if_neg real]
  cases scope <;> rfl

theorem limitKey_ne_channel (real : c.trigger ≠ .test) {scope : RateLimitScope}
    (notChannel : scope ≠ .channel) (channel : Option Channel) :
    limitKey scope r ≠ rateKey .channel other c channel := by
  intro same
  cases scope with
  | channel => exact notChannel rfl
  | _ => simp [limitKey, rateKey, real] at same

theorem limitKey_ne_bypass (scope : RateLimitScope) : limitKey scope r ≠
    criticalBypassKey other := by
  intro same
  cases scope <;> simp [limitKey, criticalBypassKey] at same

theorem lookup_use (windowMs : Nat) (used key : RateKey) :
    (rates.use windowMs used nowMs).windows.lookup key = if key =
      used then some (RateWindow.consume ((rates.windows.lookup key).getD ⟨nowMs, 0⟩) windowMs
      nowMs) else rates.windows.lookup key := by
  unfold Rates.use
  split
  · next same =>
    subst same
    exact AList.lookup_insert _
  · next differ => exact AList.lookup_insert_ne differ

theorem useLimits_cons (used : RateLimit) (limits : List RateLimit) (channel : Option Channel) :
    rates.useLimits (used :: limits) other c channel =
      (rates.use used.windowMs (rateKey used.scope other c channel) c.occurredAtMs).useLimits limits
      other c channel :=
  rfl

theorem lookup_useLimits_of_ne {limits : List RateLimit} {channel : Option Channel} {key : RateKey}
    (differ : ∀ used ∈ limits, key ≠ rateKey used.scope other c channel) :
    (rates.useLimits limits other c channel).windows.lookup key = rates.windows.lookup key := by
  refine @foldl_invariant_mem _ _ _ (fun next : Rates =>
    next.windows.lookup key = rates.windows.lookup key) _ rfl limits ?_
  intro next used mem same
  rw [lookup_use, if_neg (differ used mem)]
  exact same

/-- A rule uses the counter of each of its limits once, since their scopes differ. -/
theorem lookup_useLimits {limits : List RateLimit} (scopes : (limits.map RateLimit.scope).Nodup)
    (mem : limit ∈ limits) :
    (rates.useLimits limits r c none).windows.lookup (rateKey limit.scope r c none) =
      some (RateWindow.consume ((rates.windows.lookup
      (rateKey limit.scope r c none)).getD ⟨c.occurredAtMs, 0⟩) limit.windowMs
      c.occurredAtMs) := by
  induction limits generalizing rates with
  | nil => cases mem
  | cons head limits ih =>
    rw [List.map_cons, List.nodup_cons] at scopes
    rw [useLimits_cons]
    rcases List.mem_cons.mp mem with rfl | mem
    · rw [lookup_useLimits_of_ne, lookup_use, if_pos rfl]
      intro used usedMem same
      exact scopes.1 (List.mem_map.mpr ⟨used, usedMem, (rateKey_scope same).symm⟩)
    · rw [ih scopes.2 mem]
      have differ : rateKey limit.scope r c none ≠ rateKey head.scope r c none := by
        intro same
        exact scopes.1 (List.mem_map.mpr ⟨limit, mem, rateKey_scope same⟩)
      rw [lookup_use, if_neg differ]

theorem u64Max_room (small : limit.maximum ≤ 10000) : limit.maximum ≤ u64Max := by
  unfold u64Max
  omega

theorem Tracked.found (tracked : Tracked limit r nowMs rates) (early : nowMs ≤ lastTimeMs) :
    let window := (rates.windows.lookup (limitKey limit.scope r)).getD ⟨nowMs, 0⟩
    window.startedAtMs ≤ nowMs ∧ window.startedAtMs ≤ lastTimeMs ∧
      FixedWindow.Bounded limit.maximum limit.windowMs (RateWindow.window window)
        (createdTimes r.id rates.created) := by
  intro window
  cases found : rates.windows.lookup (limitKey limit.scope r) with
  | some stored =>
    have same : window = stored := by simp only [window, found, Option.getD_some]
    rw [same]
    exact tracked.counted stored found
  | none =>
    have same : window = ⟨nowMs, 0⟩ := by simp only [window, found, Option.getD_none]
    rw [same, tracked.unused found]
    exact ⟨le_refl _, early, FixedWindow.bounded_nil _ _ _⟩

theorem consume_started (window : RateWindow) (windowMs : Nat)
    (started : window.startedAtMs ≤ nowMs) (early : nowMs ≤ lastTimeMs) :
    (RateWindow.consume window windowMs nowMs).startedAtMs ≤ nowMs ∧
      (RateWindow.consume window windowMs nowMs).startedAtMs ≤ lastTimeMs := by
  unfold RateWindow.consume
  split
  · exact ⟨le_refl _, early⟩
  · exact ⟨started, le_trans started early⟩

/-- A use that creates nothing: of another counter, or with a window that is not shorter. -/
theorem Tracked.use (tracked : Tracked limit r nowMs rates) (early : nowMs ≤ lastTimeMs)
    (small : limit.maximum ≤ 10000) {windowMs : Nat} {key : RateKey}
    (longer : limitKey limit.scope r = key → limit.windowMs ≤ windowMs ∧ windowMs ≤ 2592000000) :
    Tracked limit r nowMs (rates.use windowMs key nowMs) := by
  by_cases same : limitKey limit.scope r = key
  · obtain ⟨started, startedEarly, bounded⟩ := tracked.found early
    obtain ⟨long, short⟩ := longer same
    constructor
    · intro window found
      rw [lookup_use, if_pos same] at found
      cases found
      obtain ⟨before, beforeEarly⟩ := consume_started _ windowMs started early
      refine ⟨before, beforeEarly, ?_⟩
      rw [RateWindow.window_consume startedEarly short]
      exact bounded.use long (u64Max_room small)
    · intro missing
      rw [lookup_use, if_pos same] at missing
      cases missing
  · constructor
    · intro window found
      rw [lookup_use, if_neg same] at found
      exact tracked.counted window found
    · intro missing
      rw [lookup_use, if_neg same] at missing
      exact tracked.unused missing

theorem createdTimes_append (ruleId : String) (created : List Created) (entry : Created) :
    createdTimes ruleId (created ++ [entry]) = createdTimes ruleId created ++
      if entry.ruleId = ruleId ∧ entry.criticalBypass = false then [entry.occurredAtMs]
        else [] := by
  unfold createdTimes
  rw [List.filter_append, List.map_append]
  congr 1
  by_cases own : entry.ruleId = ruleId
  · cases bypass : entry.criticalBypass <;> simp [own, bypass]
  · simp [own]

theorem useLimits_created (limits : List RateLimit) (channel : Option Channel) :
    (rates.useLimits limits other c channel).created = rates.created := by
  refine @foldl_invariant _ _ _ (fun next : Rates => next.created = rates.created) ?_ _ rfl limits
  intro next used same
  exact same

theorem Tracked.logCreated (tracked : Tracked limit r nowMs rates) {entry : Created}
    (foreign : ¬(entry.ruleId = r.id ∧ entry.criticalBypass = false)) :
    Tracked limit r nowMs (rates.logCreated entry) := by
  have same : createdTimes r.id (rates.logCreated entry).created =
      createdTimes r.id rates.created := by
    unfold Rates.logCreated
    rw [createdTimes_append, if_neg foreign, List.append_nil]
  constructor
  · intro window found
    rw [same]
    exact tracked.counted window found
  · intro missing
    rw [same]
    exact tracked.unused missing

/-- A notification of the rule itself, created while the limit was open. -/
theorem Tracked.create (tracked : Tracked limit r c.occurredAtMs rates)
    (early : c.occurredAtMs ≤ lastTimeMs) (real : c.trigger ≠ .test)
    (valid : r.LimitsValid) (mem : limit ∈ ruleLimits r)
    (allowed : rates.limited limit r c = false) :
    Tracked limit r c.occurredAtMs ((rates.useLimits (ruleLimits r) r c none).logCreated
      ⟨r.id, c.occurredAtMs, false⟩) := by
  have limitMem : limit ∈ r.rateLimits := List.mem_of_mem_filter mem
  obtain ⟨positive, small⟩ := valid.maximum limit limitMem
  obtain ⟨lasting, short⟩ := valid.window limit limitMem
  obtain ⟨started, startedEarly, bounded⟩ := tracked.found early
  have scopes : ((ruleLimits r).map RateLimit.scope).Nodup :=
    valid.scopes.sublist (List.Sublist.map _ List.filter_sublist)
  have used : (rates.useLimits (ruleLimits r) r c none).windows.lookup
      (rateKey limit.scope r c none) = _ := lookup_useLimits scopes mem
  rw [rateKey_of_not_test real] at used
  have log : createdTimes r.id ((rates.useLimits (ruleLimits r) r c none).logCreated
      ⟨r.id, c.occurredAtMs, false⟩).created =
      createdTimes r.id rates.created ++ [c.occurredAtMs] := by
    unfold Rates.logCreated
    rw [createdTimes_append, useLimits_created, if_pos ⟨rfl, rfl⟩]
  have opened : (RateWindow.window ((rates.windows.lookup (limitKey limit.scope r)).getD
      ⟨c.occurredAtMs, 0⟩)).refuses limit.maximum limit.windowMs c.occurredAtMs = false := by
    unfold Rates.limited at allowed
    rw [rateKey_of_not_test real] at allowed
    cases found : rates.windows.lookup (limitKey limit.scope r) with
    | none =>
      simp only [Option.getD_none, RateWindow.window, FixedWindow.Window.refuses]
      rw [Bool.and_eq_false_iff]
      exact .inr (decide_eq_false (by omega))
    | some window =>
      rw [found, Option.any_some, addMillis_eq (tracked.counted window found).2.1 short] at allowed
      exact allowed
  constructor
  · intro window found
    rw [log]
    have stored := used.symm.trans found
    cases stored
    obtain ⟨before, beforeEarly⟩ := consume_started _ limit.windowMs started early
    refine ⟨before, beforeEarly, ?_⟩
    rw [RateWindow.window_consume startedEarly short]
    exact bounded.admit started opened positive lasting (u64Max_room small)
  · intro missing
    cases used.symm.trans missing

end Limit

/-! ### Pruning removes no counter while the keys fit -/

def Rates.Known (rates : Rates) : Prop := ∀ key ∈ rates.windows, key ∈ rates.usedKeys

def Rates.Fits (rates : Rates) : Prop := rates.usedKeys.dedup.length ≤ maxRateWindows

section Fits

variable {rules : List RuntimeRule} {c : RuntimeCandidate} {rates after : Rates}

theorem Rates.Fits.of_subset (fits : after.Fits) (subset : rates.usedKeys ⊆ after.usedKeys) :
    rates.Fits := by
  refine le_trans (List.Subperm.length_le ?_) fits
  apply List.subperm_of_subset (List.nodup_dedup _)
  intro key mem
  exact List.mem_dedup.mpr (subset (List.mem_dedup.mp mem))

theorem Rates.Known.size_le (known : rates.Known) (fits : rates.Fits) :
    rates.windows.size ≤ maxRateWindows := by
  refine le_trans (List.Subperm.length_le ?_) fits
  apply List.subperm_of_subset rates.windows.keys_nodup
  intro key mem
  exact List.mem_dedup.mpr (known key (AList.mem_keys.mp mem))

theorem lookup_pruneOldestRateWindows {windows : Table RateKey RateWindow}
    (few : windows.size ≤ maxRateWindows) (key : RateKey) :
    (pruneOldestRateWindows windows).lookup key = windows.lookup key := by
  have none_old : oldestRateWindows windows = [] := by
    simp only [oldestRateWindows, Nat.sub_eq_zero_of_le few, List.take_zero, List.map_nil]
  unfold pruneOldestRateWindows
  rw [Table.lookup_retain, none_old]
  cases windows.lookup key <;> simp

theorem mem_of_mem_pruneOldestRateWindows {windows : Table RateKey RateWindow} {key : RateKey}
    (mem : key ∈ pruneOldestRateWindows windows) : key ∈ windows := by
  unfold pruneOldestRateWindows at mem
  rw [Table.mem_retain] at mem
  obtain ⟨window, found, -⟩ := mem
  exact AList.lookup_isSome.mp (Option.isSome_iff_exists.mpr ⟨window, found⟩)

theorem use_grows (windowMs : Nat) (key : RateKey) (nowMs : Int) :
    rates.usedKeys ⊆ (rates.use windowMs key nowMs).usedKeys :=
  List.subset_append_left _ _

theorem useLimits_grows (limits : List RateLimit) (r : RuntimeRule) (channel : Option Channel) :
    rates.usedKeys ⊆ (rates.useLimits limits r c channel).usedKeys := by
  refine @foldl_invariant _ _ _ (fun next : Rates => rates.usedKeys ⊆ next.usedKeys) ?_ _
    (List.Subset.refl _) limits
  intro next used subset
  exact List.Subset.trans subset (use_grows _ _ _)

theorem RateStep.grows (step : RateStep rules c rates after) : rates.usedKeys ⊆ after.usedKeys := by
  cases step with
  | prune => exact List.Subset.refl _
  | bypass => exact use_grows _ _ _
  | channel => exact useLimits_grows _ _ _
  | create => exact useLimits_grows _ _ _

theorem Rates.Known.use (known : rates.Known) (windowMs : Nat) (key : RateKey) (nowMs : Int) :
    (rates.use windowMs key nowMs).Known := by
  intro other mem
  rcases (AList.mem_insert _).mp mem with rfl | mem
  · exact List.mem_append_right _ List.mem_cons_self
  · exact use_grows _ _ _ (known other mem)

theorem Rates.Known.useLimits (known : rates.Known) (limits : List RateLimit) (r : RuntimeRule)
    (channel : Option Channel) : (rates.useLimits limits r c channel).Known := by
  refine @foldl_invariant _ _ _ Rates.Known ?_ _ known limits
  intro next used known
  exact known.use _ _ _

theorem RateStep.known (step : RateStep rules c rates after) (known : rates.Known) :
    after.Known := by
  cases step with
  | prune =>
    intro key mem
    exact known key (mem_of_mem_pruneOldestRateWindows mem)
  | bypass => exact known.use _ _ _
  | channel => exact known.useLimits _ _ _
  | create => exact known.useLimits _ _ _

end Fits

section Run

variable {rules : List RuntimeRule} {rule : RuntimeRule} {limit : RateLimit}
  {c : RuntimeCandidate} {rates after : Rates}

/-- A limit of one of the rules that no rule uses with a shorter window. -/
structure Followed (rules : List RuntimeRule) (rule : RuntimeRule) (limit : RateLimit) : Prop where
  ids : (rules.map fun rule => rule.id).Nodup
  valid : ∀ rule ∈ rules, rule.LimitsValid
  ruleMem : rule ∈ rules
  mem : limit ∈ ruleLimits rule
  longest : NoShorter rules rule limit

theorem RateStep.tracked (step : RateStep rules c rates after) (fits : rates.Fits)
    (known : rates.Known) (followed : Followed rules rule limit) (real : c.trigger ≠ .test)
    (tracked : Tracked limit rule c.occurredAtMs rates) :
    Tracked limit rule c.occurredAtMs after := by
  obtain ⟨ids, valid, ruleMem, mem, longest⟩ := followed
  have limitMem : limit ∈ rule.rateLimits := List.mem_of_mem_filter mem
  have small := ((valid rule ruleMem).maximum limit limitMem).2
  have notChannel : limit.scope ≠ .channel := of_decide_eq_true (List.mem_filter.mp mem).2
  cases step with
  | prune =>
    have same := lookup_pruneOldestRateWindows (known.size_le fits) (limitKey limit.scope rule)
    constructor
    · intro window found
      exact tracked.counted window (same.symm.trans found)
    · intro missing
      exact tracked.unused (same.symm.trans missing)
  | bypass otherMem windowMs early =>
    exact tracked.use early small fun same => absurd same (limitKey_ne_bypass _)
  | @channel other otherMem channel early =>
    refine @foldl_invariant_mem _ _ _ (Tracked limit rule c.occurredAtMs) _ tracked
      (channelLimits other) ?_
    intro next used usedMem tracked
    have isChannel : used.scope = .channel := of_decide_eq_true (List.mem_filter.mp usedMem).2
    apply tracked.use early small
    intro same
    rw [isChannel] at same
    exact absurd same (limitKey_ne_channel real notChannel _)
  | @create other otherMem bypass early allowed =>
    by_cases own : other.id = rule.id ∧ bypass = false
    · obtain ⟨sameId, rfl⟩ := own
      have sameRule : other = rule := List.inj_on_of_nodup_map ids otherMem ruleMem sameId
      subst sameRule
      exact tracked.create early real (valid other otherMem) mem (allowed rfl limit mem)
    · apply Tracked.logCreated _ own
      refine @foldl_invariant_mem _ _ _ (Tracked limit rule c.occurredAtMs) _ tracked
        (ruleLimits other) ?_
      intro next used usedMem tracked
      apply tracked.use early small
      intro same
      rw [rateKey_of_not_test real] at same
      have short := ((valid other otherMem).window used (List.mem_of_mem_filter usedMem)).2
      exact ⟨longest other otherMem used usedMem same.symm, short⟩

section

variable (steps : RateSteps rules c rates after)
include steps

theorem RateSteps.grows : rates.usedKeys ⊆ after.usedKeys := by
  induction steps with
  | refl => exact List.Subset.refl _
  | tail _ step ih => exact List.Subset.trans ih step.grows

theorem RateSteps.known (known : rates.Known) : after.Known := by
  induction steps with
  | refl => exact known
  | tail _ step ih => exact step.known ih

theorem RateSteps.tracked (fits : after.Fits) (known : rates.Known)
    (followed : Followed rules rule limit) (real : c.trigger ≠ .test)
    (tracked : Tracked limit rule c.occurredAtMs rates) :
    Tracked limit rule c.occurredAtMs after := by
  induction steps with
  | refl => exact tracked
  | tail steps step ih =>
    have before := fits.of_subset step.grows
    exact step.tracked before (RateSteps.known steps known) followed real (ih before)

end

theorem Tracked.later {nowMs laterMs : Int} (tracked : Tracked limit rule nowMs rates)
    (later : nowMs ≤ laterMs) : Tracked limit rule laterMs rates where
  counted window found := by
    obtain ⟨started, early, bounded⟩ := tracked.counted window found
    exact ⟨le_trans started later, early, bounded⟩
  unused := tracked.unused

variable {κ : Type} [LinearOrder κ] {host : Host κ}

/-- Candidates processed one after the other with the same active rules, each with what is
known of its attachment. -/
def processAll (host : Host κ) (rules : List RuntimeRule) (state : RuntimeState κ)
    (inputs : List (RuntimeCandidate × (RuntimeRule → Bool))) : RuntimeState κ :=
  inputs.foldl (fun state input => state.process host rules input.1 input.2) state

theorem processAll_grows (s : RuntimeState κ)
    (inputs : List (RuntimeCandidate × (RuntimeRule → Bool))) :
    s.rates.usedKeys ⊆ (processAll host rules s inputs).rates.usedKeys := by
  refine @foldl_invariant _ _ _ (fun next : RuntimeState κ =>
    s.rates.usedKeys ⊆ next.rates.usedKeys) ?_ _ (List.Subset.refl _) inputs
  intro next input subset
  obtain ⟨_, _, _, steps⟩ := (process_rates next input.2 : ∃ normalized : RuntimeCandidate, _ ∧ _ ∧
    RateSteps rules normalized next.rates (next.process host rules input.1 input.2).rates)
  exact List.Subset.trans subset (RateSteps.grows steps)

theorem processAll_tracked (followed : Followed rules rule limit)
    {inputs : List (RuntimeCandidate × (RuntimeRule → Bool))} {s : RuntimeState κ} {nowMs : Int}
    (ordered : (inputs.map fun input => input.1.occurredAtMs).Pairwise (· ≤ ·))
    (after_now : ∀ input ∈ inputs, nowMs ≤ input.1.occurredAtMs)
    (real : ∀ input ∈ inputs, input.1.trigger ≠ .test)
    (fits : (processAll host rules s inputs).rates.Fits) (known : s.rates.Known)
    (tracked : Tracked limit rule nowMs s.rates) :
    ∃ lastMs, Tracked limit rule lastMs (processAll host rules s inputs).rates := by
  induction inputs generalizing s nowMs with
  | nil => exact ⟨nowMs, tracked⟩
  | cons input inputs ih =>
    rw [List.map_cons, List.pairwise_cons] at ordered
    obtain ⟨normalized, trigger, time, steps⟩ : ∃ normalized : RuntimeCandidate,
        normalized.trigger = input.1.trigger ∧
        normalized.occurredAtMs = input.1.occurredAtMs ∧
        RateSteps rules normalized s.rates
          (s.process host rules input.1 input.2).rates := process_rates s input.2
    have now := tracked.later (after_now input List.mem_cons_self)
    rw [← time] at now
    have realNow : normalized.trigger ≠ .test := trigger ▸ real input List.mem_cons_self
    have fitsNow : (s.process host rules input.1 input.2).rates.Fits :=
      fits.of_subset (processAll_grows _ inputs)
    have next := RateSteps.tracked steps fitsNow known followed realNow now
    rw [time] at next
    refine ih ordered.2 ?_ ?_ fits (RateSteps.known steps known) next
    · intro later laterMem
      exact ordered.1 _ (List.mem_map.mpr ⟨later, laterMem, rfl⟩)
    · intro later laterMem
      exact real later (List.mem_cons_of_mem _ laterMem)

/-- A limit on a rule's notifications bounds them: no interval of its length holds more than
twice its maximum, if no rule uses its counter with a shorter window and no tests are
processed as candidates. -/
theorem created_within_limit (host : Host κ) (ids : (rules.map fun rule => rule.id).Nodup)
    (valid : ∀ rule ∈ rules, rule.LimitsValid)
    (inputs : List (RuntimeCandidate × (RuntimeRule → Bool)))
    (ordered : (inputs.map fun input => input.1.occurredAtMs).Pairwise (· ≤ ·))
    (keys : (processAll host rules empty inputs).usedKeys.dedup.length ≤ 4096)
    (ruleMem : rule ∈ rules) (mem : limit ∈ ruleLimits rule)
    (longest : NoShorter rules rule limit)
    (real : ∀ input ∈ inputs, input.1.trigger ≠ .test) (first : Int) :
    FixedWindow.within first (first + limit.windowMs)
      (createdTimes rule.id (processAll host rules empty inputs).created) ≤ 2 * limit.maximum := by
  cases inputs with
  | nil => exact Nat.zero_le _
  | cons input inputs =>
    have initial : Tracked limit rule input.1.occurredAtMs (empty : RuntimeState κ).rates := by
      constructor
      · intro window found
        cases found
      · intro _
        rfl
    have fromFirst : ∀ later ∈ input :: inputs, input.1.occurredAtMs ≤ later.1.occurredAtMs := by
      intro later laterMem
      rcases List.mem_cons.mp laterMem with rfl | laterMem
      · exact le_refl _
      · exact (List.pairwise_cons.mp ordered).1 _ (List.mem_map.mpr ⟨later, laterMem, rfl⟩)
    have none_known : (empty : RuntimeState κ).rates.Known := by
      intro key used
      cases used
    obtain ⟨lastMs, tracked⟩ := processAll_tracked ⟨ids, valid, ruleMem, mem, longest⟩ ordered
      fromFirst real keys none_known initial
    cases found : (processAll host rules empty (input :: inputs)).rates.windows.lookup
        (limitKey limit.scope rule) with
    | some window => exact (tracked.counted window found).2.2.bounded first
    | none =>
      have nothing := tracked.unused found
      simp only [rates] at nothing
      rw [nothing]
      exact Nat.zero_le _

end Run

/-! ### A shared counter -/

def earlier (left right : Int × IntervalKey) : Prop := left.1 ≤ right.1

instance : DecidableRel earlier := fun left right => inferInstanceAs (Decidable (left.1 ≤ right.1))

instance : Std.Total earlier := ⟨fun left right => le_total left.1 right.1⟩

instance : IsTrans _ earlier := ⟨fun _ _ _ first second => le_trans first second⟩

def openHost : Host Nat where
  digest key := 2 * key.identity.length + if key.ruleId = "a" then 0 else 1
  filterMatches _ _ := true
  status _ timestampMs := if timestampMs ≤ lastTimeMs then some ⟨true, false⟩ else none
  status_le _ timestampMs _ answered := by
    split at answered
    · assumption
    · cases answered
  sortIntervals intervals := intervals.insertionSort earlier
  sortIntervals_perm intervals := List.perm_insertionSort earlier intervals
  sortIntervals_sorted intervals := List.pairwise_insertionSort earlier intervals

def ownerRule (id : String) (maximum windowMs : Nat) : RuntimeRule where
  id := id
  ownerId := "owner"
  enabled := true
  sourceIds := []
  enrichment := ⟨1000, 1, 1, false⟩
  actions := [⟨false, .browser, false, false⟩]
  failure := ⟨1, 1000, 1000⟩
  triggers := [.eventCreated]
  cooldowns := []
  rateLimits := [⟨.principal, maximum, windowMs⟩]
  criticalBypass := none

def eventAt (identity : String) (occurredAtMs : Int) : RuntimeCandidate where
  sourceId := "camera"
  sourceIdentity := identity
  lifecycle := .event
  eventKind := none
  severity := .info
  revision := 1
  stage := .preliminary
  occurredAtMs := occurredAtMs
  trigger := .eventCreated
  groupIds := []

def fiveEvents : List (RuntimeCandidate × (RuntimeRule → Bool)) :=
  [(eventAt "1" 0, fun _ => false), (eventAt "12" 1, fun _ => false),
    (eventAt "123" 2, fun _ => false), (eventAt "1234" 3, fun _ => false),
    (eventAt "12345" 4, fun _ => false)]

theorem ownerRule_valid (id : String) {maximum windowMs : Nat}
    (limited : 0 < maximum ∧ maximum ≤ 10000) (lasting : 0 < windowMs ∧ windowMs ≤ 2592000000) :
    (ownerRule id maximum windowMs).LimitsValid where
  scopes := List.nodup_singleton _
  maximum limit mem := by
    rw [List.mem_singleton.mp mem]
    exact limited
  window limit mem := by
    rw [List.mem_singleton.mp mem]
    exact lasting

/-- Two rules of one owner; the second allows two notifications in a second. -/
def sharedRules (windowMs : Nat) : List RuntimeRule :=
  [ownerRule "a" 10 windowMs, ownerRule "b" 2 1000]

theorem sharedRules_valid {windowMs : Nat} (lasting : 0 < windowMs ∧ windowMs ≤ 2592000000) :
    ∀ rule ∈ sharedRules windowMs, rule.LimitsValid := by
  intro rule mem
  rcases List.mem_cons.mp mem with rfl | mem
  · exact ownerRule_valid "a" (by decide) lasting
  · rw [List.mem_singleton.mp mem]
    exact ownerRule_valid "b" (by decide) (by decide)

/-- With a window of one millisecond the first rule restarts the counter before each event,
and the second creates five notifications within its second. -/
theorem shorter_window_restarts_counter :
    ((sharedRules 1).map fun rule => rule.id).Nodup ∧ (∀ rule ∈ sharedRules 1, rule.LimitsValid) ∧
      (fiveEvents.map fun input => input.1.occurredAtMs).Pairwise (· ≤ ·) ∧
      (processAll openHost (sharedRules 1) empty fiveEvents).usedKeys.dedup.length ≤ 4096 ∧
      ownerRule "b" 2 1000 ∈ sharedRules 1 ∧
      ⟨.principal, 2, 1000⟩ ∈ ruleLimits (ownerRule "b" 2 1000) ∧
      2 * 2 < FixedWindow.within 0 (0 + 1000)
        (createdTimes "b" (processAll openHost (sharedRules 1) empty fiveEvents).created) := by
  refine ⟨by decide, sharedRules_valid (by decide), by decide, by decide +kernel, ?_, ?_,
    by decide +kernel⟩
  · exact List.mem_cons_of_mem _ List.mem_cons_self
  · exact List.mem_cons_self

/-- With equal windows the second rule keeps to its limit. -/
theorem created_within_limit_of_equal_windows :
    (∀ input ∈ fiveEvents, input.1.trigger ≠ .test) ∧ FixedWindow.within 0 (0 + (1000 : Nat))
        (createdTimes "b" (processAll openHost (sharedRules 1000) empty fiveEvents).created)
        ≤ 2 * 2 := by
  have real : ∀ input ∈ fiveEvents, input.1.trigger ≠ .test := by
    intro input mem
    simp only [fiveEvents, List.mem_cons, List.not_mem_nil, or_false] at mem
    rcases mem with rfl | rfl | rfl | rfl | rfl <;> exact (by decide)
  have longest : NoShorter (sharedRules 1000) (ownerRule "b" 2 1000) ⟨.principal, 2, 1000⟩ := by
    intro other otherMem shared sharedMem _
    rcases List.mem_cons.mp otherMem with rfl | otherMem
    · rw [List.mem_singleton.mp sharedMem]
    · rw [List.mem_singleton.mp otherMem] at sharedMem
      rw [List.mem_singleton.mp sharedMem]
  exact ⟨real, created_within_limit openHost (by decide) (sharedRules_valid (by decide)) fiveEvents
    (by decide) (by decide +kernel) (List.mem_cons_of_mem _ List.mem_cons_self)
    List.mem_cons_self longest real 0⟩

end RuntimeState

end KeepPeek.Notifications
