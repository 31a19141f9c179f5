import KeepPeek.Access.Sessions
import KeepPeek.Lib.Run
import KeepPeek.Lib.Table
import Mathlib.Data.Finset.Card
import Mathlib.Data.List.MinMax

/-! Failed bearer authentications are counted for each address, in a table of at most
1024 windows. A full table makes room for one more address by dropping its oldest
window, and with it what was counted there. -/

namespace KeepPeek.Access

open Lib

def maxFailedAuthenticationAddresses : Nat := 1024

structure FailedAuthenticationWindow where
  startedAt : Instant
  attempts : Nat
  deriving DecidableEq

abbrev FailedAuthentication := Table IpAddr FailedAuthenticationWindow

/-- What `min_by_key` finds in a hash map: any of the windows that began first. -/
structure Oldest where
  choose : FailedAuthentication → Option IpAddr
  least : ∀ table address, choose table = some address →
    ∃ window, table.lookup address = some window ∧ ∀ other later,
      table.lookup other = some later → window.startedAt ≤ later.startedAt
  found : ∀ table, choose table = none → table = ∅

instance : CoeFun Oldest fun _ => FailedAuthentication → Option IpAddr := ⟨Oldest.choose⟩

/-- `configure_rate_limit` sets one attempt and one second at least. -/
structure RateLimit where
  attempts : Nat
  window : Nat
  positive : 0 < attempts
  small : attempts < 2 ^ 32
  lasting : 10 ^ 9 ≤ window

theorem RateLimit.elapsed_lt_iff (limit : RateLimit) {now since : Nat} :
    now - since < limit.window ↔ now < since + limit.window := by
  have := limit.lasting
  omega

inductive BearerFailure where
  | missing
  | malformed
  | invalid

inductive Refusal where
  | rateLimited
  | bearer (failure : BearerFailure)
  | credential (failure : Catalog.AuthenticationFailure)

abbrev Answer := Except Refusal StoredCredential

def Answer.limited : Answer → Bool
  | .error .rateLimited => true
  | _ => false

def Answer.granted : Answer → Bool
  | .ok _ => true
  | .error _ => false

structure Attempt where
  address : IpAddr
  presented : Except BearerFailure Fingerprint
  clock : Clock

structure AccessState where
  catalog : Catalog
  failedAuthentication : FailedAuthentication

def Attempt.verdict (attempt : Attempt) (catalog : Catalog) : Answer :=
  match attempt.presented with
  | .error failure => .error (.bearer failure)
  | .ok key => (catalog.authenticate key attempt.clock.nowMs).mapError .credential

def Attempt.peer (attempt : Attempt) : IpAddr := normalizeAddress attempt.address

abbrev Log := List (Attempt × Answer)

namespace AccessState

variable (limit : RateLimit) (oldest : Oldest)

def current (table : FailedAuthentication) (now : Instant) : FailedAuthentication :=
  table.retain fun _ window => decide (now - window.startedAt < limit.window)

def authenticationIsRateLimited (table : FailedAuthentication) (address : IpAddr)
    (now : Instant) : Bool :=
  ((current limit table now).lookup address).any fun window =>
    decide (limit.attempts ≤ window.attempts)

def crowded (table : FailedAuthentication) (address : IpAddr) : Bool :=
  decide (table.size = maxFailedAuthenticationAddresses) && (table.lookup address).isNone

def registerAuthenticationFailure (table : FailedAuthentication) (address : IpAddr)
    (now : Instant) : FailedAuthentication :=
  let table := if crowded table address then (oldest table).elim table table.erase else table
  let window := (table.lookup address).getD ⟨now, 0⟩
  table.insert address { window with attempts := min (window.attempts + 1) (2 ^ 32 - 1) }

def authenticate (state : AccessState) (attempt : Attempt) :
    AccessState × Answer :=
  let address := attempt.peer
  let table := current limit state.failedAuthentication attempt.clock.now
  if authenticationIsRateLimited limit state.failedAuthentication address attempt.clock.now then
    ({ state with failedAuthentication := table }, .error .rateLimited)
  else
    match attempt.verdict state.catalog with
    | .error refusal =>
      ({ state with
          failedAuthentication :=
            registerAuthenticationFailure oldest table address attempt.clock.now },
        .error refusal)
    | .ok credential =>
      (⟨state.catalog.replace credential.id (Catalog.used attempt.clock.nowMs),
        table.erase address⟩, .ok credential)

end AccessState

structure Watch where
  state : AccessState
  log : Log

namespace Watch

open AccessState

variable (limit : RateLimit) (oldest : Oldest)

def step (watch : Watch) (attempt : Attempt) : Watch :=
  ⟨(watch.state.authenticate limit oldest attempt).1,
    watch.log ++ [(attempt, (watch.state.authenticate limit oldest attempt).2)]⟩

/-- The attempts from an address that were not refused as rate limited. -/
def tried (address : IpAddr) (log : Log) : Nat :=
  log.countP fun entry => entry.1.peer = address ∧ entry.2.limited = false

/-- The failures of an address that were counted at a time or later. -/
def failures (address : IpAddr) (since : Instant) (log : Log) : Nat :=
  log.countP fun entry => (entry.1.peer = address ∧ entry.2.limited = false) ∧
    entry.2.granted = false ∧ since ≤ entry.1.clock.now

/-- The other addresses of which a failure was counted at a time or later. -/
def rivals (address : IpAddr) (since : Instant) (log : Log) : Finset IpAddr :=
  ((log.filter fun entry => (entry.1.peer ≠ address ∧ entry.2.limited = false) ∧
    entry.2.granted = false ∧ since ≤ entry.1.clock.now).map fun entry => entry.1.peer).toFinset

def live (watch : Watch) (attempt : Attempt) : FailedAuthentication :=
  current limit watch.state.failedAuthentication attempt.clock.now

/-- The attempt makes a full table drop the window of the address. -/
def displaces (watch : Watch) (attempt : Attempt) (address : IpAddr) : Prop :=
  crowded (watch.live limit attempt) attempt.peer ∧
    oldest (watch.live limit attempt) = some address ∧
    (attempt.verdict watch.state.catalog).granted = false

variable {limit oldest} {watch : Watch} {attempt : Attempt} {address : IpAddr} {since : Instant}
  {log : Log} {answer : Answer}

theorem not_limited {c : Catalog} (verdict : attempt.verdict c = answer) :
    answer.limited = false := by
  subst verdict
  unfold Attempt.verdict
  split
  · rfl
  · next key _ => cases c.authenticate key attempt.clock.nowMs <;> rfl

theorem lookup_register_self (table : FailedAuthentication) (now : Instant) :
    (registerAuthenticationFailure oldest table address now).lookup address =
      some ⟨((table.lookup address).getD ⟨now, 0⟩).startedAt,
      min (((table.lookup address).getD ⟨now, 0⟩).attempts + 1) (2 ^ 32 - 1)⟩ := by
  unfold registerAuthenticationFailure
  rw [AList.lookup_insert]
  split
  · next full =>
    have fresh : table.lookup address = none := by
      simp only [crowded, Bool.and_eq_true, Option.isNone_iff_eq_none] at full
      exact full.2
    have still : ((oldest table).elim table table.erase).lookup address = none := by
      cases oldest table with
      | none => exact fresh
      | some dropped =>
        by_cases same : address = dropped
        · rw [same]
          exact AList.lookup_erase _ _
        · exact (AList.lookup_erase_ne same).trans fresh
    rw [still, fresh]
  · rfl

theorem lookup_register_ne {table : FailedAuthentication} {other : IpAddr} (now : Instant)
    (ne : address ≠ other) :
    (registerAuthenticationFailure oldest table other now).lookup address =
      if crowded table other ∧ oldest table = some address then none
      else table.lookup address := by
  unfold registerAuthenticationFailure
  rw [AList.lookup_insert_ne ne]
  cases full : crowded table other with
  | false => simp
  | true =>
    cases chosen : oldest table with
    | none => simp
    | some dropped =>
      by_cases same : dropped = address
      · subst same
        simp
      · simp [same, AList.lookup_erase_ne (Ne.symm same)]

inductive Fate (limit : RateLimit) (oldest : Oldest) (watch : Watch)
    (attempt : Attempt) (address : IpAddr) (answer : Answer) :
    Option FailedAuthenticationWindow → Prop
  | idle (refused : attempt.peer = address → answer.limited = true) :
    Fate limit oldest watch attempt address answer ((watch.live limit attempt).lookup address)
  | displaced (other : attempt.peer ≠ address)
    (gone : watch.displaces limit oldest attempt address) :
    Fate limit oldest watch attempt address answer none
  | counted {window : FailedAuthenticationWindow} (own : attempt.peer = address)
    (passed : answer.limited = false) (denied : answer.granted = false)
    (before : ((watch.live limit attempt).lookup address).getD ⟨attempt.clock.now, 0⟩ = window)
    (room : window.attempts < limit.attempts) :
    Fate limit oldest watch attempt address answer (some ⟨window.startedAt, window.attempts + 1⟩)
  | cleared (own : attempt.peer = address) (granted : answer.granted = true) :
    Fate limit oldest watch attempt address answer none

theorem answer_eq (limit : RateLimit) (oldest : Oldest) (state : AccessState) (attempt : Attempt) :
    (state.authenticate limit oldest attempt).2 =
      if authenticationIsRateLimited limit state.failedAuthentication attempt.peer attempt.clock.now
      then .error .rateLimited else attempt.verdict state.catalog := by
  unfold authenticate
  dsimp only
  split
  · rfl
  · split <;> exact Eq.symm ‹_›

theorem fate (limit : RateLimit) (oldest : Oldest) (watch : Watch)
    (attempt : Attempt) (address : IpAddr) : Fate limit oldest watch attempt address
    (watch.state.authenticate limit oldest attempt).2
    ((watch.step limit oldest attempt).state.failedAuthentication.lookup address) := by
  simp only [step, authenticate]
  cases refused : authenticationIsRateLimited limit watch.state.failedAuthentication attempt.peer
      attempt.clock.now with
  | true => exact .idle fun _ => rfl
  | false =>
    cases verdict : attempt.verdict watch.state.catalog with
    | error refusal =>
      by_cases own : attempt.peer = address
      · subst own
        have room : (((watch.live limit attempt).lookup attempt.peer).getD
            ⟨attempt.clock.now, 0⟩).attempts < limit.attempts := by
          unfold authenticationIsRateLimited at refused
          unfold live
          cases found : (current limit watch.state.failedAuthentication attempt.clock.now).lookup
              attempt.peer with
          | none => exact limit.positive
          | some window => simpa [found] using refused
        -- The count stays below the limit, so it never saturates.
        have exact_count : min ((((watch.live limit attempt).lookup attempt.peer).getD
            ⟨attempt.clock.now, 0⟩).attempts + 1) (2 ^ 32 - 1) = _ :=
          Nat.min_eq_left (by have := limit.small; omega)
        have counted : Fate limit oldest watch attempt attempt.peer (.error refusal) _ :=
          .counted rfl (not_limited verdict) rfl rfl room
        rw [← exact_count] at counted
        simpa [lookup_register_self, live] using counted
      · have other := Ne.symm own
        simp only [Bool.false_eq_true, if_false, lookup_register_ne _ other]
        split
        · next gone => exact .displaced own ⟨gone.1, gone.2, by rw [verdict]; rfl⟩
        · exact .idle fun same => absurd same own
    | ok credential =>
      simp only [Bool.false_eq_true, if_false]
      by_cases own : attempt.peer = address
      · rw [own, AList.lookup_erase]
        exact .cleared own rfl
      · rw [AList.lookup_erase_ne (Ne.symm own)]
        exact .idle fun same => absurd same own

theorem tried_append (log : Log) (answer : Answer) :
    tried address (log ++ [(attempt, answer)]) = tried address log +
      if attempt.peer = address ∧ answer.limited = false then 1 else 0 := by
  simp [tried, List.countP_append, List.countP_singleton]

theorem failures_append (since : Instant) (log : Log) (answer : Answer) :
    failures address since (log ++ [(attempt, answer)]) =
      failures address since log + if (attempt.peer = address ∧ answer.limited = false) ∧
      answer.granted = false ∧ since ≤ attempt.clock.now then 1 else 0 := by
  simp [failures, List.countP_append, List.countP_singleton]

/-- The window counts every attempt of the address that was let through. -/
def Counting (limit : RateLimit) (address : IpAddr) (since : Instant) (watch : Watch) : Prop :=
  watch.state.failedAuthentication.lookup address = some ⟨since, tried address watch.log⟩ ∧
    tried address watch.log ≤ limit.attempts

/-- The attempt falls into the window that began at `since`; it neither signs the
address in nor costs it that window. -/
def Within (limit : RateLimit) (oldest : Oldest)
    (address : IpAddr) (since : Instant) (watch : Watch) (attempt : Attempt) : Prop :=
  attempt.clock.now < since + limit.window ∧
    (attempt.peer = address →
      (watch.state.authenticate limit oldest attempt).2.granted = false) ∧
    ¬watch.displaces limit oldest attempt address

theorem Counting.step (counting : Counting limit address since watch)
    (within : Within limit oldest address since watch attempt) :
    Counting limit address since (watch.step limit oldest attempt) := by
  have found : (watch.live limit attempt).lookup address =
      some ⟨since, tried address watch.log⟩ := by
    rw [live, current, Table.lookup_retain, counting.1, Option.filter_some, if_pos]
    exact decide_eq_true (limit.elapsed_lt_iff.mpr within.1)
  have bounded := counting.2
  have passed := fate limit oldest watch attempt address
  unfold Counting
  generalize (watch.step limit oldest attempt).state.failedAuthentication.lookup address = window
    at passed
  simp only [Watch.step, tried_append]
  cases passed with
  | idle refused =>
    rw [found, if_neg]
    · exact ⟨rfl, bounded⟩
    · rintro ⟨own, passed⟩
      rw [refused own] at passed
      cases passed
  | displaced _ gone => exact absurd gone within.2.2
  | counted own passed denied before room =>
    rw [found] at before
    cases before
    rw [if_pos ⟨own, passed⟩]
    exact ⟨rfl, room⟩
  | cleared own granted =>
    rw [within.2.1 own] at granted
    cases granted

theorem Counting.first {state : AccessState}
    (fresh : (Watch.live limit ⟨state, []⟩ attempt).lookup attempt.peer = none)
    (denied : (attempt.verdict state.catalog).granted = false) :
    Counting limit attempt.peer attempt.clock.now
      (Watch.step limit oldest ⟨state, []⟩ attempt) := by
  have answered : (state.authenticate limit oldest attempt).2 = attempt.verdict state.catalog := by
    unfold Watch.live at fresh
    rw [answer_eq, authenticationIsRateLimited, fresh]
    rfl
  have passed := fate limit oldest ⟨state, []⟩ attempt attempt.peer
  unfold Counting
  generalize (Watch.step limit oldest ⟨state, []⟩ attempt).state.failedAuthentication.lookup
    attempt.peer = window at passed
  simp only [Watch.step, tried_append, answered] at passed ⊢
  cases passed with
  | idle refused =>
    have := refused rfl
    rw [not_limited rfl] at this
    cases this
  | displaced other => exact absurd rfl other
  | counted own passed denied before room =>
    rw [fresh] at before
    cases before
    rw [if_pos ⟨trivial, passed⟩]
    exact ⟨rfl, room⟩
  | cleared own granted =>
    rw [denied] at granted
    cases granted

/-- A window began with a failure of its own address and counts no older ones. -/
def Sound (address : IpAddr) (watch : Watch) : Prop :=
  ∀ window, watch.state.failedAuthentication.lookup address = some window →
    window.attempts ≤ failures address window.startedAt watch.log ∧
      ∃ entry ∈ watch.log, (entry.1.peer = address ∧ entry.2.limited = false) ∧
        entry.2.granted = false ∧ entry.1.clock.now = window.startedAt

def Later (watch : Watch) (attempt : Attempt) : Prop :=
  ∀ entry ∈ watch.log, entry.1.clock.now ≤ attempt.clock.now

theorem Sound.live (sound : Sound address watch) {window : FailedAuthenticationWindow}
    (found : (watch.live limit attempt).lookup address = some window) :
    window.attempts ≤ failures address window.startedAt watch.log ∧
      ∃ entry ∈ watch.log, (entry.1.peer = address ∧ entry.2.limited = false) ∧
        entry.2.granted = false ∧ entry.1.clock.now = window.startedAt := by
  rw [Watch.live, current, Table.lookup_retain] at found
  exact sound window (Option.filter_eq_some_iff.mp found).1

theorem Sound.step (sound : Sound address watch) (later : watch.Later attempt) :
    Sound address (watch.step limit oldest attempt) := by
  have passed := fate limit oldest watch attempt address
  intro window found
  rw [found] at passed
  simp only [Watch.step, failures_append, List.mem_append]
  generalize here : some window = after at passed
  cases passed with
  | idle =>
    rcases sound.live here.symm with ⟨counted, entry, mem, began⟩
    exact ⟨Nat.le_add_right_of_le counted, entry, .inl mem, began⟩
  | displaced => cases here
  | cleared => cases here
  | counted own passed denied before room =>
    cases here
    cases old : (watch.live limit attempt).lookup address with
    | none =>
      rw [old] at before
      cases before
      rw [if_pos ⟨⟨own, passed⟩, denied, le_refl _⟩]
      exact ⟨Nat.le_add_left _ _, _, .inr List.mem_cons_self, ⟨own, passed⟩, denied, rfl⟩
    | some window =>
      rw [old] at before
      cases before
      rcases sound.live old with ⟨counted, entry, mem, who, failed, began⟩
      rw [if_pos ⟨⟨own, passed⟩, denied, began ▸ later entry mem⟩]
      exact ⟨Nat.succ_le_succ counted, entry, .inl mem, who, failed, began⟩

theorem sound_of_run {catalog : Catalog} {attempts : List Attempt}
    (later : AllSteps (step limit oldest) Later ⟨⟨catalog, ∅⟩, []⟩ attempts) (address : IpAddr) :
    Sound address (attempts.foldl (step limit oldest) ⟨⟨catalog, ∅⟩, []⟩) :=
  AllSteps.foldl_invariant (fun _ _ => Sound.step) (by rintro window ⟨⟩) later

theorem mem_rivals {other : IpAddr} : other ∈ rivals address since log ↔
    ∃ entry ∈ log, ((entry.1.peer ≠ address ∧ entry.2.limited = false) ∧
      entry.2.granted = false ∧ since ≤ entry.1.clock.now) ∧ entry.1.peer = other := by
  simp [rivals, and_assoc]

/-- Every window of the full table began with a failure, none before the oldest, and
one more address failed to displace that. -/
theorem rivals_of_displaces (sound : ∀ address, Sound address watch) (later : watch.Later attempt)
    {window : FailedAuthenticationWindow}
    (found : (watch.live limit attempt).lookup address = some window)
    (gone : watch.displaces limit oldest attempt address) :
    maxFailedAuthenticationAddresses ≤
      (rivals address window.startedAt (watch.step limit oldest attempt).log).card := by
  obtain ⟨full, chosen, denied⟩ := gone
  simp only [crowded, Bool.and_eq_true, decide_eq_true_eq, Option.isNone_iff_eq_none] at full
  obtain ⟨size, fresh⟩ := full
  have least : ∀ other entry, (watch.live limit attempt).lookup other = some entry →
      window.startedAt ≤ entry.startedAt := by
    obtain ⟨first, held, least⟩ := oldest.least _ _ chosen
    rw [found] at held
    cases held
    exact least
  have answered : (watch.state.authenticate limit oldest attempt).2 =
      attempt.verdict watch.state.catalog := by
    unfold Watch.live at fresh
    rw [answer_eq, authenticationIsRateLimited, fresh]
    rfl
  have newcomer : attempt.peer ∈
      rivals address window.startedAt (watch.step limit oldest attempt).log := by
    obtain ⟨-, entry, mem, -, -, began⟩ := (sound address).live found
    refine mem_rivals.mpr ⟨(attempt, _), List.mem_append_right _ List.mem_cons_self,
      ⟨⟨?_, ?_⟩, ?_, began ▸ later entry mem⟩, rfl⟩
    · rintro same
      rw [same, found] at fresh
      cases fresh
    · rw [answered]
      exact not_limited rfl
    · rw [answered]
      exact denied
  have known : (watch.live limit attempt).keys.toFinset.erase address ⊆
      rivals address window.startedAt (watch.step limit oldest attempt).log := by
    intro other mem
    obtain ⟨ne, mem⟩ := Finset.mem_erase.mp mem
    obtain ⟨entry, held⟩ := Table.exists_lookup (AList.mem_keys.mpr (List.mem_toFinset.mp mem))
    obtain ⟨-, failure, listed, ⟨who, passed⟩, failed, began⟩ := (sound other).live held
    exact mem_rivals.mpr ⟨failure, List.mem_append_left _ listed,
      ⟨⟨who ▸ ne, passed⟩, failed, began ▸ least other entry held⟩, who⟩
  have apart : attempt.peer ∉ (watch.live limit attempt).keys.toFinset.erase address := by
    intro mem
    have mem := List.mem_toFinset.mp (Finset.mem_of_mem_erase mem)
    exact AList.lookup_eq_none.mp fresh (AList.mem_keys.mpr mem)
  have own : address ∈ (watch.live limit attempt).keys.toFinset :=
    List.mem_toFinset.mpr (AList.mem_keys.mp (Table.mem_of_lookup found))
  calc maxFailedAuthenticationAddresses
      = (insert attempt.peer ((watch.live limit attempt).keys.toFinset.erase address)).card := by
        rw [Finset.card_insert_of_notMem apart, Finset.card_erase_add_one own,
          List.toFinset_card_of_nodup (AList.keys_nodup _), ← size]
        rfl
    _ ≤ _ := Finset.card_le_card (Finset.insert_subset newcomer known)

def strictest : RateLimit := ⟨1, 10 ^ 9, by decide, by decide, by decide⟩

def firstOldest : Oldest where
  choose table := (table.entries.argmin fun entry => entry.2.startedAt).map (·.1)
  least table address chosen := by
    obtain ⟨entry, first, rfl⟩ := Option.map_eq_some_iff.mp chosen
    refine ⟨entry.2, AList.mem_lookup_iff.mpr (List.argmin_mem first), ?_⟩
    intro other later held
    exact List.le_of_mem_argmin (f := fun entry => entry.2.startedAt)
      (AList.mem_lookup_iff.mp held) first
  found table none := by
    have empty := List.argmin_eq_none.mp (Option.map_eq_none_iff.mp none)
    exact AList.ext empty

theorem firstOldest_eq (table : FailedAuthentication) : firstOldest table =
    (table.entries.argmin fun entry => entry.2.startedAt).map (·.1) := rfl

def host (n : Nat) : IpAddr := .v4 (BitVec.ofNat 32 n)

def guess (n : Nat) (now : Instant) : Attempt := ⟨host n, .ok 0, ⟨now, 0⟩⟩

def attemptWith (key : Fingerprint) : Attempt := ⟨host 7, .ok key, ⟨1, 0⟩⟩

def keyholder : StoredCredential :=
  { StoredCredential.legacyCredential 1 7 0 with name := [], description := none }

def flooded : Nat → FailedAuthentication
  | 0 => (∅ : FailedAuthentication).insert (host 1024) ⟨0, 1⟩
  | n + 1 => (flooded n).insert (host n) ⟨1, 1⟩

theorem host_inj {m n : Nat} (hm : m ≤ 1024) (hn : n ≤ 1024) : host m = host n ↔ m = n := by
  simp only [host, IpAddr.v4.injEq, ← BitVec.toNat_inj, BitVec.toNat_ofNat]
  omega

theorem lookup_flooded {n m : Nat} (hn : n ≤ 1024) (hm : m ≤ 1024) :
    (flooded n).lookup (host m) =
      if m = 1024 then some ⟨0, 1⟩ else if m < n then some ⟨1, 1⟩ else none := by
  induction n with
  | zero =>
    by_cases same : m = 1024
    · rw [flooded, same, AList.lookup_insert, if_pos rfl]
    · rw [flooded, AList.lookup_insert_ne ((host_inj hm le_rfl).not.mpr same)]
      simp [same]
  | succ n ih =>
    by_cases same : m = n
    · rw [flooded, same, AList.lookup_insert, if_neg (by omega), if_pos (by omega)]
    · rw [flooded, AList.lookup_insert_ne ((host_inj hm (by omega)).not.mpr same), ih (by omega)]
      grind

theorem notMem_flooded {n : Nat} (hn : n < 1024) : host n ∉ flooded n := by
  rw [← AList.lookup_eq_none, lookup_flooded hn.le hn.le, if_neg hn.ne, if_neg (lt_irrefl n)]

theorem size_flooded {n : Nat} (hn : n ≤ 1024) : (flooded n).size = n + 1 := by
  induction n with
  | zero => rfl
  | succ n ih => rw [flooded, Table.size_insert, if_neg (notMem_flooded hn), ih (by omega)]

theorem firstOldest_flooded {n : Nat} (hn : n ≤ 1024) :
    (flooded n).entries.argmin (fun entry => entry.2.startedAt) = some ⟨host 1024, 0, 1⟩ := by
  induction n with
  | zero => rfl
  | succ n ih =>
    rw [flooded, AList.entries_insert_of_notMem (notMem_flooded hn), List.argmin_cons,
      ih (by omega)]
    rfl

theorem current_strictest (table : FailedAuthentication) {now : Nat} (early : now < 10 ^ 9) :
    current strictest table now = table := by
  apply AList.ext
  apply List.filter_eq_self.mpr
  intro entry _
  exact decide_eq_true (Nat.lt_of_le_of_lt (Nat.sub_le now entry.2.startedAt) early)

theorem flood {n : Nat} (hn : n < 1024) :
    ∃ log, tried (host 1024) log = 1 ∧
      (guess 1024 0 :: (List.range n).map (guess · 1)).foldl (step strictest firstOldest)
      ⟨⟨[], ∅⟩, []⟩ = ⟨⟨[], flooded n⟩, log⟩ := by
  induction n with
  | zero => exact ⟨_, rfl, rfl⟩
  | succ n ih =>
    rcases ih (by omega) with ⟨log, once, run⟩
    have fresh : (flooded n).lookup (guess n 1).peer = none :=
      AList.lookup_eq_none.mpr (notMem_flooded (by omega))
    have roomy : crowded (flooded n) (guess n 1).peer = false := by
      rw [crowded, size_flooded (by omega), maxFailedAuthenticationAddresses,
        decide_eq_false (by omega)]
      rfl
    rw [List.range_succ, List.map_append, ← List.cons_append, List.foldl_append, run]
    refine ⟨log ++ [(guess n 1, .error (.credential .invalid))], ?_, ?_⟩
    · rw [tried_append, if_neg, once]
      rintro ⟨same, -⟩
      have := (host_inj (by omega) le_rfl).mp same
      omega
    · have now : (guess n 1).clock.now = 1 := rfl
      have verdict : (guess n 1).verdict [] = .error (.credential .invalid) := rfl
      simp [step, authenticate, now, verdict, authenticationIsRateLimited, current_strictest,
        fresh, registerAuthenticationFailure, roomy, flooded]
      rfl

/-- One more address costs the oldest its window, and it may guess again. -/
theorem tried_after_flood {table : FailedAuthentication} {n : Nat} (other : host 1024 ≠ host n)
    (fresh : table.lookup (guess n 1).peer = none) (full : table.size = 1024)
    (first : firstOldest table = some (host 1024)) :
    tried (host 1024) ([guess n 1, guess 1024 2].foldl (step strictest firstOldest)
      ⟨⟨[], table⟩, log⟩).log = tried (host 1024) log + 1 := by
  have now : (guess n 1).clock.now = 1 := rfl
  have verdict : (guess n 1).verdict [] = .error (.credential .invalid) := rfl
  have gone : (authenticate strictest firstOldest ⟨[], table⟩
      (guess n 1)).1.failedAuthentication.lookup (host 1024) = none := by
    have ne : host 1024 ≠ (guess n 1).peer := other
    simp [authenticate, now, verdict, authenticationIsRateLimited, current_strictest, fresh,
      lookup_register_ne _ ne, crowded, full, first, maxFailedAuthenticationAddresses]
  simp only [List.foldl_cons, List.foldl_nil, step]
  generalize authenticate strictest firstOldest ⟨[], table⟩ (guess n 1) = after at gone ⊢
  have compared : (authenticate strictest firstOldest after.1 (guess 1024 2)).2.limited =
      false := by
    have clean : (current strictest after.1.failedAuthentication (guess 1024 2).clock.now).lookup
        (guess 1024 2).peer = none := by
      rw [current_strictest _ (by decide)]
      exact gone
    rw [answer_eq, authenticationIsRateLimited, clean, if_neg (by decide)]
    exact not_limited rfl
  have own : (guess 1024 2).peer = host 1024 := rfl
  rw [tried_append, tried_append, if_neg (fun same => other same.1.symm), if_pos ⟨own, compared⟩]

end Watch

end KeepPeek.Access
