import KeepPeek.Access.Identities
import KeepPeek.Lib.TreeMap

/-! Browser sessions: what a cookie stands for.

A session is bound to one identity at one revision, or to none while its browser
is about to sign in. It ends when it is revoked, when it is idle or when it is too
old; its number is drawn at random and never drawn again. -/

namespace KeepPeek.Access

open Std (ExtTreeMap)

/-- The monotonic clock, in nanoseconds. -/
abbrev Instant := Nat

structure Clock where
  now : Instant
  nowMs : Millis
  deriving DecidableEq

instance : LE Clock where
  le earlier later := earlier.now ≤ later.now ∧ earlier.nowMs ≤ later.nowMs

theorem Clock.le_trans {first second third : Clock} (h : first ≤ second) (h' : second ≤ third) :
    first ≤ third :=
  ⟨Nat.le_trans h.1 h'.1, Int.le_trans h.2 h'.2⟩

def sessionLimit : Nat := 4096
def bootstrapLimit : Nat := 256
def bootstrapLifetime : Nat := 300 * 10 ^ 9

structure Binding where
  identityId : Uuid
  revision : Nat
  deriving DecidableEq, Repr

structure Limits where
  idle : Nat
  absolute : Nat
  perIdentity : Nat
  perAddress : Nat

structure Session where
  id : Uuid
  binding : Option Binding
  origin : Text
  address : IpAddr
  createdAtMs : Millis
  absoluteExpiresAtMs : Millis
  handleHash : Fingerprint
  csrf : Text
  createdAt : Instant
  lastActivity : Instant

/-- A cookie: the session it names and its digest. -/
structure Handle where
  id : Uuid
  hash : Fingerprint

structure Draw where
  id : Uuid
  handleHash : Fingerprint
  csrf : Text

inductive SessionError where
  | capacity
  | addressLimit
  | identityLimit
  | bootstrapCapacity
  | expiryOverflow
  | clock
  | unavailable
  | expired
  deriving DecidableEq, Repr

/-- `a.saturating_duration_since(b)` is the difference of the natural numbers. -/
def Session.expired (session : Session) (now : Instant) (limits : Limits) : Bool :=
  let idle := if session.binding.isSome then limits.idle else bootstrapLifetime
  let absolute := if session.binding.isSome then limits.absolute else bootstrapLifetime
  absolute ≤ now - session.createdAt || idle ≤ now - session.lastActivity

theorem Session.expired_mono {session : Session} {limits : Limits} {earlier later : Nat}
    (h : earlier ≤ later) (live : session.expired later limits = false) :
    session.expired earlier limits = false := by
  simp only [expired, Bool.or_eq_false_iff, decide_eq_false_iff_not, Nat.not_le] at live ⊢
  omega

def Limits.lifetime (limits : Limits) (binding : Option Binding) : Nat :=
  if binding.isSome then limits.absolute else bootstrapLifetime

structure Sessions where
  records : ExtTreeMap Uuid Session
  limits : Limits

namespace Sessions

def new (limits : Limits) : Sessions := ⟨∅, limits⟩

def count (sessions : Sessions) (select : Session → Bool) : Nat :=
  sessions.records.toList.countP fun entry => select entry.2

def expire (sessions : Sessions) (now : Instant) : Sessions :=
  { sessions with
    records := sessions.records.filter fun _ session => !session.expired now sessions.limits }

def requireCapacity (sessions : Sessions) (binding : Option Binding) (address : IpAddr) :
    Except SessionError Unit :=
  if sessionLimit ≤ sessions.records.size then .error .capacity
  else if sessions.limits.perAddress ≤ sessions.count (fun session =>
    session.address = address) then
    .error .addressLimit
  else
    match binding with
    | some binding =>
      if sessions.limits.perIdentity ≤ sessions.count (fun session =>
          session.binding.any fun other => other.identityId == binding.identityId) then
        .error .identityLimit
      else .ok ()
    | none =>
      if bootstrapLimit ≤ sessions.count (fun session => session.binding.isNone) then
        .error .bootstrapCapacity
      else .ok ()

/-- Start a session. The expired ones go first, also when there is no room. -/
def issue (sessions : Sessions) (binding : Option Binding) (origin : Text) (address : IpAddr)
    (clock : Clock) (draw : Draw) : Sessions × Except SessionError Draw :=
  let sessions := sessions.expire clock.now
  let address := normalizeAddress address
  match sessions.requireCapacity binding address with
  | .error refusal => (sessions, .error refusal)
  | .ok _ =>
    let expiresAtMs := clock.nowMs + sessions.limits.lifetime binding / 10 ^ 6
    if 2 ^ 63 ≤ expiresAtMs then (sessions, .error .expiryOverflow)
    else if clock.nowMs < 0 then (sessions, .error .clock)
    else
      let session : Session := {
        id := draw.id, binding, origin, address, createdAtMs := clock.nowMs,
        absoluteExpiresAtMs := expiresAtMs, handleHash := draw.handleHash, csrf := draw.csrf,
        createdAt := clock.now, lastActivity := clock.now }
      ({ sessions with records := sessions.records.insert draw.id session }, .ok draw)

/-- A new session in the place of another; the other stays when there is no room. -/
def rotate (sessions : Sessions) (prior : Uuid) (binding : Binding) (clock : Clock) (draw : Draw) :
    Sessions × Except SessionError Draw :=
  match sessions.records[prior]? with
  | none => (sessions, .error .unavailable)
  | some previous =>
    let without := { sessions with records := sessions.records.erase prior }
    if previous.expired clock.now sessions.limits then (without, .error .expired)
    else
      match without.issue (some binding) previous.origin previous.address clock draw with
      | (issued, .ok drawn) => (issued, .ok drawn)
      | (refused, .error refusal) =>
        ({ refused with records := refused.records.insert prior previous }, .error refusal)

def lookup (sessions : Sessions) (handle : Handle) (origin : Text) (now : Instant) :
    Sessions × Option Session :=
  match sessions.records[handle.id]? with
  | none => (sessions, none)
  | some session =>
    if session.expired now sessions.limits then
      ({ sessions with records := sessions.records.erase handle.id }, none)
    else if session.origin ≠ origin || session.handleHash ≠ handle.hash then (sessions, none)
    else (sessions, some session)

def authenticate (sessions : Sessions) (handle : Handle) (origin : Text) (now : Instant) :
    Sessions × Option Session :=
  match sessions.lookup handle origin now with
  | (sessions, none) => (sessions, none)
  | (sessions, some session) =>
    let session := { session with lastActivity := max session.lastActivity now }
    ({ sessions with records := sessions.records.insert handle.id session }, some session)

def active (sessions : Sessions) (id : Uuid) (binding : Binding) (now : Instant) : Bool :=
  sessions.records[id]?.any fun session =>
    session.binding == some binding && !session.expired now sessions.limits

def touch (sessions : Sessions) (id : Uuid) (binding : Binding) (now : Instant) :
    Sessions × Bool :=
  match sessions.records[id]? with
  | none => (sessions, false)
  | some session =>
    if sessions.active id binding now then
      ({ sessions with records := sessions.records.insert id { session with lastActivity := now } },
        true)
    else (sessions, false)

def revoke (sessions : Sessions) (id : Uuid) : Sessions :=
  { sessions with records := sessions.records.erase id }

def revokeIdentity (sessions : Sessions) (identity : Uuid) : Sessions :=
  { sessions with
    records := sessions.records.filter fun _ session =>
      !session.binding.any fun binding => binding.identityId == identity }

end Sessions

/-! What becomes of a session from one moment to a later one. -/

/-- The later record of a session: it stands for the same and was used since only if
it had not expired at the earlier moment. -/
structure Session.Follows (limits : Limits) (earlier : Instant) (before after : Session) :
    Prop where
  binding : after.binding = before.binding
  createdAt : after.createdAt = before.createdAt
  used : after.lastActivity = before.lastActivity ∨ before.expired earlier limits = false

theorem Session.Follows.refl (limits : Limits) (earlier : Instant) (session : Session) :
    session.Follows limits earlier session :=
  ⟨rfl, rfl, .inl rfl⟩

theorem Session.expired_congr {left right : Session} (binding : right.binding = left.binding)
    (createdAt : right.createdAt = left.createdAt)
    (lastActivity : right.lastActivity = left.lastActivity) (now : Instant) (limits : Limits) :
    right.expired now limits = left.expired now limits := by
  unfold expired
  rw [binding, createdAt, lastActivity]

theorem Session.Follows.trans {limits : Limits} {earlier later : Instant}
    (ordered : earlier ≤ later) {first second third : Session}
    (h : first.Follows limits earlier second) (h' : second.Follows limits later third) :
    first.Follows limits earlier third := by
  refine ⟨h'.binding.trans h.binding, h'.createdAt.trans h.createdAt, ?_⟩
  rcases h.used with idle | live
  · rcases h'.used with idle' | live'
    · exact .inl (idle'.trans idle)
    · right
      rw [Session.expired_congr h.binding h.createdAt idle] at live'
      exact Session.expired_mono ordered live'
  · exact .inr live

theorem Session.Follows.live {limits : Limits} {earlier later : Instant} (ordered : earlier ≤ later)
    {before after : Session} (h : before.Follows limits earlier after)
    (live : after.expired later limits = false) : before.expired earlier limits = false := by
  rcases h.used with idle | used
  · rw [Session.expired_congr h.binding h.createdAt idle] at live
    exact Session.expired_mono ordered live
  · exact used

/-- Every record of the later table is new or follows one of the earlier table. -/
def Sessions.Follows (earlier : Instant) (fresh : Uuid → Prop) (before after : Sessions) : Prop :=
  after.limits = before.limits ∧
    ∀ id session', after.records[id]? = some session' → fresh id ∨
      ∃ session, before.records[id]? = some session ∧
        session.Follows before.limits earlier session'

namespace Sessions

variable {earlier : Instant} {fresh : Uuid → Prop}

theorem Follows.refl (earlier : Instant) (fresh : Uuid → Prop) (sessions : Sessions) :
    sessions.Follows earlier fresh sessions :=
  ⟨rfl, fun _ session' held => .inr ⟨session', held, .refl _ _ _⟩⟩

theorem Follows.imp {other : Uuid → Prop} (h : ∀ id, fresh id → other id) {before after : Sessions}
    (follows : before.Follows earlier fresh after) : before.Follows earlier other after := by
  refine ⟨follows.1, ?_⟩
  intro id session' held
  rcases follows.2 id session' held with drawn | known
  · exact .inl (h id drawn)
  · exact .inr known

theorem Follows.trans {later : Instant} (ordered : earlier ≤ later) {first second third : Sessions}
    (h : first.Follows earlier fresh second) (h' : second.Follows later fresh third) :
    first.Follows earlier fresh third := by
  refine ⟨h'.1.trans h.1, ?_⟩
  intro id session'' held
  rcases h'.2 id session'' held with drawn | ⟨session', held', follows'⟩
  · exact .inl drawn
  rcases h.2 id session' held' with drawn | ⟨session, held, follows⟩
  · exact .inl drawn
  · rw [h.1] at follows'
    exact .inr ⟨session, held, follows.trans ordered follows'⟩

theorem Follows.of_subset {before after : Sessions} (limits : after.limits = before.limits)
    (subset : ∀ (id : Uuid) (session : Session), after.records[id]? = some session →
      before.records[id]? = some session) : before.Follows earlier fresh after :=
  ⟨limits, fun id session' held => .inr ⟨session', subset id session' held, .refl _ _ _⟩⟩

theorem Follows.insert {before after : Sessions} (h : before.Follows earlier fresh after)
    {id : Uuid} {session' : Session}
    (replaced : fresh id ∨ ∃ session, before.records[id]? = some session ∧
      session.Follows before.limits earlier session') :
    before.Follows earlier fresh { after with records := after.records.insert id session' } := by
  refine ⟨h.1, ?_⟩
  intro other session'' held
  rcases Lib.getElem?_insert_cases held with ⟨rfl, rfl⟩ | ⟨-, kept⟩
  · exact replaced
  · exact h.2 other session'' kept

theorem lookup_eq_some {sessions after : Sessions} {handle : Handle} {origin : Text} {now : Instant}
    {session : Session} (h : sessions.lookup handle origin now = (after, some session)) :
    after = sessions ∧ sessions.records[handle.id]? = some session ∧
      session.expired now sessions.limits = false := by
  unfold lookup at h
  split at h
  · cases h
  split at h
  · cases h
  split at h
  · cases h
  · cases h
    rename_i held live _
    exact ⟨rfl, held, by simpa using live⟩

section

variable (sessions : Sessions)
include sessions

theorem follows_expire (now : Instant) : sessions.Follows earlier fresh (sessions.expire now) := by
  refine .of_subset rfl ?_
  intro id session held
  rw [expire, ExtTreeMap.getElem?_filter', Option.filter_eq_some_iff] at held
  exact held.1

theorem follows_revoke (id : Uuid) : sessions.Follows earlier fresh (sessions.revoke id) :=
  .of_subset rfl fun _ _ held => Lib.getElem?_of_erase held

theorem follows_revokeIdentity (identity : Uuid) :
    sessions.Follows earlier fresh (sessions.revokeIdentity identity) := by
  refine .of_subset rfl ?_
  intro id session held
  rw [revokeIdentity, ExtTreeMap.getElem?_filter', Option.filter_eq_some_iff] at held
  exact held.1

theorem follows_issue (binding : Option Binding) (origin : Text) (address : IpAddr) (clock : Clock)
    {draw : Draw} (drawn : fresh draw.id) :
    sessions.Follows earlier fresh (sessions.issue binding origin address clock draw).1 := by
  have dropped : sessions.Follows earlier fresh (sessions.expire clock.now) :=
    sessions.follows_expire clock.now
  unfold issue
  dsimp only
  split
  · exact dropped
  split
  · exact dropped
  · split
    · exact dropped
    · exact dropped.insert (.inl drawn)

theorem follows_rotate (prior : Uuid) (binding : Binding) (clock : Clock) {draw : Draw}
    (drawn : fresh draw.id) :
    sessions.Follows earlier fresh (sessions.rotate prior binding clock draw).1 := by
  unfold rotate
  cases held : sessions.records[prior]? with
  | none => exact .refl _ _ _
  | some previous =>
    dsimp only
    have without : sessions.Follows earlier fresh
        { sessions with records := sessions.records.erase prior } :=
      sessions.follows_revoke prior
    split
    · exact without
    have issued : sessions.Follows earlier fresh
        (({ sessions with records := sessions.records.erase prior } : Sessions).issue
          (some binding) previous.origin previous.address clock draw).1 :=
      without.trans (Nat.le_refl _) (follows_issue _ _ _ _ _ drawn)
    split
    · rename_i result equal
      rw [equal] at issued
      exact issued
    · rename_i result refusal equal
      rw [equal] at issued
      exact issued.insert (.inr ⟨previous, held, .refl _ _ _⟩)

theorem follows_lookup (handle : Handle) (origin : Text) (now : Instant) :
    sessions.Follows earlier fresh (sessions.lookup handle origin now).1 := by
  unfold lookup
  split
  · exact .refl _ _ _
  · split
    · exact sessions.follows_revoke handle.id
    · split <;> exact .refl _ _ _

theorem follows_authenticate (handle : Handle) (origin : Text) {now : Instant}
    (ordered : earlier ≤ now) :
    sessions.Follows earlier fresh (sessions.authenticate handle origin now).1 := by
  unfold authenticate
  have looked : sessions.Follows earlier fresh (sessions.lookup handle origin now).1 :=
    sessions.follows_lookup handle origin now
  split
  · rename_i after equal
    rw [equal] at looked
    exact looked
  · rename_i after session equal
    rcases lookup_eq_some equal with ⟨rfl, held, live⟩
    exact (Follows.refl _ _ _).insert (.inr ⟨session, held, rfl, rfl,
      .inr (Session.expired_mono ordered live)⟩)

theorem follows_touch (id : Uuid) (binding : Binding) {now : Instant} (ordered : earlier ≤ now) :
    sessions.Follows earlier fresh (sessions.touch id binding now).1 := by
  unfold touch
  cases held : sessions.records[id]? with
  | none => exact .refl _ _ _
  | some session =>
    dsimp only
    split
    · rename_i live
      simp only [active, held, Option.any_some, Bool.and_eq_true, Bool.not_eq_true'] at live
      exact (Follows.refl _ _ _).insert
        (.inr ⟨session, held, rfl, rfl, .inr (Session.expired_mono ordered live.2)⟩)
    · exact .refl _ _ _

end

end Sessions

end KeepPeek.Access
