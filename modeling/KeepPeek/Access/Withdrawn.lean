import KeepPeek.Access.Administrators
import KeepPeek.Access.Authentication
import KeepPeek.Access.Revisions

/-! A withdrawn sign-in stays withdrawn.

Every command moves the three stores forward: revisions grow, sessions are dropped
or used while they live, and what is new has a number never drawn before. So a
principal that is active at two moments was active at every moment between, but
for the settings, which may exclude bearer keys for a while. -/

namespace KeepPeek.Access

open Directory
open Catalog

def Operation.Fresh {τ μ : Type} (server : Server τ μ) : Operation μ → Prop
  | .bootstrap opening => opening.draw.id ∉ server.issued ∧
    ∀ signIn ∈ opening.assertion, signIn.identity ∉ server.config.directory.map Identity.id
  | .callback returned => returned.draw.id ∉ server.issued ∧
    returned.signIn.identity ∉ server.config.directory.map Identity.id
  | .createCredential credential _ =>
    credential.id ∉ server.config.catalog.map StoredCredential.id
  | _ => True

/-- The session of a confirmed logout, or of a request the identity proxy does not stand by. -/
def Operation.closing {μ : Type} : Operation μ → Option (Handle × Text)
  | .logout (some handle) _ origin true => some (handle, origin)
  | .request handle origin false _ => some (handle, origin)
  | .bootstrap opening =>
    if opening.corroborated then none else opening.handle.map fun handle => (handle, opening.origin)
  | _ => none

def Operation.credential {μ : Type} : Operation μ → Option Uuid
  | .rotateCredential id _ _ => some id
  | .setCredentialEnabled id _ _ => some id
  | .revokeCredential id _ => some id
  | .setCameraAccess id _ _ _ => some id
  | _ => none

def Operation.signIn {μ : Type} : Operation μ → Option SignIn
  | .bootstrap opening => opening.assertion
  | .callback returned => some returned.signIn
  | _ => none

def Event.finished {μ : Type} (event : Event μ) : Clock := ⟨event.renewed, event.clock.nowMs⟩

/-- The clocks of a run never go back, from one moment to another. -/
def Timed {μ : Type} : Clock → List (Event μ) → Clock → Prop
  | earlier, [], later => earlier ≤ later
  | earlier, event :: rest, later =>
    earlier ≤ event.clock ∧ event.clock.now ≤ event.renewed ∧ Timed event.finished rest later

theorem Timed.le {μ : Type} {events : List (Event μ)} :
    ∀ {earlier later : Clock}, Timed earlier events later → earlier ≤ later := by
  induction events with
  | nil =>
    intro earlier later timed
    exact timed
  | cons event rest ih =>
    rintro earlier later ⟨ordered, renewing, remaining⟩
    have past : event.clock ≤ event.finished := ⟨renewing, Int.le_refl event.clock.nowMs⟩
    exact Clock.le_trans ordered (Clock.le_trans past (ih remaining))

namespace Server

variable {τ μ : Type}
variable {sessions : Sessions} {between first second third : Server τ μ} {renewed : Instant}
  {clock : Clock} {signIn : SignIn} {identity : Identity} {principal : Principal}

/-- What a command does to the stores. `drawn` are the sessions that may be new. -/
structure Moves (earlier : Instant) (drawn : Uuid → Prop) (before after : Server τ μ) :
    Prop where
  sessions : before.sessions.Follows earlier drawn after.sessions
  directory : (∀ id : Uuid, after.sessions.records[id]? = none) ∨
    before.config.directory.Later after.config.directory ∧ after.revision = before.revision
  distinct : after.config.directory.Distinct
  catalog : before.config.catalog.Changes after.config.catalog

structure Sound (server : Server τ μ) : Prop where
  catalog : server.config.catalog.Kept
  directory : server.config.directory.Distinct

variable {earlier : Instant} {drawn : Uuid → Prop} {s : Server τ μ}

theorem Moves.sound {after : Server τ μ} (h : s.Moves earlier drawn after) : after.Sound :=
  ⟨h.catalog.kept, h.distinct⟩

theorem Sound.withCatalog (sound : s.Sound) {c : Catalog} (h : s.config.catalog.Changes c) :
    s.Moves earlier drawn (s.withCatalog c) :=
  ⟨.refl _ _ _, .inr ⟨.refl _, rfl⟩, sound.directory, h⟩

theorem Sound.withDirectory (sound : s.Sound) {directory : Directory}
    (h : s.config.directory.Changes directory) :
    s.Moves earlier drawn (s.withDirectory directory) :=
  ⟨.refl _ _ _, .inr ⟨h.later, rfl⟩, h.distinct, .refl _, sound.catalog⟩

def SameConfig (before after : Server τ μ) : Prop :=
  after.config = before.config ∧ after.revision = before.revision

/-- Only the sessions move. -/
structure Turns (earlier : Instant) (drawn : Uuid → Prop) (before after : Server τ μ) : Prop where
  sessions : before.sessions.Follows earlier drawn after.sessions
  same : before.SameConfig after

theorem turns_withSessions (h : s.sessions.Follows earlier drawn sessions) :
    s.Turns earlier drawn (s.withSessions sessions) :=
  ⟨h, rfl, rfl⟩

theorem Turns.refl : s.Turns earlier drawn s := turns_withSessions (.refl _ _ _)

theorem Turns.trans (h : s.Turns earlier drawn between) (h' : between.Turns earlier drawn third) :
    s.Turns earlier drawn third :=
  ⟨h.sessions.trans (Nat.le_refl _) h'.sessions, h'.same.1.trans h.same.1, h'.same.2.trans h.same.2⟩

theorem Turns.sound (h : s.Turns earlier drawn between) (sound : s.Sound) : between.Sound := by
  constructor
  · rw [h.same.1]
    exact sound.catalog
  · rw [h.same.1]
    exact sound.directory

theorem Turns.moves (h : s.Turns earlier drawn between)
    (h' : between.Moves earlier drawn third) : s.Moves earlier drawn third := by
  refine ⟨h.sessions.trans (Nat.le_refl _) h'.sessions, ?_, h'.distinct, ?_⟩
  · rw [← h.same.1, ← h.same.2]
    exact h'.directory
  · rw [← h.same.1]
    exact h'.catalog

theorem Sound.refl (sound : s.Sound) : s.Moves earlier drawn s :=
  ⟨.refl _ _ _, .inr ⟨.refl _, rfl⟩, sound.directory, .refl _, sound.catalog⟩

theorem Sound.turned (sound : s.Sound) (h : s.Turns earlier drawn between) :
    s.Moves earlier drawn between :=
  h.moves (h.sound sound).refl

theorem Moves.withSessions (h : s.Moves earlier drawn between)
    (kept : s.config.directory.Later between.config.directory ∧ between.revision =
      s.revision) (h' : between.sessions.Follows earlier drawn sessions) :
    s.Moves earlier drawn (between.withSessions sessions) :=
  ⟨h.sessions.trans (Nat.le_refl _) h', .inr kept, h.distinct, h.catalog⟩

theorem bearer_moves (sound : s.Sound) (key : Fingerprint) (clock : Clock) :
    s.Moves earlier drawn (s.bearer key clock) := by
  unfold bearer
  split
  · split
    · exact sound.refl
    · exact sound.withCatalog (changes_of_used sound.catalog clock.nowMs)
  · exact sound.refl

theorem renewBrowser_turns (browser : Session) (ordered : earlier ≤ renewed) :
    s.Turns earlier drawn (s.renewBrowser browser renewed).1 := by
  unfold renewBrowser
  split
  · exact turns_withSessions (s.sessions.follows_revoke browser.id)
  rename_i binding _
  split
  · rename_i touched equal
    have follows : s.sessions.Follows earlier drawn
        (s.sessions.touch browser.id binding renewed).1 :=
      s.sessions.follows_touch browser.id binding ordered
    rw [equal] at follows
    exact turns_withSessions follows
  · exact turns_withSessions (s.sessions.follows_revoke browser.id)

theorem httpPrincipal_turns (handle : Handle) (origin : Text) (corroborated csrfValid : Bool)
    (clock : Clock) (ordered : earlier ≤ renewed) :
    s.Turns earlier drawn (s.httpPrincipal handle origin corroborated csrfValid clock renewed) := by
  unfold httpPrincipal
  split
  · exact .refl
  have looked : s.sessions.Follows earlier drawn (s.sessions.lookup handle origin clock.now).1 :=
    s.sessions.follows_lookup handle origin clock.now
  split
  · rename_i sessions equal
    rw [equal] at looked
    exact turns_withSessions looked
  · rename_i browser _
    split
    · exact .refl
    split
    · exact turns_withSessions (s.sessions.follows_revoke browser.id)
    · split
      · exact .refl
      · exact renewBrowser_turns browser ordered

theorem bootstrapExisting_turns (q : Bootstrap) (clock : Clock) (ordered : earlier ≤ renewed) :
    s.Turns earlier drawn (s.bootstrapExisting q clock renewed).1 := by
  unfold bootstrapExisting
  split
  · exact .refl
  rename_i handle _
  have looked : s.sessions.Follows earlier drawn (s.sessions.lookup handle q.origin clock.now).1 :=
    s.sessions.follows_lookup handle q.origin clock.now
  split
  · rename_i sessions equal
    rw [equal] at looked
    exact turns_withSessions looked
  · rename_i browser _
    dsimp only
    have renewing : s.Turns earlier drawn (s.renewBrowser browser renewed).1 :=
      renewBrowser_turns browser ordered
    split
    · split
      · rename_i continued equal
        rw [equal] at renewing
        exact renewing
      · rename_i closed equal
        rw [equal] at renewing
        exact renewing.trans (turns_withSessions (closed.sessions.follows_revoke browser.id))
    · exact turns_withSessions (s.sessions.follows_revoke browser.id)

theorem bootstrapAnonymous_turns (q : Bootstrap) (ordered : earlier ≤ clock.now)
    (fresh : drawn q.draw.id) :
    s.Turns earlier drawn (s.bootstrapAnonymous q clock) := by
  have opened : ∀ login : Handle, s.Turns earlier drawn
      (s.withSessions (s.sessions.authenticate login q.origin clock.now).1) :=
    fun login => turns_withSessions (s.sessions.follows_authenticate login _ ordered)
  have issued : ∀ between : Server τ μ, between.Turns earlier drawn (between.withSessions
      (between.sessions.issue none q.origin q.address clock q.draw).1) :=
    fun between => turns_withSessions (between.sessions.follows_issue _ _ _ _ fresh)
  unfold bootstrapAnonymous
  cases q.login with
  | none =>
    dsimp only
    split
    · exact .refl
    · split
      · exact .refl
      · exact issued s
  | some login =>
    dsimp only
    split
    · exact opened login
    · split
      · exact opened login
      · exact (opened login).trans (issued _)

variable {digests : Digests μ}

theorem lookupHandle_turns (handle : Option Handle) (origin : Text) (now : Instant) :
    s.Turns earlier drawn (s.lookupHandle handle origin now).1 := by
  cases handle with
  | none => exact .refl
  | some handle => exact turns_withSessions (s.sessions.follows_lookup handle origin now)

theorem logout_turns (session login : Option Handle) (origin : Text) (csrfValid : Bool)
    (clock : Clock) :
    s.Turns earlier drawn (s.logout session login origin csrfValid clock) := by
  unfold logout
  split
  · exact .refl
  have first : s.Turns earlier drawn (s.lookupHandle session origin clock.now).1 :=
    lookupHandle_turns session origin clock.now
  dsimp only
  generalize (s.lookupHandle session origin clock.now).2 = found
  generalize (s.lookupHandle session origin clock.now).1 = between at first ⊢
  have second : s.Turns earlier drawn (between.lookupHandle login origin clock.now).1 :=
    first.trans (lookupHandle_turns login origin clock.now)
  generalize (between.lookupHandle login origin clock.now).2 = foundLogin
  generalize (between.lookupHandle login origin clock.now).1 = looked at second ⊢
  have closed : ∀ (browser : Session) {other : Server τ μ}, s.Turns earlier drawn other →
      s.Turns earlier drawn (other.withSessions (other.sessions.revoke browser.id)) :=
    fun browser other turned =>
      turned.trans (turns_withSessions (other.sessions.follows_revoke browser.id))
  split
  · cases found with
    | none =>
      cases foundLogin with
      | none => exact second
      | some browser => exact closed browser second
    | some browser =>
      cases foundLogin with
      | none => exact closed browser second
      | some other => exact closed other (closed browser second)
  · exact second

theorem touch_turns (principal : Principal) {now : Instant} (ordered : earlier ≤ now) :
    s.Turns earlier drawn (s.touch principal now) := by
  unfold touch
  split
  · exact .refl
  · split
    · exact turns_withSessions (s.sessions.follows_touch _ _ ordered)
    · exact .refl

/-- What a sign-in leaves: the sessions turned, or its identity entered and a session opened
for it. -/
inductive Admits (digests : Digests μ) (earlier : Instant) (drawn : Uuid → Prop)
    (server : Server τ μ) (signIn : SignIn) : Server τ μ → Prop
  | turned {after : Server τ μ} (turned : server.Turns earlier drawn after) :
    Admits digests earlier drawn server signIn after
  | entered {between entered : Server τ μ} {identity : Identity} {sessions : Sessions}
    (turned : server.Turns earlier drawn between)
    (made : between.persistIdentity digests signIn = some (entered, identity))
    (follows : entered.sessions.Follows earlier drawn sessions) :
    Admits digests earlier drawn server signIn (entered.withSessions sessions)

theorem bootstrap_admits (drawn : Uuid → Prop) (q : Bootstrap) (ordered : earlier ≤ clock.now)
    (renewing : clock.now ≤ renewed) (fresh : drawn q.draw.id) :
    s.Turns earlier drawn (s.bootstrap digests q clock renewed) ∨
      ∃ signIn ∈ q.assertion, Admits digests earlier drawn s signIn
        (s.bootstrap digests q clock renewed) := by
  unfold bootstrap
  split
  · exact .inl .refl
  have existing : s.Turns earlier drawn (s.bootstrapExisting q clock renewed).1 :=
    bootstrapExisting_turns q clock (Nat.le_trans ordered renewing)
  split
  · rename_i continued equal
    rw [equal] at existing
    exact .inl existing
  · rename_i between equal
    rw [equal] at existing
    split
    · rename_i signIn _ asserted
      refine .inr ⟨signIn, asserted, ?_⟩
      unfold bootstrapProxy
      split
      · exact .turned existing
      split
      · exact .turned existing
      · rename_i entered identity made
        exact .entered existing made (entered.sessions.follows_issue _ _ _ _ fresh)
    · exact .inl (existing.trans (bootstrapAnonymous_turns q ordered fresh))

theorem complete_admits (earlier : Instant) (drawn : Uuid → Prop) (request : Callback)
    (clock : Clock) (fresh : drawn request.draw.id) :
    Admits digests earlier drawn s request.signIn (s.complete digests request clock) := by
  have pending : s.Turns earlier drawn (s.withSessions
      (s.sessions.lookup request.login request.origin clock.now).1) :=
    turns_withSessions (s.sessions.follows_lookup _ _ _)
  unfold complete pendingBrowser
  dsimp only
  split
  · exact .turned .refl
  split
  · split
    · exact .turned pending
    rename_i entered identity made
    exact .entered pending made (entered.sessions.follows_rotate _ _ _ fresh)
  · exact .turned pending

theorem persistIdentity_directory {entered : Server τ μ}
    (h : s.persistIdentity digests signIn = some (entered, identity)) :
    ∃ provider, provisionAuthenticated digests signIn.identity signIn.input provider
      s.config.directory = .ok (entered.config.directory, identity) := by
  unfold persistIdentity at h
  simp only [Option.bind_eq_bind, Option.bind_eq_some_iff] at h
  rcases h with ⟨settings, _, provider, _, h⟩
  refine ⟨provider, ?_⟩
  split at h
  · cases h
  rename_i candidate made_ made
  split at h
  · rename_i same
    cases h
    rw [same] at made
    exact made
  · split at h
    · cases h
      exact made
    · cases h

theorem Admits.directory {after : Server τ μ} (admits : Admits digests earlier drawn s signIn after)
    (changed : after.config.directory ≠ s.config.directory) :
    ∃ provider identity, provisionAuthenticated digests signIn.identity signIn.input provider
      s.config.directory = .ok (after.config.directory, identity) := by
  cases admits with
  | turned turned => exact absurd (congrArg Config.directory turned.same.1) changed
  | entered turned made =>
    rcases persistIdentity_directory made with ⟨provider, provisioned⟩
    rw [turned.same.1] at provisioned
    exact ⟨provider, _, provisioned⟩

section

variable (sound : s.Sound)
include sound

theorem persistIdentity_eq_some {entered : Server τ μ}
    (fresh : signIn.identity ∉ s.config.directory.map Identity.id)
    (h : s.persistIdentity digests signIn = some (entered, identity)) :
    s.Moves earlier drawn entered ∧ s.config.directory.Later entered.config.directory ∧
      entered.revision = s.revision := by
  unfold persistIdentity at h
  simp only [Option.bind_eq_bind, Option.bind_eq_some_iff] at h
  rcases h with ⟨settings, _, provider, _, h⟩
  split at h
  · cases h
  rename_i candidate known made
  have changes := (provisionAuthenticated_eq_ok sound.directory fresh made).changes
  split at h
  · cases h
    exact ⟨sound.refl, .refl _, rfl⟩
  split at h
  · cases h
    exact ⟨sound.withDirectory changes, changes.later, rfl⟩
  · cases h

theorem Admits.moves {after : Server τ μ} (admits : Admits digests earlier drawn s signIn after)
    (fresh : signIn.identity ∉ s.config.directory.map Identity.id) :
    s.Moves earlier drawn after := by
  cases admits with
  | turned turned => exact sound.turned turned
  | entered turned made follows =>
    rw [← turned.same.1] at fresh
    rcases persistIdentity_eq_some (turned.sound sound) fresh made with ⟨moves, kept⟩
    exact turned.moves (moves.withSessions kept follows)

theorem mutateCatalog_moves {written : Bool} {mutate : Catalog → Except AccessError Catalog}
    (changes : ∀ mutated, mutate s.config.catalog = .ok mutated → mutated.encodable →
      s.config.catalog.Changes mutated) :
    s.Moves earlier drawn (s.mutateCatalog written mutate) := by
  unfold mutateCatalog
  split
  · rename_i mutated made
    rcases mutateGuarded_eq_ok made with ⟨done, _, encodable⟩
    exact sound.withCatalog (changes mutated done encodable)
  · exact sound.refl

theorem replaceSettings_moves {cfg : Config τ μ} (catalog : cfg.catalog = s.config.catalog)
    (directory : cfg.directory.Distinct) : s.Moves earlier drawn (s.replaceSettings cfg) := by
  refine ⟨⟨rfl, ?_⟩, .inl ?_, directory, ?_⟩
  · intro id session held
    cases held
  · intro id
    rfl
  · rw [replaceSettings, catalog]
    exact ⟨.refl _, sound.catalog⟩

theorem confirmSettings_moves (valid : Config τ μ → Bool) (settings : Option (ExternalConfig μ))
    (prepared : Option Identity) (verified written : Bool) :
    s.Moves earlier drawn (s.confirmSettings valid settings prepared verified written) := by
  have distinct : ∀ (identity : Identity) (directory : Directory),
      admitPrepared identity s.config.directory = .ok directory →
      directory.Distinct := by
    intro identity directory admitted
    unfold admitPrepared at admitted
    split at admitted
    · cases admitted
    rcases Lib.bind_eq_ok admitted with ⟨entered, _, admitted⟩
    rcases Lib.bind_eq_ok admitted with ⟨_, validated, admitted⟩
    cases admitted
    exact distinct_of_validate validated
  unfold confirmSettings
  cases prepared with
  | none =>
    dsimp only
    split
    · exact replaceSettings_moves sound rfl sound.directory
    · exact sound.refl
  | some identity =>
    dsimp only
    split
    · exact sound.refl
    rename_i directory admitted
    split
    · exact replaceSettings_moves sound rfl (distinct identity directory admitted)
    · exact sound.refl

end

section Guarded

variable [DecidableEq τ] [DecidableEq μ] {valid : Config τ μ → Bool}

theorem guarded_moves (sound : s.Sound) (q : Request μ) :
    s.Moves earlier drawn (s.guarded digests valid q) := by
  unfold guarded
  split
  · exact sound.refl
  rename_i config made
  have done := Config.apply_eq_ok made
  split
  · rename_i id expectedRevision named
    rw [named] at done
    rcases done with ⟨directory, revoked, rfl⟩
    have changes := (revoke_changes sound.directory revoked).1
    exact ⟨s.sessions.follows_revokeIdentity id, .inr ⟨changes.later, rfl⟩,
      changes.distinct, .refl _, sound.catalog⟩
  · rename_i settings named
    rw [named] at done
    subst done
    split
    · exact replaceSettings_moves sound rfl sound.directory
    · exact sound.refl
  · rename_i notRevoked notChanged
    cases command : q.command with
    | revokeIdentity id expectedRevision => exact absurd command (notRevoked _ _)
    | changeSettings settings => exact absurd command (notChanged _)
    | revokeCredential id =>
      rw [command] at done
      rcases done with ⟨catalog, revoked, encodable, rfl⟩
      exact sound.withCatalog (changes_of_revokeCredential sound.catalog revoked encodable)
    | disableCredential id =>
      rw [command] at done
      rcases done with ⟨catalog, disabled, encodable, rfl⟩
      exact sound.withCatalog (changes_of_setCredentialEnabled sound.catalog disabled encodable)

theorem perform_moves (sound : s.Sound) {event : Event μ} (ordered : earlier ≤ event.clock.now)
    (renewing : event.clock.now ≤ event.renewed) (fresh : event.operation.Fresh s) :
    s.Moves earlier (· ∈ event.operation.draws) (s.perform digests valid event) := by
  have renewed : earlier ≤ event.renewed := Nat.le_trans ordered renewing
  unfold perform
  dsimp only
  split <;> rename_i operation
  · exact bearer_moves sound _ _
  · exact sound.turned (httpPrincipal_turns _ _ _ _ _ renewed)
  · rename_i opening
    rw [operation] at fresh
    rcases bootstrap_admits (· ∈ event.operation.draws) opening ordered renewing
      (by simp [operation, Operation.draws]) with turned | ⟨signIn, asserted, admits⟩
    · exact sound.turned turned
    · exact admits.moves sound (fresh.2 signIn asserted)
  · rw [operation] at fresh
    exact (complete_admits _ _ _ _ (by simp [operation, Operation.draws])).moves sound fresh.2
  · exact sound.turned (logout_turns _ _ _ _ _)
  · exact sound.turned (touch_turns _ ordered)
  · exact sound.turned (turns_withSessions (s.sessions.follows_expire _))
  · exact sound.turned (turns_withSessions (s.sessions.follows_revoke _))
  · exact guarded_moves sound _
  · rw [operation] at fresh
    exact mutateCatalog_moves sound fun _ made encodable =>
      changes_of_create sound.catalog fresh made encodable
  · exact mutateCatalog_moves sound fun _ made encodable =>
      changes_of_replaceCredentialKey sound.catalog made encodable
  · exact mutateCatalog_moves sound fun _ made encodable =>
      changes_of_setCredentialEnabled sound.catalog made encodable
  · exact guarded_moves sound _
  · exact guarded_moves sound _
  · exact mutateCatalog_moves sound fun _ made encodable =>
      changes_of_setCameraAccess sound.catalog made encodable
  · exact mutateCatalog_moves sound fun _ made encodable =>
      changes_of_claimInitialAccessKey sound.catalog made encodable
  · exact guarded_moves sound _
  · exact confirmSettings_moves sound valid _ _ _ _

end Guarded

/-! From one moment of a run to a later one. -/

structure WellFormed (server : Server τ μ) : Prop extends Sound server where
  held : ∀ (id : Uuid) (session : Session), server.sessions.records[id]? = some session →
    id ∈ server.issued

structure Later (earlier : Clock) (before after : Server τ μ) : Prop where
  issued : ∀ id ∈ before.issued, id ∈ after.issued
  sessions : before.sessions.Follows earlier.now (· ∉ before.issued) after.sessions
  directory : (∀ id ∈ before.issued, after.sessions.records[id]? = none) ∨
    before.config.directory.Later after.config.directory
  catalog : before.config.catalog.Later after.config.catalog

theorem Later.refl (earlier : Clock) (s : Server τ μ) : s.Later earlier s :=
  ⟨fun _ mem => mem, .refl _ _ _, .inr (.refl _), .refl _⟩

theorem Later.trans {start between : Clock} (ordered : start ≤ between)
    (h : first.Later start second) (h' : second.Later between third) : first.Later start third := by
  have sessions : second.sessions.Follows between.now (· ∉ first.issued) third.sessions :=
    h'.sessions.imp fun id drawn known => drawn (h.issued id known)
  refine ⟨fun id mem => h'.issued id (h.issued id mem), h.sessions.trans ordered.1 sessions, ?_,
    h.catalog.trans h'.catalog⟩
  rcases h.directory with gone | early
  · left
    intro id known
    cases held : third.sessions.records[id]? with
    | none => rfl
    | some session =>
      rcases sessions.2 id session held with drawn | ⟨before, heldBefore, _⟩
      · exact absurd known drawn
      · rw [gone id known] at heldBefore
        cases heldBefore
  · rcases h'.directory with gone | late
    · exact .inl fun id known => gone id (h.issued id known)
    · exact .inr (early.trans late)

/-- While a session lives the settings are not replaced. -/
theorem Later.directory_later {start : Clock} (h : first.Later start second) {browser : Uuid}
    (issued : browser ∈ first.issued) {session : Session}
    (held : second.sessions.records[browser]? = some session) :
    first.config.directory.Later second.config.directory := by
  rcases h.directory with gone | later
  · rw [gone browser issued] at held
    cases held
  · exact later

theorem fresh_draws {operation : Operation μ} (fresh : operation.Fresh s) :
    ∀ id ∈ operation.draws, id ∉ s.issued := by
  intro id mem
  cases operation with
  | bootstrap opening =>
    rw [List.mem_singleton.mp mem]
    exact fresh.1
  | callback returned =>
    rw [List.mem_singleton.mp mem]
    exact fresh.1
  | _ => cases mem

section Run

variable [DecidableEq τ] [DecidableEq μ] {valid : Config τ μ → Bool}

theorem next_later (wellFormed : s.WellFormed) {event : Event μ} {start : Clock}
    (ordered : start ≤ event.clock) (renewing : event.clock.now ≤ event.renewed)
    (fresh : event.operation.Fresh s) :
    (s.next digests valid event).WellFormed ∧ s.Later start (s.next digests valid event) := by
  have moves : s.Moves start.now (· ∈ event.operation.draws) (s.perform digests valid event) :=
    perform_moves wellFormed.toSound ordered.1 renewing fresh
  refine ⟨⟨⟨moves.sound.catalog, moves.sound.directory⟩, ?_⟩, ?_, ?_, ?_, moves.catalog.later⟩
  · intro id session held
    rcases moves.sessions.2 id session held with drawn | ⟨before, heldBefore, _⟩
    · exact List.mem_append_left _ drawn
    · exact List.mem_append_right _ (wellFormed.held id before heldBefore)
  · intro id known
    exact List.mem_append_right _ known
  · exact moves.sessions.imp fun id drawn => fresh_draws fresh id drawn
  · rcases moves.directory with gone | later
    · exact .inl fun id _ => gone id
    · exact .inr later.1

theorem run_later {events : List (Event μ)} :
    ∀ {s : Server τ μ} {start finish : Clock}, s.WellFormed → Timed start events finish →
      Lib.AllSteps (next digests valid) (fun s event => event.operation.Fresh s) s events →
      (events.foldl (next digests valid) s).WellFormed ∧
      s.Later start (events.foldl (next digests valid) s) := by
  induction events with
  | nil =>
    intro s start finish wellFormed _ _
    exact ⟨wellFormed, .refl _ _⟩
  | cons event rest ih =>
    intro s start finish wellFormed timed fresh
    rcases timed with ⟨ordered, renewing, remaining⟩
    rcases next_later wellFormed ordered renewing fresh.1 with ⟨stepped, first⟩
    rcases ih stepped remaining fresh.2 with ⟨ended, later⟩
    have past : start ≤ event.finished :=
      Clock.le_trans ordered ⟨renewing, Int.le_refl event.clock.nowMs⟩
    exact ⟨ended, first.trans past later⟩

end Run

/-- A principal is in force, whatever the settings say about bearer keys. -/
def inForce (server : Server τ μ) (clock : Clock) : Principal → Prop
  | .credential id revision =>
    server.config.catalog.credentialIsActive id revision clock.nowMs
  | .external id revision browser => server.active (.external id revision browser) clock

theorem inForce_of_active (h : s.active principal clock) : s.inForce clock principal := by
  cases principal with
  | credential id revision =>
    simp only [active, Bool.and_eq_true] at h
    exact h.2
  | external id revision browser => exact h

theorem inForce_between {start middle finish : Clock} (wellFormed : first.WellFormed)
    (ended : third.WellFormed) (h : first.Later start second) (h' : second.Later middle third)
    (ordered : middle ≤ finish) (before : first.inForce start principal)
    (after : third.inForce finish principal) : second.inForce middle principal := by
  cases principal with
  | credential id revision =>
    simp only [inForce, credentialIsActive, List.any_eq_true, Bool.and_eq_true,
      beq_iff_eq] at before after ⊢
    rcases before with ⟨early, memEarly, named, active⟩
    rcases after with ⟨late, memLate, named', active'⟩
    rcases h.catalog early memEarly with ⟨between, memBetween, toBetween⟩
    rcases h'.catalog between memBetween with ⟨last, memLast, toLast⟩
    have same : last = late := List.inj_on_of_nodup_map ended.catalog.distinct memLast memLate
      (((toLast.id.trans toBetween.id).trans named).trans named'.symm)
    subst same
    exact ⟨between, memBetween, toBetween.id.trans named,
      toBetween.isActive toLast ordered.2 active active'⟩
  | external id revision browser =>
    simp only [inForce, active, Sessions.active, Bool.and_eq_true, Option.any_eq_true,
      beq_iff_eq, Bool.not_eq_true'] at before after ⊢
    rcases before with ⟨known, session, held, _⟩
    rcases after with ⟨known', session'', held'', bound, live⟩
    have issued : browser ∈ second.issued := h.issued browser (wellFormed.held browser session held)
    rcases h'.sessions.2 browser session'' held'' with drawn | ⟨session', held', follows⟩
    · exact absurd issued drawn
    have early := h.directory_later (wellFormed.held browser session held) held'
    have late := h'.directory_later issued held''
    rw [h'.sessions.1] at live
    exact ⟨early.active late ended.directory known known', session', held',
      follows.binding.symm.trans bound, follows.live ordered.1 live⟩

theorem wellFormed_start {cfg : Config τ μ} (limits : Limits)
    (credentials : cfg.catalog.validate = .ok ()) (encodable : cfg.catalog.encodable)
    (identities : cfg.directory.validate = .ok ()) : (start cfg limits).WellFormed where
  catalog := ⟨nodup_of_validate credentials, encodable⟩
  directory := distinct_of_validate identities
  held := by
    intro id session held
    cases held

/-- The end of a transition is not taken back by the clock. -/
theorem bearerAllowed_of_le {settings : Option (ExternalConfig μ)} {earlier later : Millis}
    (ordered : earlier ≤ later) (allowed : bearerAllowed settings later) :
    bearerAllowed settings earlier := by
  cases settings with
  | none => rfl
  | some settings =>
    cases transition : settings.bearerTransitionUntilMs with
    | none => simp [bearerAllowed, transition] at allowed
    | some deadline =>
      simp only [bearerAllowed, transition, Option.all_some, Option.any_some, Bool.and_eq_true,
        decide_eq_true_eq] at allowed ⊢
      exact ⟨allowed.1, Int.lt_of_le_of_lt ordered allowed.2⟩

/-! The command that withdraws a principal. -/

/-- The command took effect on what the principal stands for. -/
inductive Withdraws (digests : Digests μ) (before after : Server τ μ) (event : Event μ) :
    Principal → Prop
  | credential {id : Uuid} {revision : Nat} : event.operation.credential = some id →
    after.config.catalog ≠ before.config.catalog →
    Withdraws digests before after event (.credential id revision)
  | session {id : Uuid} {revision : Nat} {browser : Uuid} : event.operation =
      .revokeSession browser →
    Withdraws digests before after event (.external id revision browser)
  | closing {id : Uuid} {revision : Nat} {browser : Session} {handle : Handle}
    {origin : Text} : event.operation.closing = some (handle, origin) →
    before.config.externalAuth.isSome →
    (before.sessions.lookup handle origin event.clock.now).2 = some browser →
    browser.binding = some ⟨id, revision⟩ →
    Withdraws digests before after event (.external id revision browser.id)
  | identity {id : Uuid} {revision : Nat} {browser : Uuid} {expectedRevision : Nat}
    {written : Bool} : event.operation = .revokeIdentity id expectedRevision written →
    after.config.directory ≠ before.config.directory →
    Withdraws digests before after event (.external id revision browser)
  | grant {revision : Nat} {browser : Uuid} {signIn : SignIn} {known : Identity} :
    event.operation.signIn = some signIn →
    before.config.directory.known digests signIn.input = some known →
    grantChanges known signIn.input.providerId signIn.input.grant →
    after.config.directory ≠ before.config.directory →
    Withdraws digests before after event (.external known.id revision browser)
  | settings {id : Uuid} {revision : Nat} {browser : Uuid} : after.revision ≠ before.revision →
    Withdraws digests before after event (.external id revision browser)

theorem mutateCatalog_changed {written : Bool} {mutate : Catalog → Except AccessError Catalog}
    (changed : (s.mutateCatalog written mutate).config.catalog ≠ s.config.catalog) :
    mutate s.config.catalog = .ok (s.mutateCatalog written mutate).config.catalog := by
  unfold mutateCatalog at changed ⊢
  split at changed
  · rename_i mutated made
    exact (mutateGuarded_eq_ok made).1
  · exact absurd rfl changed

theorem active_of_granted {after : Directory} (distinct : s.config.directory.Distinct)
    (fresh : signIn.identity ∉ s.config.directory.map Identity.id) {provider : Provider μ}
    {known : Identity}
    (made : provisionAuthenticated digests signIn.identity signIn.input provider
      s.config.directory = .ok (after, identity))
    (found : s.config.directory.known digests signIn.input = some known)
    (grants : grantChanges known signIn.input.providerId signIn.input.grant) {revision : Nat}
    (active : (s.config.directory.active known.id revision).isSome) :
    (after.active known.id revision).isSome = false := by
  have provisions := provisionAuthenticated_eq_ok distinct fresh made
  have mem := List.mem_of_find?_eq_some found
  have named := provisions.named known found
  rcases active_isSome.mp active with ⟨present, memPresent, same, _, current⟩
  have revised := provisions.revised known mem named.symm
  rw [distinct.eq memPresent mem same] at current
  rw [grants, current] at revised
  rw [Bool.eq_false_iff]
  intro still
  rcases active_isSome.mp still with ⟨other, memOther, same', _, current'⟩
  rw [provisions.changes.distinct.eq memOther provisions.mem (same'.trans named.symm), revised]
    at current'
  simp at current'

theorem logout_closes {handle : Handle} {login : Option Handle} {origin : Text}
    (enabled : s.config.externalAuth.isSome) {browser : Session}
    (found : (s.sessions.lookup handle origin clock.now).2 = some browser) {binding : Binding}
    (bound : browser.binding = some binding)
    (known : (s.config.directory.active binding.identityId binding.revision).isSome) :
    (s.logout (some handle) login origin true clock).sessions.records[browser.id]? = none := by
  have external := Option.isNone_eq_false_iff.mpr enabled
  have config : ∀ between : Server τ μ,
      (between.lookupHandle login origin clock.now).1.config = between.config := by
    intro between
    unfold lookupHandle
    split <;> rfl
  unfold logout
  rw [external]
  dsimp only [Bool.false_eq_true, if_false]
  have first : (s.lookupHandle (some handle) origin clock.now).2 = some browser := found
  have same : (s.lookupHandle (some handle) origin clock.now).1.config = s.config := rfl
  rw [first, config, same]
  simp only [Option.filter_some, bound, Option.bind_some, known, if_true, Bool.and_true,
    Option.elim_some]
  cases (lookupHandle _ login origin clock.now).2 with
  | none => exact Std.ExtTreeMap.getElem?_erase_self
  | some other =>
    apply Option.eq_none_iff_forall_ne_some.mpr
    intro session held
    have erased := Lib.getElem?_of_erase held
    have never : none = some session := Std.ExtTreeMap.getElem?_erase_self.symm.trans erased
    cases never

/-- A principal that is active, then not and then again: its own record stood the
whole time, and only the settings had excluded bearer keys. -/
theorem active_again {start middle finish : Clock} (wellFormed : first.WellFormed)
    (ended : third.WellFormed) (h : first.Later start second) (h' : second.Later middle third)
    (ordered : middle ≤ finish) (before : first.active principal start)
    (between : second.active principal middle = false) (after : third.active principal finish) :
    ∃ id revision, principal = .credential id revision ∧
      second.config.catalog.credentialIsActive id revision middle.nowMs ∧
      bearerAllowed second.config.externalAuth middle.nowMs = false ∧
      third.config.externalAuth ≠ second.config.externalAuth := by
  have stood := inForce_between wellFormed ended h h' ordered (inForce_of_active before)
    (inForce_of_active after)
  cases principal with
  | external id revision browser =>
    have active : second.active (.external id revision browser) middle := stood
    rw [between] at active
    cases active
  | credential id revision =>
    have current : second.config.catalog.credentialIsActive id revision middle.nowMs := stood
    simp only [active, current, Bool.and_true] at between
    refine ⟨id, revision, rfl, current, between, ?_⟩
    intro same
    simp only [active, Bool.and_eq_true, same] at after
    have allowed := bearerAllowed_of_le ordered.2 after.1
    rw [between] at allowed
    cases allowed

section Withdrawal

variable [DecidableEq τ] [DecidableEq μ] {valid : Config τ μ → Bool}

theorem credentialIsActive_of_changed (sound : s.Sound) {event : Event μ} {id : Uuid}
    {revision : Nat} (target : event.operation.credential = some id)
    (changed : (s.perform digests valid event).config.catalog ≠ s.config.catalog)
    {now : Millis} (active : s.config.catalog.credentialIsActive id revision now)
    (later : Millis) :
    (s.perform digests valid event).config.catalog.credentialIsActive id revision later =
      false := by
  have guarded : ∀ (request : Request μ) (mutate : Catalog → Except AccessError Catalog),
      (∀ after, s.config.apply digests valid request = .ok after →
        ∃ catalog, mutate s.config.catalog = .ok catalog ∧ catalog.encodable ∧
          after = { s.config with catalog }) →
      (s.guarded digests valid request).config.catalog ≠ s.config.catalog →
      mutate s.config.catalog = .ok (s.guarded digests valid request).config.catalog := by
    intro request mutate done changed
    unfold Server.guarded at changed ⊢
    split at changed
    · exact absurd rfl changed
    rename_i config made
    rcases done config made with ⟨catalog, mutated, _, rfl⟩
    split at changed
    · exact mutated
    · split at changed
      · rename_i room
        rw [if_pos room]
        exact mutated
      · exact absurd rfl changed
    · exact mutated
  have raised : ∀ credential ∈ s.config.catalog, credential.isActive revision now →
      credential.revision < saturatingSucc credential.revision :=
    fun _ mem _ => lt_saturatingSucc (sound.catalog.revision_lt mem)
  unfold perform at changed ⊢
  cases operation : event.operation with
  | rotateCredential other verifier written =>
    rw [operation] at target changed
    cases target
    exact alter_ends sound.catalog (mutateCatalog_changed changed) active raised later
  | setCredentialEnabled other enabled written =>
    rw [operation] at target changed
    cases target
    cases enabled with
    | true =>
      exact alter_ends sound.catalog (mutateCatalog_changed changed) active raised later
    | false =>
      have made := guarded ⟨.disableCredential id, event.clock.nowMs, written⟩
        (setCredentialEnabled id false) (fun _ made => Config.apply_eq_ok made) changed
      exact alter_ends sound.catalog made active raised later
  | revokeCredential other written =>
    rw [operation] at target changed
    cases target
    have made := guarded ⟨.revokeCredential id, event.clock.nowMs, written⟩
      (revokeCredential id event.clock.nowMs) (fun _ made => Config.apply_eq_ok made) changed
    refine alter_ends sound.catalog made active ?_ later
    intro credential mem live
    simp only [StoredCredential.isActive, Bool.and_eq_true] at live
    simp only [revokedAt, live.1.2, if_true]
    exact lt_saturatingSucc (sound.catalog.revision_lt mem)
  | setCameraAccess other expectedRevision policy written =>
    rw [operation] at target changed
    cases target
    rcases Lib.bind_eq_ok (mutateCatalog_changed changed) with ⟨_, _, altered⟩
    exact alter_ends sound.catalog altered active
      (fun credential _ _ => Nat.lt_succ_self credential.revision) later
  | _ =>
    rw [operation] at target
    cases target

theorem closing_closes {event : Event μ} {handle : Handle} {origin : Text}
    {browser : Session} {id : Uuid} {revision : Nat}
    (target : event.operation.closing = some (handle, origin))
    (enabled : s.config.externalAuth.isSome)
    (found : (s.sessions.lookup handle origin event.clock.now).2 = some browser)
    (bound : browser.binding = some ⟨id, revision⟩)
    (known : (s.config.directory.active id revision).isSome) (fresh : event.operation.Fresh s)
    (listed : browser.id ∈ s.issued) :
    (s.perform digests valid event).sessions.records[browser.id]? = none := by
  have external := Option.isNone_eq_false_iff.mpr enabled
  have looked : s.sessions.lookup handle origin event.clock.now = (s.sessions, some browser) :=
    Prod.ext (Sessions.lookup_eq_some (Prod.ext rfl found)).1 found
  have gone : (s.sessions.revoke browser.id).records[browser.id]? = none :=
    Std.ExtTreeMap.getElem?_erase_self
  unfold perform
  cases operation : event.operation with
  | logout given login place csrfValid =>
    rw [operation] at target
    cases given <;> cases csrfValid <;> cases target
    exact logout_closes enabled found bound known
  | request given place corroborated csrfValid =>
    rw [operation] at target
    cases corroborated with
    | true => cases target
    | false =>
      cases target
      obtain ⟨identity, active⟩ := Option.isSome_iff_exists.mp known
      simp only [httpPrincipal, external, looked, bound, Option.bind_some, active]
      exact gone
  | bootstrap opening =>
    rw [operation] at target fresh
    simp only [Operation.closing] at target
    split at target
    · cases target
    next unproven =>
    obtain ⟨given, presented, same⟩ := Option.map_eq_some_iff.mp target
    cases same
    simp only [bootstrap, bootstrapExisting, external, presented, looked, unproven, Bool.and_false]
    -- The page is opened anew, and the session it may draw is another one.
    have turned : Turns 0 (· = opening.draw.id) _ ((s.withSessions (s.sessions.revoke
        browser.id)).bootstrapAnonymous opening event.clock) :=
      bootstrapAnonymous_turns opening (Nat.zero_le _) rfl
    apply Option.eq_none_iff_forall_ne_some.mpr
    intro session held
    rcases turned.sessions.2 browser.id session held with drawn | ⟨old, kept, -⟩
    · exact fresh.1 (drawn ▸ listed)
    · cases gone.symm.trans kept
  | _ =>
    rw [operation] at target
    cases target

/-- A principal is not active any more after the command that withdraws it. -/
theorem active_of_withdraws (formed : s.WellFormed) {event : Event μ}
    (renewing : event.clock.now ≤ event.renewed) (fresh : event.operation.Fresh s)
    (active : s.active principal event.clock)
    (h : Withdraws digests s (s.next digests valid event) event principal)
    (later : Clock) :
    (s.next digests valid event).active principal later = false := by
  have sound := formed.toSound
  cases h with
  | credential target changed =>
    simp only [Server.active, Bool.and_eq_true] at active
    have ended := credentialIsActive_of_changed sound target changed active.2 later.nowMs
    change (bearerAllowed _ _ && (s.perform digests valid event).config.catalog.credentialIsActive
      _ _ _) = false
    rw [ended, Bool.and_false]
  | @session id revision browser target =>
    have gone : (s.next digests valid event).sessions.records[browser]? = none := by
      unfold next perform
      rw [target]
      exact Std.ExtTreeMap.getElem?_erase_self
    simp [Server.active, Sessions.active, gone]
  | @closing id revision browser handle origin target enabled found bound =>
    simp only [Server.active, Bool.and_eq_true] at active
    have listed : browser.id ∈ s.issued := by
      obtain ⟨session, held, _⟩ := (Option.any_eq_true _ _).mp active.2
      exact formed.held browser.id session held
    have gone : (s.next digests valid event).sessions.records[browser.id]? = none :=
      closing_closes target enabled found bound active.1 fresh listed
    simp [Server.active, Sessions.active, gone]
  | @identity id revision browser expectedRevision written target changed =>
    have disabled : ∀ identity ∈ (s.next digests valid event).config.directory,
        identity.id = id → identity.enabled = false := by
      unfold next perform at changed ⊢
      rw [target] at changed ⊢
      dsimp only at changed ⊢
      unfold Server.guarded at changed ⊢
      split at changed
      · exact absurd rfl changed
      · rename_i config made
        rcases Config.apply_eq_ok made with ⟨directory, revoked, rfl⟩
        exact (revoke_changes sound.directory revoked).2
    have inactive : ((s.next digests valid event).config.directory.active id revision).isSome =
        false := by
      rw [Bool.eq_false_iff]
      intro still
      rcases active_isSome.mp still with ⟨other, mem, named, enabled, _⟩
      rw [disabled other mem named] at enabled
      cases enabled
    rw [Server.active, inactive, Bool.false_and]
  | @grant revision browser signIn known target found grants changed =>
    simp only [Server.active, Bool.and_eq_true] at active
    have inactive : ((s.next digests valid event).config.directory.active known.id
        revision).isSome = false := by
      unfold next perform at changed ⊢
      cases operation : event.operation with
      | bootstrap opening =>
        rw [operation] at target changed fresh
        rcases bootstrap_admits (fun _ => True) opening (Nat.zero_le _) renewing trivial with
          turned | ⟨asserted, mem, admits⟩
        · exact absurd (congrArg Config.directory turned.same.1) changed
        rcases admits.directory changed with ⟨provider, identity, made⟩
        have same : asserted = signIn := Option.some.inj ((Option.mem_def.mp mem).symm.trans target)
        subst same
        exact active_of_granted sound.directory (fresh.2 asserted mem) made found grants active.1
      | callback returned =>
        rw [operation] at target changed fresh
        rcases (complete_admits 0 (fun _ => True) returned _ trivial).directory changed with
          ⟨provider, identity, made⟩
        cases target
        exact active_of_granted sound.directory fresh.2 made found grants active.1
      | _ =>
        rw [operation] at target
        cases target
    rw [Server.active, inactive, Bool.false_and]
  | @settings id revision browser changed =>
    have moves : s.Moves 0 (· ∈ event.operation.draws) (s.perform digests valid event) :=
      perform_moves sound (Nat.zero_le _) renewing fresh
    rcases moves.directory with gone | kept
    · have absent : (s.next digests valid event).sessions.records[browser]? = none :=
        gone browser
      simp [Server.active, Sessions.active, absent]
    · exact absurd kept.2 changed

/-- A run of commands from one moment to another: the clocks never go back and what
is drawn is new. -/
structure Runs (digests : Digests μ) (valid : Config τ μ → Bool) (before : Server τ μ)
    (began : Clock) (events : List (Event μ)) (after : Server τ μ) (ended : Clock) : Prop where
  timed : Timed began events ended
  fresh : Lib.AllSteps (next digests valid) (fun server event => event.operation.Fresh server)
    before events
  reached : events.foldl (next digests valid) before = after

theorem Runs.later {before after : Server τ μ} {began ended : Clock} {events : List (Event μ)}
    (wellFormed : before.WellFormed) (h : Runs digests valid before began events after ended) :
    after.WellFormed ∧ before.Later began after := by
  rcases h with ⟨timed, fresh, rfl⟩
  exact run_later wellFormed timed fresh

end Withdrawal

end Server

open Server

/-- A sign-in that was withdrawn never works again. A principal that was active and
is not any more is active again only if it is a credential whose own record was
never withdrawn, while the settings excluded bearer keys, and only under other
settings. The command that withdraws a principal is the one after which it is not
active. -/
theorem withdrawn_signIn_stays_withdrawn {τ μ : Type} [DecidableEq τ] [DecidableEq μ]
    (digests : Digests μ) (valid : Config τ μ → Bool) (config : Config τ μ) (limits : Limits)
    (credentials : config.catalog.validate = .ok ()) (encodable : config.catalog.encodable)
    (identities : config.directory.validate = .ok ())
    (first second third : List (Event μ)) (active stopped again : Server τ μ)
    (began signedIn withdrawn later : Clock)
    (toActive : Runs digests valid (start config limits) began first active signedIn)
    (toStopped : Runs digests valid active signedIn second stopped withdrawn)
    (toAgain : Runs digests valid stopped withdrawn third again later) (principal : Principal) :
    (active.active principal signedIn → stopped.active principal withdrawn = false →
      again.active principal later →
      ∃ id revision, principal = .credential id revision ∧
        stopped.config.catalog.credentialIsActive id revision withdrawn.nowMs ∧
        bearerAllowed stopped.config.externalAuth withdrawn.nowMs = false ∧
        again.config.externalAuth ≠ stopped.config.externalAuth) ∧
    ∀ event, second = [event] → active.active principal event.clock →
      Withdraws digests active stopped event principal →
      ∀ clock, stopped.active principal clock = false := by
  have initial : (start config limits).WellFormed :=
    wellFormed_start limits credentials encodable identities
  rcases toActive.later initial with ⟨activeFormed, _⟩
  rcases toStopped.later activeFormed with ⟨stoppedFormed, toSecond⟩
  rcases toAgain.later stoppedFormed with ⟨againFormed, toThird⟩
  constructor
  · intro before between after
    exact active_again activeFormed againFormed toSecond toThird toAgain.timed.le before between
      after
  · rintro event rfl before withdraws clock
    rcases toStopped with ⟨timed, fresh, rfl⟩
    exact active_of_withdraws activeFormed timed.2.1 fresh.1 before withdraws clock

namespace Fixture

def limits : Limits := ⟨1800 * 10 ^ 9, 86400 * 10 ^ 9, 8, 64⟩

def external : ExternalConfig Unit where
  allowedOrigins := ["https://keeppeek.example".toList]
  providers := [⟨"proxy".toList, "Proxy".toList,
    [⟨"role".toList, "admin".toList, .administrator, none⟩], ()⟩]
  bearerEnabled := false
  bearerTransitionUntilMs := none

def confirmed : Identity where
  id := 3
  providerId := "proxy".toList
  subjectFingerprint := digest
  admissionPolicyFingerprint := some digest
  displayName := "Administrator".toList
  role := .administrator
  cameraAccess := ⟨true, [], []⟩
  revision := 1
  enabled := true
  createdAtMs := 0

def clock (second : Nat) : Clock := ⟨second * 10 ^ 9, second * 1000⟩

def event (second : Nat) (operation : Operation Unit) : Event Unit :=
  ⟨operation, clock second, second * 10 ^ 9⟩

end Fixture

open Fixture

instance (earlier later : Clock) : Decidable (earlier ≤ later) :=
  inferInstanceAs (Decidable (earlier.now ≤ later.now ∧ earlier.nowMs ≤ later.nowMs))

/-- A revoked key does not work at any later time, whatever follows. -/
theorem withdrawn_signIn_stays_withdrawn_revoked :
    ((start guarded limits).active (.credential 1 1) (clock 1) ∧
      (next digests (fun _ => true) (start guarded limits)
        (event 2 (.revokeCredential 1 true))).active (.credential 1 1) (clock 2) = false) ∧
      (next digests (fun _ => true) (next digests (fun _ => true) (start guarded limits)
          (event 2 (.revokeCredential 1 true)))
        (event 3 (.setCredentialEnabled 1 true true))).active (.credential 1 1)
          (clock 4) = false := by
  have withdrawn := withdrawn_signIn_stays_withdrawn digests (fun _ => true)
    guarded limits (by decide +kernel) (by decide +kernel) (by decide +kernel)
    [] [event 2 (.revokeCredential 1 true)]
    [event 3 (.setCredentialEnabled 1 true true)] _ _ _
    (clock 0) (clock 1) (clock 2) (clock 4)
    ⟨by simp only [Timed]; decide +kernel, trivial, rfl⟩
    ⟨by simp only [Timed]; decide +kernel, ⟨trivial, trivial⟩, rfl⟩
    ⟨by simp only [Timed]; decide +kernel, ⟨trivial, trivial⟩, rfl⟩ (.credential 1 1)
  refine ⟨⟨by decide +kernel, by decide +kernel⟩, ?_⟩
  rw [Bool.eq_false_iff]
  intro works
  rcases withdrawn.1 (by decide +kernel) (by decide +kernel) works with
    ⟨id, revision, same, active, _⟩
  cases same
  revert active
  decide +kernel

/-- Settings that exclude bearer keys withdraw a key, and those that allow them again
make it work again, with the same id and revision. -/
theorem excluded_key_works_again :
    (start guarded limits).active (.credential 1 1) (clock 1) ∧
      (next digests (fun _ => true) (start guarded limits)
        (event 2 (.confirmSettings (some external) (some confirmed) true
          true))).active (.credential 1 1) (clock 3) = false ∧
      (next digests (fun _ => true) (next digests (fun _ => true) (start guarded limits)
          (event 2 (.confirmSettings (some external) (some confirmed) true true)))
        (event 4 (.confirmSettings none none true true))).active (.credential 1 1) (clock 5) := by
  decide +kernel

end KeepPeek.Access
