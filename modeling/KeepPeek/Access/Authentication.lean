import KeepPeek.Access.Guard
import KeepPeek.Access.Sessions

/-! Signing in: the live state of authentication and the commands that change it.

Three stores decide who is signed in: the catalog of bearer credentials, the
directory of external identities and the table of browser sessions. The settings
decide which of them count. A command holds their locks, so commands come one
after another; what a command learns from its HTTP request and from the provider
comes with it. -/

namespace KeepPeek.Access

/-- The state of authentication. The configuration in memory is the one in the
file; `issued` lists the numbers of all sessions there have ever been. -/
structure Server (τ μ : Type) where
  config : Config τ μ
  revision : Nat
  sessions : Sessions
  issued : List Uuid

inductive Principal where
  | credential (id : Uuid) (revision : Nat)
  | external (id : Uuid) (revision : Nat) (browser : Uuid)
  deriving DecidableEq, Repr

structure SignIn where
  input : IdentityInput
  identity : Uuid
  written : Bool

/-- The request that opens the sign-in page or a page behind it. -/
structure Bootstrap where
  origin : Text
  handle : Option Handle
  corroborated : Bool
  assertion : Option SignIn
  login : Option Handle
  admitted : Bool
  address : IpAddr
  draw : Draw

structure Callback where
  login : Handle
  origin : Text
  browser : Uuid
  revision : Nat
  signIn : SignIn
  draw : Draw

structure NewCredential where
  id : Uuid
  name : Text
  description : Option Text
  role : AccessRole
  expiresAtMs : Option Millis
  verifier : Fingerprint

inductive Operation (μ : Type) where
  | bearer (key : Fingerprint)
  | request (handle : Handle) (origin : Text) (corroborated csrfValid : Bool)
  | bootstrap (request : Bootstrap)
  | callback (request : Callback)
  | logout (session login : Option Handle) (origin : Text) (csrfValid : Bool)
  | touch (principal : Principal)
  | listSessions
  | revokeSession (id : Uuid)
  | revokeIdentity (id : Uuid) (expectedRevision : Nat) (written : Bool)
  | createCredential (credential : NewCredential) (written : Bool)
  | rotateCredential (id : Uuid) (verifier : Fingerprint) (written : Bool)
  | setCredentialEnabled (id : Uuid) (enabled written : Bool)
  | revokeCredential (id : Uuid) (written : Bool)
  | setCameraAccess (id : Uuid) (expectedRevision : Nat) (policy : CameraAccess) (written : Bool)
  | claimInitialAccessKey (verifier : Fingerprint) (written : Bool)
  | changeSettings (settings : Option (ExternalConfig μ)) (written : Bool)
  | confirmSettings (settings : Option (ExternalConfig μ)) (prepared : Option Identity)
      (verified written : Bool)

/-- A command with the clocks at its start, and the instant at which a request that
uses a session looks at the clock again. -/
structure Event (μ : Type) where
  operation : Operation μ
  clock : Clock
  renewed : Instant

def Operation.draws {μ : Type} : Operation μ → List Uuid
  | .bootstrap opening => [opening.draw.id]
  | .callback returned => [returned.draw.id]
  | _ => []

namespace Server

variable {τ μ : Type}

def start (config : Config τ μ) (limits : Limits) : Server τ μ :=
  ⟨config, 1, .new limits, []⟩

def active (server : Server τ μ) (principal : Principal) (clock : Clock) : Bool :=
  match principal with
  | .credential id revision =>
    bearerAllowed server.config.externalAuth clock.nowMs &&
      server.config.catalog.credentialIsActive id revision clock.nowMs
  | .external id revision browser =>
    (server.config.directory.active id revision).isSome &&
      server.sessions.active browser ⟨id, revision⟩ clock.now

def withSessions (server : Server τ μ) (sessions : Sessions) : Server τ μ :=
  { server with sessions }

def withDirectory (server : Server τ μ) (directory : Directory) : Server τ μ :=
  { server with config := { server.config with directory } }

def withCatalog (server : Server τ μ) (catalog : Catalog) : Server τ μ :=
  { server with config := { server.config with catalog } }

def bearer (server : Server τ μ) (key : Fingerprint) (clock : Clock) : Server τ μ :=
  if bearerAllowed server.config.externalAuth clock.nowMs then
    match server.config.catalog.authenticate key clock.nowMs with
    | .error _ => server
    | .ok credential =>
      server.withCatalog (server.config.catalog.replace credential.id (Catalog.used clock.nowMs))
  else server

def renewBrowser (server : Server τ μ) (browser : Session) (renewed : Instant) :
    Server τ μ × Bool :=
  match browser.binding with
  | none => (server.withSessions (server.sessions.revoke browser.id), false)
  | some binding =>
    match server.sessions.touch browser.id binding renewed with
    | (touched, true) => (server.withSessions touched, true)
    | (_, false) => (server.withSessions (server.sessions.revoke browser.id), false)

def httpPrincipal (server : Server τ μ) (handle : Handle) (origin : Text)
    (corroborated csrfValid : Bool) (clock : Clock) (renewed : Instant) : Server τ μ :=
  if server.config.externalAuth.isNone then server
  else
    match server.sessions.lookup handle origin clock.now with
    | (sessions, none) => server.withSessions sessions
    | (_, some browser) =>
      match browser.binding.bind fun binding =>
          server.config.directory.active binding.identityId binding.revision with
      | none => server
      | some _ =>
        if !corroborated then server.withSessions (server.sessions.revoke browser.id)
        else if !csrfValid then server
        else (server.renewBrowser browser renewed).1

def persistIdentity (digests : Digests μ) (server : Server τ μ) (signIn : SignIn) :
    Option (Server τ μ × Identity) := do
  let settings ← server.config.externalAuth
  let provider ← settings.providers.find? fun provider => provider.id == signIn.input.providerId
  match Directory.provisionAuthenticated digests signIn.identity signIn.input provider
      server.config.directory with
  | .error _ => none
  | .ok (candidate, identity) =>
    if candidate = server.config.directory then some (server, identity)
    else if signIn.written then some (server.withDirectory candidate, identity)
    else none

def bootstrapExisting (server : Server τ μ) (request : Bootstrap) (clock : Clock)
    (renewed : Instant) : Server τ μ × Bool :=
  match request.handle with
  | none => (server, false)
  | some handle =>
    match server.sessions.lookup handle request.origin clock.now with
    | (sessions, none) => (server.withSessions sessions, false)
    | (_, some browser) =>
      let known := browser.binding.bind fun binding =>
        server.config.directory.active binding.identityId binding.revision
      if known.isSome && request.corroborated then
        match server.renewBrowser browser renewed with
        | (continued, true) => (continued, true)
        | (closed, false) =>
          (closed.withSessions (closed.sessions.revoke browser.id), false)
      else (server.withSessions (server.sessions.revoke browser.id), false)

def bootstrapProxy (digests : Digests μ) (server : Server τ μ) (request : Bootstrap)
    (signIn : SignIn) (clock : Clock) : Server τ μ :=
  if !request.admitted then server
  else
    match server.persistIdentity digests signIn with
    | none => server
    | some (entered, identity) =>
      entered.withSessions (entered.sessions.issue (some ⟨identity.id, identity.revision⟩)
        request.origin request.address clock request.draw).1

def bootstrapAnonymous (server : Server τ μ) (request : Bootstrap) (clock : Clock) :
    Server τ μ :=
  let (server, found) :=
    match request.login with
    | none => (server, none)
    | some login =>
      let (sessions, found) := server.sessions.authenticate login request.origin clock.now
      (server.withSessions sessions, found)
  if found.any fun browser => browser.binding.isNone then server
  else if !request.admitted then server
  else
    server.withSessions
      (server.sessions.issue none request.origin request.address clock request.draw).1

def bootstrap (digests : Digests μ) (server : Server τ μ) (request : Bootstrap) (clock : Clock)
    (renewed : Instant) : Server τ μ :=
  if server.config.externalAuth.isNone then server
  else
    match server.bootstrapExisting request clock renewed with
    | (server, true) => server
    | (server, false) =>
      match request.handle, request.assertion with
      | none, some signIn => server.bootstrapProxy digests request signIn clock
      | _, _ => server.bootstrapAnonymous request clock

def pendingBrowser (server : Server τ μ) (login : Handle) (origin : Text) (now : Instant) :
    Server τ μ × Option Session :=
  let (sessions, found) := server.sessions.lookup login origin now
  (server.withSessions sessions, found.filter fun browser => browser.binding.isNone)

def complete (digests : Digests μ) (server : Server τ μ) (request : Callback) (clock : Clock) :
    Server τ μ :=
  if server.revision ≠ request.revision then server
  else
    let (server, pending) := server.pendingBrowser request.login request.origin clock.now
    if pending.any fun browser => browser.id == request.browser then
      match server.persistIdentity digests request.signIn with
      | none => server
      | some (entered, identity) =>
        entered.withSessions
          (entered.sessions.rotate request.browser ⟨identity.id, identity.revision⟩ clock
            request.draw).1
    else server

def lookupHandle (server : Server τ μ) (handle : Option Handle) (origin : Text) (now : Instant) :
    Server τ μ × Option Session :=
  match handle with
  | none => (server, none)
  | some handle =>
    let (sessions, found) := server.sessions.lookup handle origin now
    (server.withSessions sessions, found)

def logout (server : Server τ μ) (session login : Option Handle) (origin : Text)
    (csrfValid : Bool) (clock : Clock) : Server τ μ :=
  if server.config.externalAuth.isNone then server
  else
    let (server, session) := server.lookupHandle session origin clock.now
    let (server, login) := server.lookupHandle login origin clock.now
    let bound := session.filter fun browser => (browser.binding.bind fun binding =>
      server.config.directory.active binding.identityId binding.revision).isSome
    if (bound.or login).isSome && csrfValid then
      let server := session.elim server fun browser =>
        server.withSessions (server.sessions.revoke browser.id)
      login.elim server fun browser => server.withSessions (server.sessions.revoke browser.id)
    else server

def touch (server : Server τ μ) (principal : Principal) (now : Instant) : Server τ μ :=
  match principal with
  | .credential _ _ => server
  | .external id revision browser =>
    if (server.config.directory.active id revision).isSome then
      server.withSessions (server.sessions.touch browser ⟨id, revision⟩ now).1
    else server

def mutateCatalog (server : Server τ μ) (written : Bool)
    (mutate : Catalog → Except AccessError Catalog) : Server τ μ :=
  match server.config.catalog.mutateGuarded (fun _ => .ok ()) written mutate with
  | .ok catalog => server.withCatalog catalog
  | .error _ => server

/-- New settings end every session. -/
def replaceSettings (server : Server τ μ) (config : Config τ μ) : Server τ μ :=
  { config, revision := server.revision + 1, sessions := .new server.sessions.limits,
    issued := server.issued }

variable [DecidableEq τ] [DecidableEq μ]

def guarded (digests : Digests μ) (valid : Config τ μ → Bool) (server : Server τ μ)
    (request : Request μ) : Server τ μ :=
  match server.config.apply digests valid request with
  | .error _ => server
  | .ok config =>
    match request.command with
    | .revokeIdentity id _ =>
      { server with config, sessions := server.sessions.revokeIdentity id }
    | .changeSettings _ =>
      if server.revision + 1 < 2 ^ 64 then server.replaceSettings config else server
    | _ => { server with config }

/-- A change of the settings for which a replacement Administrator was verified; an
external one is entered into the directory with it. -/
def confirmSettings (valid : Config τ μ → Bool) (server : Server τ μ)
    (settings : Option (ExternalConfig μ)) (prepared : Option Identity)
    (verified written : Bool) : Server τ μ :=
  let admitted :=
    match prepared with
    | none => Except.ok server.config.directory
    | some identity => Directory.admitPrepared identity server.config.directory
  match admitted with
  | .error _ => server
  | .ok directory =>
    let config := { server.config with externalAuth := settings, directory }
    if verified && written && valid config && decide (server.revision + 1 < 2 ^ 64) then
      server.replaceSettings config
    else server

def perform (digests : Digests μ) (valid : Config τ μ → Bool) (server : Server τ μ)
    (event : Event μ) : Server τ μ :=
  let nowMs := event.clock.nowMs
  match event.operation with
  | .bearer key => server.bearer key event.clock
  | .request handle origin corroborated csrfValid =>
    server.httpPrincipal handle origin corroborated csrfValid event.clock event.renewed
  | .bootstrap request => server.bootstrap digests request event.clock event.renewed
  | .callback request => server.complete digests request event.clock
  | .logout session login origin csrfValid =>
    server.logout session login origin csrfValid event.clock
  | .touch principal => server.touch principal event.clock.now
  | .listSessions => server.withSessions (server.sessions.expire event.clock.now)
  | .revokeSession id => server.withSessions (server.sessions.revoke id)
  | .revokeIdentity id expectedRevision written =>
    server.guarded digests valid ⟨.revokeIdentity id expectedRevision, nowMs, written⟩
  | .createCredential credential written =>
    server.mutateCatalog written (Catalog.create credential.id credential.name
      credential.description credential.role credential.expiresAtMs credential.verifier nowMs)
  | .rotateCredential id verifier written =>
    server.mutateCatalog written (Catalog.replaceCredentialKey id verifier nowMs)
  | .setCredentialEnabled id true written =>
    server.mutateCatalog written (Catalog.setCredentialEnabled id true)
  | .setCredentialEnabled id false written =>
    server.guarded digests valid ⟨.disableCredential id, nowMs, written⟩
  | .revokeCredential id written =>
    server.guarded digests valid ⟨.revokeCredential id, nowMs, written⟩
  | .setCameraAccess id expectedRevision policy written =>
    server.mutateCatalog written (Catalog.setCameraAccess id expectedRevision policy)
  | .claimInitialAccessKey verifier written =>
    server.mutateCatalog written (Catalog.claimInitialAccessKey verifier)
  | .changeSettings settings written =>
    server.guarded digests valid ⟨.changeSettings settings, nowMs, written⟩
  | .confirmSettings settings prepared verified written =>
    server.confirmSettings valid settings prepared verified written

def next (digests : Digests μ) (valid : Config τ μ → Bool) (server : Server τ μ)
    (event : Event μ) : Server τ μ :=
  let after := server.perform digests valid event
  { after with issued := event.operation.draws ++ server.issued }

end Server

end KeepPeek.Access
