import KeepPeek.Access.Identities

/-! The guard against locking every remote Administrator out.

Credentials can be revoked and disabled, identities revoked and the settings of
external authentication replaced. Each of these is refused when it takes the last
way in: the configuration before and the one after are compared, and some
Administrator has to be in both. -/

namespace KeepPeek.Access

/-- What the guard reads of a configuration. `τ` is the part that decides who
counts as remote: the listening address, the networks and whether a remote client
needs a secure transport. -/
structure Config (τ μ : Type) where
  transport : τ
  externalAuth : Option (ExternalConfig μ)
  catalog : Catalog
  directory : Directory

inductive ControlError where
  | access (error : AccessError)
  | identityNotFound
  | identityRevisionChanged
  | identityNotRevocable
  | pathsNotValidated
  | confirmationRequired
  | identityNotSaved
  | settingsInvalid
  | settingsUnchanged
  | configurationNotSaved
  deriving DecidableEq, Repr

variable {τ μ : Type}

namespace Config

def credentials (config : Config τ μ) : Except AccessError Catalog :=
  config.catalog.validate.map fun _ => config.catalog

def identities (config : Config τ μ) : Except AccessError Directory :=
  match config.directory.validate with
  | .ok _ => .ok config.directory
  | .error _ => .error .invalidConfiguration

def selectedByBearer (catalog : Catalog) (candidate : StoredCredential) : Bool :=
  (catalog.matching candidate.verifier).any fun selected => selected.id == candidate.id

def isCurrentBearer (catalog : Catalog) (now : Millis) (credential : StoredCredential) : Bool :=
  credential.role == .administrator && !credential.initialSecretPending &&
    credential.isActive credential.revision now && selectedByBearer catalog credential

def isAdministrator (identity : Identity) : Bool :=
  identity.enabled && identity.role == .administrator

def hasCurrentBearer (config : Config τ μ) (now : Millis) : Except AccessError Bool :=
  if bearerAllowed config.externalAuth now then
    config.credentials.map fun catalog => catalog.any (isCurrentBearer catalog now)
  else .ok false

def hasCurrentAdministrator (config : Config τ μ) (now : Millis) : Except AccessError Bool := do
  let bearer ← config.hasCurrentBearer now
  if bearer then .ok true
  else if config.externalAuth.isSome then
    config.identities.map fun directory => directory.any isAdministrator
  else .ok false

def durableBearer (now : Millis) (credential : StoredCredential) : Bool :=
  credential.role == .administrator && !credential.initialSecretPending &&
    credential.expiresAtMs.isNone && credential.isActive credential.revision now

def preservesBearer (previous next : Catalog) (now : Millis) : Bool :=
  next.any fun candidate =>
    durableBearer now candidate && selectedByBearer next candidate &&
      previous.any fun existing =>
        durableBearer now existing && candidate.id == existing.id &&
          candidate.verifier == existing.verifier && selectedByBearer previous existing

def samePerson (existing candidate : Identity) : Bool :=
  isAdministrator existing && existing.id == candidate.id &&
    existing.subjectFingerprint == candidate.subjectFingerprint &&
    existing.providerId == candidate.providerId &&
    existing.admissionPolicyFingerprint == candidate.admissionPolicyFingerprint

/-- A provider admits an identity as an Administrator: it did so under the policy it
has now, which maps somebody to that role. -/
def admits (digests : Digests μ) (provider : Provider μ) (identity : Identity) : Bool :=
  provider.id == identity.providerId &&
    identity.admissionPolicyFingerprint == some (digests.policy provider) &&
    provider.mappings.any fun mapping => mapping.role == .administrator

def preservesBearers (before after : Config τ μ) (now : Millis) : Except AccessError Bool :=
  if bearerAllowed before.externalAuth now && after.externalAuth.isNone then do
    let previous ← before.credentials
    let next ← after.credentials
    .ok (preservesBearer previous next now)
  else .ok false

end Config

section Guard

variable [DecidableEq μ]

namespace Config

def preservesExternalAdministrator (digests : Digests μ) (before after : Config τ μ) :
    Except AccessError Bool :=
  match before.externalAuth, after.externalAuth with
  | some previous, some next =>
    if previous.allowedOrigins ≠ next.allowedOrigins then .ok false
    else do
      let previousDirectory ← before.identities
      let nextDirectory ← after.identities
      .ok (nextDirectory.any fun candidate =>
        isAdministrator candidate && previousDirectory.any (samePerson · candidate) &&
          next.providers.any fun provider =>
            admits digests provider candidate && previous.providers.contains provider)
  | _, _ => .ok false

end Config

variable [DecidableEq τ]

namespace Config

def preservesAdministrator (digests : Digests μ) (before after : Config τ μ) (now : Millis) :
    Except AccessError Bool :=
  if before.transport ≠ after.transport then .ok false
  else do
    let bearer ← preservesBearers before after now
    if bearer then .ok true else preservesExternalAdministrator digests before after

/-- The check on a credential that is about to be revoked or disabled. `valid` is
the validation of a whole configuration. -/
def preserveCredentialAdministrator (digests : Digests μ) (valid : Config τ μ → Bool)
    (before after : Config τ μ) (id : Uuid) (now : Millis) : Except AccessError Unit := do
  let removesAdministrator := before.catalog.any fun credential =>
    credential.id == id && credential.role == .administrator &&
      !credential.initialSecretPending && credential.isActive credential.revision now
  if !removesAdministrator then .ok ()
  else if !(valid before && valid after) then .error .invalidConfiguration
  else
    let current ← hasCurrentAdministrator before now
    if !current then .ok ()
    else
      let preserved ← preservesAdministrator digests before after now
      if preserved then .ok () else .error .lastAdministrator

end Config

/-- An administrative command that no replacement Administrator confirmed. -/
inductive Command (μ : Type) where
  | revokeCredential (id : Uuid)
  | disableCredential (id : Uuid)
  | revokeIdentity (id : Uuid) (expectedRevision : Nat)
  | changeSettings (settings : Option (ExternalConfig μ))

structure Request (μ : Type) where
  command : Command μ
  now : Millis
  written : Bool

namespace Config

def mutateCatalog (digests : Digests μ) (valid : Config τ μ → Bool) (config : Config τ μ)
    (request : Request μ) (id : Uuid) (mutate : Catalog → Except AccessError Catalog) :
    Except ControlError (Config τ μ) :=
  let preserved mutated :=
    preserveCredentialAdministrator digests valid config { config with catalog := mutated } id
      request.now
  match config.catalog.mutateGuarded preserved request.written mutate with
  | .ok catalog => .ok { config with catalog }
  | .error refusal => .error (.access refusal)

def requireRetainedAdministrator (digests : Digests μ) (valid : Config τ μ → Bool)
    (before after : Config τ μ) (now : Millis) : Except ControlError Unit :=
  if !valid before then .error .pathsNotValidated
  else
    match preservesAdministrator digests before after now with
    | .error _ => .error .pathsNotValidated
    | .ok false => .error .confirmationRequired
    | .ok true => .ok ()

/-- Only an identity that is an Administrator needs another one to stay. -/
def retainsAdministrator (digests : Digests μ) (valid : Config τ μ → Bool)
    (before after : Config τ μ) (now : Millis) (existing : Identity) : Except ControlError Unit :=
  if isAdministrator existing then requireRetainedAdministrator digests valid before after now
  else .ok ()

def revokeIdentity (digests : Digests μ) (valid : Config τ μ → Bool) (config : Config τ μ)
    (request : Request μ) (id : Uuid) (expectedRevision : Nat) :
    Except ControlError (Config τ μ) :=
  match config.directory.find? fun identity => identity.id == id with
  | none => .error .identityNotFound
  | some existing =>
    if expectedRevision ≠ existing.revision then .error .identityRevisionChanged
    else
      match Directory.revoke id config.directory with
      | .error _ => .error .identityNotRevocable
      | .ok directory =>
        retainsAdministrator digests valid config { config with directory } request.now existing >>=
          fun _ =>
            if request.written then .ok { config with directory } else .error .identityNotSaved

def needsConfirmation (digests : Digests μ) (before after : Config τ μ) (now : Millis) :
    Except AccessError Bool := do
  let current ← hasCurrentAdministrator before now
  if current then
    let preserved ← preservesAdministrator digests before after now
    .ok (!preserved)
  else .ok false

def changeSettings (digests : Digests μ) (valid : Config τ μ → Bool) (config : Config τ μ)
    (request : Request μ) (settings : Option (ExternalConfig μ)) :
    Except ControlError (Config τ μ) :=
  let candidate := { config with externalAuth := settings }
  if !(valid config && valid candidate) then .error .settingsInvalid
  else if config.externalAuth = settings then .error .settingsUnchanged
  else
    match needsConfirmation digests config candidate request.now with
    | .error _ => .error .pathsNotValidated
    | .ok true => .error .confirmationRequired
    | .ok false => if request.written then .ok candidate else .error .configurationNotSaved

def apply (digests : Digests μ) (valid : Config τ μ → Bool) (config : Config τ μ)
    (request : Request μ) : Except ControlError (Config τ μ) :=
  match request.command with
  | .revokeCredential id =>
    config.mutateCatalog digests valid request id (Catalog.revokeCredential id request.now)
  | .disableCredential id =>
    config.mutateCatalog digests valid request id (Catalog.setCredentialEnabled id false)
  | .revokeIdentity id expectedRevision =>
    config.revokeIdentity digests valid request id expectedRevision
  | .changeSettings settings => config.changeSettings digests valid request settings

/-- A command that fails changes nothing. -/
def next (digests : Digests μ) (valid : Config τ μ → Bool) (config : Config τ μ)
    (request : Request μ) : Config τ μ :=
  match config.apply digests valid request with
  | .ok after => after
  | .error _ => config

def Done (config after : Config τ μ) (now : Millis) : Command μ → Prop
  | .revokeCredential id => ∃ catalog,
    Catalog.revokeCredential id now config.catalog = .ok catalog ∧
      catalog.encodable ∧ after = { config with catalog }
  | .disableCredential id => ∃ catalog,
    Catalog.setCredentialEnabled id false config.catalog = .ok catalog ∧
      catalog.encodable ∧ after = { config with catalog }
  | .revokeIdentity id _ => ∃ directory,
    Directory.revoke id config.directory = .ok directory ∧ after = { config with directory }
  | .changeSettings settings => after = { config with externalAuth := settings }

theorem apply_eq_ok {digests : Digests μ} {valid : Config τ μ → Bool} {cfg after : Config τ μ}
    {q : Request μ} (h : cfg.apply digests valid q = .ok after) :
    cfg.Done after q.now q.command := by
  have mutated : ∀ (id : Uuid) (mutate : Catalog → Except AccessError Catalog),
      cfg.mutateCatalog digests valid q id mutate = .ok after →
      ∃ catalog, mutate cfg.catalog = .ok catalog ∧ catalog.encodable ∧
        after = { cfg with catalog } := by
    intro id mutate made
    unfold mutateCatalog at made
    dsimp only at made
    split at made
    · rename_i catalog changed
      cases made
      rcases Catalog.mutateGuarded_eq_ok changed with ⟨done, _, encodable⟩
      exact ⟨catalog, done, encodable, rfl⟩
    · cases made
  unfold apply at h
  cases command : q.command with
  | revokeCredential id =>
    rw [command] at h
    exact mutated id _ h
  | disableCredential id =>
    rw [command] at h
    exact mutated id _ h
  | revokeIdentity id expectedRevision =>
    rw [command] at h
    change cfg.revokeIdentity digests valid q id expectedRevision = .ok after at h
    unfold revokeIdentity at h
    split at h
    · cases h
    split at h
    · cases h
    split at h
    · cases h
    rename_i directory revoked
    refine ⟨directory, revoked, ?_⟩
    rcases Lib.bind_eq_ok h with ⟨_, _, h⟩
    split at h
    · cases h
      rfl
    · cases h
  | changeSettings settings =>
    rw [command] at h
    change cfg.changeSettings digests valid q settings = .ok after at h
    unfold changeSettings at h
    dsimp only at h
    split at h
    · cases h
    split at h
    · cases h
    split at h
    · cases h
    · cases h
    split at h
    · cases h
      rfl
    · cases h

end Config

end Guard

end KeepPeek.Access
