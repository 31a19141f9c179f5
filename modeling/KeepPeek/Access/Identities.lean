import KeepPeek.Access.Credentials

/-! External identities: the providers that vouch for them and the directory that
remembers them.

An identity is one subject of one provider. It is entered when it first signs in,
its revision grows whenever its grant changes, and once revoked it stays so. -/

namespace KeepPeek.Access

def identityLimit : Nat := 1024

structure Mapping where
  claim : Text
  value : Text
  role : AccessRole
  cameraAccess : Option CameraAccess
  deriving DecidableEq, Repr

/-- A provider; `μ` is how it vouches for a subject, by OpenID Connect or by the
headers of a proxy, which nothing here looks into. -/
structure Provider (μ : Type) where
  id : Text
  name : Text
  mappings : List Mapping
  method : μ
  deriving DecidableEq

structure ExternalConfig (μ : Type) where
  allowedOrigins : List Text
  providers : List (Provider μ)
  bearerEnabled : Bool
  bearerTransitionUntilMs : Option Millis
  deriving DecidableEq

/-- Bearer keys sign in when there is no external authentication, and otherwise
until the end of the transition. -/
def bearerAllowed {μ : Type} (settings : Option (ExternalConfig μ)) (now : Millis) : Bool :=
  settings.all fun settings =>
    settings.bearerEnabled && settings.bearerTransitionUntilMs.any (now < ·)

structure Grant where
  role : AccessRole
  cameraAccess : CameraAccess
  deriving DecidableEq, Repr

structure Identity where
  id : Uuid
  providerId : Text
  subjectFingerprint : Text
  admissionPolicyFingerprint : Option Text
  displayName : Text
  role : AccessRole
  cameraAccess : CameraAccess
  revision : Nat
  enabled : Bool
  createdAtMs : Millis
  deriving DecidableEq, Repr

inductive IdentityError where
  | text
  | access (error : AccessError)
  | combinedAccess
  | grant
  | creationTime
  | capacity
  | revisionOrId
  | duplicateId
  | subjectFingerprint
  | policyFingerprint
  | admissionProvider
  | identityRevoked
  | revisionExhausted
  | identityNotFound
  | preparedDisabled
  | preparedBinding
  | preparedRevision
  | preparedNew
  deriving DecidableEq, Repr

def validateText (value : Text) (limit : Nat) : Except IdentityError Unit :=
  if !(Text.trim value).isEmpty && Text.byteLength value ≤ limit && !value.any Text.isControl then
    .ok ()
  else .error .text

def validateGrant (role : AccessRole) (policy : CameraAccess) : Except IdentityError Unit :=
  match policy.validate with
  | .error error => .error (.access error)
  | .ok _ =>
    if maxCameraAccessIds < policy.cameraIds.length + policy.groupIds.length then
      .error .combinedAccess
    else if role ≠ .administrator || policy.allCameras then .ok ()
    else .error .grant

def isDigest (text : Text) : Bool :=
  text.length == 64 && text.all fun c => c.isDigit || ('a' ≤ c && c ≤ 'f')

abbrev Directory := List Identity

/-- The digests of a sign-in: that of its subject, and that of a provider with its
whole policy. -/
structure Digests (μ : Type) where
  subject : Text → Text → Text
  policy : Provider μ → Text

structure IdentityInput where
  providerId : Text
  namespaceName : Text
  subject : Text
  displayName : Text
  grant : Grant
  nowMs : Millis

namespace Directory

def validateIdentity (seen : List Uuid × List Text) (identity : Identity) :
    Except IdentityError (List Uuid × List Text) := do
  validateText identity.providerId 64
  validateText identity.displayName 64
  if identity.revision = 0 || identity.id = 0 then .error .revisionOrId
  else if identity.createdAtMs < 0 then .error .creationTime
  else if identity.id ∈ seen.1 then .error .duplicateId
  else if !isDigest identity.subjectFingerprint || identity.subjectFingerprint ∈ seen.2 then
    .error .subjectFingerprint
  else do
    validateGrant identity.role identity.cameraAccess
    if identity.admissionPolicyFingerprint.all isDigest then
      .ok (identity.id :: seen.1, identity.subjectFingerprint :: seen.2)
    else .error .policyFingerprint

def validate (directory : Directory) : Except IdentityError Unit :=
  if identityLimit < directory.length then .error .capacity
  else (directory.foldlM validateIdentity ([], [])).map fun _ => ()

def active (directory : Directory) (id : Uuid) (revision : Nat) : Option Identity :=
  directory.find? fun identity =>
    identity.id == id && identity.enabled && identity.revision == revision

def replace (directory : Directory) (id : Uuid) (change : Identity → Identity) : Directory :=
  directory.map fun identity => if identity.id = id then change identity else identity

def checkedAdd (revision step : Nat) : Except IdentityError Nat :=
  if revision + step < 2 ^ 64 then .ok (revision + step) else .error .revisionExhausted

def grantChanges (identity : Identity) (providerId : Text) (grant : Grant) : Bool :=
  identity.role != grant.role || identity.cameraAccess != grant.cameraAccess ||
    identity.providerId != providerId

def checkInput (input : IdentityInput) : Except IdentityError Unit := do
  validateText input.providerId 64
  validateText input.namespaceName 2112
  validateText input.subject 256
  validateText input.displayName 64
  validateGrant input.grant.role input.grant.cameraAccess
  if input.nowMs < 0 then .error .creationTime else .ok ()

/-- Sign a subject in: the directory that results and the identity. `id` is drawn
for a subject that is not known yet. -/
def provision {μ : Type} (digests : Digests μ) (id : Uuid) (input : IdentityInput)
    (directory : Directory) : Except IdentityError (Directory × Identity) := do
  checkInput input
  let fingerprint := digests.subject input.namespaceName input.subject
  match directory.find? fun identity => identity.subjectFingerprint == fingerprint with
  | some identity =>
    if !identity.enabled then .error .identityRevoked
    else do
      let revision ← checkedAdd identity.revision
        (grantChanges identity input.providerId input.grant).toNat
      let updated := { identity with
        revision
        providerId := input.providerId
        displayName := input.displayName
        role := input.grant.role
        cameraAccess := input.grant.cameraAccess
        admissionPolicyFingerprint := none }
      .ok (directory.replace identity.id fun _ => updated, updated)
  | none =>
    if identityLimit ≤ directory.length then .error .capacity
    else
      let identity : Identity := {
        id
        providerId := input.providerId
        subjectFingerprint := fingerprint
        admissionPolicyFingerprint := none
        displayName := input.displayName
        role := input.grant.role
        cameraAccess := input.grant.cameraAccess
        revision := 1
        enabled := true
        createdAtMs := input.nowMs }
      .ok (directory ++ [identity], identity)

def provisionAuthenticated {μ : Type} (digests : Digests μ) (id : Uuid) (input : IdentityInput)
    (provider : Provider μ) (directory : Directory) :
    Except IdentityError (Directory × Identity) := do
  if input.providerId ≠ provider.id then .error .admissionProvider
  else
    let (provisioned, identity) ← provision digests id input directory
    let admitted := { identity with
      admissionPolicyFingerprint := some (digests.policy provider) }
    .ok (provisioned.replace identity.id (fun _ => admitted), admitted)

/-- The directory with a prepared identity in it, in the place of the record it was
prepared from or as a new one. -/
def enterPrepared (prepared : Identity) (directory : Directory) :
    Except IdentityError Directory :=
  match directory.find? fun existing =>
      existing.subjectFingerprint == prepared.subjectFingerprint with
  | some existing =>
    if !existing.enabled then .error .identityRevoked
    else if existing.id ≠ prepared.id || existing.createdAtMs ≠ prepared.createdAtMs then
      .error .preparedBinding
    else do
      let revision ← checkedAdd existing.revision
        (grantChanges existing prepared.providerId ⟨prepared.role, prepared.cameraAccess⟩).toNat
      if revision ≠ prepared.revision then .error .preparedRevision
      else .ok (directory.replace existing.id fun _ => prepared)
  | none =>
    if directory.length < identityLimit && prepared.revision == 1 then
      .ok (directory ++ [prepared])
    else .error .preparedNew

def admitPrepared (prepared : Identity) (directory : Directory) :
    Except IdentityError Directory :=
  if !prepared.enabled then .error .preparedDisabled
  else do
    let admitted ← enterPrepared prepared directory
    validate admitted
    .ok admitted

def withdrawn (revision : Nat) (identity : Identity) : Identity :=
  { identity with revision, enabled := false }

def revoke (id : Uuid) (directory : Directory) : Except IdentityError Directory :=
  match directory.find? fun identity => identity.id == id with
  | none => .error .identityNotFound
  | some identity =>
    if identity.enabled then
      (checkedAdd identity.revision 1).map fun revision =>
        directory.replace id (withdrawn revision)
    else .ok directory

theorem validateIdentity_adds {seen next : List Uuid × List Text} {identity : Identity}
    (checked : validateIdentity seen identity = .ok next) :
    identity.id ∉ seen.1 ∧ next.1 = identity.id :: seen.1 := by
  unfold validateIdentity at checked
  rcases Lib.bind_eq_ok checked with ⟨_, _, named⟩
  rcases Lib.bind_eq_ok named with ⟨_, _, numbered⟩
  split at numbered
  · cases numbered
  split at numbered
  · cases numbered
  split at numbered
  · cases numbered
  split at numbered
  · cases numbered
  rcases Lib.bind_eq_ok numbered with ⟨_, _, granted⟩
  split at granted
  · cases granted
    exact ⟨by assumption, rfl⟩
  · cases granted

def Distinct (directory : Directory) : Prop := (directory.map Identity.id).Nodup

theorem distinct_of_validate {directory : Directory} (h : directory.validate = .ok ()) :
    directory.Distinct := by
  unfold validate at h
  split at h
  · cases h
  · rcases Lib.map_eq_ok h with ⟨_, checked, _⟩
    exact (Lib.foldlM_nodup Identity.id Prod.fst (fun _ _ _ => validateIdentity_adds) checked).1

end Directory

end KeepPeek.Access
