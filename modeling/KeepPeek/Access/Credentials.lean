import KeepPeek.Access.Network
import KeepPeek.Lib.Except
import Mathlib.Data.List.Nodup
import Mathlib.Data.List.Induction

/-! Bearer credentials: the catalog and the operations of the access manager.

The catalog lives in memory and in a section of the configuration file. Every
change is made on a copy, checked, written out and only then kept: an operation
that fails at any point leaves the catalog as it was. -/

namespace KeepPeek.Access

abbrev Uuid := Nat

/-- Milliseconds of the wall clock. -/
abbrev Millis := Int

/-- The SHA-256 of an access key. -/
abbrev Fingerprint := Nat

def maxCredentials : Nat := 128
def maxCredentialNameBytes : Nat := 64
def maxCredentialDescriptionBytes : Nat := 256
def maxCameraAccessIds : Nat := 128
def maxCameraAccessIdBytes : Nat := 256
def lastUsedWriteIntervalMs : Int := 60000

inductive AccessRole where
  | administrator
  | user
  deriving DecidableEq, Repr

structure CameraAccess where
  allCameras : Bool
  groupIds : List Text
  cameraIds : List Text
  deriving DecidableEq, Repr

inductive AccessError where
  | cameraAccessLimits
  | cameraAccessIds
  | credentialName
  | credentialDescription
  | expiryPast
  | credentialLimit
  | nameTaken
  | credentialNotFound
  | revokedUnrotated
  | revokedUnchanged
  | initialUnavailable
  | initialRetrieved
  | initialMismatch
  | catalogLimits
  | duplicateIds
  | zeroRevision
  | lastAdministrator
  | invalidConfiguration
  | notPersisted
  | cameraAccessConflict (currentRevision : Nat)
  | administratorAccess
  | revisionExhausted
  deriving DecidableEq, Repr

def CameraAccess.unrestricted : CameraAccess := ⟨true, [], []⟩

def CameraAccess.validIds (ids : List Text) : Bool :=
  (ids.all fun id => !(Text.trim id).isEmpty && Text.byteLength id ≤ maxCameraAccessIdBytes &&
    !id.any Text.isControl) && decide ids.Nodup

def CameraAccess.validate (access : CameraAccess) : Except AccessError Unit :=
  if maxCameraAccessIds < access.cameraIds.length || maxCameraAccessIds < access.groupIds.length ||
      (access.allCameras && (!access.cameraIds.isEmpty || !access.groupIds.isEmpty)) then
    .error .cameraAccessLimits
  else if validIds access.groupIds && validIds access.cameraIds then .ok ()
  else .error .cameraAccessIds

structure StoredCredential where
  id : Uuid
  name : Text
  description : Option Text
  role : AccessRole
  cameraAccess : Option CameraAccess
  verifier : Fingerprint
  createdAtMs : Millis
  rotatedAtMs : Option Millis
  lastUsedAtMs : Option Millis
  expiresAtMs : Option Millis
  disabled : Bool
  revokedAtMs : Option Millis
  revision : Nat
  legacy : Bool
  initialSecretPending : Bool
  deriving DecidableEq, Repr

/-- The addition of `u64` that stops at the greatest value. -/
def saturatingSucc (revision : Nat) : Nat := min (revision + 1) (2 ^ 64 - 1)

namespace StoredCredential

def isActive (credential : StoredCredential) (revision : Nat) (now : Millis) : Bool :=
  credential.revision == revision && !credential.disabled && credential.revokedAtMs.isNone &&
    credential.expiresAtMs.all (now < ·)

def legacyCredential (id : Uuid) (verifier : Fingerprint) (createdAtMs : Millis) :
    StoredCredential where
  id
  name := "Initial Administrator".toList
  description := some "First-run remote Administrator credential".toList
  role := .administrator
  cameraAccess := none
  verifier
  createdAtMs
  rotatedAtMs := none
  lastUsedAtMs := none
  expiresAtMs := none
  disabled := false
  revokedAtMs := none
  revision := 1
  legacy := true
  initialSecretPending := true

end StoredCredential

def validatedName (name : Text) : Except AccessError Text :=
  let name := Text.trim name
  if name.isEmpty || maxCredentialNameBytes < Text.byteLength name || name.any Text.isControl then
    .error .credentialName
  else .ok name

def validatedDescription (description : Option Text) : Except AccessError (Option Text) :=
  match (description.map Text.trim).filter (!·.isEmpty) with
  | none => .ok none
  | some description =>
    if maxCredentialDescriptionBytes < Text.byteLength description ||
        description.any Text.isControl then .error .credentialDescription
    else .ok (some description)

abbrev Catalog := List StoredCredential

namespace Catalog

variable {c : Catalog} {k : StoredCredential}
  {change : StoredCredential → StoredCredential}

/-- The checks of one record of a catalog; the ids before it are `ids`. -/
def validateCredential (ids : List Uuid) (credential : StoredCredential) :
    Except AccessError (List Uuid) := do
  let _ ← validatedName credential.name
  let _ ← validatedDescription credential.description
  credential.cameraAccess.elim (.ok ()) CameraAccess.validate
  if credential.id ∈ ids then .error .duplicateIds
  else if credential.revision = 0 then .error .zeroRevision
  else .ok (credential.id :: ids)

def validate (catalog : Catalog) : Except AccessError Unit :=
  if maxCredentials < catalog.length then .error .catalogLimits
  else (catalog.foldlM validateCredential []).map fun _ => ()

/-- The credential that a key with this fingerprint selects: the last of those
that match. -/
def matching (catalog : Catalog) (fingerprint : Fingerprint) : Option StoredCredential :=
  catalog.foldl
    (fun matched credential =>
      if credential.verifier = fingerprint then some credential else matched) none

inductive AuthenticationFailure where
  | invalid
  | disabled
  | revoked
  | expired
  deriving DecidableEq, Repr

def authenticate (catalog : Catalog) (fingerprint : Fingerprint) (now : Millis) :
    Except AuthenticationFailure StoredCredential :=
  match catalog.matching fingerprint with
  | none => .error .invalid
  | some credential =>
    if credential.revokedAtMs.isSome then .error .revoked
    else if credential.disabled then .error .disabled
    else if credential.expiresAtMs.any (· ≤ now) then .error .expired
    else .ok credential

def used (now : Millis) (credential : StoredCredential) : StoredCredential :=
  if credential.lastUsedAtMs.all fun last => lastUsedWriteIntervalMs ≤ now - last then
    { credential with lastUsedAtMs := some now }
  else credential

def credentialIsActive (catalog : Catalog) (id : Uuid) (revision : Nat) (now : Millis) : Bool :=
  catalog.any fun credential => credential.id == id && credential.isActive revision now

def replace (catalog : Catalog) (id : Uuid) (change : StoredCredential → StoredCredential) :
    Catalog :=
  catalog.map fun credential => if credential.id = id then change credential else credential

/-- Look a credential up, check it and change it. -/
def alter (catalog : Catalog) (id : Uuid) (check : StoredCredential → Except AccessError Unit)
    (change : StoredCredential → StoredCredential) : Except AccessError Catalog :=
  match catalog.find? fun credential => credential.id == id with
  | none => .error .credentialNotFound
  | some credential => (check credential).map fun _ => catalog.replace id change

def create (id : Uuid) (name : Text) (description : Option Text) (role : AccessRole)
    (expiresAtMs : Option Millis) (verifier : Fingerprint) (now : Millis) (catalog : Catalog) :
    Except AccessError Catalog := do
  let name ← validatedName name
  let description ← validatedDescription description
  if expiresAtMs.any (· ≤ now) then .error .expiryPast
  else if maxCredentials ≤ catalog.length then .error .credentialLimit
  else if catalog.any fun existing =>
      existing.revokedAtMs.isNone && Text.eqIgnoreAsciiCase existing.name name then
    .error .nameTaken
  else .ok (catalog ++ [{
    id, name, description, role, cameraAccess := some .unrestricted, verifier, createdAtMs := now,
    rotatedAtMs := none, lastUsedAtMs := none, expiresAtMs, disabled := false,
    revokedAtMs := none, revision := 1, legacy := false, initialSecretPending := false }])

def rotated (verifier : Fingerprint) (now : Millis) (credential : StoredCredential) :
    StoredCredential :=
  { credential with
    verifier
    revision := saturatingSucc credential.revision
    rotatedAtMs := some now
    lastUsedAtMs := none
    initialSecretPending := false }

def replaceCredentialKey (id : Uuid) (verifier : Fingerprint) (now : Millis) (catalog : Catalog) :
    Except AccessError Catalog :=
  catalog.alter id
    (fun credential => if credential.revokedAtMs.isSome then .error .revokedUnrotated else .ok ())
    (rotated verifier now)

def enabledAs (enabled : Bool) (credential : StoredCredential) : StoredCredential :=
  { credential with disabled := !enabled, revision := saturatingSucc credential.revision }

def setCredentialEnabled (id : Uuid) (enabled : Bool) (catalog : Catalog) :
    Except AccessError Catalog :=
  catalog.alter id
    (fun credential => if credential.revokedAtMs.isSome then .error .revokedUnchanged else .ok ())
    (enabledAs enabled)

def revokedAt (now : Millis) (credential : StoredCredential) : StoredCredential :=
  if credential.revokedAtMs.isNone then
    { credential with
      revokedAtMs := some now
      revision := saturatingSucc credential.revision }
  else credential

def revokeCredential (id : Uuid) (now : Millis) (catalog : Catalog) : Except AccessError Catalog :=
  catalog.alter id (fun _ => .ok ()) (revokedAt now)

def accessChecked (expectedRevision : Nat) (credential : StoredCredential) :
    Except AccessError Unit :=
  if credential.revision ≠ expectedRevision then
    .error (.cameraAccessConflict credential.revision)
  else if credential.role = .administrator then .error .administratorAccess
  else if credential.revokedAtMs.isSome then .error .revokedUnchanged
  else if 2 ^ 64 ≤ credential.revision + 1 then .error .revisionExhausted
  else .ok ()

def accessGranted (policy : CameraAccess) (credential : StoredCredential) : StoredCredential :=
  { credential with
    cameraAccess := some { policy with
      groupIds := policy.groupIds.mergeSort
      cameraIds := policy.cameraIds.mergeSort }
    revision := credential.revision + 1 }

def setCameraAccess (id : Uuid) (expectedRevision : Nat) (policy : CameraAccess)
    (catalog : Catalog) : Except AccessError Catalog := do
  policy.validate
  catalog.alter id (accessChecked expectedRevision) (accessGranted policy)

def secretShown (credential : StoredCredential) : StoredCredential :=
  { credential with initialSecretPending := false }

def claimInitialAccessKey (verifier : Fingerprint) (catalog : Catalog) :
    Except AccessError Catalog :=
  match catalog.find? fun credential => credential.legacy with
  | none => .error .initialUnavailable
  | some credential =>
    if !credential.initialSecretPending then .error .initialRetrieved
    else if credential.verifier ≠ verifier then .error .initialMismatch
    else .ok (catalog.replace credential.id secretShown)

/-- What a section of the file can hold: its integers are signed and of 64 bits. -/
def encodable (catalog : Catalog) : Bool :=
  catalog.all fun credential => credential.revision < 2 ^ 63

/-- A change is kept when it is made, when the check on what it takes away agrees
and when it is written; otherwise the catalog is the one from before. -/
def mutateGuarded (catalog : Catalog) (preserved : Catalog → Except AccessError Unit)
    (written : Bool) (mutate : Catalog → Except AccessError Catalog) :
    Except AccessError Catalog := do
  let mutated ← mutate catalog
  preserved mutated
  if mutated.encodable && written then .ok mutated else .error .notPersisted

/-! The key selects by its fingerprint alone, so a change that keeps fingerprints
keeps the selection. -/

theorem matching_concat (c : Catalog) (k : StoredCredential) (fingerprint : Fingerprint) :
    matching (c ++ [k]) fingerprint = if k.verifier =
      fingerprint then some k else c.matching fingerprint := by
  simp [matching, List.foldl_append]

theorem mem_of_matching {fingerprint : Fingerprint} (h : c.matching fingerprint = some k) :
    k ∈ c ∧ k.verifier = fingerprint := by
  induction c using List.reverseRecOn with
  | nil => cases h
  | append_singleton c last ih =>
    rw [matching_concat] at h
    split at h
    · cases h
      exact ⟨by simp, by assumption⟩
    · exact ⟨List.mem_append_left _ (ih h).1, (ih h).2⟩

/-- The change of one credential of a catalog, as a change of every record. -/
def changeAt (id : Uuid) (change : StoredCredential → StoredCredential)
    (credential : StoredCredential) : StoredCredential :=
  if credential.id = id then change credential else credential

theorem replace_eq_map (c : Catalog) (id : Uuid) (change : StoredCredential → StoredCredential) :
    c.replace id change = c.map (changeAt id change) := rfl

theorem changeAt_of_ne {id : Uuid} (h : k.id ≠ id)
    (change : StoredCredential → StoredCredential) : changeAt id change k = k :=
  if_neg h

theorem matching_replace (keeps : ∀ k, (change k).verifier = k.verifier)
    (c : Catalog) (id : Uuid) (fingerprint : Fingerprint) :
    matching (c.replace id change) fingerprint =
      (c.matching fingerprint).map (changeAt id change) := by
  have kept : ∀ k, (changeAt id change k).verifier = k.verifier := by
    intro k
    unfold changeAt
    split
    · exact keeps k
    · rfl
  rw [replace_eq_map]
  induction c using List.reverseRecOn with
  | nil => rfl
  | append_singleton c last ih =>
    rw [List.map_append, List.map_cons, List.map_nil, matching_concat, matching_concat, kept, ih]
    split <;> rfl

theorem ids_replace (keeps : ∀ k, (change k).id = k.id) (c : Catalog) (id : Uuid) :
    (c.replace id change).map StoredCredential.id = c.map StoredCredential.id := by
  rw [replace, List.map_map]
  apply List.map_congr_left
  intro k _
  dsimp only [Function.comp_apply]
  split
  · exact keeps k
  · rfl

theorem alter_eq_ok {altered : Catalog} {id : Uuid}
    {check : StoredCredential → Except AccessError Unit}
    (h : c.alter id check change = .ok altered) :
    altered = c.replace id change ∧ ∃ k ∈ c, k.id = id ∧ check k = .ok () := by
  unfold alter at h
  split at h
  · cases h
  rename_i k found
  rcases Lib.map_eq_ok h with ⟨_, checked, rfl⟩
  have mem := List.mem_of_find?_eq_some found
  have named := List.find?_some found
  exact ⟨rfl, k, mem, by simpa using named, checked⟩

theorem mutateGuarded_eq_ok {mutated : Catalog} {preserved : Catalog → Except AccessError Unit}
    {written : Bool} {mutate : Catalog → Except AccessError Catalog}
    (h : c.mutateGuarded preserved written mutate = .ok mutated) :
    mutate c = .ok mutated ∧ preserved mutated = .ok () ∧ mutated.encodable := by
  unfold mutateGuarded at h
  rcases Lib.bind_eq_ok h with ⟨next, made, guarding⟩
  rcases Lib.bind_eq_ok guarding with ⟨_, guarded, writing⟩
  split at writing
  · cases writing
    rename_i kept
    simp only [Bool.and_eq_true] at kept
    exact ⟨made, guarded, kept.1⟩
  · cases writing

theorem authenticate_eq_ok {fingerprint : Fingerprint} {now : Millis} :
    c.authenticate fingerprint now = .ok k ↔ c.matching fingerprint = some k ∧
      k.isActive k.revision now := by
  unfold authenticate
  cases c.matching fingerprint with
  | none => simp
  | some selected =>
    simp only [Option.some.injEq]
    constructor
    · intro h
      split at h
      · cases h
      split at h
      · cases h
      split at h
      · cases h
      cases h
      refine ⟨rfl, ?_⟩
      cases expiry : k.expiresAtMs <;>
        simp_all [StoredCredential.isActive]
    · rintro ⟨rfl, active⟩
      simp only [StoredCredential.isActive, beq_self_eq_true, Bool.true_and, Bool.and_eq_true,
        Bool.not_eq_true', Option.isNone_iff_eq_none] at active
      rcases active with ⟨⟨enabled, unrevoked⟩, unexpired⟩
      cases expiry : selected.expiresAtMs <;> simp_all

theorem validateCredential_adds {ids next : List Uuid} {credential : StoredCredential}
    (checked : validateCredential ids credential = .ok next) :
    credential.id ∉ ids ∧ next = credential.id :: ids := by
  unfold validateCredential at checked
  rcases Lib.bind_eq_ok checked with ⟨_, _, described⟩
  rcases Lib.bind_eq_ok described with ⟨_, _, viewed⟩
  rcases Lib.bind_eq_ok viewed with ⟨_, _, numbered⟩
  split at numbered
  · cases numbered
  split at numbered
  · cases numbered
  · cases numbered
    exact ⟨by assumption, rfl⟩

theorem nodup_of_validate (h : c.validate = .ok ()) : (c.map StoredCredential.id).Nodup := by
  unfold validate at h
  split at h
  · cases h
  · rcases Lib.map_eq_ok h with ⟨ids, checked, _⟩
    exact (Lib.foldlM_nodup StoredCredential.id id (fun _ _ _ => validateCredential_adds) checked).1

end Catalog

end KeepPeek.Access
