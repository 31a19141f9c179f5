import KeepPeek.Access.Guard
import KeepPeek.Lib.Run

/-! The guard keeps an Administrator.

The guard judges configurations by rules of its own. Here they are compared with
the rules of signing in: what it lets pass leaves somebody who could sign in
before and can after, but for the one Administrator it does not count. -/

namespace KeepPeek.Access

open Catalog

variable {τ μ : Type}

namespace Config

variable {now : Millis} {digests : Digests μ} {cfg : Config τ μ} {c : Catalog}

/-! Who can sign in, by the rules that signing in follows. -/

/-- A way in: a credential by its key, or an identity by its subject. -/
inductive Entry where
  | bearer (id : Uuid) (key : Fingerprint)
  | external (id : Uuid) (subject : Text)
  deriving DecidableEq

def signsIn (digests : Digests μ) (config : Config τ μ) (now : Millis) : Entry → Prop
  | .bearer id key =>
    bearerAllowed config.externalAuth now ∧ ∃ credential,
      config.catalog.authenticate key now = .ok credential ∧ credential.id = id ∧
        credential.role = .administrator
  | .external id subject =>
    ∃ settings, config.externalAuth = some settings ∧ ∃ identity ∈ config.directory,
      isAdministrator identity ∧ identity.id = id ∧ identity.subjectFingerprint = subject ∧
        ∃ provider ∈ settings.providers, admits digests provider identity

/-- It does so from now on, as long as nothing is changed. -/
def lasts (digests : Digests μ) (config : Config τ μ) (now : Millis) (entry : Entry) : Prop :=
  ∀ later, now ≤ later → config.signsIn digests later entry

/-- Somebody has taken the key: it is not the initial one that waits to be shown. -/
def claimed (config : Config τ μ) : Entry → Prop
  | .bearer _ key => ∃ credential,
    config.catalog.matching key = some credential ∧ credential.initialSecretPending = false
  | .external _ _ => True

def Permanent (digests : Digests μ) (config : Config τ μ) : Entry → Prop
  | .bearer id key => config.externalAuth = none ∧ ∃ credential,
    config.catalog.matching key = some credential ∧ credential.id = id ∧
      ∀ now, durableBearer now credential
  | .external id subject => config.signsIn digests 0 (.external id subject)

theorem durableBearer_iff {k : StoredCredential} :
    durableBearer now k ↔ k.role = .administrator ∧ k.initialSecretPending = false ∧ k.expiresAtMs =
      none ∧ k.disabled = false ∧ k.revokedAtMs = none := by
  unfold durableBearer StoredCredential.isActive
  cases k.expiresAtMs <;> simp [and_assoc]

theorem permanent_of_lasts {entry : Entry} (stays : cfg.lasts digests now entry)
    (taken : cfg.claimed entry) : cfg.Permanent digests entry := by
  cases entry with
  | external id subject => exact stays now (Int.le_refl _)
  | bearer id key =>
    rcases taken with ⟨credential, selected, shown⟩
    have signed : ∀ later, now ≤ later → bearerAllowed cfg.externalAuth later ∧
        credential.id = id ∧ credential.role = .administrator ∧
        credential.isActive credential.revision later := by
      intro later after
      rcases stays later after with ⟨allowed, other, accepted, named, role⟩
      rcases authenticate_eq_ok.mp accepted with ⟨same, active⟩
      rw [selected] at same
      cases same
      exact ⟨allowed, named, role, active⟩
    have undated : credential.expiresAtMs = none := by
      cases expiry : credential.expiresAtMs with
      | none => rfl
      | some deadline =>
        have late := (signed (max now deadline) (Int.le_max_left _ _)).2.2.2
        simp only [StoredCredential.isActive, expiry, Option.all_some, Bool.and_eq_true,
          decide_eq_true_eq] at late
        exact absurd late.2 (Int.not_lt.mpr (Int.le_max_right _ _))
    refine ⟨?_, credential, selected, (signed now (Int.le_refl _)).2.1, ?_⟩
    · cases external : cfg.externalAuth with
      | none => rfl
      | some settings =>
        have allowed : ∀ later, now ≤ later → bearerAllowed (some settings) later := by
          intro later after
          rw [← external]
          exact (signed later after).1
        cases transition : settings.bearerTransitionUntilMs with
        | none =>
          have never := allowed now (Int.le_refl _)
          simp [bearerAllowed, transition] at never
        | some deadline =>
          have late := allowed (max now deadline) (Int.le_max_left _ _)
          simp only [bearerAllowed, transition, Option.all_some, Option.any_some,
            Bool.and_eq_true, decide_eq_true_eq] at late
          exact absurd late.2 (Int.not_lt.mpr (Int.le_max_right _ _))
    · intro later
      have active := (signed now (Int.le_refl _)).2.2.2
      simp only [StoredCredential.isActive, Bool.and_eq_true, Bool.not_eq_true',
        Option.isNone_iff_eq_none] at active
      exact durableBearer_iff.mpr ⟨(signed now (Int.le_refl _)).2.2.1, shown, undated, active.1.1.2,
        active.1.2⟩

theorem Permanent.signsIn {entry : Entry} (h : cfg.Permanent digests entry) (now : Millis) :
    cfg.signsIn digests now entry := by
  cases entry with
  | external id subject => exact h
  | bearer id key =>
    rcases h with ⟨direct, credential, selected, named, durable⟩
    have facts := durableBearer_iff.mp (durable now)
    have active : credential.isActive credential.revision now := by
      simp [StoredCredential.isActive, facts]
    refine ⟨by simp [bearerAllowed, direct], credential, ?_, named, facts.1⟩
    exact authenticate_eq_ok.mpr ⟨selected, active⟩

/-! What the guard has seen when it lets a change pass. -/

theorem credentials_eq_ok (h : cfg.credentials = .ok c) : c = cfg.catalog := by
  rcases Lib.map_eq_ok h with ⟨_, _, same⟩
  exact same.symm

theorem identities_eq_ok {directory : Directory} (h : cfg.identities = .ok directory) :
    directory = cfg.directory := by
  unfold identities at h
  split at h
  · cases h
    rfl
  · cases h

structure Distinct (config : Config τ μ) : Prop where
  credentials : (config.catalog.map StoredCredential.id).Nodup
  identities : (config.directory.map Identity.id).Nodup

theorem eq_of_id (distinct : (c.map StoredCredential.id).Nodup)
    {left right : StoredCredential} (hleft : left ∈ c) (hright : right ∈ c)
    (same : left.id = right.id) : left = right :=
  List.inj_on_of_nodup_map distinct hleft hright same

theorem matching_of_selectedByBearer (distinct : (c.map StoredCredential.id).Nodup)
    {k : StoredCredential} (mem : k ∈ c)
    (selected : selectedByBearer c k) :
    c.matching k.verifier = some k := by
  unfold selectedByBearer at selected
  cases found : c.matching k.verifier with
  | none =>
    rw [found] at selected
    cases selected
  | some other =>
    rw [found] at selected
    have same : other.id = k.id := by simpa using selected
    rw [eq_of_id distinct (mem_of_matching found).1 mem same]

theorem preservesBearer_spec {before after : Config τ μ} (digests : Digests μ)
    (hbefore : before.Distinct) (hafter : after.Distinct)
    (allowed : bearerAllowed before.externalAuth now) (direct : after.externalAuth = none)
    (h : preservesBearer before.catalog after.catalog now) :
    ∃ entry, before.signsIn digests now entry ∧ after.Permanent digests entry := by
  simp only [preservesBearer, List.any_eq_true, Bool.and_eq_true, beq_iff_eq] at h
  rcases h with ⟨candidate, mem, ⟨durable, selected⟩, existing, memBefore,
    ⟨⟨durableBefore, sameId⟩, sameKey⟩, selectedBefore⟩
  have found := matching_of_selectedByBearer hafter.credentials mem selected
  have foundBefore := matching_of_selectedByBearer hbefore.credentials memBefore selectedBefore
  rw [← sameKey] at foundBefore
  refine ⟨.bearer candidate.id candidate.verifier, ?_, ?_⟩
  · have facts := durableBearer_iff.mp durableBefore
    have active : existing.isActive existing.revision now := by
      simp [StoredCredential.isActive, facts]
    exact ⟨allowed, existing, authenticate_eq_ok.mpr ⟨foundBefore, active⟩, sameId.symm, facts.1⟩
  · refine ⟨direct, candidate, found, rfl, ?_⟩
    intro later
    exact durableBearer_iff.mpr (durableBearer_iff.mp durable)

theorem Permanent.hasCurrent {entry : Entry} (h : cfg.Permanent digests entry) {current : Bool}
    (checked : cfg.hasCurrentAdministrator now = .ok current) : current = true := by
  unfold hasCurrentAdministrator at checked
  rcases Lib.bind_eq_ok checked with ⟨bearer, hbearer, checked⟩
  cases bearer with
  | true =>
    cases checked
    rfl
  | false =>
    cases entry with
    | external id subject =>
      rcases h with ⟨settings, hsettings, identity, mem, administrator, _⟩
      simp only [Bool.false_eq_true, if_false, hsettings, Option.isSome_some, if_true] at checked
      rcases Lib.map_eq_ok checked with ⟨directory, found, rfl⟩
      rw [identities_eq_ok found]
      exact List.any_eq_true.mpr ⟨identity, mem, administrator⟩
    | bearer id key =>
      rcases h with ⟨direct, credential, selected, named, durable⟩
      have facts := durableBearer_iff.mp (durable now)
      unfold hasCurrentBearer at hbearer
      rw [direct] at hbearer
      rcases Lib.map_eq_ok hbearer with ⟨c, found, unmatched⟩
      rw [credentials_eq_ok found] at unmatched
      have mem := mem_of_matching selected
      have accepted : isCurrentBearer cfg.catalog now credential := by
        simp [isCurrentBearer, selectedByBearer, mem.2, selected, StoredCredential.isActive, facts]
      have matched := List.any_eq_true.mpr ⟨credential, mem.1, accepted⟩
      rw [unmatched] at matched
      cases matched

theorem distinct_of_validate (credentials : cfg.catalog.validate = .ok ())
    (identities : cfg.directory.validate = .ok ()) : cfg.Distinct :=
  ⟨nodup_of_validate credentials, Directory.distinct_of_validate identities⟩

end Config

section Guard

variable [DecidableEq μ]

namespace Config

theorem preservesExternalAdministrator_spec {digests : Digests μ} {before after : Config τ μ}
    {now : Millis} (h : preservesExternalAdministrator digests before after = .ok true) :
    ∃ entry, before.signsIn digests now entry ∧ after.Permanent digests entry := by
  unfold preservesExternalAdministrator at h
  split at h
  · rename_i previous next hprevious hnext
    split at h
    · cases h
    rcases Lib.bind_eq_ok h with ⟨previousDirectory, hbefore, h⟩
    rcases Lib.bind_eq_ok h with ⟨nextDirectory, hafter, h⟩
    cases identities_eq_ok hbefore
    cases identities_eq_ok hafter
    simp only [Except.ok.injEq, List.any_eq_true, Bool.and_eq_true, List.contains_iff_mem] at h
    rcases h with ⟨candidate, mem, ⟨administrator, existing, memBefore, same⟩, provider,
      memProvider, admitted, known⟩
    simp only [samePerson, Bool.and_eq_true, beq_iff_eq] at same
    rcases same with ⟨⟨⟨⟨was, sameId⟩, sameSubject⟩, sameProvider⟩, samePolicy⟩
    refine ⟨.external candidate.id candidate.subjectFingerprint, ?_, ?_⟩
    · refine ⟨previous, hprevious, existing, memBefore, was, sameId, sameSubject, provider, known,
        ?_⟩
      unfold admits at admitted ⊢
      rw [sameProvider, samePolicy]
      exact admitted
    · exact ⟨next, hnext, candidate, mem, administrator, rfl, rfl, provider, memProvider, admitted⟩
  · cases h

end Config

variable [DecidableEq τ]

namespace Config

variable {digests : Digests μ} {after cfg : Config τ μ} {valid : Config τ μ → Bool} {id : Uuid}
  {q : Request μ} {entry : Entry}

theorem preservesAdministrator_spec {before : Config τ μ} (hbefore : before.Distinct)
    (hafter : after.Distinct) {now : Millis}
    (h : preservesAdministrator digests before after now = .ok true) :
    ∃ entry, before.signsIn digests now entry ∧ after.Permanent digests entry := by
  unfold preservesAdministrator at h
  split at h
  · cases h
  rcases Lib.bind_eq_ok h with ⟨bearer, hbearer, h⟩
  cases bearer with
  | false => exact preservesExternalAdministrator_spec h
  | true =>
    unfold preservesBearers at hbearer
    split at hbearer
    · rename_i allowed
      simp only [Bool.and_eq_true, Option.isNone_iff_eq_none] at allowed
      rcases Lib.bind_eq_ok hbearer with ⟨previous, hprevious, hbearer⟩
      rcases Lib.bind_eq_ok hbearer with ⟨next, hnext, hbearer⟩
      cases credentials_eq_ok hprevious
      cases credentials_eq_ok hnext
      exact preservesBearer_spec digests hbefore hafter allowed.1 allowed.2 (Except.ok.inj hbearer)
    · cases hbearer

/-! One command at a time. -/

theorem preserveCredentialAdministrator_eq_ok {before : Config τ μ} {now : Millis}
    (h : preserveCredentialAdministrator digests valid before after id now = .ok ()) :
    (∀ credential ∈ before.catalog, credential.id = id → durableBearer now credential = false) ∨
      before.hasCurrentAdministrator now = .ok false ∨
      preservesAdministrator digests before after now = .ok true := by
  unfold preserveCredentialAdministrator at h
  dsimp only at h
  split at h
  · rename_i untouched
    left
    intro credential mem named
    simp only [Bool.not_eq_true', List.any_eq_false] at untouched
    have refused := untouched credential mem
    unfold durableBearer
    cases credential.expiresAtMs.isNone <;> simp_all
  · split at h
    · cases h
    rcases Lib.bind_eq_ok h with ⟨current, hcurrent, h⟩
    right
    cases current with
    | false => exact Or.inl hcurrent
    | true =>
      rcases Lib.bind_eq_ok h with ⟨preserved, hpreserved, h⟩
      cases preserved with
      | false => cases h
      | true => exact Or.inr hpreserved

theorem mutateCatalog_keeps {check : StoredCredential → Except AccessError Unit}
    {change : StoredCredential → StoredCredential}
    (keepsId : ∀ credential, (change credential).id = credential.id)
    (keepsKey : ∀ credential, (change credential).verifier = credential.verifier)
    (distinct : cfg.Distinct) (permanent : cfg.Permanent digests entry)
    (h : cfg.mutateCatalog digests valid q id (fun catalog => catalog.alter id check change) =
      .ok after) :
    after.Distinct ∧ ∃ entry, cfg.signsIn digests q.now entry ∧ after.Permanent digests entry := by
  unfold mutateCatalog at h
  dsimp only at h
  split at h
  · rename_i catalog changed
    cases h
    rcases mutateGuarded_eq_ok changed with ⟨altered, guarded, _⟩
    rcases alter_eq_ok altered with ⟨rfl, _⟩
    have kept : Distinct { cfg with catalog := cfg.catalog.replace id change } :=
      ⟨by rw [ids_replace keepsId]; exact distinct.credentials, distinct.identities⟩
    refine ⟨kept, ?_⟩
    rcases preserveCredentialAdministrator_eq_ok guarded with untouched | absent | preserved
    · refine ⟨entry, permanent.signsIn q.now, ?_⟩
      cases entry with
      | external identity subject => exact permanent
      | bearer holder key =>
        rcases permanent with ⟨direct, credential, selected, named, durable⟩
        have other : credential.id ≠ id := by
          intro same
          have refused := untouched credential (mem_of_matching selected).1 same
          rw [durable q.now] at refused
          cases refused
        refine ⟨direct, credential, ?_, named, durable⟩
        rw [matching_replace keepsKey, selected, Option.map_some, changeAt_of_ne other]
    · cases permanent.hasCurrent absent
    · exact preservesAdministrator_spec distinct kept preserved
  · cases h

theorem Directory.revoke_eq_ok {directory revoked : Directory}
    (h : Directory.revoke id directory = .ok revoked) :
    ∃ change : Identity → Identity, (∀ identity, (change identity).id = identity.id) ∧
      revoked = directory.replace id change := by
  unfold Directory.revoke at h
  split at h
  · cases h
  split at h
  · rcases Lib.map_eq_ok h with ⟨revision, _, rfl⟩
    exact ⟨Directory.withdrawn revision, fun _ => rfl, rfl⟩
  · cases h
    refine ⟨fun identity => identity, fun _ => rfl, ?_⟩
    simp [Directory.replace]

theorem revokeIdentity_keeps {expectedRevision : Nat} (distinct : cfg.Distinct)
    (permanent : cfg.Permanent digests entry)
    (h : cfg.revokeIdentity digests valid q id expectedRevision = .ok after) :
    after.Distinct ∧ ∃ entry, cfg.signsIn digests q.now entry ∧ after.Permanent digests entry := by
  unfold Config.revokeIdentity at h
  split at h
  · cases h
  rename_i existing found
  split at h
  · cases h
  split at h
  · cases h
  rename_i directory revoked
  rcases Directory.revoke_eq_ok revoked with ⟨change, keepsId, rfl⟩
  have kept : Distinct { cfg with directory := cfg.directory.replace id change } := by
    refine ⟨distinct.credentials, ?_⟩
    have ids : (cfg.directory.replace id change).map Identity.id =
        cfg.directory.map Identity.id := by
      rw [Directory.replace, List.map_map]
      apply List.map_congr_left
      intro identity _
      dsimp only [Function.comp_apply]
      split
      · exact keepsId identity
      · rfl
    change (Directory.replace cfg.directory id change |>.map Identity.id).Nodup
    rw [ids]
    exact distinct.identities
  rcases Lib.bind_eq_ok h with ⟨_, retained, h⟩
  split at h
  · cases h
    refine ⟨kept, ?_⟩
    unfold retainsAdministrator at retained
    split at retained
    · unfold requireRetainedAdministrator at retained
      split at retained
      · cases retained
      split at retained
      · cases retained
      · cases retained
      · exact preservesAdministrator_spec distinct kept (by assumption)
    · rename_i ordinary
      refine ⟨entry, permanent.signsIn q.now, ?_⟩
      cases entry with
      | bearer holder key => exact permanent
      | external holder subject =>
        rcases permanent with ⟨settings, external, identity, mem, was, rest⟩
        refine ⟨settings, external, identity, ?_, was, rest⟩
        have other : identity.id ≠ id := by
          intro same
          have named : existing.id = id := by simpa using List.find?_some found
          have equal := List.inj_on_of_nodup_map distinct.identities mem
            (List.mem_of_find?_eq_some found) (same.trans named.symm)
          rw [equal] at was
          exact ordinary was
        exact List.mem_map.mpr ⟨identity, mem, if_neg other⟩
  · cases h

theorem changeSettings_keeps {settings : Option (ExternalConfig μ)} (distinct : cfg.Distinct)
    (permanent : cfg.Permanent digests entry)
    (h : cfg.changeSettings digests valid q settings = .ok after) :
    after.Distinct ∧ ∃ entry, cfg.signsIn digests q.now entry ∧ after.Permanent digests entry := by
  unfold Config.changeSettings at h
  dsimp only at h
  split at h
  · cases h
  split at h
  · cases h
  split at h
  · cases h
  · cases h
  rename_i confirmed
  split at h
  · cases h
    have kept : Distinct { cfg with externalAuth := settings } :=
      ⟨distinct.credentials, distinct.identities⟩
    refine ⟨kept, ?_⟩
    unfold needsConfirmation at confirmed
    rcases Lib.bind_eq_ok confirmed with ⟨current, hcurrent, confirmed⟩
    cases permanent.hasCurrent hcurrent
    rcases Lib.bind_eq_ok confirmed with ⟨preserved, hpreserved, confirmed⟩
    cases preserved with
    | false => cases confirmed
    | true => exact preservesAdministrator_spec distinct kept hpreserved
  · cases h

/-- After a command, refused or not, somebody is in both configurations. -/
theorem next_keeps (distinct : cfg.Distinct) (permanent : cfg.Permanent digests entry)
    (q : Request μ) :
    (cfg.next digests valid q).Distinct ∧ ∃ entry, cfg.signsIn digests q.now entry ∧
        (cfg.next digests valid q).Permanent digests entry := by
  unfold next
  cases made : cfg.apply digests valid q with
  | error refusal => exact ⟨distinct, entry, permanent.signsIn q.now, permanent⟩
  | ok after =>
    unfold apply at made
    split at made
    · have revoking : ∀ credential, (revokedAt q.now credential).id = credential.id ∧
          (revokedAt q.now credential).verifier = credential.verifier := by
        intro credential
        unfold revokedAt
        split <;> exact ⟨rfl, rfl⟩
      exact mutateCatalog_keeps (fun credential => (revoking credential).1)
        (fun credential => (revoking credential).2) distinct permanent made
    · have disabling : ∀ credential, (enabledAs false credential).id = credential.id ∧
          (enabledAs false credential).verifier = credential.verifier :=
        fun _ => ⟨rfl, rfl⟩
      exact mutateCatalog_keeps (fun credential => (disabling credential).1)
        (fun credential => (disabling credential).2) distinct permanent made
    · exact revokeIdentity_keeps distinct permanent made
    · exact changeSettings_keeps distinct permanent made

end Config

end Guard

namespace Fixture

def digest : Text := List.replicate 64 '0'

def digests : Digests Unit := ⟨fun _ _ => digest, fun _ => digest⟩

def administrator (id : Uuid) (key : Fingerprint) : StoredCredential :=
  { StoredCredential.legacyCredential id key 0 with legacy := false, initialSecretPending := false }

def guarded : Config Unit Unit := ⟨(), none, [administrator 1 7, administrator 2 8], []⟩

/-- The first start: one Administrator, whose key came from the command line. -/
def firstRun : Config Unit Unit := ⟨(), none, [StoredCredential.legacyCredential 1 7 0], []⟩

end Fixture

open Fixture

end KeepPeek.Access
