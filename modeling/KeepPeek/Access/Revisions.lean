import KeepPeek.Access.Guard

/-! Revisions only grow.

A record that changes what it stands for takes a new revision. So a revision that
is in force at two moments was in force, unchanged, at every moment between. -/

namespace KeepPeek.Access

/-! Credentials. -/

structure StoredCredential.Later (before after : StoredCredential) : Prop where
  id : after.id = before.id
  expiry : after.expiresAtMs = before.expiresAtMs
  revision : before.revision ≤ after.revision
  kept : before.revision = after.revision →
    after.disabled = before.disabled ∧ (after.revokedAtMs = none → before.revokedAtMs = none)

namespace StoredCredential

theorem Later.refl (k : StoredCredential) : k.Later k :=
  ⟨rfl, rfl, Nat.le_refl _, fun _ => ⟨rfl, fun h => h⟩⟩

theorem Later.trans {first second third : StoredCredential} (h : first.Later second)
    (h' : second.Later third) : first.Later third := by
  refine ⟨h'.id.trans h.id, h'.expiry.trans h.expiry, Nat.le_trans h.revision h'.revision, ?_⟩
  intro same
  have early : first.revision = second.revision := by
    have := h.revision
    have := h'.revision
    omega
  have late := h'.kept (early.symm.trans same)
  exact ⟨late.1.trans (h.kept early).1, fun live => (h.kept early).2 (late.2 live)⟩

theorem Later.of_lt {before after : StoredCredential} (id : after.id = before.id)
    (expiry : after.expiresAtMs = before.expiresAtMs) (h : before.revision < after.revision) :
    before.Later after :=
  ⟨id, expiry, Nat.le_of_lt h, fun same => absurd same (Nat.ne_of_lt h)⟩

theorem Later.isActive {first second third : StoredCredential} (h : first.Later second)
    (h' : second.Later third) {revision : Nat} {start middle late : Millis}
    (ordered : middle ≤ late) (before : first.isActive revision start)
    (after : third.isActive revision late) : second.isActive revision middle := by
  simp only [StoredCredential.isActive, Bool.and_eq_true, beq_iff_eq, Bool.not_eq_true',
    Option.isNone_iff_eq_none] at before after ⊢
  rcases before with ⟨⟨⟨current, _⟩, _⟩, _⟩
  rcases after with ⟨⟨⟨current', enabled⟩, unrevoked⟩, unexpired⟩
  have between : second.revision = revision := by
    have := h.revision
    have := h'.revision
    omega
  have kept := h'.kept (between.trans current'.symm)
  refine ⟨⟨⟨between, kept.1.symm.trans enabled⟩, kept.2 unrevoked⟩, ?_⟩
  rw [h'.expiry] at unexpired
  cases expiry : second.expiresAtMs with
  | none => rfl
  | some deadline =>
    rw [expiry] at unexpired
    simp only [Option.all_some, decide_eq_true_eq] at unexpired ⊢
    exact Int.lt_of_le_of_lt ordered unexpired

end StoredCredential

theorem lt_saturatingSucc {revision : Nat} (h : revision < 2 ^ 63) :
    revision < saturatingSucc revision := by
  unfold saturatingSucc
  omega

namespace Catalog

variable {k : StoredCredential} {change : StoredCredential → StoredCredential}
  {now : Millis} {verifier : Fingerprint}

def Later (before after : Catalog) : Prop :=
  ∀ credential ∈ before, ∃ later ∈ after, credential.Later later

theorem Later.refl (c : Catalog) : c.Later c :=
  fun k mem => ⟨k, mem, .refl _⟩

theorem Later.trans {first second third : Catalog} (h : first.Later second)
    (h' : second.Later third) : first.Later third := by
  intro k mem
  rcases h k mem with ⟨between, memBetween, early⟩
  rcases h' between memBetween with ⟨later, memLater, late⟩
  exact ⟨later, memLater, early.trans late⟩

/-- The catalog as the manager keeps it: ids are distinct and revisions can be
written to the file. -/
structure Kept (catalog : Catalog) : Prop where
  distinct : (catalog.map StoredCredential.id).Nodup
  encodable : catalog.encodable

theorem Kept.revision_lt {c : Catalog} (kept : c.Kept) (mem : k ∈ c) : k.revision < 2 ^ 63 := by
  have bounded := List.all_eq_true.mp kept.encodable k mem
  simpa using bounded

theorem later_replace {c : Catalog} {id : Uuid} (h : ∀ k ∈ c, k.id = id → k.Later (change k)) :
    c.Later (c.replace id change) := by
  intro k mem
  refine ⟨changeAt id change k, List.mem_map_of_mem mem, ?_⟩
  unfold changeAt
  split
  · exact h k mem ‹_›
  · exact .refl _

/-- A change of the catalog that was kept, and what it does to its target. -/
structure Changes (before after : Catalog) : Prop where
  later : before.Later after
  kept : after.Kept

theorem changes_of_alter {c mutated : Catalog} (kept : c.Kept) {id : Uuid}
    {check : StoredCredential → Except AccessError Unit}
    (later : ∀ k ∈ c, k.id = id → k.Later (change k))
    (keepsId : ∀ k, (change k).id = k.id)
    (made : c.alter id check change = .ok mutated) (encodable : mutated.encodable) :
    c.Changes mutated := by
  rcases alter_eq_ok made with ⟨rfl, _⟩
  exact ⟨later_replace later, by rw [ids_replace keepsId]; exact kept.distinct, encodable⟩

theorem alter_ends {c mutated : Catalog} (kept : c.Kept) {id : Uuid}
    {check : StoredCredential → Except AccessError Unit}
    (made : c.alter id check change = .ok mutated) {revision : Nat}
    (active : c.credentialIsActive id revision now)
    (spent : ∀ k ∈ c, k.isActive revision now → k.revision < (change k).revision)
    (later : Millis) : mutated.credentialIsActive id revision later = false := by
  rcases alter_eq_ok made with ⟨rfl, _⟩
  simp only [credentialIsActive, List.any_eq_true, Bool.and_eq_true, beq_iff_eq] at active
  rcases active with ⟨k, mem, named, active⟩
  have current : k.revision = revision := by
    simp only [StoredCredential.isActive, Bool.and_eq_true, beq_iff_eq] at active
    exact active.1.1.1
  rw [credentialIsActive, List.any_eq_false]
  intro changed memChanged
  rcases List.mem_map.mp memChanged with ⟨other, memOther, rfl⟩
  simp only [Bool.and_eq_true, beq_iff_eq, StoredCredential.isActive, not_and]
  intro same
  split at same
  · rename_i target
    rw [if_pos target]
    have equal : other = k :=
      List.inj_on_of_nodup_map kept.distinct memOther mem (target.trans named.symm)
    have grown := spent k mem active
    rw [equal]
    omega
  · rename_i other
    exact absurd same other

variable {c mutated : Catalog} (kept : c.Kept) {id : Uuid}

include kept

theorem rotated_later (verifier : Fingerprint) (now : Millis) (mem : k ∈ c) :
    k.Later (rotated verifier now k) :=
  .of_lt rfl rfl (lt_saturatingSucc (kept.revision_lt mem))

theorem enabledAs_later (enabled : Bool) (mem : k ∈ c) : k.Later (enabledAs enabled k) :=
  .of_lt rfl rfl (lt_saturatingSucc (kept.revision_lt mem))

theorem revokedAt_later (now : Millis) (mem : k ∈ c) : k.Later (revokedAt now k) := by
  unfold revokedAt
  split
  · exact .of_lt rfl rfl (lt_saturatingSucc (kept.revision_lt mem))
  · exact .refl _

theorem changes_of_replaceCredentialKey
    (made : c.replaceCredentialKey id verifier now = .ok mutated)
    (encodable : mutated.encodable) : c.Changes mutated :=
  changes_of_alter kept (fun _ mem _ => rotated_later kept verifier now mem) (fun _ => rfl) made
    encodable

theorem changes_of_setCredentialEnabled {enabled : Bool}
    (made : c.setCredentialEnabled id enabled = .ok mutated)
    (encodable : mutated.encodable) : c.Changes mutated :=
  changes_of_alter kept (fun _ mem _ => enabledAs_later kept enabled mem) (fun _ => rfl) made
    encodable

theorem changes_of_revokeCredential (made : c.revokeCredential id now = .ok mutated)
    (encodable : mutated.encodable) : c.Changes mutated := by
  refine changes_of_alter kept (fun _ mem _ => revokedAt_later kept now mem) ?_ made encodable
  intro k
  unfold revokedAt
  split <;> rfl

theorem changes_of_setCameraAccess {expectedRevision : Nat} {policy : CameraAccess}
    (made : c.setCameraAccess id expectedRevision policy = .ok mutated)
    (encodable : mutated.encodable) : c.Changes mutated := by
  rcases Lib.bind_eq_ok made with ⟨_, _, altered⟩
  have later : ∀ k : StoredCredential, k.Later (accessGranted policy k) :=
    fun k => .of_lt rfl rfl (Nat.lt_succ_self k.revision)
  exact changes_of_alter kept (fun k _ _ => later k) (fun k => (later k).id) altered encodable

theorem changes_of_claimInitialAccessKey
    (made : c.claimInitialAccessKey verifier = .ok mutated) (encodable : mutated.encodable) :
    c.Changes mutated := by
  unfold claimInitialAccessKey at made
  split at made
  · cases made
  split at made
  · cases made
  split at made
  · cases made
  cases made
  have later : ∀ k : StoredCredential, k.Later (secretShown k) :=
    fun _ => ⟨rfl, rfl, Nat.le_refl _, fun _ => ⟨rfl, fun h => h⟩⟩
  refine ⟨later_replace fun k _ _ => later k, ?_, encodable⟩
  rw [ids_replace fun k => (later k).id]
  exact kept.distinct

theorem changes_of_create {name : Text} {description : Option Text} {role : AccessRole}
    {expiresAtMs : Option Millis} (fresh : id ∉ c.map StoredCredential.id)
    (made : create id name description role expiresAtMs verifier now c = .ok mutated)
    (encodable : mutated.encodable) : c.Changes mutated := by
  unfold create at made
  rcases Lib.bind_eq_ok made with ⟨_, _, made⟩
  rcases Lib.bind_eq_ok made with ⟨_, _, made⟩
  split at made
  · cases made
  split at made
  · cases made
  split at made
  · cases made
  cases made
  refine ⟨fun k mem => ⟨k, List.mem_append_left _ mem, .refl _⟩, ?_, encodable⟩
  rw [List.map_append, List.map_cons, List.map_nil]
  exact kept.distinct.append (List.nodup_singleton _) (by simpa using fresh)

theorem changes_of_used (now : Millis) : c.Changes (c.replace id (used now)) := by
  have same : ∀ k : StoredCredential, k.Later (used now k) ∧ (used now k).id = k.id ∧
      (used now k).revision = k.revision := by
    intro k
    unfold used
    split
    · exact ⟨⟨rfl, rfl, Nat.le_refl _, fun _ => ⟨rfl, fun h => h⟩⟩, rfl, rfl⟩
    · exact ⟨.refl _, rfl, rfl⟩
  refine ⟨later_replace fun k _ _ => (same k).1, ?_, ?_⟩
  · rw [ids_replace fun k => (same k).2.1]
    exact kept.distinct
  · refine List.all_eq_true.mpr ?_
    intro changed mem
    rcases List.mem_map.mp mem with ⟨k, held, rfl⟩
    have bound := kept.revision_lt held
    split
    · rw [(same k).2.2]
      exact decide_eq_true bound
    · exact decide_eq_true bound

end Catalog

/-! Identities. -/

structure Identity.Later (before after : Identity) : Prop where
  id : after.id = before.id
  revision : before.revision ≤ after.revision
  kept : before.revision = after.revision → after.enabled → before.enabled

theorem Identity.Later.refl (identity : Identity) : identity.Later identity :=
  ⟨rfl, Nat.le_refl _, fun _ enabled => enabled⟩

theorem Identity.Later.trans {first second third : Identity} (h : first.Later second)
    (h' : second.Later third) : first.Later third := by
  refine ⟨h'.id.trans h.id, Nat.le_trans h.revision h'.revision, ?_⟩
  intro same enabled
  have early : first.revision = second.revision := by
    have := h.revision
    have := h'.revision
    omega
  exact h.kept early (h'.kept (early.symm.trans same) enabled)

namespace Directory

variable {directory after : Directory} {id : Uuid} {revision : Nat} {identity : Identity}

def Later (before after : Directory) : Prop :=
  ∀ identity ∈ before, ∃ later ∈ after, identity.Later later

theorem Later.refl (directory : Directory) : directory.Later directory :=
  fun identity mem => ⟨identity, mem, .refl _⟩

theorem Later.trans {first second third : Directory} (h : first.Later second)
    (h' : second.Later third) : first.Later third := by
  intro identity mem
  rcases h identity mem with ⟨between, memBetween, early⟩
  rcases h' between memBetween with ⟨later, memLater, late⟩
  exact ⟨later, memLater, early.trans late⟩

theorem Distinct.eq (distinct : directory.Distinct) {left right : Identity}
    (hleft : left ∈ directory) (hright : right ∈ directory) (same : left.id = right.id) :
    left = right :=
  List.inj_on_of_nodup_map distinct hleft hright same

theorem active_isSome :
    (directory.active id revision).isSome ↔
      ∃ identity ∈ directory, identity.id = id ∧ identity.enabled ∧
        identity.revision = revision := by
  simp [active, List.find?_isSome, and_assoc]

theorem Later.active {first second third : Directory} (h : first.Later second)
    (h' : second.Later third) (distinct : third.Distinct)
    (before : (first.active id revision).isSome) (after : (third.active id revision).isSome) :
    (second.active id revision).isSome := by
  rcases active_isSome.mp before with ⟨early, memEarly, named, _, current⟩
  rcases active_isSome.mp after with ⟨late, memLate, named', enabled, current'⟩
  rcases h early memEarly with ⟨between, memBetween, toBetween⟩
  rcases h' between memBetween with ⟨last, memLast, toLast⟩
  have same : last = late :=
    distinct.eq memLast memLate (((toLast.id.trans toBetween.id).trans named).trans named'.symm)
  subst same
  have revised : between.revision = revision := by
    have := toBetween.revision
    have := toLast.revision
    omega
  exact active_isSome.mpr ⟨between, memBetween, toBetween.id.trans named,
    toLast.kept (revised.trans current'.symm) enabled, revised⟩

theorem distinct_replace (distinct : directory.Distinct) {change : Identity → Identity}
    (keepsId : ∀ identity ∈ directory, identity.id = id → (change identity).id = id) :
    (directory.replace id change).Distinct := by
  have ids : (directory.replace id change).map Identity.id = directory.map Identity.id := by
    rw [replace, List.map_map]
    apply List.map_congr_left
    intro identity mem
    dsimp only [Function.comp_apply]
    split
    · rename_i named
      exact (keepsId identity mem named).trans named.symm
    · rfl
  unfold Distinct
  rw [ids]
  exact distinct

theorem later_replace {change : Identity → Identity}
    (h : ∀ identity ∈ directory, identity.id = id → identity.Later (change identity)) :
    directory.Later (directory.replace id change) := by
  intro identity mem
  refine ⟨if identity.id = id then change identity else identity,
    List.mem_map.mpr ⟨identity, mem, rfl⟩, ?_⟩
  split
  · exact h identity mem ‹_›
  · exact .refl _

/-- A sign-in or a revocation, and the directory it leaves. -/
structure Changes (before after : Directory) : Prop where
  later : before.Later after
  distinct : after.Distinct

theorem Changes.replace_one (distinct : directory.Distinct) {updated : Identity}
    (mem : identity ∈ directory) (later : identity.Later updated) :
    directory.Changes (directory.replace identity.id fun _ => updated) := by
  refine ⟨later_replace ?_, distinct_replace distinct fun _ _ _ => later.id⟩
  intro other memOther named
  rw [distinct.eq memOther mem named]
  exact later

theorem mem_replace_one (mem : identity ∈ directory) (updated : Identity) :
    updated ∈ directory.replace identity.id fun _ => updated :=
  List.mem_map.mpr ⟨identity, mem, if_pos rfl⟩

theorem checkedAdd_eq_ok {step after : Nat} (h : checkedAdd revision step = .ok after) :
    after = revision + step := by
  unfold checkedAdd at h
  split at h
  · cases h
    rfl
  · cases h

variable {μ : Type} {digests : Digests μ}

/-- The identity of the subject that signs in, as the directory has it. -/
def known (digests : Digests μ) (input : IdentityInput) (directory : Directory) :
    Option Identity :=
  directory.find? fun identity =>
    identity.subjectFingerprint == digests.subject input.namespaceName input.subject

/-- What a sign-in does: a known subject keeps its id and takes a new revision with a
new grant, another one is entered. -/
structure Provisions (digests : Digests μ) (input : IdentityInput) (directory after : Directory)
    (identity : Identity) : Prop where
  changes : directory.Changes after
  mem : identity ∈ after
  revised : ∀ known ∈ directory, known.id = identity.id → identity.revision =
    known.revision + (grantChanges known input.providerId input.grant).toNat
  named : ∀ known, directory.known digests input = some known → identity.id = known.id

theorem provision_eq_ok (distinct : directory.Distinct) (fresh : id ∉ directory.map Identity.id)
    {input : IdentityInput} (h : provision digests id input directory = .ok (after, identity)) :
    Provisions digests input directory after identity := by
  unfold provision at h
  rcases Lib.bind_eq_ok h with ⟨_, _, h⟩
  dsimp only at h
  split at h
  · rename_i present found
    have mem := List.mem_of_find?_eq_some found
    split at h
    · cases h
    rename_i enabled
    rcases Lib.bind_eq_ok h with ⟨revision, added, h⟩
    have grown := checkedAdd_eq_ok added
    cases h
    refine ⟨Changes.replace_one distinct mem ⟨rfl, by simp [grown], ?_⟩,
      mem_replace_one mem _, ?_, ?_⟩
    · intro _ _
      simpa using enabled
    · intro other memOther named
      rw [distinct.eq memOther mem named]
      exact grown
    · intro other known
      cases Option.mem_unique known found
      rfl
  · rename_i absent
    split at h
    · cases h
    cases h
    refine ⟨⟨fun present mem => ⟨present, List.mem_append_left _ mem, .refl _⟩, ?_⟩, by simp,
      ?_, ?_⟩
    · unfold Distinct
      rw [List.map_append, List.map_cons, List.map_nil]
      exact distinct.append (List.nodup_singleton _) (by simpa using fresh)
    · intro present mem named
      exact absurd (List.mem_map.mpr ⟨present, mem, named⟩) fresh
    · intro other known
      cases known.symm.trans absent

theorem provisionAuthenticated_eq_ok (distinct : directory.Distinct)
    (fresh : id ∉ directory.map Identity.id) {input : IdentityInput} {provider : Provider μ}
    (h : provisionAuthenticated digests id input provider directory = .ok (after, identity)) :
    Provisions digests input directory after identity := by
  unfold provisionAuthenticated at h
  split at h
  · cases h
  rcases Lib.bind_eq_ok h with ⟨⟨provisioned, entered⟩, made, h⟩
  rcases provision_eq_ok distinct fresh made with ⟨changes, mem, revised, named⟩
  cases h
  have admitted := Changes.replace_one changes.distinct mem
    (⟨rfl, Nat.le_refl _, fun _ enabled => enabled⟩ : entered.Later
      { entered with admissionPolicyFingerprint := some (digests.policy provider) })
  exact ⟨⟨changes.later.trans admitted.later, admitted.distinct⟩, mem_replace_one mem _, revised,
    named⟩

theorem revoke_changes (distinct : directory.Distinct) (h : revoke id directory = .ok after) :
    directory.Changes after ∧ ∀ identity ∈ after, identity.id = id → identity.enabled = false := by
  unfold revoke at h
  split at h
  · cases h
  rename_i known found
  have mem := List.mem_of_find?_eq_some found
  have named : known.id = id := by simpa using List.find?_some found
  split at h
  · rcases Lib.map_eq_ok h with ⟨revision, added, rfl⟩
    have grown := checkedAdd_eq_ok added
    refine ⟨⟨later_replace ?_, distinct_replace distinct fun _ _ same => same⟩, ?_⟩
    · intro other memOther same
      rw [distinct.eq memOther mem (same.trans named.symm)]
      exact ⟨rfl, by simp [withdrawn, grown], fun _ enabled => by cases enabled⟩
    · intro identity held same
      rcases List.mem_map.mp held with ⟨other, memOther, rfl⟩
      split at same
      · rw [if_pos (by assumption)]
        rfl
      · exact absurd same (by assumption)
  · cases h
    rename_i disabled
    refine ⟨⟨.refl _, distinct⟩, ?_⟩
    intro identity held same
    rw [distinct.eq held mem (same.trans named.symm)]
    simpa using disabled

end Directory

end KeepPeek.Access
