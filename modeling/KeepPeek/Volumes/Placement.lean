import KeepPeek.Lib.Text
import KeepPeek.Lib.Unordered
import Mathlib.Data.List.Sort
import Mathlib.Data.Prod.Lex

/-! Where a new object is put (`storage/volumes/placement.rs`, `validation.rs`): the rule
that governs a request, and the first of its candidates under the rule's strategy. The
identifiers of volumes are any ordered type, as the configuration is generic in them. -/
namespace KeepPeek.Volumes.Placement

open Lib

inductive VolumeRole
  | active
  | archive
  | export
  | thumbnail
  | metadata
deriving DecidableEq, Repr

inductive VolumeState
  | enabled
  | readOnly
  | draining
  | disabled
deriving DecidableEq, Repr

structure Volume (Id : Type) where
  id : Id
  root : Text
  roles : List VolumeRole
  state : VolumeState
  priority : Nat
  capacityBytes : Option UInt64
  minimumFreeBytes : UInt64
  warningFreeBytes : UInt64
  criticalFreeBytes : UInt64
  sources : List Text
  groups : List Text

inductive PlacementStrategy
  | priority
  | freeSpace
deriving DecidableEq, Repr

structure PlacementRule (Id : Type) where
  role : VolumeRole
  source : Option Text
  group : Option Text
  candidates : List Id
  strategy : PlacementStrategy
  allowFallback : Bool

structure VolumeConfiguration (Id : Type) where
  volumes : List (Volume Id)
  placement : List (PlacementRule Id)

inductive VolumeHealth
  | online
  | offline
  | readOnly
deriving DecidableEq, Repr

structure VolumeObservation (Id : Type) where
  id : Id
  health : VolumeHealth
  draining : Bool
  totalBytes : UInt64
  availableBytes : UInt64
  ownedBytes : UInt64

/-- The group of the source is passed beside it, as `groups`. -/
structure PlacementRequest where
  role : VolumeRole
  source : Text
  requiredBytes : UInt64

inductive RejectionReason
  | disabled
  | draining
  | readOnly
  | offline
  | missingObservation
  | roleMismatch
  | sourceDenied
  | insufficientSpace
  | capacityExceeded
deriving DecidableEq, Repr

structure PlacementDecision (Id : Type) where
  selected : Option Id
  rejected : List (Id × RejectionReason)

def volumesMax : Nat := 32
def rulesMax : Nat := 256
def candidatesMax : Nat := 8

section Validation

def validateSelector (value : Text) : Except String Unit :=
  ensure (!value.isEmpty && value.byteLength ≤ 256 && value.trim == value &&
      !value.any Text.isControl)
    "source and group selectors require 1 to 256 bytes without control or surrounding whitespace"

def validateSelectors (values : List Text) : Except String Unit := do
  ensure (values.length ≤ rulesMax) "at most 256 source or group selectors are allowed"
  checkEach (fun earlier value => do
    validateSelector value
    ensure (value ∉ earlier) "duplicate source or group selector") [] values

/-- The parts of an absolute path after its root. -/
def components (root : Text) : List Text :=
  (root.splitOn '/').filter fun part => part ≠ [] ∧ part ≠ ['.']

def startsWith (root other : Text) : Bool := (components other).isPrefixOf (components root)

def comparisonRoot (root : Text) : Except String Text := do
  ensure (root.head? == some '/' && root.byteLength ≤ 4096 && !root.any Text.isControl)
    "volume root must be an absolute path of at most 4096 bytes without control characters"
  ensure (['.', '.'] ∉ components root) "volume root cannot contain parent traversal"
  ensure (1 + (components root).length ≤ 64) "volume root has too many components"
  .ok root

variable {Id : Type}

def validateVolume (volume : Volume Id) : Except String Unit := do
  ensure (!volume.roles.isEmpty && volume.roles.length ≤
    5) "a volume requires 1 to 5 distinct roles"
  checkEach (fun earlier role => ensure (role ∉ earlier) "duplicate storage volume role") []
    volume.roles
  ensure (volume.capacityBytes ≠ some 0) "a storage volume capacity must be nonzero or omitted"
  checkEach (fun _ (value : UInt64) => ensure (value.toNat < 2 ^ 63)
    "volume byte threshold exceeds the configuration integer limit") []
    [volume.capacityBytes.getD 0, volume.minimumFreeBytes, volume.warningFreeBytes,
      volume.criticalFreeBytes]
  ensure (max volume.criticalFreeBytes volume.minimumFreeBytes ≤ volume.warningFreeBytes)
    "volume warning threshold must cover critical and minimum free space"
  validateSelectors volume.sources
  validateSelectors volume.groups
  ensure (VolumeRole.metadata ∉ volume.roles || (volume.sources.isEmpty && volume.groups.isEmpty))
    "metadata volume cannot restrict sources or groups"

variable [DecidableEq Id]

def validateCandidate (volumes : List (Volume Id)) (role : VolumeRole) (earlier : List Id)
    (id : Id) :
    Except String Unit := do
  ensure (id ∉ earlier) "duplicate placement candidate"
  match volumes.find? fun volume => volume.id = id with
  | none => .error "placement references an unknown volume"
  | some volume =>
    ensure (role ∈ volume.roles) "placement candidate does not support the requested role"

def validateRule (volumes : List (Volume Id)) (rule : PlacementRule Id) : Except String Unit := do
  ensure (!rule.candidates.isEmpty && rule.candidates.length ≤ candidatesMax)
    "placement requires 1 to 8 candidates"
  ensure (rule.source.isNone || rule.group.isNone) "placement selects either a source or a group"
  checkEach (fun _ value => validateSelector value) [] (rule.source.toList ++ rule.group.toList)
  ensure (rule.role ≠ .metadata || (rule.source.isNone && rule.group.isNone &&
    rule.candidates.length == 1 && !rule.allowFallback))
    "metadata placement requires one global destination without fallback"
  checkEach (validateCandidate volumes rule.role) [] rule.candidates

/-- The roots of the volumes before are those of `earlier`. -/
def validateNext (earlier : List (Volume Id)) (volume : Volume Id) : Except String Unit := do
  validateVolume volume
  ensure (earlier.all fun other => other.id ≠ volume.id) "duplicate volume ID"
  let root ← comparisonRoot volume.root
  ensure (earlier.all fun other => !startsWith root other.root && !startsWith other.root root)
    "storage volume roots must not overlap"

def validateNextRule (volumes : List (Volume Id)) (earlier : List (PlacementRule Id))
    (rule : PlacementRule Id) : Except String Unit := do
  validateRule volumes rule
  ensure (earlier.all fun other =>
      other.role ≠ rule.role || other.source ≠ rule.source || other.group ≠ rule.group)
    "duplicate placement selector for a storage role"

def VolumeConfiguration.validate (config : VolumeConfiguration Id) : Except String Unit := do
  ensure (config.volumes.length ≤ volumesMax) "at most 32 storage volumes are allowed"
  ensure (config.placement.length ≤ rulesMax) "at most 256 placement rules are allowed"
  checkEach validateNext [] config.volumes
  checkEach (validateNextRule config.volumes) [] config.placement

def validateNextObservation (earlier : List (VolumeObservation Id))
    (observation : VolumeObservation Id) : Except String Unit := do
  ensure (earlier.all fun other => other.id ≠ observation.id) "duplicate volume observation"
  ensure (observation.availableBytes ≤ observation.totalBytes)
    "available volume space exceeds total space"

def validateObservations (observations : List (VolumeObservation Id)) : Except String Unit := do
  ensure (observations.length ≤ volumesMax) "at most 32 volume observations are allowed"
  checkEach validateNextObservation [] observations

end Validation

section Decision

def PlacementRule.matches {Id : Type} (rule : PlacementRule Id) (request : PlacementRequest)
    (groups : List Text) : Bool :=
  rule.role == request.role && rule.source.all (· == request.source) &&
    rule.group.all (groups.contains ·)

/-- A source comes before a group and a group before neither; of two groups the lesser name. -/
def PlacementRule.specificity {Id : Type} (rule : PlacementRule Id) : Nat ×ₗ (List Char)ᵒᵈ :=
  toLex (if rule.source.isSome then 2 else if rule.group.isSome then 1 else 0,
    OrderDual.toDual (rule.group.getD []))

def Volume.floor {Id : Type} (volume : Volume Id) : Nat :=
  max volume.minimumFreeBytes.toNat volume.criticalFreeBytes.toNat

def remainingCap {Id : Type} (volume : Volume Id) (observation : VolumeObservation Id) : Nat :=
  match volume.capacityBytes with
  | none => 2 ^ 64 - 1
  | some cap => cap.toNat - observation.ownedBytes.toNat

def eligibility {Id : Type} (volume : Volume Id) (request : PlacementRequest) (groups : List Text)
    (observation : Option (VolumeObservation Id)) : Except RejectionReason Nat :=
  match volume.state with
  | .disabled => .error .disabled
  | .draining => .error .draining
  | .readOnly => .error .readOnly
  | .enabled =>
    if request.role ∉ volume.roles then .error .roleMismatch
    else if (!volume.sources.isEmpty || !volume.groups.isEmpty) &&
        !volume.sources.contains request.source && !volume.groups.any (groups.contains ·) then
      .error .sourceDenied
    else match observation with
      | none => .error .missingObservation
      | some observation =>
        if observation.draining then .error .draining
        else match observation.health with
          | .offline => .error .offline
          | .readOnly => .error .readOnly
          | .online =>
            let available := observation.availableBytes.toNat - volume.floor
            if available < request.requiredBytes.toNat then .error .insufficientSpace
            else if remainingCap volume observation < request.requiredBytes.toNat then
              .error .capacityExceeded
            else .ok (min available (remainingCap volume observation))

variable {Id : Type} [LinearOrder Id]

abbrev Candidate (Id : Type) := Volume Id × Nat

def Precedes (strategy : PlacementStrategy) (left right : Candidate Id) : Prop :=
  match strategy with
  | .priority => left.1.priority < right.1.priority ∨
      (left.1.priority = right.1.priority ∧ left.1.id ≤ right.1.id)
  | .freeSpace => right.2 < left.2 ∨ (right.2 = left.2 ∧ left.1.id ≤ right.1.id)

/-- An unstable sort of the standard library: it may order candidates that compare equal
in any way. -/
abbrev Sorting (Id : Type) := PlacementStrategy → List (Candidate Id) → List (Candidate Id)

structure Sorting.Lawful (sort : Sorting Id) : Prop where
  perm : ∀ strategy candidates, (sort strategy candidates).Perm candidates
  sorted : ∀ strategy candidates, (sort strategy candidates).Pairwise (Precedes strategy)

def VolumeConfiguration.matchingRule (config : VolumeConfiguration Id) (request : PlacementRequest)
    (groups : List Text) : Option (PlacementRule Id) :=
  maxByKey PlacementRule.specificity
    (config.placement.filter fun rule => rule.matches request groups)

def PlacementRule.considered (rule : PlacementRule Id) : List Id :=
  rule.candidates.take (if rule.allowFallback then rule.candidates.length else 1)

/-- The error is the message of the panic when no volume has the id. -/
def judge (config : VolumeConfiguration Id) (request : PlacementRequest) (groups : List Text)
    (observations : List (VolumeObservation Id)) (id : Id) :
    Except String (Volume Id × Except RejectionReason Nat) :=
  match config.volumes.find? fun volume => volume.id = id with
  | none => .error "validated placement candidates name existing volumes"
  | some volume => .ok (volume, eligibility volume request groups
      (observations.find? fun observation => observation.id = id))

def eligible (judged : List (Volume Id × Except RejectionReason Nat)) : List (Candidate Id) :=
  judged.filterMap fun (volume, result) => result.toOption.map (volume, ·)

def rejected (judged : List (Volume Id × Except RejectionReason Nat)) :
    List (Id × RejectionReason) :=
  judged.filterMap fun (volume, result) => match result with
    | .ok _ => none
    | .error reason => some (volume.id, reason)

def VolumeConfiguration.placeWithGroups (config : VolumeConfiguration Id) (sort : Sorting Id)
    (request : PlacementRequest) (groups : List Text) (observations : List (VolumeObservation Id)) :
    Except String (PlacementDecision Id) := do
  config.validate
  ensure (0 < request.requiredBytes) "placement must request at least one byte"
  validateObservations observations
  match config.matchingRule request groups with
  | none => .ok ⟨none, []⟩
  | some rule =>
    let judged ← rule.considered.mapM (judge config request groups observations)
    .ok ⟨(sort rule.strategy (eligible judged)).head?.map fun candidate => candidate.1.id,
      rejected judged⟩

end Decision

section Accepted

variable {Id : Type}

def Volume.Apart (left right : Volume Id) : Prop :=
  left.id ≠ right.id ∧ startsWith right.root left.root = false ∧
    startsWith left.root right.root = false

def PlacementRule.Apart (left right : PlacementRule Id) : Prop :=
  ¬(left.role = right.role ∧ left.source = right.source ∧ left.group = right.group)

theorem Volume.Apart.symm {left right : Volume Id} (h : left.Apart right) : right.Apart left :=
  ⟨h.1.symm, h.2.2, h.2.1⟩

theorem PlacementRule.Apart.symm {left right : PlacementRule Id} (h : left.Apart right) :
    right.Apart left := by
  rintro ⟨role, source, group⟩
  exact h ⟨role.symm, source.symm, group.symm⟩

variable [DecidableEq Id] {volumes volumes' : List (Volume Id)}
  {cfg config' : VolumeConfiguration Id} {obs observations' : List (VolumeObservation Id)}

theorem comparisonRoot_eq {root compared : Text} (h : comparisonRoot root = .ok compared) :
    compared = root := by
  obtain ⟨-, -, h⟩ := bind_eq_ok h
  obtain ⟨-, -, h⟩ := bind_eq_ok h
  obtain ⟨-, -, h⟩ := bind_eq_ok h
  cases h
  rfl

theorem validateNext_eq_ok (earlier : List (Volume Id)) (volume : Volume Id) :
    validateNext earlier volume = .ok () ↔
      (validateVolume volume = .ok () ∧ comparisonRoot volume.root = .ok volume.root) ∧
      ∀ other ∈ earlier, other.Apart volume := by
  have roots (next : Text → Except String Unit) : (comparisonRoot volume.root >>= next) = .ok () ↔
      comparisonRoot volume.root = .ok volume.root ∧ next volume.root = .ok () := by
    constructor
    · intro h
      obtain ⟨root, compared, h⟩ := bind_eq_ok h
      obtain rfl := comparisonRoot_eq compared
      exact ⟨compared, h⟩
    · rintro ⟨compared, h⟩
      rw [compared]
      exact h
  simp only [validateNext, bind_unit_eq_ok, roots, ensure_eq_ok, List.all_eq_true, Volume.Apart]
  grind

theorem validateNextRule_eq_ok (earlier : List (PlacementRule Id)) (r : PlacementRule Id) :
    validateNextRule volumes earlier r = .ok () ↔
      validateRule volumes r = .ok () ∧ ∀ other ∈ earlier, other.Apart r := by
  simp only [validateNextRule, bind_unit_eq_ok, ensure_eq_ok, List.all_eq_true, PlacementRule.Apart]
  grind

theorem validateNextObservation_eq_ok (earlier : List (VolumeObservation Id))
    (observation : VolumeObservation Id) : validateNextObservation earlier observation = .ok () ↔
      observation.availableBytes ≤ observation.totalBytes ∧
        ∀ other ∈ earlier, other.id ≠ observation.id := by
  simp only [validateNextObservation, bind_unit_eq_ok, ensure_eq_ok, List.all_eq_true]
  grind

theorem validateObservations_eq_ok :
    validateObservations obs = .ok () ↔ obs.length ≤ volumesMax ∧
      (∀ observation ∈ obs, observation.availableBytes ≤ observation.totalBytes) ∧
      obs.Pairwise fun left right => left.id ≠ right.id := by
  simp only [validateObservations, bind_unit_eq_ok, ensure_eq_ok, decide_eq_true_eq,
    checkEach_nil_eq_ok validateNextObservation_eq_ok]

theorem validate_eq_ok :
    cfg.validate = .ok () ↔ cfg.volumes.length ≤ volumesMax ∧ cfg.placement.length ≤ rulesMax ∧
      ((∀ volume ∈ cfg.volumes, validateVolume volume = .ok () ∧
        comparisonRoot volume.root = .ok volume.root) ∧ cfg.volumes.Pairwise Volume.Apart) ∧
      (∀ rule ∈ cfg.placement, validateRule cfg.volumes rule = .ok ()) ∧
      cfg.placement.Pairwise PlacementRule.Apart := by
  simp only [VolumeConfiguration.validate, bind_unit_eq_ok, ensure_eq_ok, decide_eq_true_eq,
    checkEach_nil_eq_ok validateNext_eq_ok, checkEach_nil_eq_ok validateNextRule_eq_ok]

theorem validateCandidate_eq_ok {role : VolumeRole} (earlier : List Id) (id : Id) :
    validateCandidate volumes role earlier id = .ok () ↔
      (∃ volume, (volumes.find? fun volume => volume.id = id) = some volume ∧ role ∈ volume.roles) ∧
      ∀ other ∈ earlier, other ≠ id := by
  simp only [validateCandidate, bind_unit_eq_ok, ensure_eq_ok, decide_eq_true_eq]
  cases volumes.find? fun volume => volume.id = id with
  | none => simp
  | some volume =>
    simp only [ensure_eq_ok, decide_eq_true_eq, Option.some.injEq, exists_eq_left']
    grind

theorem validateRule_perm (distinct : volumes.Pairwise fun left right => left.id ≠ right.id)
    (perm : volumes.Perm volumes') : validateRule volumes = validateRule volumes' := by
  have same : validateCandidate volumes = validateCandidate volumes' := by
    funext role earlier id
    simp only [validateCandidate, find?_perm distinct perm]
  funext rule
  simp only [validateRule, same]

theorem validate_distinct (valid : cfg.validate = .ok ()) :
    cfg.volumes.Pairwise fun left right => left.id ≠ right.id :=
  (validate_eq_ok.mp valid).2.2.1.2.imp fun apart => apart.1

theorem validate_perm (volumes : cfg.volumes.Perm config'.volumes)
    (placement : cfg.placement.Perm config'.placement) (valid : cfg.validate = .ok ()) :
    config'.validate = .ok () := by
  have distinct := validate_distinct valid
  rw [validate_eq_ok] at valid ⊢
  obtain ⟨few, fewRules, ⟨each, apart⟩, rules, rulesApart⟩ := valid
  rw [← volumes.length_eq, ← placement.length_eq, ← validateRule_perm distinct volumes]
  simp only [← volumes.mem_iff, ← placement.mem_iff]
  exact ⟨few, fewRules, ⟨each, (volumes.pairwise_iff Volume.Apart.symm).mp apart⟩, rules,
    (placement.pairwise_iff PlacementRule.Apart.symm).mp rulesApart⟩

theorem validateObservations_perm (perm : obs.Perm observations')
    (accepted : validateObservations obs = .ok ()) :
    validateObservations observations' = .ok () := by
  rw [validateObservations_eq_ok] at accepted ⊢
  obtain ⟨few, each, distinct⟩ := accepted
  rw [← perm.length_eq]
  simp only [← perm.mem_iff]
  exact ⟨few, each, (perm.pairwise_iff fun apart => apart.symm).mp distinct⟩

theorem validateRule_known {r : PlacementRule Id} (valid : validateRule volumes r = .ok ()) :
    (r.source = none ∨ r.group = none) ∧
      ∀ id ∈ r.candidates, ∃ volume, (volumes.find? fun volume => volume.id = id) =
        some volume := by
  simp only [validateRule, bind_unit_eq_ok, ensure_eq_ok] at valid
  obtain ⟨-, one, -, -, candidates⟩ := valid
  refine ⟨by simpa using one, ?_⟩
  intro id mem
  obtain ⟨volume, found, -⟩ :=
    ((checkEach_nil_eq_ok validateCandidate_eq_ok).mp candidates).1 id mem
  exact ⟨volume, found⟩

end Accepted

section Choice

variable {Id : Type} {request : PlacementRequest} {groups groups' : List Text}

/-- A volume that may take the request: what it keeps afterwards, and how much is left. -/
structure Eligible (request : PlacementRequest) (groups : List Text)
    (observations : List (VolumeObservation Id)) (volume : Volume Id) (free : Nat) : Prop where
  enabled : volume.state = .enabled
  role : request.role ∈ volume.roles
  allowed : (volume.sources = [] ∧ volume.groups = []) ∨ request.source ∈ volume.sources ∨
    ∃ group ∈ volume.groups, group ∈ groups
  observed : ∃ observation ∈ observations, observation.id = volume.id ∧
    observation.health = .online ∧ observation.draining = false ∧
    volume.floor + request.requiredBytes.toNat ≤ observation.availableBytes.toNat ∧
    (∀ cap ∈ volume.capacityBytes,
      observation.ownedBytes.toNat + request.requiredBytes.toNat ≤ cap.toNat) ∧
    free = min (observation.availableBytes.toNat - volume.floor) (remainingCap volume observation)

theorem remainingCap_le_iff {volume : Volume Id} {observation : VolumeObservation Id}
    {bytes : UInt64}
    (positive : 0 < bytes.toNat) : bytes.toNat ≤ remainingCap volume observation ↔
      ∀ cap ∈ volume.capacityBytes, observation.ownedBytes.toNat + bytes.toNat ≤ cap.toNat := by
  unfold remainingCap
  cases volume.capacityBytes with
  | none =>
    have := bytes.toNat_lt
    simp only [Option.mem_def, reduceCtorEq, false_implies, implies_true, iff_true]
    omega
  | some cap =>
    simp only [Option.mem_def, Option.some.injEq, forall_eq']
    omega

variable [LinearOrder Id] {config config' : VolumeConfiguration Id}
  {observations observations' : List (VolumeObservation Id)} {r : PlacementRule Id}
  {sort : Sorting Id}

theorem eligibility_eq_ok_iff (positive : 0 < request.requiredBytes.toNat)
    (distinct : observations.Pairwise fun left right => left.id ≠ right.id)
    {volume : Volume Id} {free : Nat} :
    eligibility volume request groups (observations.find? fun seen => seen.id = volume.id) =
      .ok free ↔
      Eligible request groups observations volume free := by
  constructor
  · intro h
    unfold eligibility at h
    split at h
    · cases h
    · cases h
    · cases h
    next enabled =>
      split at h
      · cases h
      next role =>
      split at h
      · cases h
      next denied =>
      split at h
      · cases h
      next seen found =>
        split at h
        · cases h
        next draining =>
        split at h
        · cases h
        · cases h
        next online =>
          dsimp only at h
          split at h
          · cases h
          split at h
          · cases h
          cases h
          obtain ⟨mem, id⟩ := (find?_eq_some_iff_of_distinct distinct).mp found
          refine ⟨enabled, by simpa using role, ?_, seen, mem, id, online, by simpa using draining,
            by omega, (remainingCap_le_iff positive).mp (by omega), rfl⟩
          simp only [Bool.and_eq_true, Bool.or_eq_true, Bool.not_eq_true'] at denied
          grind
  · rintro ⟨enabled, role, allowed, seen, mem, id, online, draining, floor, cap, rfl⟩
    have found := (find?_eq_some_iff_of_distinct distinct).mpr ⟨mem, id⟩
    have cap := (remainingCap_le_iff positive).mpr cap
    have admitted : ((!volume.sources.isEmpty || !volume.groups.isEmpty) &&
        !volume.sources.contains request.source && !volume.groups.any (groups.contains ·)) =
          false := by
      grind
    simp only [eligibility, enabled, found, draining, online, admitted, role, not_true_eq_false,
      Bool.false_eq_true, if_false]
    rw [if_neg (by omega), if_neg (by omega)]

/-- The rule of the request: none that matches is more specific. -/
structure Governs (config : VolumeConfiguration Id) (request : PlacementRequest)
    (groups : List Text)
    (rule : PlacementRule Id) : Prop where
  mem : rule ∈ config.placement
  matched : rule.matches request groups
  greatest : ∀ other ∈ config.placement, other.matches request groups →
    other.specificity ≤ rule.specificity

theorem eq_of_specificity (valid : config.validate = .ok ()) {left right : PlacementRule Id}
    (memLeft : left ∈ config.placement) (memRight : right ∈ config.placement)
    (matchLeft : left.matches request groups) (matchRight : right.matches request groups)
    (same : left.specificity = right.specificity) : left = right := by
  obtain ⟨-, -, -, rules, apart⟩ := validate_eq_ok.mp valid
  apply eq_of_pairwise PlacementRule.Apart.symm apart memLeft memRight
  intro differ
  apply differ
  have oneLeft := (validateRule_known (rules left memLeft)).1
  have oneRight := (validateRule_known (rules right memRight)).1
  simp only [PlacementRule.matches, Bool.and_eq_true, beq_iff_eq] at matchLeft matchRight
  simp only [PlacementRule.specificity, EmbeddingLike.apply_eq_iff_eq, Prod.mk.injEq] at same
  cases sourceLeft : left.source <;> cases sourceRight : right.source <;>
    cases groupLeft : left.group <;> cases groupRight : right.group <;> simp_all

theorem matchingRule_eq_some (valid : config.validate = .ok ()) :
    config.matchingRule request groups = some r ↔ Governs config request groups r := by
  have distinct : ∀ left ∈ config.placement.filter (·.matches request groups),
      ∀ right ∈ config.placement.filter (·.matches request groups),
        left.specificity = right.specificity → left = right := by
    intro left memLeft right memRight
    obtain ⟨memLeft, matchLeft⟩ := List.mem_filter.mp memLeft
    obtain ⟨memRight, matchRight⟩ := List.mem_filter.mp memRight
    exact eq_of_specificity valid memLeft memRight matchLeft matchRight
  rw [VolumeConfiguration.matchingRule, maxByKey_eq_some_iff distinct, List.mem_filter]
  constructor
  · rintro ⟨⟨mem, matched⟩, greatest⟩
    exact ⟨mem, matched, fun other memOther matchOther =>
      greatest other (List.mem_filter.mpr ⟨memOther, matchOther⟩)⟩
  · rintro ⟨mem, matched, greatest⟩
    refine ⟨⟨mem, matched⟩, fun other memOther => ?_⟩
    obtain ⟨memOther, matchOther⟩ := List.mem_filter.mp memOther
    exact greatest other memOther matchOther

theorem mapM_judge (valid : config.validate = .ok ()) (positive : 0 < request.requiredBytes)
    (accepted : validateObservations observations = .ok ())
    (governs : Governs config request groups r) :
    ∃ judged, r.considered.mapM (judge config request groups observations) = .ok judged ∧
      ∀ volume free, (volume, free) ∈ eligible judged ↔ volume ∈ config.volumes ∧
        volume.id ∈ r.considered ∧ Eligible request groups observations volume free := by
  have volumes := validate_distinct valid
  have known := (validateRule_known ((validate_eq_ok.mp valid).2.2.2.1 r governs.mem)).2
  have each : ∀ id ∈ r.considered, ∃ output, judge config request groups observations id =
      .ok output := by
    intro id mem
    obtain ⟨volume, found⟩ := known id (List.mem_of_mem_take mem)
    exact ⟨_, by rw [judge, found]⟩
  obtain ⟨judged, done⟩ := exists_mapM_eq_ok each
  refine ⟨judged, done, fun volume free => ?_⟩
  rw [← eligibility_eq_ok_iff positive (validateObservations_eq_ok.mp accepted).2.2]
  simp only [eligible, List.mem_filterMap, mem_iff_of_mapM done]
  constructor
  · rintro ⟨⟨found, result⟩, ⟨id, mem, judged⟩, made⟩
    unfold judge at judged
    split at judged
    · cases judged
    next stored =>
      obtain ⟨memFound, rfl⟩ := (find?_eq_some_iff_of_distinct volumes).mp stored
      cases judged
      cases passed : eligibility found request groups (observations.find? fun seen =>
        seen.id = found.id) with
      | error reason => simp [passed, Except.toOption] at made
      | ok left =>
        simp only [passed, Except.toOption, Option.map_some, Option.some.injEq,
          Prod.mk.injEq] at made
        obtain ⟨rfl, rfl⟩ := made
        exact ⟨memFound, mem, passed⟩
  · rintro ⟨memVolume, mem, passed⟩
    have stored := (find?_eq_some_iff_of_distinct volumes).mpr ⟨memVolume, rfl⟩
    refine ⟨(volume, .ok free), ⟨volume.id, mem, ?_⟩, rfl⟩
    rw [judge, stored]
    exact congrArg (fun result => Except.ok (volume, result)) passed

omit [LinearOrder Id] in
theorem Governs.perm (h : Governs config request groups r)
    (placement : config.placement.Perm config'.placement) (same : groups.Perm groups') :
    Governs config' request groups' r := by
  have contains : groups.contains = groups'.contains := by
    funext group
    simp [same.mem_iff]
  have matched (r : PlacementRule Id) : r.matches request groups' = r.matches request groups := by
    simp only [PlacementRule.matches, contains]
  refine ⟨placement.mem_iff.mp h.mem, by rw [matched]; exact h.matched,
    fun other mem matchOther => ?_⟩
  rw [matched] at matchOther
  exact h.greatest other (placement.mem_iff.mpr mem) matchOther

theorem placeWithGroups_eq (valid : config.validate = .ok ()) (positive : 0 < request.requiredBytes)
    (accepted : validateObservations observations = .ok ()) :
    config.placeWithGroups sort request groups observations =
      match config.matchingRule request groups with
      | none => .ok ⟨none, []⟩
      | some r => (r.considered.mapM (judge config request groups observations)).map fun judged =>
          ⟨(sort r.strategy (eligible judged)).head?.map fun candidate => candidate.1.id,
            rejected judged⟩ := by
  have passed : ensure (0 < request.requiredBytes) "placement must request at least one byte" =
      .ok () := by
    simp [positive]
  unfold VolumeConfiguration.placeWithGroups
  rw [valid, passed, accepted]
  rfl

/-- The same rule is found, and every candidate is judged as before. -/
theorem placeWithGroups_perm (valid : config.validate = .ok ())
    (positive : 0 < request.requiredBytes)
    (accepted : validateObservations observations = .ok ())
    (volumes : config.volumes.Perm config'.volumes)
    (placement : config.placement.Perm config'.placement) (same : groups.Perm groups')
    (seen : observations.Perm observations') :
    config'.placeWithGroups sort request groups' observations' =
      config.placeWithGroups sort request groups observations := by
  have valid' := validate_perm volumes placement valid
  have rules : config'.matchingRule request groups' = config.matchingRule request groups := by
    ext r
    rw [matchingRule_eq_some valid, matchingRule_eq_some valid']
    exact ⟨fun h => h.perm placement.symm same.symm, fun h => h.perm placement same⟩
  have judges : judge config' request groups' observations' =
      judge config request groups observations := by
    funext id
    have distinct := validate_distinct valid
    have apart := (validateObservations_eq_ok.mp accepted).2.2
    have contains : groups'.contains = groups.contains := by
      funext group
      simp [same.mem_iff]
    simp only [judge, find?_perm distinct volumes, find?_perm apart seen, eligibility, contains]
  rw [placeWithGroups_eq valid positive accepted,
    placeWithGroups_eq valid' positive (validateObservations_perm seen accepted), rules, judges]

theorem precedes_self (strategy : PlacementStrategy) (candidate : Candidate Id) :
    Precedes strategy candidate candidate := by
  cases strategy <;> simp [Precedes]

/-- The first candidate of a sort comes before every other. -/
theorem precedes_of_head {strategy : PlacementStrategy} {candidates : List (Candidate Id)}
    {first other : Candidate Id} (lawful : sort.Lawful)
    (head : (sort strategy candidates).head? = some first) (mem : other ∈ candidates) :
    Precedes strategy first other := by
  obtain ⟨rest, sorted⟩ := List.head?_eq_some_iff.mp head
  have pairwise := lawful.sorted strategy candidates
  have mem := (lawful.perm strategy candidates).mem_iff.mpr mem
  rw [sorted] at pairwise mem
  rcases List.mem_cons.mp mem with rfl | mem
  · exact precedes_self strategy other
  · exact (List.pairwise_cons.mp pairwise).1 other mem

omit [LinearOrder Id] in
theorem head?_considered {id : Id} (mem : id ∈ r.considered) (only : r.allowFallback = false) :
    r.candidates.head? = some id := by
  simp only [PlacementRule.considered, only, Bool.false_eq_true, if_false] at mem
  cases candidates : r.candidates with
  | nil => simp [candidates] at mem
  | cons first rest => simpa [candidates, eq_comm] using mem

/-- What a decision says: the volume selected may take the request, and comes before every other
that the governing rule considers and that may; without one, none may. -/
structure Optimal (config : VolumeConfiguration Id) (request : PlacementRequest)
    (groups : List Text)
    (observations : List (VolumeObservation Id)) (decision : PlacementDecision Id) : Prop where
  selected : ∀ id, decision.selected = some id → ∃ rule, Governs config request groups rule ∧
    id ∈ rule.candidates ∧ (rule.allowFallback = false → rule.candidates.head? = some id) ∧
    ∃ volume ∈ config.volumes, volume.id = id ∧ ∃ free,
      Eligible request groups observations volume free ∧
      ∀ other ∈ config.volumes, other.id ∈ rule.considered → ∀ left,
        Eligible request groups observations other left →
        Precedes rule.strategy (volume, free) (other, left)
  nothing : decision.selected = none → ∀ rule, Governs config request groups rule →
    ∀ volume ∈ config.volumes, volume.id ∈ rule.considered →
      ∀ free, ¬Eligible request groups observations volume free

theorem exists_optimal (lawful : sort.Lawful) (valid : config.validate = .ok ())
    (positive : 0 < request.requiredBytes) (accepted : validateObservations observations = .ok ()) :
    ∃ decision, config.placeWithGroups sort request groups observations = .ok decision ∧
      Optimal config request groups observations decision := by
  rw [placeWithGroups_eq valid positive accepted]
  cases found : config.matchingRule request groups with
  | none =>
    refine ⟨_, rfl, ?_, ?_⟩
    · intro id selected
      cases selected
    · intro _ r governs
      rw [(matchingRule_eq_some valid).mpr governs] at found
      cases found
  | some r =>
    have governs := (matchingRule_eq_some valid).mp found
    obtain ⟨judged, done, fit⟩ := mapM_judge valid positive accepted governs
    dsimp only
    rw [done]
    refine ⟨_, rfl, ?_, ?_⟩
    · intro id selected
      obtain ⟨⟨volume, free⟩, head, rfl⟩ := Option.map_eq_some_iff.mp selected
      have mem := (lawful.perm _ _).mem_iff.mp (List.mem_of_head? head)
      obtain ⟨stored, considered, fits⟩ := (fit volume free).mp mem
      refine ⟨r, governs, List.mem_of_mem_take considered, head?_considered considered, volume,
        stored, rfl, free, fits, ?_⟩
      intro other memOther consideredOther left fitsOther
      exact precedes_of_head lawful head ((fit other left).mpr ⟨memOther, consideredOther,
        fitsOther⟩)
    · intro selected other governsOther volume stored considered free fits
      rw [(matchingRule_eq_some valid).mpr governsOther] at found
      cases found
      have empty := List.head?_eq_none_iff.mp (Option.map_eq_none_iff.mp selected)
      have mem := (lawful.perm r.strategy (eligible judged)).mem_iff.mpr
        ((fit volume free).mpr ⟨stored, considered, fits⟩)
      rw [empty] at mem
      cases mem

/-- A request that is accepted is decided, optimally, and the order of volumes, rules, groups and
observations does not matter. -/
theorem placement_is_optimal_and_safe (lawful : sort.Lawful) (valid : config.validate = .ok ())
    (positive : 0 < request.requiredBytes) (accepted : validateObservations observations = .ok ()) :
    ∃ decision, config.placeWithGroups sort request groups observations = .ok decision ∧
      Optimal config request groups observations decision ∧
      ∀ (config' : VolumeConfiguration Id) groups' observations',
        config.volumes.Perm config'.volumes → config.placement.Perm config'.placement →
        groups.Perm groups' → observations.Perm observations' →
        config'.placeWithGroups sort request groups' observations' = .ok decision := by
  obtain ⟨decision, placed, optimal⟩ := exists_optimal lawful valid positive accepted
  refine ⟨decision, placed, optimal, ?_⟩
  intro config' groups' observations' volumes placement same seen
  rw [placeWithGroups_perm valid positive accepted volumes placement same seen, placed]

instance (strategy : PlacementStrategy) : DecidableRel (@Precedes Id _ strategy) :=
  fun left right => by
    unfold Precedes
    cases strategy <;> infer_instance

def stableSort : Sorting Id := fun strategy => List.insertionSort (Precedes strategy)

theorem precedes_total (strategy : PlacementStrategy) (left right : Candidate Id) :
    Precedes strategy left right ∨ Precedes strategy right left := by
  cases strategy <;> simp only [Precedes] <;> grind

theorem precedes_trans (strategy : PlacementStrategy) {first second third : Candidate Id}
    (left : Precedes strategy first second) (right : Precedes strategy second third) :
    Precedes strategy first third := by
  cases strategy <;> simp only [Precedes] at left right ⊢ <;> grind

theorem stableSort_lawful : (stableSort : Sorting Id).Lawful := by
  refine ⟨fun _ _ => List.perm_insertionSort _ _, fun strategy candidates => ?_⟩
  have : Std.Total (@Precedes Id _ strategy) := ⟨precedes_total strategy⟩
  have : IsTrans (Candidate Id) (Precedes strategy) := ⟨fun _ _ _ => precedes_trans strategy⟩
  exact List.pairwise_insertionSort _ _

end Choice

def pool : VolumeConfiguration Text where
  volumes := [⟨['b'], ['/', 'b'], [.active], .enabled, 1, none, 0, 0, 0, [], []⟩,
    ⟨['a'], ['/', 'a'], [.active], .enabled, 1, some 9, 4, 4, 0, [], [['g']]⟩]
  placement := [⟨.active, none, none, [['b']], .priority, false⟩,
    ⟨.active, none, some ['g'], [['b'], ['a']], .priority, true⟩]

def poolObservations : List (VolumeObservation Text) :=
  [⟨['a'], .online, false, 10, 8, 7⟩, ⟨['b'], .online, false, 10, 8, 0⟩]

theorem placement_in_pool :
    pool.placeWithGroups stableSort ⟨.active, ['s'], 2⟩ [['g']] poolObservations =
      .ok ⟨some ['a'], []⟩ ∧
      Optimal pool ⟨.active, ['s'], 2⟩ [['g']] poolObservations ⟨some ['a'], []⟩ := by
  have placed : pool.placeWithGroups stableSort ⟨.active, ['s'], 2⟩ [['g']] poolObservations =
      .ok ⟨some ['a'], []⟩ := by rfl
  obtain ⟨decision, decided, optimal, -⟩ := @placement_is_optimal_and_safe Text ⟨.active, ['s'], 2⟩
    [['g']] _ pool poolObservations stableSort stableSort_lawful rfl (by decide) rfl
  rw [placed] at decided
  cases decided
  exact ⟨placed, optimal⟩

end KeepPeek.Volumes.Placement
