import KeepPeek.Lib.Saturating

/-! The storage safety policy: when recordings have to be removed, down to which
amount, and that removing down to it is enough.

A policy caps what recordings may take and asks for free space on the
filesystem. Its evaluation names a target below both limits by the hysteresis, so
that the cleanup it starts is not started again by what it left. -/
namespace KeepPeek.Storage

open Lib Lib.Word

structure StorageSafetyPolicy where
  archiveMaxBytes : UInt64
  minimumFreeBytes : UInt64
  maximumUsedPercent : Option UInt8
  warningFreeBytes : UInt64
  criticalFreeBytes : UInt64
  cleanupHysteresisBytes : UInt64
deriving DecidableEq, Repr

structure FilesystemCapacity where
  totalBytes : UInt64
  availableBytes : UInt64
  keeppeekBytes : UInt64
deriving DecidableEq, Repr

inductive StoragePressure where
  | normal
  | warning
  | critical
deriving DecidableEq, Repr

/-- The reasons an evaluation gives; a reconciliation is not one of them. -/
inductive StorageCleanupReason where
  | archiveCap
  | filesystemHeadroom
  | combined
deriving DecidableEq, Repr

structure StorageSafetyEvaluation where
  pressure : StoragePressure
  cleanupRequired : Bool
  effectiveLimitBytes : Option UInt64
  cleanupTargetBytes : Option UInt64
  warningFreeBytes : UInt64
  criticalFreeBytes : UInt64
  recoveryFreeBytes : UInt64
  cleanupReason : Option StorageCleanupReason
deriving DecidableEq, Repr

def minimumLimit : Option UInt64 → Option UInt64 → Option UInt64
  | some left, some right => some (min left right)
  | some limit, none => some limit
  | none, some limit => some limit
  | none, none => none

/-- Nothing is answered when a product or the sum leaves 64 bits. -/
def percentOf (value : UInt64) (percent : UInt8) : Option UInt64 := do
  let percent := (min percent 100).toUInt64
  let whole ← checkedMul (value / 100) percent
  let rest ← checkedMul (value % 100) percent
  checkedAdd whole (rest / 100)

namespace FilesystemCapacity

variable (capacity : FilesystemCapacity)

def available : UInt64 := min capacity.availableBytes capacity.totalBytes

def keeppeek : UInt64 := min capacity.keeppeekBytes capacity.totalBytes

def otherUsedBytes : UInt64 :=
  saturatingSub (saturatingSub capacity.totalBytes capacity.available) capacity.keeppeek

end FilesystemCapacity

open FilesystemCapacity

namespace StorageSafetyPolicy

variable (policy : StorageSafetyPolicy) (capacity : FilesystemCapacity)

def effectiveCriticalFreeBytes : UInt64 :=
  max policy.criticalFreeBytes policy.minimumFreeBytes

def configuredWarningFreeBytes : UInt64 :=
  if policy.warningFreeBytes = 0 ∧ policy.effectiveCriticalFreeBytes > 0 then
    saturatingAdd policy.effectiveCriticalFreeBytes policy.cleanupHysteresisBytes
  else
    max policy.warningFreeBytes policy.effectiveCriticalFreeBytes

def percentFreeBytes : Option UInt64 :=
  match policy.maximumUsedPercent with
  | none => some 0
  | some maximumUsedPercent =>
    (percentOf capacity.totalBytes maximumUsedPercent).map (saturatingSub capacity.totalBytes)

def archiveLimit : Option UInt64 :=
  if policy.archiveMaxBytes > 0 then some policy.archiveMaxBytes else none

def archiveTarget : Option UInt64 :=
  policy.archiveLimit.map (saturatingSub · policy.cleanupHysteresisBytes)

def recoveryFreeBytes (warningFreeBytes : UInt64) : UInt64 :=
  if warningFreeBytes > 0 then
    min (saturatingAdd warningFreeBytes policy.cleanupHysteresisBytes) capacity.totalBytes
  else
    0

def filesystemShare (warningFreeBytes free : UInt64) : Option UInt64 :=
  if warningFreeBytes > 0 then
    some (saturatingSub (saturatingSub capacity.totalBytes capacity.otherUsedBytes) free)
  else
    none

def archiveExceeded : Bool :=
  policy.archiveLimit.any (capacity.keeppeek > ·)

def freeSpaceExceeded (warningFreeBytes : UInt64) : Bool :=
  warningFreeBytes > 0 && capacity.available < warningFreeBytes

def cleanupReason (warningFreeBytes : UInt64) : Option StorageCleanupReason :=
  match policy.archiveExceeded capacity, freeSpaceExceeded capacity warningFreeBytes with
  | true, true => some .combined
  | true, false => some .archiveCap
  | false, true => some .filesystemHeadroom
  | false, false => none

def assess (warningFreeBytes : UInt64) : StorageSafetyEvaluation :=
  let criticalFreeBytes := policy.effectiveCriticalFreeBytes
  let cleanupRequired :=
    policy.archiveExceeded capacity || freeSpaceExceeded capacity warningFreeBytes
  let recoveryFreeBytes := policy.recoveryFreeBytes capacity warningFreeBytes
  { pressure :=
      if criticalFreeBytes > 0 ∧ capacity.available < criticalFreeBytes then .critical
      else if cleanupRequired then .warning
      else .normal
    cleanupRequired
    effectiveLimitBytes :=
      minimumLimit policy.archiveLimit
        (filesystemShare capacity warningFreeBytes warningFreeBytes)
    cleanupTargetBytes :=
      if cleanupRequired then
        some ((minimumLimit policy.archiveTarget
          (filesystemShare capacity warningFreeBytes recoveryFreeBytes)).getD capacity.keeppeek)
      else
        none
    warningFreeBytes
    criticalFreeBytes
    recoveryFreeBytes
    cleanupReason := policy.cleanupReason capacity warningFreeBytes }

def evaluate : Option StorageSafetyEvaluation := do
  let percentFreeBytes ← policy.percentFreeBytes capacity
  some (policy.assess capacity (max policy.configuredWarningFreeBytes percentFreeBytes))

end StorageSafetyPolicy

open StorageSafetyPolicy

/-- A recording taken out: its catalogued size, and the bytes its file gave up. -/
structure Removal where
  fileBytes : UInt64
  removed : UInt64
deriving DecidableEq, Repr

structure CleanupProgress where
  capacity : FilesystemCapacity
  filesRemoved : UInt64
  bytesRemoved : UInt64
deriving DecidableEq, Repr

def FilesystemCapacity.remove (capacity : FilesystemCapacity) (removal : Removal) :
    FilesystemCapacity :=
  { capacity with
    keeppeekBytes := saturatingSub capacity.keeppeekBytes (max removal.fileBytes removal.removed)
    availableBytes :=
      min (saturatingAdd capacity.availableBytes removal.removed) capacity.totalBytes }

def CleanupProgress.remove (progress : CleanupProgress) (removal : Removal) : CleanupProgress where
  capacity := progress.capacity.remove removal
  filesRemoved := saturatingAdd progress.filesRemoved (if removal.removed > 0 then 1 else 0)
  bytesRemoved := saturatingAdd progress.bytesRemoved removal.removed

def removeUntil (targetBytes : UInt64) : CleanupProgress → List Removal →
    Except String CleanupProgress
  | progress, removals =>
    if progress.capacity.keeppeekBytes > targetBytes then
      match removals with
      | [] => .error "no eligible finalized recording remains to restore headroom"
      | removal :: removals => removeUntil targetBytes (progress.remove removal) removals
    else
      .ok progress

def finishStorageCleanup (policy : StorageSafetyPolicy) (progress : CleanupProgress) :
    Option (Except String CleanupProgress) := do
  let recovered ← policy.evaluate progress.capacity
  some (if recovered.cleanupRequired then
      .error "cleanup completed without restoring the configured recovery target"
    else
      .ok progress)

/-! ### The arithmetic -/

theorem toNat_percentage (percent : UInt8) :
    (min percent 100).toUInt64.toNat = min percent.toNat 100 := by
  change (if percent ≤ 100 then percent else 100 : UInt8).toUInt64.toNat = _
  split
  · next below => exact (Nat.min_eq_left (UInt8.le_iff_toNat_le.mp below)).symm
  · next above =>
    have := UInt8.lt_iff_toNat_lt.mp (UInt8.not_le.mp above)
    exact (Nat.min_eq_right (Nat.le_of_lt this)).symm

theorem percentOf_eq (value : UInt64) (percent : UInt8) :
    ∃ share, percentOf value percent = some share ∧
      share.toNat = value.toNat * min percent.toNat 100 / 100 := by
  set part := (min percent 100).toUInt64 with hpart
  have partNat : part.toNat = min percent.toNat 100 := toNat_percentage percent
  have bound := value.toNat_lt
  have partLe : part.toNat ≤ 100 := by omega
  have wholeLe : value.toNat / 100 * part.toNat ≤ value.toNat / 100 * 100 :=
    Nat.mul_le_mul_left _ partLe
  have restLe : value.toNat % 100 * part.toNat ≤ value.toNat % 100 * 100 :=
    Nat.mul_le_mul_left _ partLe
  obtain ⟨whole, wholeEq, wholeNat⟩ : ∃ whole, checkedMul (value / 100) part = some whole ∧
      whole.toNat = value.toNat / 100 * part.toNat := by
    apply checkedMul_of_lt
    change value.toNat / 100 * part.toNat < _
    omega
  obtain ⟨rest, restEq, restNat⟩ : ∃ rest, checkedMul (value % 100) part = some rest ∧
      rest.toNat = value.toNat % 100 * part.toNat := by
    apply checkedMul_of_lt
    change value.toNat % 100 * part.toNat < _
    omega
  obtain ⟨share, shareEq, shareNat⟩ : ∃ share, checkedAdd whole (rest / 100) = some share ∧
      share.toNat = whole.toNat + rest.toNat / 100 := by
    apply checkedAdd_of_lt
    change whole.toNat + rest.toNat / 100 < _
    omega
  refine ⟨share, ?_, ?_⟩
  · simp [percentOf, ← hpart, wholeEq, restEq, shareEq]
  · calc share.toNat
        = value.toNat / 100 * part.toNat + value.toNat % 100 * part.toNat / 100 := by
          rw [shareNat, wholeNat, restNat]
      _ = (100 * (value.toNat / 100 * part.toNat) + value.toNat % 100 * part.toNat) / 100 := by
          rw [Nat.mul_add_div (by decide)]
      _ = (100 * (value.toNat / 100) + value.toNat % 100) * part.toNat / 100 := by
          rw [Nat.add_mul, Nat.mul_assoc]
      _ = value.toNat * min percent.toNat 100 / 100 := by
          rw [Nat.div_add_mod, partNat]

/-- The evaluation always has an answer, and its warning threshold depends on the
filesystem's size only. -/
theorem StorageSafetyPolicy.evaluate_eq (p : StorageSafetyPolicy) (totalBytes : UInt64) :
    ∃ warningFreeBytes, ∀ capacity : FilesystemCapacity, capacity.totalBytes = totalBytes →
      p.evaluate capacity = some (p.assess capacity warningFreeBytes) := by
  rcases percent : p.maximumUsedPercent with _ | maximumUsedPercent
  · refine ⟨max p.configuredWarningFreeBytes 0, fun capacity _ => ?_⟩
    simp [evaluate, percentFreeBytes, percent]
  obtain ⟨share, shareEq, -⟩ := percentOf_eq totalBytes maximumUsedPercent
  refine ⟨max p.configuredWarningFreeBytes (saturatingSub totalBytes share),
    fun capacity total => ?_⟩
  simp [evaluate, percentFreeBytes, percent, total, shareEq]

/-! ### The target -/

section Target

variable {p : StorageSafetyPolicy} {capacity : FilesystemCapacity}
  {warningFreeBytes : UInt64}

theorem toNat_otherUsedBytes (capacity : FilesystemCapacity) :
    capacity.otherUsedBytes.toNat = capacity.totalBytes.toNat - min capacity.availableBytes.toNat
      capacity.totalBytes.toNat - min capacity.keeppeekBytes.toNat capacity.totalBytes.toNat := by
  simp [otherUsedBytes, available, keeppeek]

theorem cleanupRequired_iff :
    (p.assess capacity warningFreeBytes).cleanupRequired = true ↔
      (0 < p.archiveMaxBytes.toNat ∧ p.archiveMaxBytes.toNat <
      min capacity.keeppeekBytes.toNat capacity.totalBytes.toNat) ∨
      min capacity.availableBytes.toNat capacity.totalBytes.toNat < warningFreeBytes.toNat := by
  have archive : p.archiveExceeded capacity = true ↔
      0 < p.archiveMaxBytes.toNat ∧ p.archiveMaxBytes.toNat
        < min capacity.keeppeekBytes.toNat capacity.totalBytes.toNat := by
    unfold archiveExceeded archiveLimit
    split
    · next capped =>
      have capped : 0 < p.archiveMaxBytes.toNat := UInt64.lt_iff_toNat_lt.mp capped
      simp [keeppeek, UInt64.lt_iff_toNat_lt, capped]
    · next uncapped =>
      have uncapped : p.archiveMaxBytes.toNat ≤ 0 :=
        UInt64.le_iff_toNat_le.mp (UInt64.not_lt.mp uncapped)
      simp [Nat.le_zero.mp uncapped]
  have free : freeSpaceExceeded capacity warningFreeBytes = true ↔
      min capacity.availableBytes.toNat capacity.totalBytes.toNat < warningFreeBytes.toNat := by
    simp only [freeSpaceExceeded, available,
      UInt64.lt_iff_toNat_lt, gt_iff_lt, UInt64.toNat_zero, toNat_min, Bool.and_eq_true,
      decide_eq_true_eq]
    omega
  simp only [assess, Bool.or_eq_true, archive, free]

theorem minimumLimit_le {left right : Option UInt64} {limit : UInt64}
    (least : minimumLimit left right = some limit) :
    (∀ l ∈ left, limit.toNat ≤ l.toNat) ∧ ∀ r ∈ right, limit.toNat ≤ r.toNat := by
  rcases left with _ | l <;> rcases right with _ | r <;> cases least
  case some.some => simp only [Option.mem_some, forall_eq', toNat_min, Nat.min_le_left,
    Nat.min_le_right, and_self]
  all_goals simp

theorem minimumLimit_eq_none {left right : Option UInt64} :
    minimumLimit left right = none ↔ left = none ∧ right = none := by
  rcases left with _ | l <;> rcases right with _ | r <;> simp [minimumLimit]

theorem warning_le_recovery (fits : warningFreeBytes ≤ capacity.totalBytes) :
    warningFreeBytes.toNat ≤ (p.recoveryFreeBytes capacity warningFreeBytes).toNat := by
  have fits := UInt64.le_iff_toNat_le.mp fits
  have bound := warningFreeBytes.toNat_lt
  unfold recoveryFreeBytes
  split
  · simp only [toNat_min, toNat_saturatingAdd]
    omega
  · next unlimited => exact UInt64.le_iff_toNat_le.mp (UInt64.not_lt.mp unlimited)

structure Freed (capacity after : FilesystemCapacity) : Prop where
  total : after.totalBytes = capacity.totalBytes
  less : after.keeppeekBytes.toNat ≤ capacity.keeppeekBytes.toNat
  available : min (capacity.availableBytes.toNat
      + (capacity.keeppeekBytes.toNat - after.keeppeekBytes.toNat)) capacity.totalBytes.toNat
    ≤ after.availableBytes.toNat

theorem Freed.refl (capacity : FilesystemCapacity) : Freed capacity capacity where
  total := rfl
  less := Nat.le_refl _
  available := by omega

theorem Freed.trans {first second third : FilesystemCapacity} (earlier : Freed first second)
    (later : Freed second third) : Freed first third where
  total := later.total.trans earlier.total
  less := Nat.le_trans later.less earlier.less
  available := by
    have gained := later.available
    rw [earlier.total] at gained
    have before := earlier.available
    have less := earlier.less
    omega

theorem freed_remove {removal : Removal} (whole : removal.fileBytes ≤ removal.removed) :
    Freed capacity (capacity.remove removal) where
  total := rfl
  less := by
    simp only [remove, toNat_saturatingSub]
    omega
  available := by
    have whole := UInt64.le_iff_toNat_le.mp whole
    have bound := capacity.totalBytes.toNat_lt
    simp only [remove, toNat_saturatingSub, toNat_min, toNat_max, toNat_saturatingAdd]
    omega

theorem free_of_removed {total available keeppeek after afterAvailable free target : Nat}
    (some_left : 0 < target)
    (below : target ≤ total - (total - min available total - min keeppeek total) - free)
    (reached : after ≤ target) (less : after ≤ keeppeek)
    (freed : min (available + (keeppeek - after)) total ≤ afterAvailable) :
    free ≤ min afterAvailable total := by
  omega

section

variable (required : (p.assess capacity warningFreeBytes).cleanupRequired = true)
include required

/-- A required cleanup has a target, and it lies below the archive's cap and below
what leaves the recovery threshold free. -/
theorem target_le : ∃ target, (p.assess capacity warningFreeBytes).cleanupTargetBytes = some
    target ∧ (0 < p.archiveMaxBytes.toNat → target.toNat ≤ p.archiveMaxBytes.toNat -
    p.cleanupHysteresisBytes.toNat) ∧ (0 < warningFreeBytes.toNat → target.toNat ≤
    capacity.totalBytes.toNat - capacity.otherUsedBytes.toNat - (p.recoveryFreeBytes capacity
    warningFreeBytes).toNat) := by
  set share := filesystemShare capacity warningFreeBytes
    (p.recoveryFreeBytes capacity warningFreeBytes) with hshare
  refine ⟨(minimumLimit p.archiveTarget share).getD capacity.keeppeek, ?_, ?_⟩
  · simp only [assess] at required ⊢
    rw [if_pos required]
  · have cap (capped : 0 < p.archiveMaxBytes.toNat) : p.archiveTarget =
        some (saturatingSub p.archiveMaxBytes p.cleanupHysteresisBytes) := by
      have capped : p.archiveMaxBytes > 0 := UInt64.lt_iff_toNat_lt.mpr capped
      simp [archiveTarget, archiveLimit, capped]
    have left (limited : 0 < warningFreeBytes.toNat) : share =
        some (saturatingSub (saturatingSub capacity.totalBytes capacity.otherUsedBytes)
          (p.recoveryFreeBytes capacity warningFreeBytes)) := by
      have limited : warningFreeBytes > 0 := UInt64.lt_iff_toNat_lt.mpr limited
      exact if_pos limited
    rcases least : minimumLimit p.archiveTarget share with _ | target
    · -- Without a limit there is nothing to be below.
      obtain ⟨uncapped, unlimited⟩ := minimumLimit_eq_none.mp least
      refine ⟨fun capped => ?_, fun limited => ?_⟩
      · exact absurd (cap capped) (by simp [uncapped])
      · exact absurd (left limited) (by simp [unlimited])
    · obtain ⟨belowCap, belowShare⟩ := minimumLimit_le least
      refine ⟨fun capped => ?_, fun limited => ?_⟩
      · have := belowCap _ (cap capped)
        rwa [toNat_saturatingSub] at this
      · have := belowShare _ (left limited)
        rwa [toNat_saturatingSub, toNat_saturatingSub] at this

theorem disarmed_of_freed {after : FilesystemCapacity} {target : UInt64}
    (named : (p.assess capacity warningFreeBytes).cleanupTargetBytes = some target)
    (fits : warningFreeBytes ≤ capacity.totalBytes) (some_left : target ≠ 0)
    (freed : Freed capacity after) (reached : after.keeppeekBytes ≤ target) :
    (p.assess after warningFreeBytes).cleanupRequired = false := by
  obtain ⟨least, leastEq, belowCap, belowShare⟩ := target_le required
  obtain rfl : least = target := Option.mem_unique leastEq named
  have reached := UInt64.le_iff_toNat_le.mp reached
  have positive : 0 < least.toNat := Nat.pos_of_ne_zero fun zero =>
    some_left (UInt64.toNat_inj.mp zero)
  have recovery := @warning_le_recovery p _ _ fits
  rw [Bool.eq_false_iff]
  intro again
  rcases cleanupRequired_iff.mp again with ⟨capped, past⟩ | low
  · have := belowCap capped
    omega
  have below := belowShare (by omega)
  rw [toNat_otherUsedBytes] at below
  have free := free_of_removed positive below reached freed.less freed.available
  rw [freed.total] at low
  omega

theorem target_lt_keeppeek {target : UInt64}
    (named : (p.assess capacity warningFreeBytes).cleanupTargetBytes = some target)
    (fits : warningFreeBytes ≤ capacity.totalBytes) (kept : 0 < capacity.keeppeekBytes) :
    target < capacity.keeppeekBytes := by
  obtain ⟨least, leastEq, belowCap, belowShare⟩ := target_le required
  obtain rfl : least = target := Option.mem_unique leastEq named
  have kept : 0 < capacity.keeppeekBytes.toNat := UInt64.lt_iff_toNat_lt.mp kept
  have recovery := @warning_le_recovery p _ _ fits
  have fits := UInt64.le_iff_toNat_le.mp fits
  rw [UInt64.lt_iff_toNat_lt]
  rcases cleanupRequired_iff.mp required with ⟨capped, past⟩ | low
  · have := belowCap capped
    omega
  · have below := belowShare (by omega)
    rw [toNat_otherUsedBytes] at below
    omega

end

end Target

/-! ### The loop -/

section Loop

variable {target : UInt64}

theorem removeUntil_eq_ok {removals : List Removal} {start progress : CleanupProgress}
    (whole : ∀ removal ∈ removals, removal.fileBytes ≤ removal.removed)
    (done : removeUntil target start removals = .ok progress) :
    Freed start.capacity progress.capacity ∧ progress.capacity.keeppeekBytes ≤ target := by
  induction removals generalizing start with
  | nil =>
    unfold removeUntil at done
    split at done
    · cases done
    · next reached =>
      cases done
      exact ⟨.refl _, UInt64.not_lt.mp reached⟩
  | cons removal removals ih =>
    unfold removeUntil at done
    split at done
    · obtain ⟨freed, reached⟩ := ih (fun r mem => whole r (List.mem_cons_of_mem _ mem)) done
      exact ⟨(freed_remove (whole removal List.mem_cons_self)).trans freed, reached⟩
    · next reached =>
      cases done
      exact ⟨.refl _, UInt64.not_lt.mp reached⟩

/-- The loop comes to its end when the recordings offered make up what is to go. -/
theorem removeUntil_of_enough {removals : List Removal} {start : CleanupProgress}
    (enough : start.capacity.keeppeekBytes.toNat ≤
      target.toNat + (removals.map fun removal => removal.removed.toNat).sum) :
    ∃ progress, removeUntil target start removals = .ok progress := by
  induction removals generalizing start with
  | nil =>
    refine ⟨start, ?_⟩
    unfold removeUntil
    rw [if_neg]
    rw [gt_iff_lt, UInt64.lt_iff_toNat_lt]
    simp only [List.map_nil, List.sum_nil] at enough
    omega
  | cons removal removals ih =>
    unfold removeUntil
    split
    · apply ih
      simp only [List.map_cons, List.sum_cons] at enough
      simp only [CleanupProgress.remove, remove, toNat_saturatingSub, toNat_max]
      omega
    · exact ⟨_, rfl⟩

end Loop

/-- Storage cleanup converges: the arithmetic stays within 64 bits, and a required
cleanup has a target below what recordings take, which, unless it is zero, leaves
a capacity that requires no cleanup once it is reached. -/
theorem cleanup_converges (policy : StorageSafetyPolicy) (capacity : FilesystemCapacity) :
    (∀ value percent, ∃ share, percentOf value percent = some share ∧
      share.toNat = value.toNat * min percent.toNat 100 / 100) ∧
    ∃ evaluation, policy.evaluate capacity = some evaluation ∧ (evaluation.cleanupRequired = true →
        ∃ target, evaluation.cleanupTargetBytes = some target ∧
          (evaluation.warningFreeBytes ≤ capacity.totalBytes →
            (target = 0 ∨ ∀ removals : List Removal,
              (∀ removal ∈ removals, removal.fileBytes ≤ removal.removed) →
              (capacity.keeppeekBytes.toNat
                  ≤ target.toNat + (removals.map fun removal => removal.removed.toNat).sum →
                ∃ progress, removeUntil target ⟨capacity, 0, 0⟩ removals = .ok progress) ∧
              ∀ progress, removeUntil target ⟨capacity, 0, 0⟩ removals = .ok progress →
                (∃ recovered, policy.evaluate progress.capacity = some recovered ∧
                  recovered.cleanupRequired = false) ∧
                finishStorageCleanup policy progress = some (.ok progress)) ∧
            (0 < capacity.keeppeekBytes → target < capacity.keeppeekBytes))) := by
  obtain ⟨warningFreeBytes, evaluated⟩ := policy.evaluate_eq capacity.totalBytes
  refine ⟨percentOf_eq, _, evaluated capacity rfl, fun required => ?_⟩
  obtain ⟨target, named, -⟩ := target_le required
  refine ⟨target, named, fun fits => ⟨?_, target_lt_keeppeek required named fits⟩⟩
  by_cases zero : target = 0
  · exact .inl zero
  refine .inr fun removals whole => ⟨fun enough => ?_, fun progress done => ?_⟩
  · apply removeUntil_of_enough
    exact enough
  obtain ⟨freed, reached⟩ := removeUntil_eq_ok whole done
  have disarmed := disarmed_of_freed required named fits zero freed reached
  have again := evaluated progress.capacity freed.total
  refine ⟨⟨_, again, disarmed⟩, ?_⟩
  simp [finishStorageCleanup, again, disarmed]

theorem cleanup_converges_of_headroom :
    removeUntil 450 ⟨⟨1000, 100, 600⟩, 0, 0⟩ [⟨150, 150⟩, ⟨450, 450⟩] =
        .ok ⟨⟨1000, 250, 450⟩, 1, 150⟩ ∧
      finishStorageCleanup ⟨0, 0, none, 200, 100, 50⟩ ⟨⟨1000, 250, 450⟩, 1, 150⟩ =
        some (.ok ⟨⟨1000, 250, 450⟩, 1, 150⟩) := by
  have done : removeUntil 450 ⟨⟨1000, 100, 600⟩, 0, 0⟩ [⟨150, 150⟩, ⟨450, 450⟩] =
      .ok ⟨⟨1000, 250, 450⟩, 1, 150⟩ := by
    rfl
  obtain ⟨-, evaluation, evaluated, converges⟩ :=
    cleanup_converges ⟨0, 0, none, 200, 100, 50⟩ ⟨1000, 100, 600⟩
  obtain rfl := Option.some.inj evaluated
  obtain ⟨target, named, reached⟩ := converges (by decide)
  obtain rfl := Option.some.inj named
  refine ⟨done, ?_⟩
  rcases (reached (by decide)).1 with zero | restored
  · exact absurd zero (by decide)
  · exact ((restored [⟨150, 150⟩, ⟨450, 450⟩] (by decide)).2 _ done).2

end KeepPeek.Storage
