import KeepPeek.Volumes.Steps

/-! The counters of the ledger. Every write of an allocation row moves them by the
difference between the rows, so they stay the sums over the allocations; admission
compares them with the limit and with the observed space. -/
namespace KeepPeek.Volumes.Ledger

open Lib

variable {ledger after : Ledger} {operation : String} {old row : Row}
variable {volume id : String} {owned outstanding pending : Int} {allocation : Allocation}
  {archived : Nat} {answers : Answers} {binding : Binding}

/-- What a write of one allocation row does, triggers included. -/
structure Written (ledger after : Ledger) (operation : String) (row : Row)
    (owned outstanding pending : Int) : Prop where
  valid : row.valid = true
  unique : ledger.uniqueRow operation row = true
  allocations : after.allocations = ledger.allocations.insert operation row
  bindings : ∀ volume : String, after.bindings[volume]? =
    (ledger.bindings[volume]?).map fun binding =>
    if volume = row.volume then binding.adjust owned outstanding else binding
  pendingCount : after.pendingCount = ledger.pendingCount + pending
  moves : after.moves = ledger.moves
  retirements : after.retirements = ledger.retirements

theorem adjustBinding_bindings (h : ledger.adjustBinding volume owned outstanding = some after)
    (other : String) :
    after.bindings[other]? = (ledger.bindings[other]?).map fun binding =>
      if other = volume then binding.adjust owned outstanding else binding := by
  unfold adjustBinding at h
  split at h
  next missing =>
    cases h
    by_cases same : other = volume
    · rw [same, missing]
      rfl
    · simp [same]
  next binding found =>
    split at h
    · cases h
      by_cases same : other = volume
      · subst same
        rw [setBindings, Std.ExtTreeMap.getElem?_insert_self, found]
        simp
      · rw [setBindings, getElem?_insert_of_ne same]
        simp [same]
    · cases h

/-- Everything but the bindings. -/
def setsBindings (ledger after : Ledger) : Prop := ∃ bindings, after = ledger.setBindings bindings

theorem adjustBinding_frame (h : ledger.adjustBinding volume owned outstanding = some after) :
    ledger.setsBindings after := by
  unfold adjustBinding at h
  split at h
  · cases h
    exact ⟨ledger.bindings, rfl⟩
  split at h
  · cases h
    exact ⟨_, rfl⟩
  · cases h

theorem adjustPending_eq_some {change : Int} (h : ledger.adjustPending change = some after) :
    after = ledger.setPending (ledger.pendingCount + change) := by
  unfold adjustPending at h
  split at h
  · cases h
    rfl
  · cases h

theorem insertRow_written (h : ledger.insertRow operation row = some after) :
    ledger.allocations[operation]? = none ∧
      Written ledger after operation row row.owned row.outstanding row.pending := by
  unfold insertRow at h
  split at h
  next accepted =>
    simp only [Bool.and_eq_true, Option.isNone_iff_eq_none] at accepted
    simp only [Option.bind_eq_bind, Option.bind_eq_some_iff] at h
    rcases h with ⟨adjusted, hadjusted, hpending⟩
    have hbindings := adjustBinding_bindings hadjusted
    rcases adjustBinding_frame hadjusted with ⟨bindings, rfl⟩
    cases adjustPending_eq_some hpending
    refine ⟨accepted.1, ?_⟩
    exact {
      valid := accepted.2.1
      unique := accepted.2.2
      allocations := rfl
      bindings := hbindings
      pendingCount := rfl
      moves := rfl
      retirements := rfl }
  next => cases h

theorem Binding.adjust_adjust (binding : Binding) (owned outstanding owned' outstanding' : Int) :
    (binding.adjust owned outstanding).adjust owned' outstanding' =
      binding.adjust (owned' + owned) (outstanding' + outstanding) := by
  unfold Binding.adjust
  congr 1
  · dsimp only
    omega
  · dsimp only
    omega

theorem updateRow_written (h : ledger.updateRow operation old row = some after)
    (volume : row.volume = old.volume) :
    Written ledger after operation row (row.owned - old.owned) (row.outstanding - old.outstanding)
      (row.pending - old.pending) := by
  unfold updateRow at h
  split at h
  next accepted =>
    simp only [Bool.and_eq_true] at accepted
    simp only [Option.bind_eq_bind, Option.bind_eq_some_iff] at h
    rcases h with ⟨debited, hdebited, credited, hcredited, hpending⟩
    have hbindings := adjustBinding_bindings hcredited
    have hdebit := adjustBinding_bindings hdebited
    rcases adjustBinding_frame hdebited with ⟨bindings, rfl⟩
    rcases adjustBinding_frame hcredited with ⟨bindings', rfl⟩
    cases adjustPending_eq_some hpending
    exact {
      valid := accepted.1
      unique := accepted.2
      allocations := rfl
      bindings := by
        intro other
        refine (hbindings other).trans ?_
        rw [hdebit other, Option.map_map, ← volume]
        congr 1
        funext binding
        by_cases same : other = row.volume
        · simp only [same, Function.comp_apply, if_true]
          rw [Binding.adjust_adjust]
          rfl
        · simp [same]
      pendingCount := rfl
      moves := rfl
      retirements := rfl }
  next => cases h

/-! The sums. -/

def onVolume (weight : Row → Int) (volume : String) (_ : String) (row : Row) : Int :=
  if row.volume = volume then weight row else 0

/-- The counters are the sums over the allocations, and every allocation is on a
bound volume. -/
structure Balanced (ledger : Ledger) : Prop where
  allocated : ∀ (volume : String) binding, ledger.bindings[volume]? = some binding →
    binding.allocatedBytes = total (onVolume Row.owned volume) ledger.allocations
  reserved : ∀ (volume : String) binding, ledger.bindings[volume]? = some binding →
    binding.reservedBytes = total (onVolume Row.outstanding volume) ledger.allocations
  pending : ledger.pendingCount = total (fun _ row => row.pending) ledger.allocations
  bound : ∀ (operation : String) row, ledger.allocations[operation]? = some row →
    ∃ binding, ledger.bindings[row.volume]? = some binding

theorem initial_balanced : initial.Balanced where
  allocated volume binding h := by
    cases h
  reserved volume binding h := by
    cases h
  pending := by simp [initial]
  bound operation row h := by
    cases h

def replaced (ledger : Ledger) (operation : String) (weight : Row → Int) : Int :=
  (ledger.allocations[operation]?).elim 0 weight

theorem onVolume_delta (weight : Row → Int) (volume op : String) (row : Row)
    (hvolume : ∀ old, ledger.allocations[op]? = some old → row.volume = old.volume) :
    onVolume weight volume op row - (ledger.allocations[op]?).elim 0 (onVolume weight volume op) =
      if volume = row.volume then weight row - ledger.replaced op weight else 0 := by
  unfold replaced onVolume
  cases hold : ledger.allocations[op]? with
  | none => simp [eq_comm]
  | some old =>
    rw [hvolume old hold]
    by_cases same : volume = old.volume
    · simp [same]
    · simp [same, Ne.symm same]

theorem Written.balanced (h : Written ledger after operation row owned outstanding pending)
    (balanced : ledger.Balanced) (bound : ∃ binding, ledger.bindings[row.volume]? = some binding)
    (hvolume : ∀ old, ledger.allocations[operation]? = some old → row.volume = old.volume)
    (howned : owned = row.owned - ledger.replaced operation Row.owned)
    (houtstanding : outstanding = row.outstanding - ledger.replaced operation Row.outstanding)
    (hpending : pending = row.pending - ledger.replaced operation Row.pending) :
    after.Balanced where
  allocated volume binding hbinding := by
    rw [h.bindings volume, Option.map_eq_some_iff] at hbinding
    rcases hbinding with ⟨before, hbefore, rfl⟩
    rw [h.allocations, total_insert_sub, onVolume_delta Row.owned volume operation row hvolume,
      ← balanced.allocated volume before hbefore]
    split
    · rw [howned]
      rfl
    · omega
  reserved volume binding hbinding := by
    rw [h.bindings volume, Option.map_eq_some_iff] at hbinding
    rcases hbinding with ⟨before, hbefore, rfl⟩
    rw [h.allocations, total_insert_sub,
      onVolume_delta Row.outstanding volume operation row hvolume,
      ← balanced.reserved volume before hbefore]
    split
    · rw [houtstanding]
      rfl
    · omega
  pending := by
    rw [h.pendingCount, h.allocations, total_insert_sub, ← balanced.pending, hpending]
    rfl
  bound other found hfound := by
    rw [h.allocations] at hfound
    have onBefore : ∃ binding, ledger.bindings[found.volume]? = some binding := by
      rcases getElem?_insert_cases hfound with ⟨rfl, rfl⟩ | ⟨_, kept⟩
      · exact bound
      · exact balanced.bound other found kept
    rcases onBefore with ⟨binding, hbinding⟩
    rw [h.bindings, hbinding]
    exact ⟨_, rfl⟩

/-- Two rows that weigh the same in every counter. -/
structure SameShare (row other : Row) : Prop where
  volume : row.volume = other.volume
  owned : row.owned = other.owned
  outstanding : row.outstanding = other.outstanding
  pending : row.pending = other.pending

theorem admission_eq_some {newAllocation : Bool} {path : String}
    (h : ledger.admission allocation newAllocation archived = some path) :
    ∃ binding, ledger.bindings[allocation.volume]? = some binding ∧
      0 ≤ binding.allocatedBytes ∧ 0 ≤ ledger.filesystemReserved binding.filesystem + archived ∧
      allocation.bytes ≤ allocation.capacity.availableBytes -
        (ledger.filesystemReserved binding.filesystem + archived).toNat - binding.minimumFreeBytes ∧
      ∀ limit ∈ binding.limitBytes, allocation.bytes ≤ limit - binding.allocatedBytes.toNat := by
  unfold admission at h
  rcases Option.bind_eq_some_iff.mp h with ⟨binding, hbinding, checks⟩
  simp only [guard_bind_eq_some] at checks
  rcases checks with ⟨_, _, _, nonneg, _, _, _, space, limit, _⟩
  exact ⟨binding, hbinding, nonneg.1, nonneg.2, space, limit⟩

/-- Counters that agree with the allocations, for a binding that is written. -/
structure Accounts (ledger : Ledger) (id : String) (binding : Binding) : Prop where
  allocated : binding.allocatedBytes = total (onVolume Row.owned id) ledger.allocations
  reserved : binding.reservedBytes = total (onVolume Row.outstanding id) ledger.allocations

/-! The requests. -/

section

variable (balanced : ledger.Balanced)
include balanced

theorem Balanced.insertRow (h : ledger.insertRow operation row = some after)
    (bound : ∃ binding, ledger.bindings[row.volume]? = some binding) : after.Balanced := by
  rcases insertRow_written h with ⟨fresh, written⟩
  have nothing : ∀ weight, ledger.replaced operation weight = 0 := by
    intro weight
    rw [replaced, fresh]
    rfl
  apply written.balanced balanced bound
  · intro old hold
    rw [fresh] at hold
    cases hold
  · rw [nothing, sub_zero]
  · rw [nothing, sub_zero]
  · rw [nothing, sub_zero]

theorem Balanced.updateRow_of_share {actual : Row}
    (h : ledger.updateRow operation old row = some after)
    (hactual : ledger.allocations[operation]? = some actual) (share : SameShare actual old)
    (volume : row.volume = old.volume) : after.Balanced := by
  have previous : ∀ weight, ledger.replaced operation weight = weight actual := by
    intro weight
    rw [replaced, hactual]
    rfl
  apply (updateRow_written h volume).balanced balanced
  · rw [volume, ← share.volume]
    exact balanced.bound operation actual hactual
  · intro other hother
    rw [hactual] at hother
    cases hother
    exact volume.trans share.volume.symm
  · rw [previous, share.owned]
  · rw [previous, share.outstanding]
  · rw [previous, share.pending]

theorem Balanced.updateRow (h : ledger.updateRow operation old row = some after)
    (hold : ledger.allocations[operation]? = some old) (volume : row.volume = old.volume) :
    after.Balanced :=
  balanced.updateRow_of_share h hold ⟨rfl, rfl, rfl, rfl⟩ volume

theorem Balanced.of_same (bindings : after.bindings = ledger.bindings)
    (allocations : after.allocations = ledger.allocations)
    (pendingCount : after.pendingCount = ledger.pendingCount) : after.Balanced where
  allocated := by
    rw [bindings, allocations]
    exact balanced.allocated
  reserved := by
    rw [bindings, allocations]
    exact balanced.reserved
  pending := by
    rw [pendingCount, allocations]
    exact balanced.pending
  bound := by
    rw [bindings, allocations]
    exact balanced.bound

theorem Balanced.bump (h : ledger.bumpRevision = some after) : after.Balanced := by
  cases bumpRevision_eq_some h
  exact balanced.of_same rfl rfl rfl

theorem Balanced.rewritten (h : (ledger.updateRow operation old row >>= bumpRevision) = some after)
    (hold : ledger.allocations[operation]? = some old) (volume : row.volume = old.volume) :
    after.Balanced := by
  rcases Option.bind_eq_some_iff.mp h with ⟨updated, hupdated, hbump⟩
  exact (balanced.updateRow hupdated hold volume).bump hbump

theorem Balanced.reserve (h : ledger.reserve allocation answers = some after) : after.Balanced := by
  obtain ⟨_, ⟨rfl, _⟩ | ⟨_, path, hpath, h⟩⟩ := reserve_eq_some h
  · exact balanced
  obtain ⟨inserted, hinserted, hbump⟩ := Option.bind_eq_some_iff.mp h
  obtain ⟨binding, hbinding, _⟩ := admission_eq_some hpath
  exact (balanced.insertRow hinserted ⟨binding, hbinding⟩).bump hbump

theorem Balanced.grow {growth : Growth} (h : ledger.grow growth answers = some after) :
    after.Balanced := by
  obtain ⟨row, hrow, _, _, _, ⟨rfl, _⟩ | ⟨_, _, _, h⟩⟩ := grow_eq_some h
  · exact balanced
  · exact balanced.rewritten h hrow rfl

theorem Balanced.checkpoint {request : Materialization}
    (h : ledger.checkpoint request answers = some after) :
    after.Balanced := by
  obtain ⟨row, hrow, _, _, _, _, ⟨rfl, _⟩ | h⟩ := checkpoint_eq_some h
  · exact balanced
  · exact balanced.rewritten h hrow rfl

theorem Balanced.publish {pub : Publication} (h : ledger.publish pub answers = some after) :
    after.Balanced := by
  obtain ⟨_, _, row, hrow, ⟨rfl, _⟩ | ⟨_, h⟩⟩ := publish_eq_some h
  · exact balanced
  · exact balanced.rewritten h hrow rfl

theorem Balanced.finalize {pub : Publication} (h : ledger.finalize pub answers = some after) :
    after.Balanced := by
  obtain ⟨_, _, _, _, _, ⟨_, _, h⟩ | ⟨_, h⟩⟩ := finalize_eq_some h
  · exact balanced.publish h
  · refine Balanced.publish ?_ h
    exact balanced.of_same rfl rfl rfl

theorem Balanced.total_unbound (unbound : ledger.bindings[id]? = none)
    (weight : Row → Int) : total (onVolume weight id) ledger.allocations = 0 := by
  apply total_eq_zero
  intro operation row hrow
  rcases balanced.bound operation row hrow with ⟨binding, hbinding⟩
  apply if_neg
  rintro rfl
  rw [unbound] at hbinding
  cases hbinding

theorem Balanced.setBinding (accounts : ledger.Accounts id binding) :
    (ledger.setBindings (ledger.bindings.insert id binding)).Balanced where
  allocated volume found hfound := by
    rw [setBindings, Std.ExtTreeMap.getElem?_insert] at hfound
    split at hfound
    next same =>
      cases hfound
      cases Std.LawfulEqCmp.eq_of_compare same
      exact accounts.allocated
    next => exact balanced.allocated volume found hfound
  reserved volume found hfound := by
    rw [setBindings, Std.ExtTreeMap.getElem?_insert] at hfound
    split at hfound
    next same =>
      cases hfound
      cases Std.LawfulEqCmp.eq_of_compare same
      exact accounts.reserved
    next => exact balanced.reserved volume found hfound
  pending := balanced.pending
  bound operation row hrow := by
    rw [setBindings, Std.ExtTreeMap.getElem?_insert]
    split
    · exact ⟨binding, rfl⟩
    · exact balanced.bound operation row hrow

theorem Balanced.accounts {before : Binding}
    (h : ledger.bindings[id]? = some before)
    (allocated : binding.allocatedBytes = before.allocatedBytes)
    (reserved : binding.reservedBytes = before.reservedBytes) : ledger.Accounts id binding :=
  ⟨allocated.trans (balanced.allocated id before h), reserved.trans (balanced.reserved id before h)⟩

theorem Balanced.bind {cfg : BindingConfig} (h : ledger.bind id cfg = some after) :
    after.Balanced := by
  unfold Ledger.bind at h
  dsimp only at h
  split at h
  next before hbefore =>
    split at h
    · refine (balanced.setBinding ?_).bump h
      exact balanced.accounts hbefore rfl rfl
    · cases h
  next unbound =>
    split at h
    · refine (balanced.setBinding ?_).bump h
      exact ⟨(balanced.total_unbound unbound _).symm, (balanced.total_unbound unbound _).symm⟩
    · cases h

theorem Balanced.setDraining {generation : Nat} {draining : Bool}
    (h : ledger.setDraining volume generation draining = some after) :
    after.Balanced := by
  obtain rfl | ⟨binding, hbinding, h⟩ := setDraining_eq_some h
  · exact balanced
  · refine (balanced.setBinding ?_).bump h
    exact balanced.accounts hbinding rfl rfl

theorem Balanced.setMove (id : String) (m : Move) :
    (ledger.setMove id m).Balanced := balanced.of_same rfl rfl rfl

theorem Balanced.transition {job : Job} {first last : Phase}
    (h : ledger.transition job first last = some after) :
    after.Balanced := by
  obtain ⟨rfl, _⟩ | ⟨_, h⟩ := transition_eq_some h
  · exact balanced
  · exact (balanced.setMove _ _).bump h

theorem Balanced.beginMove {intent : Intent} (h : ledger.beginMove intent answers = some after) :
    after.Balanced := by
  rcases beginMove_eq_some h with rfl | ⟨source, row, reserved, journaled, _, _, _, hreserved,
    hinsert, hbump⟩
  · exact balanced
  rcases insertMove_eq_some hinsert with ⟨rfl, _⟩
  have hbalanced : reserved.Balanced := by
    refine Balanced.reserve ?_ hreserved
    exact balanced.of_same rfl rfl rfl
  exact (hbalanced.setMove _ _).bump hbump

theorem Balanced.publishMove {job : Job} (hjob : ledger.load id = some job)
    (h : ledger.publishMove job = some after) : after.Balanced := by
  rcases load_eq_some hjob with ⟨_, _, hsource, hdestination, _⟩
  rcases publishMove_eq_some h with rfl | ⟨renamed, recordings, moved, _, _, _, _, _, hrenamed,
    hmoved, htransition⟩
  · exact balanced
  have hbalanced := balanced.updateRow hrenamed hsource rfl
  have hallocations := (updateRow_written hrenamed rfl).allocations
  -- The source was only renamed, which no counter sees.
  have hactual : ∃ actual, renamed.allocations[job.move.destinationOperation]? = some actual ∧
      SameShare actual job.destination := by
    rw [hallocations]
    by_cases same : job.move.destinationOperation = job.move.sourceOperation
    · rw [same] at hdestination ⊢
      have hrow : job.sourceRow = job.destination := Option.mem_unique hsource hdestination
      rw [Std.ExtTreeMap.getElem?_insert_self, hrow]
      exact ⟨_, rfl, rfl, rfl, rfl, rfl⟩
    · rw [getElem?_insert_of_ne same]
      exact ⟨_, hdestination, rfl, rfl, rfl, rfl⟩
  rcases hactual with ⟨actual, hactual, share⟩
  refine Balanced.transition (Balanced.updateRow_of_share ?_ hmoved hactual share rfl) htransition
  exact hbalanced.of_same rfl rfl rfl

theorem Balanced.course {job : Job} (course : Course ledger job after)
    (hjob : ledger.load id = some job) : after.Balanced := by
  obtain ⟨_, _, hsource, hdestination, _⟩ := load_eq_some hjob
  cases course with
  | same => exact balanced
  | noted bump => exact (balanced.setMove _ _).bump bump
  | passed step => exact balanced.transition step
  | rewritten step _ _ _ volume =>
    obtain ⟨updated, hupdated, step⟩ := Option.bind_eq_some_iff.mp step
    exact (balanced.updateRow hupdated hdestination volume).transition step
  | retired step =>
    obtain ⟨updated, hupdated, step⟩ := Option.bind_eq_some_iff.mp step
    exact (balanced.updateRow hupdated hsource rfl).transition step
  | published step => exact balanced.publishMove hjob step

theorem Balanced.advance {step : Step} (h : ledger.advance step answers = some after) :
    after.Balanced := by
  obtain ⟨job, hjob, _, _, h⟩ := advance_eq_some h
  exact balanced.course (advanceJob_course h) hjob

theorem Balanced.completeRetirement {evidence : Publication}
    (h : ledger.completeRetirement evidence answers = some after) :
    after.Balanced := by
  rcases completeRetirement_eq_some h with rfl | ⟨retirement, row, updated, _, _, hrow,
    hupdated, hbump⟩
  · exact balanced
  · have hbalanced := balanced.updateRow hupdated hrow rfl
    refine Balanced.bump ?_ hbump
    exact hbalanced.of_same rfl rfl rfl

theorem dispatch_balanced {request : Request} (h : ledger.dispatch answers request = some after) :
    after.Balanced := by
  cases request with
  | bind id config => exact balanced.bind h
  | setDraining volume generation draining => exact balanced.setDraining h
  | reserve allocation => exact balanced.reserve h
  | grow growth => exact balanced.grow h
  | materialize request => exact balanced.checkpoint h
  | publish publication => exact balanced.publish h
  | finalize publication => exact balanced.finalize h
  | beginMove intent => exact balanced.beginMove h
  | advanceMove step => exact balanced.advance h
  | beginRetirement operation =>
    rcases beginRetirement_eq_some h with ⟨row, _, _, _, _, _, hbump⟩
    refine Balanced.bump ?_ hbump
    exact balanced.of_same rfl rfl rfl
  | completeRetirement evidence => exact balanced.completeRetirement h
  | acknowledgeRetirement operation =>
    rcases acknowledgeRetirement_eq_some h with ⟨retirement, _, _, rfl⟩
    exact balanced.of_same rfl rfl rfl
  | release operation =>
    rcases release_eq_some h with ⟨row, updated, hrow, _, hupdated, hbump⟩
    exact (balanced.updateRow hupdated hrow rfl).bump hbump
  | insertRecording id path =>
    simp only [dispatch, insertRecording] at h
    split at h
    · cases h
      exact balanced.of_same rfl rfl rfl
    · cases h

end

theorem execute_cases (l : Ledger) (call : Call) :
    l.execute call = l ∨ l.dispatch call.answers call.request = some (l.execute call) := by
  unfold execute
  split
  · cases h : l.dispatch call.answers call.request with
    | none => exact Or.inl rfl
    | some after => exact Or.inr rfl
  · exact Or.inl rfl

theorem execute_balanced (call : Call) (balanced : ledger.Balanced) :
    (ledger.execute call).Balanced := by
  rcases execute_cases ledger call with same | committed
  · rw [same]
    exact balanced
  · exact dispatch_balanced balanced committed

theorem run_balanced (calls : List Call) : (run calls).Balanced := by
  apply foldl_invariant
  · intro ledger call balanced
    exact execute_balanced call balanced
  · exact initial_balanced

/-! Admission. -/

/-- The volume is within its limit, and what is still to be written on its
filesystem leaves its minimum free space of the observed bytes. -/
def Within (ledger : Ledger) (volume : String) (capacity : Capacity) (archived : Nat) : Prop :=
  ∃ binding, ledger.bindings[volume]? = some binding ∧
    (∀ limit ∈ binding.limitBytes, binding.allocatedBytes ≤ limit) ∧
    ledger.filesystemReserved binding.filesystem + archived + binding.minimumFreeBytes ≤
      capacity.availableBytes

theorem Within.of_bindings {capacity : Capacity} (h : ledger.Within volume capacity archived)
    (bindings : after.bindings = ledger.bindings) : after.Within volume capacity archived := by
  unfold Within filesystemReserved at h ⊢
  rw [bindings]
  exact h

theorem Written.bindings_eq (h : Written ledger after operation row owned outstanding pending)
    (hbinding : ledger.bindings[row.volume]? = some binding) :
    after.bindings = ledger.bindings.insert row.volume (binding.adjust owned outstanding) := by
  apply Std.ExtTreeMap.ext_getElem?
  intro volume
  rw [h.bindings volume]
  by_cases same : volume = row.volume
  · rw [same, Std.ExtTreeMap.getElem?_insert_self, hbinding]
    simp
  · rw [getElem?_insert_of_ne same]
    simp [same]

theorem Written.filesystemReserved
    (h : Written ledger after operation row owned outstanding pending)
    (hbinding : ledger.bindings[row.volume]? = some binding) :
    after.filesystemReserved binding.filesystem =
      ledger.filesystemReserved binding.filesystem + outstanding := by
  unfold Ledger.filesystemReserved
  rw [h.bindings_eq hbinding, total_insert_sub, hbinding]
  have share : (binding.adjust owned outstanding).filesystem = binding.filesystem := rfl
  simp [Binding.adjust]

/-- A row that grows by what admission granted keeps the volume within its bounds. -/
theorem Written.within {newAllocation : Bool} {path : String}
    (hadmission : ledger.admission allocation newAllocation archived = some path)
    (positive : 0 < allocation.bytes) (hvolume : row.volume = allocation.volume)
    (h : Written ledger after operation row allocation.bytes allocation.bytes pending) :
    after.Within row.volume allocation.capacity archived := by
  rcases admission_eq_some hadmission with ⟨binding, hbinding, howned, hreserved, space, limits⟩
  rw [← hvolume] at hbinding
  refine ⟨binding.adjust allocation.bytes allocation.bytes, ?_, ?_, ?_⟩
  · rw [h.bindings, hbinding]
    simp
  · intro limit hlimit
    have granted := limits limit hlimit
    show binding.allocatedBytes + (allocation.bytes : Int) ≤ limit
    omega
  · show after.filesystemReserved binding.filesystem + archived + binding.minimumFreeBytes ≤ _
    rw [h.filesystemReserved hbinding]
    omega

def bytesOf (ledger : Ledger) (operation : String) : Nat :=
  (ledger.allocations[operation]?).elim 0 Row.bytes

theorem reserve_within (h : ledger.reserve allocation answers = some after) :
    after = ledger ∧ ledger.allocations[allocation.operation]? ≠ none ∨
      after.allocations[allocation.operation]?.map Row.volume = some allocation.volume ∧
      after.Within allocation.volume allocation.capacity answers.archived := by
  obtain ⟨_, ⟨rfl, row, hrow, _⟩ | ⟨_, path, hpath, h⟩⟩ := reserve_eq_some h
  · refine Or.inl ⟨rfl, ?_⟩
    rw [hrow]
    exact Option.some_ne_none row
  · obtain ⟨inserted, hinserted, hbump⟩ := Option.bind_eq_some_iff.mp h
    cases bumpRevision_eq_some hbump
    rcases insertRow_written hinserted with ⟨_, written⟩
    right
    constructor
    · show inserted.allocations[allocation.operation]?.map Row.volume = _
      rw [written.allocations, Std.ExtTreeMap.getElem?_insert_self]
      rfl
    · have positive : 0 < allocation.bytes := by
        have valid := written.valid
        simp only [Row.valid, Bool.and_eq_true, decide_eq_true_eq] at valid
        exact valid.1
      have outstanding : (reservedRow allocation path).outstanding = allocation.bytes := by
        simp [Row.outstanding, reservedRow]
      have owned : (reservedRow allocation path).owned = allocation.bytes := by
        simp [Row.owned, reservedRow]
      exact (written.within hpath positive rfl).of_bindings rfl

theorem grow_within {growth : Growth} (h : ledger.grow growth answers = some after) :
    after = ledger ∨ ∃ volume, after.allocations[growth.operation]?.map Row.volume = some volume ∧
      after.Within volume growth.capacity answers.archived := by
  obtain ⟨row, hrow, _, _, reserved, ⟨rfl, _⟩ | ⟨larger, path, hpath, h⟩⟩ := grow_eq_some h
  · exact Or.inl rfl
  obtain ⟨updated, hupdated, hbump⟩ := Option.bind_eq_some_iff.mp h
  cases bumpRevision_eq_some hbump
  have written := updateRow_written hupdated rfl
  refine Or.inr ⟨row.volume, ?_, ?_⟩
  · show updated.allocations[growth.operation]?.map Row.volume = _
    rw [written.allocations, Std.ExtTreeMap.getElem?_insert_self]
    rfl
  · have added : ((growthAllocation growth row).bytes : Int) = growth.bytes - row.bytes := by
      simp only [growthAllocation]
      omega
    have owned : (withBytes row growth.bytes).owned - row.owned =
        (growthAllocation growth row).bytes := by
      rw [added]
      simp [Row.owned, withBytes, reserved]
    have outstanding : (withBytes row growth.bytes).outstanding - row.outstanding =
        (growthAllocation growth row).bytes := by
      rw [added]
      simp [Row.outstanding, withBytes, reserved]
    rw [owned, outstanding] at written
    have positive : 0 < (growthAllocation growth row).bytes := by
      omega
    have hvolume : (withBytes row growth.bytes).volume = (growthAllocation growth row).volume := rfl
    have within := written.within hpath positive hvolume
    exact within.of_bindings rfl

/-- The requests that may add bytes, with the allocation and the observation they name. -/
def Request.demand : Request → Option (String × Capacity)
  | .reserve allocation => some (allocation.operation, allocation.capacity)
  | .grow growth => some (growth.operation, growth.capacity)
  | .beginMove intent => some (intent.destination.operation, intent.destination.capacity)
  | _ => none

theorem beginMove_within {intent : Intent} (h : ledger.beginMove intent answers = some after) :
    after = ledger ∨ ∃ volume, after.allocations[intent.destination.operation]?.map Row.volume =
      some volume ∧ after.Within volume intent.destination.capacity answers.archived := by
  rcases beginMove_eq_some h with rfl | ⟨source, row, reserved, journaled, _, _, fresh, hreserved,
    hinsert, hbump⟩
  · exact Or.inl rfl
  cases bumpRevision_eq_some hbump
  rcases insertMove_eq_some hinsert with ⟨rfl, _⟩
  rcases reserve_within hreserved with ⟨_, known⟩ | ⟨hvolume, within⟩
  · exact absurd fresh known
  · exact Or.inr ⟨intent.destination.volume, hvolume, within.of_bindings rfl⟩

/-- A request that adds bytes leaves its volume within its bounds. -/
theorem dispatch_within {request : Request} {capacity : Capacity}
    (h : ledger.dispatch answers request = some after)
    (demand : request.demand = some (operation, capacity)) :
    after = ledger ∨ ∃ volume, after.allocations[operation]?.map Row.volume = some volume ∧
      after.Within volume capacity answers.archived := by
  cases request with
  | reserve allocation =>
    cases demand
    rcases reserve_within h with ⟨same, _⟩ | within
    · exact Or.inl same
    · exact Or.inr ⟨allocation.volume, within⟩
  | grow growth =>
    cases demand
    exact grow_within h
  | beginMove intent =>
    cases demand
    exact beginMove_within h
  | _ => cases demand

/-- In every reachable state the counters are the sums over the allocations, and a
reserve or grow from there that adds bytes leaves its volume within its limit and
the filesystem's reservations within the observed space. -/
theorem run_balanced_and_admitted (calls : List Call) :
    (run calls).Balanced ∧ ∀ call operation capacity,
      call.request.demand = some (operation, capacity) →
      (run calls).bytesOf operation < ((run calls).execute call).bytesOf operation →
      ∃ volume, ((run calls).execute call).allocations[operation]?.map Row.volume = some volume ∧
        ((run calls).execute call).Within volume capacity call.answers.archived := by
  refine ⟨run_balanced calls, ?_⟩
  intro call operation capacity demand adds
  rcases execute_cases (run calls) call with same | committed
  · rw [same] at adds
    omega
  rcases dispatch_within committed demand with same | within
  · rw [same] at adds
    omega
  · exact within

def archiveConfig : BindingConfig :=
  ⟨1, "/media", "fs", "root", true, false, some 1000, 100⟩

def clipAllocation : Allocation :=
  ⟨"op", ⟨.recording, "clip"⟩, "main", 1, "clip.mp4", 400, ⟨2, 900, "fs", "root"⟩⟩

def granted : Answers := ⟨true, true, 0⟩

/-- One volume with an allocation that grows. -/
theorem run_balanced_and_admitted_growth :
    let ledger := run [⟨.bind "main" archiveConfig, granted, true⟩,
      ⟨.reserve clipAllocation, granted, true⟩]
    let call : Call := ⟨.grow ⟨"op", 700, ⟨3, 900, "fs", "root"⟩⟩, granted, true⟩
    ledger.bytesOf "op" = 400 ∧ (ledger.execute call).bytesOf "op" = 700 ∧ ledger.Balanced ∧
      ∃ volume, (ledger.execute call).allocations["op"]?.map Row.volume = some volume ∧
        (ledger.execute call).Within volume ⟨3, 900, "fs", "root"⟩ 0 := by
  intro ledger call
  have before : ledger.bytesOf "op" = 400 := by decide +kernel
  have grown : (ledger.execute call).bytesOf "op" = 700 := by decide +kernel
  have main := run_balanced_and_admitted [⟨.bind "main" archiveConfig, granted, true⟩,
    ⟨.reserve clipAllocation, granted, true⟩]
  refine ⟨before, grown, main.1, main.2 call "op" _ rfl ?_⟩
  show ledger.bytesOf "op" < (ledger.execute call).bytesOf "op"
  omega

end KeepPeek.Volumes.Ledger
