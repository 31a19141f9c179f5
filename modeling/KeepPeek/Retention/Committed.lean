import KeepPeek.Retention.Runtime

/-! Committed retention over every history of transactions.

A deadline is only ever written as the later of the resolved and the stored one.
A recording is deleted under a claim or a retirement; while one of them owns it, no
transaction changes its deadline, its hold or its finalization, so what was checked
when the owner was admitted still holds when the row goes. -/
namespace KeepPeek.Retention

open Lib

/-- The later deadline keeps at least what the earlier one did. -/
def Postponed (before after : Option Timestamp) : Prop :=
  ∀ deadline, before = some deadline → ∃ later, after = some later ∧ deadline ≤ later

theorem Postponed.refl (deadline : Option Timestamp) : Postponed deadline deadline := by
  intro held found
  exact ⟨held, found, le_refl held⟩

theorem Postponed.trans {first second third : Option Timestamp} (left : Postponed first second)
    (right : Postponed second third) : Postponed first third := by
  intro deadline found
  rcases left deadline found with ⟨later, found, before⟩
  rcases right later found with ⟨latest, found, between⟩
  exact ⟨latest, found, le_trans before between⟩

theorem le_laterDeadline (deadline : Option Timestamp) (candidate : Timestamp) :
    candidate ≤ laterDeadline deadline candidate := by
  unfold laterDeadline
  split
  · exact le_refl candidate
  split
  · exact le_refl candidate
  · rename_i later
    exact le_of_lt (not_le.mp later)

theorem Policy.resolve_postpones {p : Policy} {r : Recording}
    {events : List TimelineEvent} {decision : Decision}
    (resolved : p.resolve r events = .ok decision) :
    Postponed r.committedDeadlineMs decision.deadlineMs := by
  unfold Policy.resolve at resolved
  split at resolved
  · cases resolved
  simp only [Policy.evaluate, Except.map] at resolved
  split at resolved
  · cases resolved
  rename_i found _
  cases resolved
  intro committed held
  refine ⟨laterDeadline found.1 committed, ?_, le_laterDeadline _ _⟩
  simp only [decisionFor, mergedDeadline, held]

namespace Catalog

variable {before after c : Catalog} {id other : String} {codec : Codec} {progress : Progress}
  {file : RecordingFile} {expiry : Bool} {op : Op}

/-! ### What leaves owned recordings alone -/

/-- What happens to a row that is not claimed, released or deleted. -/
structure RowKept (retiring : Bool) (before after : RecordingFile) : Prop where
  claim : after.cleanupPending = before.cleanupPending
  hold : after.isProtected = before.isProtected
  finalized : before.finalized = true → after.finalized = true
  postponed : Postponed before.deadline after.deadline
  owned : before.cleanupPending = true ∨ retiring = true → after.deadline = before.deadline

theorem RowKept.refl (retiring : Bool) (f : RecordingFile) : RowKept retiring f f :=
  ⟨rfl, rfl, fun finalized => finalized, .refl _, fun _ => rfl⟩

theorem RowKept.trans {retiring : Bool} {first second third : RecordingFile}
    (left : RowKept retiring first second) (right : RowKept retiring second third) :
    RowKept retiring first third where
  claim := right.claim.trans left.claim
  hold := right.hold.trans left.hold
  finalized := fun finalized => right.finalized (left.finalized finalized)
  postponed := left.postponed.trans right.postponed
  owned := by
    intro owned
    rw [← left.claim] at owned
    rw [right.owned owned, left.owned (left.claim ▸ owned)]

theorem RowKept.of_decision {retiring : Bool} {before after : RecordingFile}
    (claim : after.cleanupPending = before.cleanupPending)
    (hold : after.isProtected = before.isProtected)
    (finalized : before.finalized = true → after.finalized = true)
    (decision : after.decision = before.decision) : RowKept retiring before after where
  claim := claim
  hold := hold
  finalized := finalized
  postponed := by
    unfold RecordingFile.deadline
    rw [decision]
    exact .refl _
  owned := by
    intro _
    unfold RecordingFile.deadline
    rw [decision]

/-- A transaction that admits, gives up and completes nothing. -/
structure Steady (before after : Catalog) : Prop where
  retirements : after.retirements = before.retirements
  kept : ∀ (id : String) (file : RecordingFile), before.files[id]? = some file →
    ∃ kept, after.files[id]? = some kept ∧ RowKept (before.retiring id) file kept
  fresh : ∀ (id : String) (file : RecordingFile), before.files[id]? = none →
    after.files[id]? = some file → file.cleanupPending = false

theorem Steady.of_files (files : after.files = before.files)
    (retirements : after.retirements = before.retirements) : Steady before after where
  retirements := retirements
  kept := by
    intro id file found
    rw [files]
    exact ⟨file, found, .refl _ _⟩
  fresh := by
    intro id file missing found
    rw [files, missing] at found
    cases found

theorem Steady.refl (c : Catalog) : Steady c c :=
  .of_files rfl rfl

theorem Steady.retiring (steady : Steady before after) (id : String) :
    after.retiring id = before.retiring id := by
  unfold Catalog.retiring
  rw [steady.retirements]

theorem Steady.trans {first second third : Catalog} (left : Steady first second)
    (right : Steady second third) : Steady first third where
  retirements := right.retirements.trans left.retirements
  kept := by
    intro id file found
    rcases left.kept id file found with ⟨middle, found, first_kept⟩
    rcases right.kept id middle found with ⟨last, found, second_kept⟩
    rw [left.retiring] at second_kept
    exact ⟨last, found, first_kept.trans second_kept⟩
  fresh := by
    intro id file missing found
    cases between : second.files[id]? with
    | none => exact right.fresh id file between found
    | some middle =>
      rcases right.kept id middle between with ⟨last, same, kept⟩
      rw [found] at same
      cases same
      rw [kept.claim]
      exact left.fresh id middle missing between

theorem Steady.setFile {before after : RecordingFile} (found : c.files[id]? = some before)
    (kept : RowKept (c.retiring id) before after) :
    Steady c (c.setFile id after) where
  retirements := rfl
  kept := by
    intro other file held
    by_cases same : other = id
    · subst same
      rw [found] at held
      cases held
      exact ⟨after, Std.ExtTreeMap.getElem?_insert_self, kept⟩
    · refine ⟨file, ?_, .refl _ _⟩
      unfold Catalog.setFile
      rw [getElem?_insert_of_ne same]
      exact held
  fresh := by
    intro other file missing held
    by_cases same : other = id
    · subst same
      rw [found] at missing
      cases missing
    · unfold Catalog.setFile at held
      rw [getElem?_insert_of_ne same, missing] at held
      cases held

theorem updateFile_eq_ok {change : RecordingFile → RecordingFile}
    (updated : c.updateFile id change = .ok after) :
    (c.files[id]? = none ∧ after = c) ∨ ∃ file, c.files[id]? = some file ∧ c.retiring id = false ∧
        file.maintained = false ∧ after = c.setFile id (change file) := by
  unfold updateFile at updated
  split at updated
  · rename_i missing
    cases updated
    exact Or.inl ⟨missing, rfl⟩
  · rename_i file found
    split at updated
    · cases updated
    rename_i free
    split at updated
    · cases updated
    · rename_i unmaintained
      cases updated
      exact Or.inr ⟨file, found, eq_false_of_ne_true free, eq_false_of_ne_true unmaintained, rfl⟩

theorem updateFile_steady {change : RecordingFile → RecordingFile}
    (kept : ∀ file, RowKept (c.retiring id) file (change file))
    (updated : c.updateFile id change = .ok after) : Steady c after := by
  rcases updateFile_eq_ok updated with ⟨-, rfl⟩ | ⟨file, found, -, -, rfl⟩
  · exact .refl _
  · exact .setFile found (kept file)

theorem recordSpan_files (c : Catalog) (id : String) :
    (c.recordSpan id).files = c.files ∧ (c.recordSpan id).retirements = c.retirements := by
  unfold recordSpan
  split
  · exact ⟨rfl, rfl⟩
  · split <;> exact ⟨rfl, rfl⟩

theorem recordSpan_steady (c : Catalog) (id : String) : Steady c (c.recordSpan id) :=
  .of_files (recordSpan_files c id).1 (recordSpan_files c id).2

theorem commitSnapshot_eq_ok {revision : Nat} {p : Policy} {requiresEvents : Bool}
    (committed : c.commitSnapshot codec id revision p requiresEvents = .ok after) :
    ∃ file snapshot events decision, c.files[id]? = some file ∧
      file.cleanupPending = false ∧ c.retiring id = false ∧
      file.snapshot = .ok snapshot ∧ c.evidence snapshot requiresEvents = .ok events ∧
      p.resolve (snapshot.recording file.deadline) events = .ok decision ∧
      after = c.setFile id
        { file with decision := some (c.storedDecision codec revision p decision) } := by
  unfold commitSnapshot at committed
  split at committed
  · cases committed
  · cases committed
  rename_i snapshot file snapped found
  unfold recordingSnapshot at snapped
  rw [found] at snapped
  dsimp only at snapped
  split at snapped
  · rename_i unowned
    simp only [Bool.and_eq_true, Bool.not_eq_true'] at unowned
    split at committed
    · cases committed
    rename_i decision resolved
    split at committed
    · cases committed
      unfold resolveDecision at resolved
      cases checked : checkRevision codec file.decision revision p with
      | error message =>
        rw [checked] at resolved
        cases resolved
      | ok _ =>
        rw [checked] at resolved
        cases gathered : c.evidence snapshot requiresEvents with
        | error message =>
          simp only [gathered] at resolved
          cases resolved
        | ok events =>
          simp only [gathered] at resolved
          exact ⟨file, snapshot, events, decision, found, unowned.1.1.2, unowned.2, snapped,
            gathered, resolved, rfl⟩
    · cases committed
  · cases snapped

theorem commitSnapshot_steady {revision : Nat} {p : Policy} {requiresEvents : Bool}
    (committed : c.commitSnapshot codec id revision p requiresEvents = .ok after) :
    Steady c after := by
  rcases commitSnapshot_eq_ok committed with
    ⟨file, snapshot, events, decision, found, unclaimed, unretired, -, -, resolved, rfl⟩
  have postponed : Postponed file.deadline decision.deadlineMs :=
    Policy.resolve_postpones resolved
  refine .setFile found ⟨rfl, rfl, fun finalized => finalized, postponed, ?_⟩
  intro owned
  rw [unclaimed, unretired] at owned
  simp at owned

theorem commitFile_steady (codec : Codec) (c : Catalog) (id : String) (f : RecordingFile)
    (p : Policy) : Steady c (c.commitFile codec id f p).2 := by
  have spanned := recordSpan_steady c id
  unfold commitFile
  split
  · exact .refl _
  split
  · exact .refl _
  split
  · exact spanned
  · rename_i committed
    exact spanned.trans (commitSnapshot_steady committed)

theorem finishFile_steady {attention : Attention}
    (finished : c.finishFile id attention = .ok after) : Steady c after := by
  apply updateFile_steady _ finished
  intro file
  exact .of_decision rfl rfl (fun finalized => finalized) rfl

theorem evaluate_steady (evaluated : c.evaluate codec id = .ok (progress, after)) :
    Steady c after := by
  unfold evaluate at evaluated
  split at evaluated
  · cases evaluated
    exact .refl _
  rename_i file _
  split at evaluated
  · rcases map_eq_ok evaluated with ⟨marked, finished, same⟩
    cases same
    exact finishFile_steady finished
  · split at evaluated
    · rcases map_eq_ok evaluated with ⟨marked, finished, same⟩
      cases same
      exact finishFile_steady finished
    · rename_i policy _
      have committed := commitFile_steady codec c id file policy
      split at evaluated
      · rename_i written result
        rw [result] at committed
        rcases map_eq_ok evaluated with ⟨marked, finished, same⟩
        cases same
        exact committed.trans (finishFile_steady finished)
      · rename_i failed result
        rw [result] at committed
        rcases map_eq_ok evaluated with ⟨marked, finished, same⟩
        cases same
        exact committed.trans (finishFile_steady finished)

theorem sweepVisit_steady (visited : c.sweepVisit codec id file = .ok (progress, after)) :
    Steady c after := by
  have spanned := recordSpan_steady c id
  unfold sweepVisit at visited
  split at visited
  · cases visited
    exact .refl _
  split at visited
  · cases visited
    exact spanned.trans (.of_files rfl rfl)
  · exact spanned.trans (evaluate_steady visited)

theorem backfill_steady (filled : c.backfill codec = .ok (progress, after)) : Steady c after := by
  unfold backfill at filled
  split at filled
  · cases filled
    exact .of_files rfl rfl
  split at filled
  · cases filled
  · rcases map_eq_ok filled with ⟨⟨_, visited⟩, visit, same⟩
    cases same
    exact (sweepVisit_steady visit).trans (.of_files rfl rfl)

theorem finishJob_steady (c : Catalog) (camera : String) (work : Work) :
    Steady c (c.finishJob camera work) := by
  unfold finishJob
  split <;> exact .of_files rfl rfl

theorem jobVisit_steady {work : Work}
    (visited : c.jobVisit codec id file work = .ok (progress, after)) :
    Steady c after := by
  unfold jobVisit at visited
  split at visited
  · split at visited
    · cases visited
      exact .refl _
    split at visited
    · cases visited
      exact .of_files rfl rfl
    · exact evaluate_steady visited
  · cases visited
    exact .refl _

theorem jobStep_steady {camera : String} {work : Work}
    (stepped : c.jobStep codec camera work = .ok (progress, after)) :
    Steady c after := by
  have turned : Steady c (c.turn camera work) := .of_files rfl rfl
  unfold jobStep at stepped
  dsimp only at stepped
  split at stepped
  · cases stepped
    exact turned.trans (finishJob_steady _ _ _)
  · cases stepped
    exact turned.trans (finishJob_steady _ _ _)
  rename_i span highWater _ _
  have watered : Steady c ((c.turn camera work).setWork camera { work with
        lastProcessed := (c.turn camera work).runtime.workClock
        highWater := some highWater }) := .of_files rfl rfl
  split at stepped
  · cases stepped
    exact watered.trans (finishJob_steady _ _ _)
  split at stepped
  · cases stepped
  split at stepped
  · cases stepped
    exact watered.trans (finishJob_steady _ _ _)
  · rcases map_eq_ok stepped with ⟨⟨_, visited⟩, visit, same⟩
    cases same
    exact (watered.trans (jobVisit_steady visit)).trans (.of_files rfl rfl)

theorem eventStep_steady (stepped : c.eventStep codec = .ok (some (progress, after))) :
    Steady c after := by
  unfold eventStep at stepped
  split at stepped
  · cases stepped
  split at stepped
  · rcases map_eq_ok stepped with ⟨_, stepped, same⟩
    cases same
    exact jobStep_steady stepped
  · cases stepped

theorem activate_steady (activated : c.activate codec = .ok after) : Steady c after := by
  unfold activate at activated
  split at activated
  · split at activated
    · cases activated
      exact .of_files rfl rfl
    · cases activated
  · cases activated

theorem settledStep_steady (stepped : c.settledStep codec = .ok (progress, after)) :
    Steady c after := by
  unfold settledStep at stepped
  split at stepped
  · rcases map_eq_ok stepped with ⟨⟨_, evaluated⟩, evaluation, same⟩
    cases same
    exact evaluate_steady evaluation
  · split at stepped
    · cases stepped
    · rename_i stepped_job
      cases stepped
      exact eventStep_steady stepped_job
    · split at stepped
      · cases stepped
        exact .refl _
      split at stepped
      · cases stepped
        exact .refl _
      · rcases map_eq_ok stepped with ⟨activated, activation, same⟩
        cases same
        exact activate_steady activation

theorem sweepStep_steady (stepped : c.sweepStep codec = .ok (progress, after)) :
    Steady c after := by
  unfold sweepStep at stepped
  split at stepped
  · split at stepped
    · cases stepped
    · rename_i stepped_job
      cases stepped
      exact eventStep_steady stepped_job
    · exact backfill_steady stepped
  · exact backfill_steady stepped

theorem step_steady (stepped : c.step codec = .ok (progress, after)) : Steady c after := by
  have reconciled_steady : ∀ {current : Bool} {reconciled : Catalog},
      c.reconcileEvents = .ok (current, reconciled) → Steady c reconciled := by
    intro current reconciled reconciliation
    unfold reconcileEvents at reconciliation
    split at reconciliation
    · rcases map_eq_ok reconciliation with ⟨_, _, same⟩
      cases same
      exact .of_files rfl rfl
    · cases reconciliation
      exact .refl _
  unfold step at stepped
  split at stepped
  · cases stepped
  · rename_i reconciliation
    cases stepped
    exact reconciled_steady reconciliation
  · rename_i reconciliation
    have reconciled := reconciled_steady reconciliation
    split at stepped
    · exact reconciled.trans (settledStep_steady stepped)
    · exact reconciled.trans (sweepStep_steady stepped)

/-! ### Recordings and events -/

theorem fileWritten_steady (c : Catalog) (id : String) : Steady c (c.fileWritten id) := by
  unfold fileWritten
  split
  · exact .refl _
  rename_i file found
  split
  · exact .refl _
  have spanned := recordSpan_steady c id
  split
  · have held : (c.recordSpan id).files[id]? = some file := by
      rw [(recordSpan_files c id).1]
      exact found
    exact spanned.trans (.setFile held (.of_decision rfl rfl (fun finalized => finalized) rfl))
  · exact spanned

theorem insertRecording_steady (c : Catalog) (id : String) (recording : NewRecording) :
    Steady c (c.insertRecording id recording) := by
  unfold insertRecording
  split
  · exact .refl _
  rename_i fresh
  have absent := Std.ExtTreeMap.getElem?_eq_none fun present => fresh (Or.inr present)
  apply Steady.trans _ (fileWritten_steady _ id)
  constructor
  case retirements => rfl
  case kept =>
    intro other file found
    have different : other ≠ id := by
      rintro rfl
      rw [absent] at found
      cases found
    refine ⟨file, ?_, .refl _ _⟩
    unfold setFile
    rw [getElem?_insert_of_ne different]
    exact found
  case fresh =>
    intro other file none_before found
    rcases getElem?_insert_cases found with ⟨rfl, rfl⟩ | ⟨_, kept⟩
    · rfl
    · rw [none_before] at kept
      cases kept

theorem finalizeRecording_steady {endedAtMs : Option Timestamp}
    (finalized : c.finalizeRecording id endedAtMs = .ok after) : Steady c after := by
  unfold finalizeRecording at finalized
  split at finalized
  · cases finalized
  rename_i updated
  cases finalized
  apply Steady.trans _ (fileWritten_steady _ id)
  apply updateFile_steady _ updated
  intro file
  exact .of_decision rfl rfl (fun _ => rfl) rfl

theorem setMark_steady (c : Catalog) (id : String) (mark : Bool) :
    Steady c (c.setMaintained id mark) ∧ Steady c (c.setEvicting id mark) := by
  unfold setMaintained setEvicting
  split
  · exact ⟨.refl _, .refl _⟩
  · rename_i found
    constructor
    all_goals exact .setFile found (.of_decision rfl rfl (fun finalized => finalized) rfl)

theorem enqueueEvent_files (c : Catalog) (e : TimelineEvent) :
    (c.enqueueEvent e).files = c.files ∧ (c.enqueueEvent e).retirements = c.retirements := by
  unfold enqueueEvent
  split
  · exact ⟨rfl, rfl⟩
  · split
    · exact ⟨rfl, rfl⟩
    · split <;> exact ⟨rfl, rfl⟩

theorem writeEvent_steady {e : TimelineEvent} (written : c.writeEvent e = .ok after) :
    Steady c after := by
  unfold writeEvent at written
  split at written
  · cases written
  cases written
  have newer := enqueueEvent_files (c.enqueueVersion c.events.events[e.id]?) e
  have older : (c.enqueueVersion c.events.events[e.id]?).files = c.files ∧
      (c.enqueueVersion c.events.events[e.id]?).retirements = c.retirements := by
    cases c.events.events[e.id]? with
    | none => exact ⟨rfl, rfl⟩
    | some old => exact enqueueEvent_files c old
  exact .of_files (newer.1.trans older.1) (newer.2.trans older.2)

theorem deleteEvent_steady (c : Catalog) (id : String) : Steady c (c.deleteEvent id) := by
  unfold deleteEvent
  split
  · exact .refl _
  · rename_i event _
    have queued := enqueueEvent_files c event
    exact .of_files queued.1 queued.2

theorem request_steady (c : Catalog) (settings : Option Settings) :
    Steady c (c.request settings) := by
  unfold request
  split
  · exact .refl _
  · exact .of_files rfl rfl

/-! ### Transactions -/

/-- The operations that admit, give up or complete an owner of a recording, or hold it. -/
def Op.owns : Op → Bool
  | .claimCleanup .. | .cancelCleanup _ | .completeCleanup .. | .setProtected ..
  | .beginRetirement .. | .completeRetirement .. => true
  | _ => false

inductive Transacted (catalog : Catalog) (now : Timestamp) : Op → Catalog → Prop
  | same {op : Op} : Transacted catalog now op catalog
  | steady {op : Op} {after : Catalog} (other : op.owns = false) (kept : Steady catalog after) :
    Transacted catalog now op after
  | forgotten {id : String} (missing : catalog.files[id]? = none) :
    Transacted catalog now (.cancelCleanup id)
      { catalog with passedOver := catalog.passedOver.erase id }
  | claimed {id : String} {expiry free : Bool} {file : RecordingFile}
    (found : catalog.files[id]? = some file) (deletable : catalog.deletable file expiry now = true)
    (unretired : catalog.retiring id = false) :
    Transacted catalog now (.claimCleanup id expiry free) (catalog.setFile id
      { file with cleanupPending := true, cleanupRetentionExpiry := expiry })
  | cancelled {id : String} {file : RecordingFile} (found : catalog.files[id]? = some file)
    (unretired : catalog.retiring id = false) :
    Transacted catalog now (.cancelCleanup id)
      (setFile { catalog with passedOver := catalog.passedOver.erase id } id
        { file with cleanupPending := false, cleanupRetentionExpiry := false })
  | completed {id : String} {indexDeletable : Bool} {file : RecordingFile}
    (found : catalog.files[id]? = some file) (pending : file.cleanupPending = true) :
    Transacted catalog now (.completeCleanup id indexDeletable) (catalog.eraseFile id)
  | held {id : String} {isProtected imageFree : Bool} {file : RecordingFile}
    (found : catalog.files[id]? = some file) (unretired : catalog.retiring id = false)
    (unclaimed : file.cleanupPending = true → isProtected = file.isProtected) :
    Transacted catalog now (.setProtected id isProtected imageFree) (catalog.setFile id
      { file with isProtected, cleanupPending := !isProtected && file.cleanupPending })
  | retired {id : String} {expiry free : Bool} {file : RecordingFile}
    (found : catalog.files[id]? = some file) (deletable : catalog.deletable file expiry now = true)
    (unclaimed : file.cleanupPending = false) :
    Transacted catalog now (.beginRetirement id expiry free)
      (catalog.setRetirement id false)
  | removed {id : String} {evidence indexDeletable : Bool}
    (retiring : catalog.retiring id = true) :
    Transacted catalog now (.completeRetirement id evidence indexDeletable)
      ((catalog.eraseFile id).setRetirement id true)

theorem claimCleanup_transacted {free : Bool} {now : Timestamp}
    (done : c.claimCleanup id expiry free now = .ok after) :
    Transacted c now (.claimCleanup id expiry free) after := by
  unfold claimCleanup at done
  split at done
  · cases done
  split at done
  · cases done
    exact .same
  rename_i file found
  split at done
  · rename_i admitted
    split at done
    · rcases updateFile_eq_ok done with ⟨missing, rfl⟩ | ⟨held, found_again, unretired, -, rfl⟩
      · exact .same
      · rw [found] at found_again
        cases found_again
        exact .claimed found (Bool.and_eq_true _ _ ▸ admitted).1 unretired
    · cases done
  · cases done
    exact .same

theorem cancelCleanup_transacted (now : Timestamp) (done : c.cancelCleanup id = .ok after) :
    Transacted c now (.cancelCleanup id) after := by
  rcases updateFile_eq_ok done with ⟨missing, rfl⟩ | ⟨file, found, unretired, -, rfl⟩
  · exact .forgotten missing
  · exact .cancelled found unretired

theorem completeCleanup_transacted {indexDeletable : Bool} (now : Timestamp)
    (done : c.completeCleanup id indexDeletable = .ok after) :
    Transacted c now (.completeCleanup id indexDeletable) after := by
  unfold completeCleanup at done
  split at done
  · cases done
    exact .same
  rename_i file found
  split at done
  · cases done
    exact .same
  rename_i pending
  split at done
  · cases done
  split at done
  · cases done
  · cases done
    exact .completed found (by simpa using pending)

theorem setRecordingProtected_transacted {isProtected imageFree : Bool} (now : Timestamp)
    (done : c.setRecordingProtected id isProtected imageFree = .ok after) :
    Transacted c now (.setProtected id isProtected imageFree) after := by
  unfold setRecordingProtected at done
  split at done
  · cases done
    exact .same
  rename_i file found
  split at done
  · cases done
  rename_i unfenced
  split at done
  · cases done
  rcases updateFile_eq_ok done with ⟨missing, rfl⟩ | ⟨held, found_again, unretired, -, rfl⟩
  · exact .same
  rw [found] at found_again
  cases found_again
  apply Transacted.held found unretired
  intro pending
  simpa [pending] using unfenced

theorem beginRetirement_transacted {free : Bool} {now : Timestamp}
    (done : c.beginRetirement id expiry free now = .ok after) :
    Transacted c now (.beginRetirement id expiry free) after := by
  unfold beginRetirement at done
  split at done
  · cases done
  split at done
  · cases done
    exact .same
  rename_i file found
  split at done
  · rename_i admitted
    simp only [Bool.and_eq_true, Bool.not_eq_true'] at admitted
    split at done
    · cases done
      exact .retired found admitted.1.1.1 admitted.1.1.2
    · cases done
  · cases done
    exact .same

theorem completeRetirement_transacted {evidence indexDeletable : Bool} {now : Timestamp}
    (done : c.completeRetirement id evidence indexDeletable now = .ok after) :
    Transacted c now (.completeRetirement id evidence indexDeletable) after := by
  unfold completeRetirement at done
  split at done
  · cases done
  · cases done
    exact .same
  rename_i incomplete
  split at done
  · cases done
  split at done
  · cases done
  split at done
  · cases done
  split at done
  · cases done
  · cases done
    apply Transacted.removed
    simp [Catalog.retiring, incomplete]

theorem transact_eq_ok {now : Timestamp} (done : c.transact codec now op = .ok after) :
    Transacted c now op after := by
  cases op with
  | insertRecording id recording =>
    cases done
    exact .steady rfl (insertRecording_steady c id recording)
  | finalizeRecording id endedAtMs => exact .steady rfl (finalizeRecording_steady done)
  | setMaintained id maintained =>
    cases done
    exact .steady rfl (setMark_steady c id maintained).1
  | setEvicting id evicting =>
    cases done
    exact .steady rfl (setMark_steady c id evicting).2
  | setProtected id isProtected imageFree => exact setRecordingProtected_transacted now done
  | claimCleanup id expiry free => exact claimCleanup_transacted done
  | cancelCleanup id => exact cancelCleanup_transacted now done
  | completeCleanup id indexDeletable => exact completeCleanup_transacted now done
  | beginRetirement id expiry free => exact beginRetirement_transacted done
  | completeRetirement id evidence indexDeletable => exact completeRetirement_transacted done
  | writeEvent event => exact .steady rfl (writeEvent_steady done)
  | deleteEvent id =>
    cases done
    exact .steady rfl (deleteEvent_steady c id)
  | reconcileEvents limit =>
    rcases map_eq_ok done with ⟨_, _, rfl⟩
    exact .steady rfl (.of_files rfl rfl)
  | commitRetention id revision policy =>
    simp only [transact] at done
    split at done
    · exact .steady rfl (commitSnapshot_steady done)
    · cases done
  | request settings =>
    cases done
    exact .steady rfl (request_steady c settings)
  | step =>
    rcases map_eq_ok done with ⟨⟨progress, stepped⟩, step, rfl⟩
    exact .steady rfl (step_steady step)

theorem next_transacted (codec : Codec) (c : Catalog) (input : Timestamp × Op) :
    Transacted c input.1 input.2 (next codec c input) := by
  unfold next
  split
  · rename_i done
    exact transact_eq_ok done
  · exact .same

/-! ### Owners -/

def Owned (id : String) (catalog : Catalog) : Prop :=
  catalog.retiring id = true ∨ ∃ file, catalog.files[id]? = some file ∧ file.cleanupPending = true

/-- The recording is there, with exactly one owner, finalized, not held, and with no
stored deadline after the reading of the clock. -/
def Guarded (id : String) (now : Timestamp) (catalog : Catalog) : Prop :=
  ∃ file, catalog.files[id]? = some file ∧ file.finalized = true ∧ file.isProtected = false ∧
    file.expired now = true ∧ file.cleanupPending = !catalog.retiring id

def Admits (op : Op) (id : String) : Prop :=
  (∃ expiry free, op = .claimCleanup id expiry free) ∨
    ∃ expiry free, op = .beginRetirement id expiry free

def Removes (op : Op) (id : String) : Prop :=
  (∃ indexDeletable, op = .completeCleanup id indexDeletable) ∨
    ∃ evidence indexDeletable, op = .completeRetirement id evidence indexDeletable

structure Untouched (id : String) (before after : Catalog) : Prop where
  files : after.files[id]? = before.files[id]?
  retiring : after.retiring id = before.retiring id

theorem Untouched.setFile (different : id ≠ other) (f : RecordingFile) :
    Untouched id c (c.setFile other f) where
  files := getElem?_insert_of_ne different c.files f
  retiring := rfl

theorem Untouched.eraseFile (different : id ≠ other) :
    Untouched id c (c.eraseFile other) where
  files := getElem?_erase_of_ne different c.files
  retiring := rfl

theorem Untouched.setRetirement (different : id ≠ other) (complete : Bool) :
    Untouched id c (c.setRetirement other complete) where
  files := rfl
  retiring := by
    unfold Catalog.retiring Catalog.setRetirement
    rw [getElem?_insert_of_ne different]

theorem Untouched.trans {first second third : Catalog} (left : Untouched id first second)
    (right : Untouched id second third) : Untouched id first third :=
  ⟨right.files.trans left.files, right.retiring.trans left.retiring⟩

theorem Untouched.owned (untouched : Untouched id before after) (owned : Owned id after) :
    Owned id before := by
  unfold Owned at owned ⊢
  rw [← untouched.files, ← untouched.retiring]
  exact owned

theorem Untouched.guarded {now : Timestamp} (untouched : Untouched id before after)
    (guarded : Guarded id now before) : Guarded id now after := by
  unfold Guarded at guarded ⊢
  rw [untouched.files, untouched.retiring]
  exact guarded

theorem setFile_self (c : Catalog) (id : String) (f : RecordingFile) :
    (c.setFile id f).files[id]? = some f :=
  Std.ExtTreeMap.getElem?_insert_self

theorem eraseFile_self (c : Catalog) (id : String) : (c.eraseFile id).files[id]? = none :=
  Std.ExtTreeMap.getElem?_erase_self

theorem retiring_setRetirement (c : Catalog) (id : String) (complete : Bool) :
    (c.setRetirement id complete).retiring id = !complete := by
  cases complete <;> simp [Catalog.retiring, Catalog.setRetirement]

theorem Steady.owned (steady : Steady before after) (owned : Owned id after) : Owned id before := by
  rcases owned with retiring | ⟨kept, found, pending⟩
  · left
    rw [← steady.retiring]
    exact retiring
  · right
    cases held : before.files[id]? with
    | none =>
      rw [steady.fresh id kept held found] at pending
      cases pending
    | some file =>
      rcases steady.kept id file held with ⟨kept', found', same⟩
      rw [found] at found'
      cases found'
      exact ⟨file, rfl, same.claim ▸ pending⟩

theorem Steady.guarded (steady : Steady before after) {now : Timestamp}
    (guarded : Guarded id now before) : Guarded id now after := by
  rcases guarded with ⟨file, found, finalized, unheld, expired, owner⟩
  rcases steady.kept id file found with ⟨kept, found', same⟩
  have owned : file.cleanupPending = true ∨ before.retiring id = true := by
    rw [owner]
    cases before.retiring id <;> simp
  refine ⟨kept, found', same.finalized finalized, same.hold.trans unheld, ?_, ?_⟩
  · unfold RecordingFile.expired
    rw [same.owned owned]
    exact expired
  · rw [same.claim, steady.retiring]
    exact owner

theorem deletable_guards {now : Timestamp} (deletable : c.deletable file expiry now = true) :
    file.finalized = true ∧ file.isProtected = false ∧ file.expired now = true := by
  simp only [Catalog.deletable, Bool.and_eq_true, Bool.not_eq_true'] at deletable
  rcases deletable with ⟨⟨⟨⟨⟨⟨finalized, unheld⟩, -⟩, -⟩, -⟩, expired⟩, -⟩
  exact ⟨finalized, unheld, expired⟩

inductive Touched (id : String) (catalog : Catalog) (now : Timestamp) (op : Op) (after : Catalog) :
    Prop
  | untouched (same : Untouched id catalog after)
  | steady (kept : Steady catalog after)
  | admitted {file row : RecordingFile} (admits : Admits op id)
    (found : catalog.files[id]? = some file) (written : after.files[id]? = some row)
    (deadline : row.deadline = file.deadline) (finalized : row.finalized = true)
    (unheld : row.isProtected = false) (expired : file.expired now = true)
    (owner : row.cleanupPending = !after.retiring id)
  /-- A claim that outlives a hold was there before it. -/
  | rewritten {file row : RecordingFile} (found : catalog.files[id]? = some file)
    (written : after.files[id]? = some row) (deadline : row.deadline = file.deadline)
    (unretired : after.retiring id = false)
    (claimed : row.cleanupPending = true →
      file.cleanupPending = true ∧ row.finalized = file.finalized ∧ row.isProtected = false)
  /-- A retirement that outlives the row was not its only owner. -/
  | removed (removes : Removes op id) (owned : Owned id catalog) (gone : after.files[id]? = none)
    (both : after.retiring id = true →
      ∃ file, catalog.files[id]? = some file ∧ file.cleanupPending = catalog.retiring id)

section

variable {now : Timestamp} (done : Transacted c now op after)
include done

theorem Transacted.touched (id : String) : Touched id c now op after := by
  cases done with
  | same => exact .untouched ⟨rfl, rfl⟩
  | steady _ kept => exact .steady kept
  | forgotten missing => exact .untouched ⟨rfl, rfl⟩
  | @claimed target expiry free file found deletable unretired =>
    by_cases same : id = target
    · subst same
      rcases deletable_guards deletable with ⟨finalized, unheld, expired⟩
      exact .admitted (Or.inl ⟨expiry, free, rfl⟩) found (setFile_self _ _ _) rfl finalized unheld
        expired (congrArg not unretired).symm
    · exact .untouched (.setFile same _)
  | @cancelled target file found unretired =>
    by_cases same : id = target
    · subst same
      refine .rewritten found (setFile_self _ _ _) rfl unretired ?_
      intro pending
      cases pending
    · exact .untouched ⟨(Untouched.setFile same _).files, rfl⟩
  | @completed target indexDeletable file found pending =>
    by_cases same : id = target
    · subst same
      refine .removed (Or.inl ⟨indexDeletable, rfl⟩) (Or.inr ⟨file, found, pending⟩)
        (eraseFile_self _ _) ?_
      intro retiring
      exact ⟨file, found, pending.trans retiring.symm⟩
    · exact .untouched (.eraseFile same)
  | @held target isProtected _ file found unretired _ =>
    by_cases same : id = target
    · subst same
      refine .rewritten found (setFile_self _ _ _) rfl unretired ?_
      intro pending
      simp only [Bool.and_eq_true, Bool.not_eq_true'] at pending
      exact ⟨pending.2, rfl, pending.1⟩
    · exact .untouched (.setFile same _)
  | @retired target expiry free file found deletable unclaimed =>
    by_cases same : id = target
    · subst same
      rcases deletable_guards deletable with ⟨finalized, unheld, expired⟩
      refine .admitted (Or.inr ⟨expiry, free, rfl⟩) found found rfl finalized unheld expired ?_
      rw [retiring_setRetirement]
      exact unclaimed
    · exact .untouched (.setRetirement same _)
  | @removed target evidence indexDeletable retiring =>
    by_cases same : id = target
    · subst same
      refine .removed (Or.inr ⟨evidence, indexDeletable, rfl⟩) (Or.inl retiring)
        (eraseFile_self c id) ?_
      intro still
      rw [retiring_setRetirement] at still
      cases still
    · exact .untouched ((Untouched.eraseFile same).trans (.setRetirement same _))

/-- An owner comes with an admission, which checked the recording. -/
theorem Transacted.taken (unowned : ¬Owned id c) (owned : Owned id after) :
    Admits op id ∧ Guarded id now after := by
  cases done.touched id with
  | untouched same => exact absurd (same.owned owned) unowned
  | steady kept => exact absurd (kept.owned owned) unowned
  | admitted admits found written deadline finalized unheld expired owner =>
    refine ⟨admits, _, written, finalized, unheld, ?_, owner⟩
    unfold RecordingFile.expired
    rw [deadline]
    exact expired
  | rewritten found written _ unretired claimed =>
    rcases owned with retiring | ⟨kept, found', pending⟩
    · exact absurd (retiring.symm.trans unretired) (by decide)
    · cases written.symm.trans found'
      exact absurd (Or.inr ⟨_, found, (claimed pending).1⟩) unowned
  | removed _ before _ _ => exact absurd before unowned

/-- While the recording keeps its owner, what was checked stays so. -/
theorem Transacted.kept {admitted : Timestamp} (guarded : Guarded id admitted c)
    (owned : Owned id after) : Guarded id admitted after := by
  cases done.touched id with
  | untouched same => exact same.guarded guarded
  | steady kept => exact kept.guarded guarded
  | admitted _ found written deadline finalized unheld _ owner =>
    rcases guarded with ⟨held, found', -, -, expired, -⟩
    cases found.symm.trans found'
    refine ⟨_, written, finalized, unheld, ?_, owner⟩
    unfold RecordingFile.expired
    rw [deadline]
    exact expired
  | rewritten found written deadline unretired claimed =>
    rcases guarded with ⟨held, found', finalized, -, expired, -⟩
    cases found.symm.trans found'
    rcases owned with retiring | ⟨kept, found', pending⟩
    · exact absurd (retiring.symm.trans unretired) (by decide)
    cases written.symm.trans found'
    rcases claimed pending with ⟨-, same, unheld⟩
    refine ⟨_, written, same.trans finalized, unheld, ?_, ?_⟩
    · unfold RecordingFile.expired
      rw [deadline]
      exact expired
    · rw [pending, unretired]
      rfl
  | removed _ _ gone both =>
    rcases owned with retiring | ⟨kept, found', -⟩
    · rcases both retiring with ⟨file, found, equal⟩
      rcases guarded with ⟨held, found', -, -, -, owner⟩
      cases found.symm.trans found'
      rw [equal] at owner
      exact absurd owner (by simp)
    · cases gone.symm.trans found'

theorem Transacted.gone (found : c.files[id]? = some file) (gone : after.files[id]? = none) :
    Removes op id ∧ Owned id c := by
  cases done.touched id with
  | untouched same => cases found.symm.trans (same.files.symm.trans gone)
  | steady kept =>
    rcases kept.kept id file found with ⟨_, still, -⟩
    cases gone.symm.trans still
  | admitted _ _ written => cases gone.symm.trans written
  | rewritten _ written => cases gone.symm.trans written
  | removed removes owned _ _ => exact ⟨removes, owned⟩

theorem Transacted.postponed {before : RecordingFile} (found : c.files[id]? = some before)
    (found' : after.files[id]? = some file) : Postponed before.deadline file.deadline := by
  have equal : ∀ {row : RecordingFile}, c.files[id]? = some row →
      file.deadline = row.deadline → Postponed before.deadline file.deadline := by
    intro row held same
    cases found.symm.trans held
    rw [same]
    exact .refl _
  cases done.touched id with
  | untouched same => exact equal (same.files.symm.trans found') rfl
  | steady kept =>
    rcases kept.kept id before found with ⟨kept, still, same⟩
    cases found'.symm.trans still
    exact same.postponed
  | admitted _ held written deadline =>
    cases written.symm.trans found'
    exact equal held deadline
  | rewritten held written deadline =>
    cases written.symm.trans found'
    exact equal held deadline
  | removed _ _ gone => cases gone.symm.trans found'

end

/-! ### Histories -/

/-- An owner of a recording was admitted by one transaction of the history, and the
recording was guarded at every moment since. -/
theorem owned_since_admission (codec : Codec) (history : List (Timestamp × Op)) (id : String)
    (owned : Owned id (run codec history)) :
    ∃ earlier admission later, history = earlier ++ admission :: later ∧ Admits admission.2 id ∧
      ∀ since, since <+: later →
        Guarded id admission.1 (run codec (earlier ++ admission :: since)) := by
  have taken : ∀ c input, ¬Owned id c → Owned id (next codec c input) →
      ∃ now, (Admits input.2 id ∧ now = input.1) ∧ Guarded id now (next codec c input) := by
    intro c input unowned owned
    rcases (next_transacted codec c input).taken unowned owned with ⟨admits, guarded⟩
    exact ⟨input.1, ⟨admits, rfl⟩, guarded⟩
  have kept : ∀ now c input, Guarded id now c → Owned id (next codec c input) →
      Guarded id now (next codec c input) := by
    intro now c input guarded owned
    exact (next_transacted codec c input).kept guarded owned
  have initial : ¬Owned id Catalog.empty := by
    rintro (retiring | ⟨file, found, -⟩)
    · simp [Catalog.retiring, Catalog.empty] at retiring
    · simp [Catalog.empty] at found
  rcases exists_taken taken kept initial history owned with
    ⟨earlier, admission, later, now, split, ⟨admits, rfl⟩, since⟩
  exact ⟨earlier, admission, later, split, admits, since⟩

/-- In every history, no transaction shortens the deadline of a recording that stays; and
one that removes a recording completes a claim or a retirement which was admitted while
the recording was finalized, not held and without a deadline after the clock, and since
then the recording has stayed finalized and not held, with no deadline after that reading
of the clock. -/
theorem committed_retention_blocks_deletion (codec : Codec) (history : List (Timestamp × Op))
    (input : Timestamp × Op) (id : String) (file : RecordingFile)
    (found : (run codec history).files[id]? = some file) :
    (∀ after, (next codec (run codec history) input).files[id]? = some after →
      Postponed file.deadline after.deadline) ∧
    ((next codec (run codec history) input).files[id]? = none → Removes input.2 id ∧
      ∃ earlier admission later, history = earlier ++ admission :: later ∧ Admits admission.2 id ∧
        ∀ since, since <+: later →
          Guarded id admission.1 (run codec (earlier ++ admission :: since))) := by
  have done := next_transacted codec (run codec history) input
  constructor
  · intro after kept
    exact done.postponed found kept
  · intro gone
    rcases done.gone found gone with ⟨removes, owned⟩
    exact ⟨removes, owned_since_admission codec history id owned⟩

/-! A recording of one second with a deadline one second after its end. -/

def plainCodec : Codec := ⟨fun _ => "", fun _ => true, fun _ => true⟩

def instant (ms : Nat) : Timestamp :=
  ⟨(ms % 1000000 : Nat), by omega, by omega⟩

def keepSecond : Policy where
  rules := [⟨"continuous", 1000, .continuous⟩]
  bounded := by decide
  unique := by decide

def claimedHistory : List (Timestamp × Op) :=
  [(instant 1000, .insertRecording "clip"
      ⟨some "camera", some "main", instant 0, some (instant 1000), true⟩),
    (instant 1000, .commitRetention "clip" 1 keepSecond),
    (instant 2000, .claimCleanup "clip" false true)]

theorem committed_retention_blocks_deletion_claimed :
    ∃ file, (run plainCodec claimedHistory).files["clip"]? = some file ∧
      file.deadline = some (instant 2000) ∧
      (next plainCodec (run plainCodec claimedHistory)
        (instant 2001, .completeCleanup "clip" true)).files["clip"]? = none ∧
      ∃ earlier admission later, claimedHistory = earlier ++ admission :: later ∧
        Admits admission.2 "clip" ∧
        ∀ since, since <+: later →
          Guarded "clip" admission.1 (run plainCodec (earlier ++ admission :: since)) := by
  have stored : (run plainCodec claimedHistory).files["clip"]?.map RecordingFile.deadline =
      some (some (instant 2000)) := by decide +kernel
  have gone : (next plainCodec (run plainCodec claimedHistory)
      (instant 2001, .completeCleanup "clip" true)).files["clip"]? = none := by decide +kernel
  rcases Option.map_eq_some_iff.mp stored with ⟨file, found, deadline⟩
  have history := (committed_retention_blocks_deletion plainCodec claimedHistory
    (instant 2001, .completeCleanup "clip" true) "clip" file found).2 gone
  exact ⟨file, found, deadline, gone, history.2⟩

/-- The clock is read when the claim is admitted, not when it is completed: set back in
between, it stands before the deadline as the row goes. -/
theorem completed_claim_reads_no_clock :
    (run plainCodec claimedHistory).files["clip"]?.map RecordingFile.deadline =
        some (some (instant 2000)) ∧
      instant 1500 < instant 2000 ∧
      (next plainCodec (run plainCodec claimedHistory)
        (instant 1500, .completeCleanup "clip" true)).files["clip"]? = none := by
  decide +kernel

end Catalog

end KeepPeek.Retention
