import KeepPeek.Lib.Except
import KeepPeek.Volumes.Moves

/-! What every request of the ledger checks and writes when it commits. -/
namespace KeepPeek.Volumes.Ledger

open Lib

variable {l after : Ledger} {op : String} {answers : Answers}

theorem bumpRevision_eq_some (h : l.bumpRevision = some after) :
    after = l.setRevision (l.revision + 1) := by
  unfold bumpRevision at h
  split at h
  · cases h
    rfl
  · cases h

theorem reserve_eq_some {allocation : Allocation} (h : l.reserve allocation answers = some after) :
    answers.permitted = true ∧
      ((after = l ∧ ∃ row, l.allocations[allocation.operation]? = some row ∧
        sameIntent row allocation = true ∧ row.state = .reserved) ∨
      l.allocations[allocation.operation]? = none ∧ ∃ path,
        l.admission allocation true answers.archived = some path ∧
        (l.insertRow allocation.operation (reservedRow allocation path) >>= bumpRevision) =
          some after) := by
  unfold reserve at h
  split at h
  next permitted =>
    refine ⟨permitted, ?_⟩
    split at h
    next row hrow =>
      split at h
      next same =>
        cases h
        simp only [Bool.and_eq_true, decide_eq_true_eq] at same
        exact Or.inl ⟨rfl, row, hrow, same⟩
      next => cases h
    next fresh =>
      split at h
      · obtain ⟨path, hpath, hinsert⟩ := Option.bind_eq_some_iff.mp h
        exact Or.inr ⟨fresh, path, hpath, hinsert⟩
      · cases h
  next => cases h

theorem grow_eq_some {growth : Growth} (h : l.grow growth answers = some after) :
    ∃ row, l.allocations[growth.operation]? = some row ∧ answers.permitted = true ∧
      l.moveWritable growth.operation = true ∧ row.state = .reserved ∧
      ((after = l ∧ growth.bytes ≤ row.bytes) ∨ row.bytes < growth.bytes ∧ ∃ path,
        l.admission (growthAllocation growth row) false answers.archived = some path ∧
        (l.updateRow growth.operation row (withBytes row growth.bytes) >>= bumpRevision) =
          some after) := by
  unfold grow at h
  split at h
  · cases h
  next row hrow =>
    split at h
    next accepted =>
      simp only [Bool.and_eq_true, decide_eq_true_eq] at accepted
      refine ⟨row, hrow, accepted.1, accepted.2.1, accepted.2.2, ?_⟩
      split at h
      next small =>
        cases h
        exact Or.inl ⟨rfl, small⟩
      next larger =>
        split at h
        · obtain ⟨path, hpath, hupdate⟩ := Option.bind_eq_some_iff.mp h
          exact Or.inr ⟨Nat.lt_of_not_le larger, path, hpath, hupdate⟩
        · cases h
    next => cases h

theorem checkpoint_eq_some {request : Materialization}
    (h : l.checkpoint request answers = some after) :
    ∃ row, l.allocations[request.operation]? = some row ∧ answers.permitted = true ∧
      l.moveWritable request.operation = true ∧ row.state = .reserved ∧
      request.bytes ≤ row.bytes ∧
      ((after = l ∧ row.materializedBytes = request.bytes ∧
          row.fileIdentity = some request.fileIdentity) ∨
        (l.updateRow request.operation row (materialized row request.bytes request.fileIdentity) >>=
          bumpRevision) = some after) := by
  unfold checkpoint at h
  split at h
  · cases h
  next row hrow =>
    split at h
    next accepted =>
      simp only [Bool.and_eq_true, decide_eq_true_eq] at accepted
      obtain ⟨permitted, writable, reserved, _, fits, identity⟩ := accepted
      refine ⟨row, hrow, permitted, writable, reserved, fits, ?_⟩
      split at h
      · exact Or.inr h
      next same =>
        cases h
        simp only [ne_eq, not_or, not_not] at same
        obtain ⟨recorded, hrecorded⟩ := Option.ne_none_iff_exists'.mp same.2
        rw [identityAgrees, hrecorded, Option.all_some, decide_eq_true_eq] at identity
        rw [hrecorded, identity]
        exact Or.inl ⟨rfl, same.1, rfl⟩
    next => cases h

theorem publish_eq_some {pub : Publication} (h : l.publish pub answers = some after) :
    answers.permitted = true ∧ l.journaled pub.operation = false ∧ ∃ row,
      l.allocations[pub.operation]? = some row ∧
      ((after = l ∧ row.state = .published ∧ row.bytes = pub.bytes ∧
        row.fileIdentity = some pub.fileIdentity ∧ row.digest = some pub.digest) ∨
      row.state = .reserved ∧
        (l.updateRow pub.operation row (publishedRow row pub) >>= bumpRevision) = some after) := by
  unfold publish at h
  split at h
  next accepted =>
    simp only [Bool.and_eq_true, Bool.not_eq_true'] at accepted
    refine ⟨accepted.1, accepted.2, ?_⟩
    split at h
    · cases h
    next row hrow =>
      refine ⟨row, hrow, ?_⟩
      split at h
      next published =>
        split at h
        next same =>
          cases h
          exact Or.inl ⟨rfl, published, same⟩
        next => cases h
      next reserved =>
        split at h
        · exact Or.inr ⟨reserved, h⟩
        · cases h
      · cases h
  next => cases h

theorem finalize_eq_some {pub : Publication} (h : l.finalize pub answers = some after) :
    ∃ row recording, l.allocations[pub.operation]? = some row ∧ row.object.kind = .recording ∧
      l.recordingAt row = some recording ∧
      ((row.state = .published ∧ recording.finalized = true ∧ l.publish pub answers = some after) ∨
      row.state = .reserved ∧
        (l.setRecordings (l.recordings.insert row.object.id (finalizedFile recording pub))).publish
          pub answers = some after) := by
  unfold finalize at h
  split at h
  · cases h
  next row hrow =>
    split at h
    next kind =>
      split at h
      · cases h
      next recording hrecording =>
        refine ⟨row, recording, hrow, kind, hrecording, ?_⟩
        split at h
        next published =>
          split at h
          next finalized => exact Or.inl ⟨published, finalized, h⟩
          next => cases h
        next =>
          split at h
          next active => exact Or.inr ⟨active.1, h⟩
          next => cases h
    next => cases h

theorem setDraining_eq_some {volume : String} {generation : Nat} {draining : Bool}
    (h : l.setDraining volume generation draining = some after) :
    after = l ∨ ∃ binding, l.bindings[volume]? = some binding ∧
      (l.setBindings (l.bindings.insert volume (drained binding draining))).bumpRevision =
        some after := by
  unfold setDraining at h
  split at h
  · cases h
  next binding hbinding =>
    split at h
    · split at h
      · cases h
        exact Or.inl rfl
      · exact Or.inr ⟨binding, hbinding, h⟩
    · cases h

/-! The journal. -/

variable {job : Job}

theorem transition_eq_some {first last : Phase} (h : l.transition job first last = some after) :
    (after = l ∧ job.move.phase = last) ∨ job.move.phase = first ∧
      (l.setMove job.id (withPhase job.move last)).bumpRevision = some after := by
  unfold transition at h
  split at h
  next done =>
    cases h
    exact Or.inl ⟨rfl, done⟩
  next =>
    split at h
    next before => exact Or.inr ⟨before, h⟩
    next => cases h

/-- What a step of the journal writes. -/
inductive Course (ledger : Ledger) (job : Job) : Ledger → Prop
  | same : Course ledger job ledger
  | noted {move : Move} {after : Ledger}
      (bump : (ledger.setMove job.id move).bumpRevision = some after)
      (object : move.object = job.move.object)
      (source : move.sourceOperation = job.move.sourceOperation)
      (destination : move.destinationOperation = job.move.destinationOperation)
      (revision : move.sourceRevision = job.move.sourceRevision)
      (phase : move.phase = job.move.phase) : Course ledger job after
  | passed {first last : Phase} {after : Ledger}
      (step : ledger.transition job first last = some after)
      (between : first.early = true ∧ last.superseded = false ∨ first = .published ∧
        last = .retiring) :
      Course ledger job after
  | rewritten {row : Row} {first last : Phase} {after : Ledger}
      (step : (ledger.updateRow job.move.destinationOperation job.destination row >>=
        fun updated => updated.transition job first last) = some after)
      (early : first.early = true) (current : last.superseded = false)
      (reserved : job.destination.state = .reserved) (volume : row.volume = job.destination.volume)
      (unpublished : row.state ≠ .published) : Course ledger job after
  | retired {after : Ledger}
      (step : (ledger.updateRow job.move.sourceOperation job.sourceRow
        (withState job.sourceRow .cancelled) >>= fun updated =>
          updated.transition job .retiring .complete) = some after)
      (phase : job.move.phase = .retiring) : Course ledger job after
  | published {after : Ledger} (step : ledger.publishMove job = some after) :
      Course ledger job after

theorem verify_course {evidence : Publication} (h : l.verify job evidence = some after) :
    Course l job after := by
  unfold verify at h
  split at h
  next checks =>
    have reserved := checks.2.2.1
    split at h
    · split at h
      · cases h
        exact .same
      · cases h
    · split at h
      · refine .rewritten h rfl rfl reserved rfl ?_
        show job.destination.state ≠ .published
        rw [reserved]
        decide
      · cases h
  next => cases h

theorem retire_course {evidence : Publication} (h : l.retire job evidence = some after) :
    Course l job after := by
  unfold retire at h
  split at h
  · split at h
    · cases h
      exact .same
    split at h
    next ready => exact .retired h ready.1
    next => cases h
  · cases h

theorem completeCancellation_course (h : l.completeCancellation job = some after) :
    Course l job after := by
  unfold completeCancellation at h
  split at h
  · split at h
    · cases h
      exact .same
    split at h
    next ready => exact .rewritten h ready.1 rfl ready.2.2 rfl (nofun)
    next => cases h
  · cases h

theorem acknowledge_course (h : l.acknowledge job = some after) : Course l job after := by
  unfold acknowledge at h
  split at h
  · split at h
    · cases h
      exact .same
    · exact .noted h rfl rfl rfl rfl rfl
  · cases h

theorem cancel_course (h : l.cancel job = some after) : Course l job after := by
  unfold cancel at h
  split at h
  · split at h
    · cases h
      exact .same
    · exact .noted h rfl rfl rfl rfl rfl
  · cases h

theorem verifyCancellation_course {evidence : Cancellation}
    (h : l.verifyCancellation job evidence = some after) : Course l job after := by
  unfold verifyCancellation at h
  split at h
  · split at h
    · split at h
      · cases h
        exact .same
      · cases h
    · split at h
      · exact .noted h rfl rfl rfl rfl rfl
      · cases h
  · cases h

theorem advanceJob_course {step : Step} (h : l.advanceJob job step = some after) :
    Course l job after := by
  cases step with
  | verified evidence => exact verify_course h
  | filePublished id => exact .passed h (Or.inl ⟨rfl, rfl⟩)
  | publish id => exact .published h
  | cancel id => exact cancel_course h
  | retiring id =>
    simp only [advanceJob] at h
    split at h
    · exact .passed h (Or.inr ⟨rfl, rfl⟩)
    · cases h
  | retired evidence => exact retire_course h
  | acknowledged id => exact acknowledge_course h
  | cancellationVerified id evidence => exact verifyCancellation_course h
  | cancelled id => exact completeCancellation_course h

theorem advance_eq_some {step : Step} (h : l.advance step answers = some after) :
    ∃ job, l.load step.id = some job ∧ answers.permitted = true ∧
      (job.move.cancellationRequested = false ∨ step.cancelling = true) ∧
      l.advanceJob job step = some after := by
  unfold advance at h
  split at h
  · cases h
  next job hjob =>
    split at h
    next accepted =>
      simp only [Bool.and_eq_true, Bool.or_eq_true, Bool.not_eq_true'] at accepted
      exact ⟨job, hjob, accepted.1, accepted.2, h⟩
    next => cases h

theorem load_eq_some {id : String} (h : l.load id = some job) :
    job.id = id ∧ l.moves[id]? = some job.move ∧ l.allocations[job.move.sourceOperation]? =
      some job.sourceRow ∧ l.allocations[job.move.destinationOperation]? = some job.destination ∧
      job.sourceRow.location job.move.object job.move.sourceRevision = some job.source := by
  unfold load at h
  simp only [Option.bind_eq_bind, Option.bind_eq_some_iff] at h
  rcases h with ⟨move, hmove, row, hrow, destination, hdestination, source, hsource, hjob⟩
  cases hjob
  exact ⟨rfl, hmove, hrow, hdestination, hsource⟩

theorem insertMove_eq_some {id : String} {m : Move} (h : l.insertMove id m = some after) :
    after = l.setMove id m ∧ l.moves[id]? = none ∧ ∀ (other : String) found, l.moves[other]? =
      some found → found.destinationOperation ≠ m.destinationOperation ∧
      (found.phase.finished = true ∨ found.object ≠ m.object) := by
  unfold insertMove at h
  split at h
  next accepted =>
    cases h
    simp only [Bool.and_eq_true, Option.isNone_iff_eq_none, List.all_eq_true, Bool.or_eq_true,
      decide_eq_true_eq] at accepted
    refine ⟨rfl, accepted.1, ?_⟩
    intro other found hfound
    exact accepted.2 (other, found) (Std.ExtTreeMap.mem_toList_iff_getElem?_eq_some.mpr hfound)
  next => cases h

theorem beginMove_eq_some {intent : Intent} (h : l.beginMove intent answers = some after) :
    after = l ∨ ∃ source row reserved journaled, l.recordingActive intent.object = true ∧
      l.lookupRow intent.object = some (source, row) ∧
      l.allocations[intent.destination.operation]? = none ∧
      l.forgetReceipts.reserve intent.destination answers = some reserved ∧
      reserved.insertMove intent.id (reserved.newMove intent source row) = some journaled ∧
      journaled.bumpRevision = some after := by
  unfold beginMove at h
  split at h
  next accepted =>
    split at h
    · split at h
      · cases h
        exact Or.inl rfl
      · cases h
    · split at h
      · cases h
      next source row hlookup =>
        split at h
        next sound =>
          simp only [Bool.and_eq_true, Option.isNone_iff_eq_none] at sound accepted
          rw [guard_bind_eq_some] at h
          simp only [Option.bind_eq_bind, Option.bind_eq_some_iff] at h
          rcases h with ⟨_, reserved, hreserved, journaled, hjournaled, hbump⟩
          exact Or.inr ⟨source, row, reserved, journaled, accepted.2.2, hlookup, sound.2.2,
            hreserved,
            hjournaled, hbump⟩
        next => cases h
  next => cases h

theorem moveRecording_eq_some {object : Object} {row : Row}
    (h : l.moveRecording object row = some after) :
    ∃ recordings, after = l.setRecordings recordings := by
  unfold moveRecording at h
  split at h
  · split at h
    · split at h
      · cases h
        exact ⟨_, rfl⟩
      · cases h
    · cases h
  · cases h
    exact ⟨l.recordings, rfl⟩

theorem publishMove_eq_some (h : l.publishMove job = some after) :
    after = l ∨ ∃ renamed recordings moved, job.move.phase = .filePublished ∧
      l.lookup job.move.object = some job.source ∧ job.destination.state = .reserved ∧
      job.destination.fileIdentity.isSome = true ∧ job.destination.digest = some job.source.digest ∧
      l.updateRow job.move.sourceOperation job.sourceRow (retiredRow job.sourceRow job.id) =
        some renamed ∧
      (renamed.setRecordings recordings).updateRow job.move.destinationOperation
        job.destination (movedRow job.destination job) = some moved ∧
      moved.transition job .filePublished .published = some after := by
  unfold publishMove at h
  split at h
  · cases h
    exact Or.inl rfl
  split at h
  next checks =>
    rcases checks with ⟨hphase, hlookup, _, hstate, hidentity, hdigest⟩
    simp only [Option.bind_eq_bind, Option.bind_eq_some_iff] at h
    rcases h with ⟨renamed, hrenamed, recorded, hrecorded, moved, hmoved, htransition⟩
    rcases moveRecording_eq_some hrecorded with ⟨recordings, rfl⟩
    exact Or.inr ⟨renamed, recordings, moved, hphase, hlookup, hstate, hidentity, hdigest, hrenamed,
      hmoved, htransition⟩
  next => cases h

/-! Retirements. -/

theorem beginRetirement_eq_some (h : l.beginRetirement op answers = some after) :
    ∃ row, l.allocations[op]? = some row ∧ row.object.kind = .recording ∧
      row.state = .published ∧ l.recordingActive row.object = true ∧ l.unmoved row.object = true ∧
      (l.setRetirements (l.retirements.insert op
        ⟨row.object.id, row.volume, false, false⟩)).bumpRevision = some after := by
  unfold beginRetirement at h
  split at h
  · cases h
  next row hrow =>
    split at h
    next accepted =>
      simp only [Bool.and_eq_true, decide_eq_true_eq] at accepted
      exact ⟨row, hrow, accepted.2.1, accepted.2.2.1, accepted.2.2.2.2.2.1,
        accepted.2.2.2.2.2.2.1, h⟩
    next => cases h

theorem completeRetirement_eq_some {evidence : Publication}
    (h : l.completeRetirement evidence answers = some after) :
    after = l ∨ ∃ retirement row updated, l.retirements[evidence.operation]? = some retirement ∧
      retirement.complete = false ∧ l.allocations[evidence.operation]? = some row ∧
      l.updateRow evidence.operation row (withState row .cancelled) = some updated ∧
      ((updated.setRecordings (updated.recordings.erase retirement.recordingId)).setRetirements
        (updated.retirements.insert evidence.operation
          (completedRetirement retirement))).bumpRevision = some after := by
  unfold completeRetirement at h
  split at h
  next retirement row hretirement hrow =>
    split at h
    · split at h
      · cases h
        exact Or.inl rfl
      next incomplete =>
        simp only [Option.bind_eq_bind, Option.bind_eq_some_iff] at h
        rcases h with ⟨updated, hupdated, hbump⟩
        exact Or.inr ⟨retirement, row, updated, hretirement, eq_false_of_ne_true incomplete, hrow,
          hupdated, hbump⟩
    · cases h
  next => cases h

theorem acknowledgeRetirement_eq_some (h : l.acknowledgeRetirement op = some after) :
    ∃ retirement, l.retirements[op]? = some retirement ∧ retirement.complete = true ∧ after =
      l.setRetirements (l.retirements.insert op (acknowledgedRetirement retirement)) := by
  unfold acknowledgeRetirement at h
  split at h
  next retirement hretirement =>
    split at h
    next complete =>
      cases h
      exact ⟨retirement, hretirement, complete, rfl⟩
    next => cases h
  next => cases h

theorem release_eq_some (h : l.release op answers = some after) :
    ∃ row updated, l.allocations[op]? = some row ∧ l.unmoved row.object = true ∧
      l.updateRow op row (withState row .cancelled) = some updated ∧
      updated.bumpRevision = some after := by
  unfold release at h
  split at h
  · cases h
  next row hrow =>
    split at h
    next accepted =>
      rw [Bool.and_eq_true] at accepted
      simp only [Option.bind_eq_bind, Option.bind_eq_some_iff] at h
      rcases h with ⟨updated, hupdated, hbump⟩
      exact ⟨row, updated, hrow, accepted.2, hupdated, hbump⟩
    next => cases h

end KeepPeek.Volumes.Ledger
