import KeepPeek.Retention.Evidence

/-! The steps of the retention runtime keep the accounts of `Sound`, and a step that
reports nothing pending finds every account settled.

The sweep and the jobs each move a cursor. Both arguments are the same: the visited
recording is the first one ahead, so the others stay ahead, and the visit itself
answers, marks or passes over. -/
namespace KeepPeek.Retention

open Lib
open Std (ExtTreeMap)
open EventCatalog

namespace Catalog

variable {c after : Catalog} {id camera : String} {file : RecordingFile} {codec : Codec}
  {progress : Progress} {work : Work} {longest : Int}

/-! ### Evaluation -/

theorem Rewrites.found (found : c.files[id]? = some file) :
    Rewrites id file c c where
  self := found
  others := fun _ _ => rfl
  grown := .refl _
  events := rfl
  queues := ⟨rfl, rfl, rfl, rfl, rfl, rfl⟩

theorem finishFile_rewrites {base : Catalog} (rewrites : Rewrites id file c base)
    {attention : Attention} (finished : base.finishFile id attention = .ok after) :
    Rewrites id { file with
        retentionPending := attention
        retentionGeneration := c.runtime.generation } c after := by
  rcases updateFile_eq_ok finished with ⟨missing, -⟩ | ⟨row, found, -, -, rfl⟩
  · rw [rewrites.self] at missing
    cases missing
  rw [rewrites.self] at found
  cases found
  rw [← rewrites.queues.runtime]
  exact rewrites.again (.setFile base id _)

theorem span_isSome {sn : Snapshot} (snapped : file.snapshot = .ok sn)
    (short : ¬2 ^ 63 ≤ sn.interval.endMs.val - sn.interval.startMs.val) :
    file.span.isSome = true := by
  rcases RecordingFile.snapshot_eq_ok snapped with ⟨-, starts, ends⟩
  unfold RecordingFile.span
  rw [ends]
  dsimp only
  rw [starts, if_pos ⟨sn.interval.nonempty, by omega⟩]
  rfl

/-- A failed commit leaves the decision; one that succeeds meets the demand. -/
theorem commitFile_rewrites {committed : Catalog} (sound : Sound c)
    (found : c.files[id]? = some file) {p : Policy} {done : Bool}
    (commit : c.commitFile codec id file p = (done, committed)) :
    ∃ decision, Rewrites id { file with decision } c committed ∧
      (done = true → file.span.isSome = true ∧ ∃ stored, decision = some stored ∧
        ∀ deadline, file.demanded p c.events = .ok deadline →
          Postponed deadline stored.deadlineMs) := by
  have unchanged : ∀ {base : Catalog}, Rewrites id file c base → done = false →
      ∃ decision, Rewrites id { file with decision } c base ∧
        (done = true → file.span.isSome = true ∧ ∃ stored, decision = some stored ∧
          ∀ deadline, file.demanded p c.events = .ok deadline →
            Postponed deadline stored.deadlineMs) := by
    intro base rewrites failed
    refine ⟨file.decision, rewrites, ?_⟩
    intro succeeded
    rw [failed] at succeeded
    cases succeeded
  have here := Rewrites.found found
  unfold commitFile at commit
  split at commit
  · cases commit
    exact unchanged here rfl
  rename_i snapshot taken
  split at commit
  · cases commit
    exact unchanged here rfl
  rename_i short
  split at commit
  · cases commit
    exact unchanged here.recordSpan rfl
  rename_i written commits
  cases commit
  rcases commitSnapshot_eq_ok commits with
    ⟨row, snapped, events, decision, held, -, -, snapped_eq, gathered, resolved, rfl⟩
  rw [here.recordSpan.self] at held
  cases held
  have same : snapped = snapshot := by
    unfold recordingSnapshot at taken
    rw [found] at taken
    dsimp only at taken
    split at taken
    · rw [taken] at snapped_eq
      cases snapped_eq
      rfl
    · cases taken
  subst same
  refine ⟨_, here.recordSpan.again (.setFile _ id _), ?_⟩
  intro _
  refine ⟨span_isSome snapped_eq short, _, rfl, ?_⟩
  intro deadline demanded
  have span_events := recordSpan_events c id
  rw [← span_events] at demanded
  exact demanded_met (span_events ▸ sound.indexed) snapped_eq gathered resolved demanded

structure Evaluated (catalog : Catalog) (id : String) (file other : RecordingFile) : Prop where
  media : SameMedia file other
  finalized : other.finalized = file.finalized
  claim : other.cleanupPending = file.cleanupPending
  hold : other.isProtected = file.isProtected
  stamped : other.retentionGeneration = catalog.runtime.generation
  attended : catalog.Attended id other

/-! ### Visits -/

/-- A visit rewrites at most the visited row, and `Left` says what it leaves of it. -/
structure Visits (id : String) (Left : Catalog → RecordingFile → Prop) (before after : Catalog) :
    Prop where
  sound : Sound after
  others : ∀ other : String, other ≠ id → after.files[other]? = before.files[other]?
  runtime : after.runtime = before.runtime
  work : after.work = before.work
  left : ∀ row, after.files[id]? = some row → row.finalized = true → Left after row

/-! ### The sweep -/

section

variable (sound : Sound c)
include sound

theorem evaluate_evaluated (found : c.files[id]? = some file)
    (evaluated : c.evaluate codec id = .ok (progress, after)) :
    ∃ other, Rewrites id other c after ∧ Evaluated c id file other := by
  have here := Rewrites.found found
  unfold evaluate at evaluated
  rw [found] at evaluated
  dsimp only at evaluated
  split at evaluated
  · rcases map_eq_ok evaluated with ⟨marked, finished, same⟩
    cases same
    exact ⟨_, finishFile_rewrites here finished, ⟨rfl, rfl, rfl, rfl⟩, rfl, rfl, rfl, rfl,
      .pending rfl⟩
  split at evaluated
  · rename_i unruled
    rcases map_eq_ok evaluated with ⟨marked, finished, same⟩
    cases same
    refine ⟨_, finishFile_rewrites here finished, ⟨rfl, rfl, rfl, rfl⟩, rfl, rfl, rfl, rfl,
      .answered ?_⟩
    intro policy applies
    have ruled : c.policyFor file = some policy := applies
    rw [unruled] at ruled
    cases ruled
  rename_i policy applies
  split at evaluated
  · rename_i committed commit
    rcases map_eq_ok evaluated with ⟨marked, finished, same⟩
    cases same
    rcases commitFile_rewrites sound found commit with ⟨decision, rewrites, meets⟩
    rcases meets rfl with ⟨span, stored, rfl, postponed⟩
    refine ⟨_, finishFile_rewrites rewrites finished, ⟨rfl, rfl, rfl, rfl⟩, rfl, rfl, rfl, rfl,
      .answered ?_⟩
    intro other applies_other
    have ruled : c.policyFor file = some other := applies_other
    rw [applies] at ruled
    cases ruled
    exact ⟨span, stored, rfl, postponed⟩
  · rename_i failed commit
    rcases map_eq_ok evaluated with ⟨marked, finished, same⟩
    cases same
    rcases commitFile_rewrites sound found commit with ⟨decision, rewrites, -⟩
    exact ⟨_, finishFile_rewrites rewrites finished, ⟨rfl, rfl, rfl, rfl⟩, rfl, rfl, rfl, rfl,
      .quarantined rfl⟩

theorem Sound.evaluated {other : RecordingFile} (found : c.files[id]? = some file)
    (rewrites : Rewrites id other c after) (evaluated : Evaluated c id file other) :
    Sound after := by
  apply sound.rewrite rewrites (sound.named id file found)
  · intro camera span final source length
    rw [evaluated.finalized] at final
    rw [evaluated.media.source] at source
    rw [evaluated.media.span] at length
    rcases sound.spans id file camera span found final source length with ⟨longest, held, bound⟩
    rcases rewrites.grown camera longest held with ⟨longer, held, more⟩
    exact ⟨longer, held, le_trans bound more⟩
  · intro _
    rw [evaluated.stamped]
    exact Nat.le_add_right _ _
  · rw [evaluated.claim, evaluated.hold]
    exact sound.claimed id file found
  · intro _ _
    exact Or.inl evaluated.attended

theorem evaluate_visits (found : c.files[id]? = some file)
    (evaluated : c.evaluate codec id = .ok (progress, after)) :
    Visits id (fun after row => after.Attended id row) c after := by
  rcases evaluate_evaluated sound found evaluated with ⟨other, rewrites, made⟩
  refine ⟨sound.evaluated found rewrites made, rewrites.others, rewrites.queues.runtime,
    rewrites.queues.work, ?_⟩
  intro row held _
  rw [rewrites.self] at held
  cases held
  have queues := rewrites.queues
  exact made.attended.same queues.policies queues.events queues.retirements queues.passedOver

theorem recordSpan_sound (id : String) : Sound (c.recordSpan id) := by
  have files := (recordSpan_files c id).1
  have queues := recordSpan_queues c id
  refine sound.of_tables (recordSpan_events c id ▸ sound.indexed) queues.policies
    queues.runtime queues.work ?_ ?_ ?_ ?_ ?_
  · unfold Named
    rw [files]
    exact sound.named
  · intro other file camera span found finalized source length
    rw [files] at found
    rcases sound.spans other file camera span found finalized source length with
      ⟨longest, held, bound⟩
    rcases recordSpan_grown c id camera longest held with ⟨longer, held, more⟩
    exact ⟨longer, held, le_trans bound more⟩
  · rw [files]
    exact sound.stamped
  · unfold Claimed
    rw [files]
    exact sound.claimed
  · rw [files]
    intro waiting other file found finalized
    exact queues.accounted (sound.accounted waiting other file found finalized)

theorem passOver_sound (id : String) : Sound (c.passOver id) := by
  refine sound.of_tables sound.indexed rfl rfl rfl sound.named sound.spans sound.stamped
    sound.claimed ?_
  intro waiting other file found finalized
  rcases sound.accounted waiting other file found finalized with attended | queued
  · refine Or.inl (attended.frame rfl rfl (fun held => held) ?_)
    intro inside
    exact ExtTreeMap.mem_insert.mpr (Or.inr inside)
  · exact Or.inr (queued.frame rfl rfl)

theorem passOver_visits (found : c.files[id]? = some file) (claimed : file.cleanupPending = true) :
    Visits id (fun after row => after.Attended id row) c (c.passOver id) := by
  refine ⟨passOver_sound sound id, fun _ _ => rfl, rfl, rfl, ?_⟩
  intro row held _
  rw [show (c.passOver id).files[id]? = c.files[id]? from rfl, found] at held
  cases held
  exact .passedOver claimed ExtTreeMap.mem_insert_self

theorem sweepVisit_visits (found : c.files[id]? = some file)
    (visited : c.sweepVisit codec id file = .ok (progress, after)) :
    Visits id (fun after row => after.Attended id row) c after := by
  have files := (recordSpan_files c id).1
  have queues := recordSpan_queues c id
  have spanned : ∀ {Left : Catalog → RecordingFile → Prop},
      Visits id Left (c.recordSpan id) after → Visits id Left c after := by
    intro Left visits
    exact ⟨visits.sound, files ▸ visits.others, queues.runtime ▸ visits.runtime,
      queues.work ▸ visits.work, visits.left⟩
  unfold sweepVisit at visited
  split at visited
  · rename_i unfinished
    cases visited
    refine ⟨sound, fun _ _ => rfl, rfl, rfl, ?_⟩
    intro row held finalized
    rw [found] at held
    cases held
    simp [finalized] at unfinished
  split at visited
  · rename_i claimed
    cases visited
    exact spanned (passOver_visits (recordSpan_sound sound id) (files ▸ found) claimed)
  · exact spanned (evaluate_visits (recordSpan_sound sound id) (files ▸ found) visited)

end

theorem mem_sweep (sound : Sound c) (found : c.files[id]? = some file)
    (ahead : ∀ cursor, c.runtime.cursor = some cursor → cursor < id)
    (within : ∃ highWater, c.runtime.highWater = some highWater ∧ id ≤ highWater) :
    (id, file) ∈ c.files.toList.filter fun (id, _) =>
      decide (c.runtime.cursor.getD "" < id) && decide (id ≤ c.runtime.highWater.getD "") := by
  rw [List.mem_filter, ExtTreeMap.mem_toList_iff_getElem?_eq_some]
  refine ⟨found, ?_⟩
  rcases within with ⟨highWater, held, before⟩
  rw [held, Bool.and_eq_true, decide_eq_true_iff, decide_eq_true_iff]
  refine ⟨?_, before⟩
  cases reached : c.runtime.cursor with
  | none => exact sound.named id file found
  | some cursor => exact ahead cursor reached

theorem sweepFile_found (chosen : c.sweepFile = some (id, file)) : c.files[id]? = some file := by
  have inside := (List.mem_filter.mp (List.argmin_mem chosen)).1
  exact ExtTreeMap.mem_toList_iff_getElem?_eq_some.mp inside

theorem sweepEnd_sound (sound : Sound c) (done : c.sweepFile = none) :
    Sound { c with runtime := c.sweepEnd } := by
  refine sound.moves ⟨rfl, rfl, rfl, rfl, rfl, rfl, rfl, rfl, rfl, rfl⟩ sound.jobs ?_ ?_
  · intro overflow
    cases overflow
  · intro _ id file found _ queued
    apply Or.inr
    cases queued with
    | swept _ ahead within =>
      have inside := mem_sweep sound found ahead within
      rw [List.argmin_eq_none.mp done] at inside
      cases inside
    | sweptNext overflow =>
      refine .swept ?_ ?_ ?_
      · show (!c.runtime.overflowNext) = false
        rw [overflow]
        rfl
      · intro cursor held
        have restarted : (if c.runtime.overflowNext then none else c.runtime.cursor) =
            some cursor := held
        rw [overflow] at restarted
        cases restarted
      · rcases exists_lastFile found with ⟨last, held, before⟩
        refine ⟨last, ?_, before⟩
        show (if c.runtime.overflowNext then c.lastFile else c.runtime.highWater) = some last
        rw [overflow]
        exact held
    | job source span held covers => exact .job source span held covers

theorem backfill_sound (sound : Sound c)
    (filled : c.backfill codec = .ok (progress, after)) : Sound after := by
  unfold backfill at filled
  split at filled
  · rename_i done
    cases filled
    exact sweepEnd_sound sound done
  rename_i id file chosen
  split at filled
  · cases filled
  rcases map_eq_ok filled with ⟨⟨_, visited⟩, visit, same⟩
  cases same
  have visits := sweepVisit_visits sound (sweepFile_found chosen) visit
  refine visits.sound.moves ⟨rfl, rfl, rfl, rfl, rfl, rfl, rfl, rfl, rfl, rfl⟩ visits.sound.jobs
    visits.sound.overflow ?_
  intro _ other row found finalized queued
  by_cases same : other = id
  · subst same
    exact Or.inl ((visits.left row found finalized).frame rfl rfl (fun held => held)
      fun held => held)
  · apply Or.inr
    cases queued with
    | swept running ahead within =>
      refine .swept running ?_ within
      intro cursor reached
      cases reached
      -- the visited recording is the first one ahead
      rw [visits.others other same] at found
      rw [visits.runtime] at ahead within
      have first := List.le_of_mem_argmin (mem_sweep sound found ahead within) chosen
      exact lt_of_le_of_ne first fun equal => same equal.symm
    | sweptNext overflow => exact .sweptNext overflow
    | job source span held covers => exact .job source span held covers

/-! ### Event work -/

theorem mem_cameraFiles :
    (id, file) ∈ c.cameraFiles camera ↔ c.files[id]? = some file ∧ file.sourceId = some camera := by
  unfold cameraFiles
  rw [List.mem_filter, ExtTreeMap.mem_toList_iff_getElem?_eq_some, decide_eq_true_iff]

theorem initializeWater_within {highWater : Place}
    (water : c.initializeWater camera work = some highWater)
    (found : c.files[id]? = some file) (source : file.sourceId = some camera)
    (awaits : work.Awaits id file) : file.place id ≤ highWater := by
  unfold initializeWater at water
  cases reached : work.highWater with
  | some place =>
    rw [reached] at water
    cases water
    exact awaits.within highWater reached
  | none =>
    rw [reached, Option.none_or] at water
    rcases Option.map_eq_some_iff.mp water with ⟨⟨last, row⟩, chosen, rfl⟩
    exact List.le_of_mem_argmax (mem_cameraFiles.mpr ⟨found, source⟩) chosen

theorem initializeWater_none (dry : c.initializeWater camera work = none)
    (found : c.files[id]? = some file) (source : file.sourceId = some camera) : False := by
  unfold initializeWater at dry
  rw [Option.or_eq_none_iff, Option.map_eq_none_iff, List.argmax_eq_none] at dry
  have inside := mem_cameraFiles.mpr ⟨found, source⟩
  rw [dry.2] at inside
  cases inside

theorem candidate_found (chosen : c.candidate camera work longest = some (id, file)) :
    c.files[id]? = some file ∧ file.sourceId = some camera :=
  mem_cameraFiles.mp (List.mem_filter.mp (List.argmin_mem chosen)).1

theorem place_injective {first second : String} {other : RecordingFile}
    (same : file.place first = other.place second) : first = second :=
  congrArg (fun place : Place => (ofLex place).2) same

theorem Visits.mono {Left Other : Catalog → RecordingFile → Prop} {before : Catalog}
    (visits : Visits id Left before after) (weaker : ∀ row, Left after row → Other after row) :
    Visits id Other before after :=
  ⟨visits.sound, visits.others, visits.runtime, visits.work,
    fun row found finalized => weaker row (visits.left row found finalized)⟩

section

variable (sound : Sound c)
include sound

theorem Sound.rework {jobs : ExtTreeMap String Work} (clock : Nat)
    (stamped : ∀ (camera : String) (work : Work), jobs[camera]? = some work →
      work.generation ≤ c.stamp)
    (covered : ∀ (id : String) (file : RecordingFile) (camera : String) (work : Work),
      c.files[id]? = some file → file.finalized = true → file.sourceId = some camera →
        file.span.isSome = true → c.work[camera]? = some work → work.Covers id file →
          c.Attended id file ∨ ∃ other : Work, jobs[camera]? = some other ∧ other.Covers id file) :
    Sound { c with
      work := jobs
      runtime := { c.runtime with workClock := clock } } := by
  have same : SameTables c { c with
      work := jobs
      runtime := { c.runtime with workClock := clock } } :=
    ⟨rfl, rfl, rfl, rfl, rfl, rfl, rfl, rfl, rfl, rfl⟩
  apply sound.moves same stamped sound.overflow
  intro _ id file found finalized queued
  cases queued with
  | swept running ahead within => exact Or.inr (.swept running ahead within)
  | sweptNext overflow => exact Or.inr (.sweptNext overflow)
  | @job camera work source span held covers =>
    rcases covered id file camera work found finalized source span held covers with
      attended | ⟨other, held, covers⟩
    · exact Or.inl (attended.same rfl rfl rfl rfl)
    · exact Or.inr (.job source span held covers)

theorem Sound.setWork {other : Work}
    (held : c.work[camera]? = some work) (clock : Nat)
    (stamped : other.generation ≤ c.stamp)
    (covered : ∀ (id : String) (file : RecordingFile), c.files[id]? = some file →
      file.finalized = true → file.sourceId = some camera → file.span.isSome = true →
        work.Covers id file → c.Attended id file ∨ other.Covers id file) :
    Sound { c with
      work := c.work.insert camera other
      runtime := { c.runtime with workClock := clock } } := by
  apply sound.rework
  · intro name job found
    rcases getElem?_insert_cases found with ⟨rfl, rfl⟩ | ⟨_, kept⟩
    · exact stamped
    · exact sound.jobs name job kept
  · intro id file name job found finalized source span job_held covers
    by_cases same : name = camera
    · subst same
      rw [held] at job_held
      cases job_held
      rcases covered id file found finalized source span covers with attended | covers
      · exact Or.inl attended
      · exact Or.inr ⟨other, ExtTreeMap.getElem?_insert_self, covers⟩
    · exact Or.inr ⟨job, (getElem?_insert_of_ne same _ _).trans job_held, covers⟩

theorem finishJob_sound (held : c.work[camera]? = some work)
    (done : ∀ (id : String) (file : RecordingFile), c.files[id]? = some file →
      file.finalized = true → file.sourceId = some camera → file.span.isSome = true →
      ¬work.Awaits id file) : Sound (c.finishJob camera work) := by
  unfold finishJob
  split
  · rename_i range next
    refine sound.setWork held c.runtime.workClock (sound.jobs camera work held) ?_
    intro id file found finalized source span covers
    rcases covers.of_done (done id file found finalized source span)
      with ⟨_, stored | stored, touches⟩
    · rw [next] at stored
      cases stored
      exact Or.inr (Work.covers_of_fresh touches rfl rfl)
    · exact Or.inr (.queued stored touches)
  · rename_i range next queued
    refine sound.setWork held c.runtime.workClock (le_refl _) ?_
    intro id file found finalized source span covers
    rcases covers.of_done (done id file found finalized source span)
      with ⟨_, stored | stored, touches⟩
    · rw [next] at stored
      cases stored
    · rw [queued] at stored
      cases stored
      exact Or.inr (Work.covers_of_fresh touches rfl rfl)
  · rename_i next queued
    refine sound.rework c.runtime.workClock ?_ ?_
    · intro name job found
      exact sound.jobs name job (getElem?_of_erase found)
    · intro id file name job found finalized source span job_held covers
      by_cases same : name = camera
      · subst same
        rw [held] at job_held
        cases job_held
        rcases covers.of_done (done id file found finalized source span)
          with ⟨_, stored | stored, _⟩
        · rw [next] at stored
          cases stored
        · rw [queued] at stored
          cases stored
      · exact Or.inr ⟨job, (getElem?_erase_of_ne same _).trans job_held, covers⟩

theorem mem_candidates (length : c.spans[camera]? = some longest)
    (found : c.files[id]? = some file) (finalized : file.finalized = true)
    (source : file.sourceId = some camera) (span : file.span.isSome = true)
    (awaits : work.Awaits id file) :
    (id, file) ∈ (c.cameraFiles camera).filter fun (id, file) =>
      decide (file.startedAtMs < work.range.upperMs) &&
        match work.cursor with
        | some cursor => decide (cursor < file.place id)
        | none => decide (work.range.lowerMs.val - longest ≤ file.startedAtMs.val) := by
  rw [List.mem_filter]
  refine ⟨mem_cameraFiles.mpr ⟨found, source⟩, ?_⟩
  rcases awaits.touches with ⟨starts, ended, finish, ends⟩
  rw [Bool.and_eq_true]
  refine ⟨by simpa using starts, ?_⟩
  cases reached : work.cursor with
  | some cursor => simpa using awaits.ahead cursor reached
  | none =>
    -- it started no earlier than the camera's longest recording before the range
    rcases Option.isSome_iff_exists.mp span with ⟨spanned, span_eq⟩
    rcases sound.spans id file camera spanned found finalized source span_eq with
      ⟨known, known_eq, bound⟩
    rw [length] at known_eq
    cases known_eq
    unfold RecordingFile.span at span_eq
    rw [finish] at span_eq
    dsimp only at span_eq
    split at span_eq
    · cases span_eq
      have ends_val : work.range.lowerMs.val < ended.val := ends
      have reaches : work.range.lowerMs.val - longest ≤ file.startedAtMs.val := by omega
      simpa using reaches
    · cases span_eq

theorem jobVisit_visits (found : c.files[id]? = some file)
    (visited : c.jobVisit codec id file work = .ok (progress, after)) :
    Visits id (fun after row => after.Attended id row ∨ ¬work.range.Touches row) c after := by
  unfold jobVisit at visited
  split at visited
  · split at visited
    · rename_i retiring
      cases visited
      exact ⟨sound, fun _ _ => rfl, rfl, rfl, fun _ _ _ => Or.inl (.retiring retiring)⟩
    split at visited
    · rename_i claimed
      cases visited
      exact (passOver_visits sound found claimed).mono fun _ attended => Or.inl attended
    · exact (evaluate_visits sound found visited).mono fun _ attended => Or.inl attended
  · rename_i apart
    cases visited
    refine ⟨sound, fun _ _ => rfl, rfl, rfl, ?_⟩
    intro row held finalized
    rw [found] at held
    cases held
    apply Or.inr
    rintro ⟨-, ended, finish, ends⟩
    apply apart
    rw [finalized, finish]
    simpa using ends

theorem visited_sound {visited : Catalog} (held : c.work[camera]? = some work)
    (length : c.spans[camera]? = some longest)
    (chosen : c.candidate camera work longest = some (id, file))
    (visits : Visits id (fun after row => after.Attended id row ∨ ¬work.range.Touches row) c
      visited) : Sound (visited.setWork camera { work with cursor := some (file.place id) }) := by
  have held' : visited.work[camera]? = some work := by
    rw [visits.work]
    exact held
  refine visits.sound.setWork held' visited.runtime.workClock
    (visits.sound.jobs camera work held') ?_
  intro other row found finalized source span covers
  cases covers with
  | next stored touches => exact Or.inr (.next stored touches)
  | queued stored touches => exact Or.inr (.queued stored touches)
  | range awaits =>
    by_cases same : other = id
    · subst same
      rcases visits.left row found finalized with attended | apart
      · exact Or.inl attended
      · exact absurd awaits.touches apart
    · rw [visits.others other same] at found
      have first := List.le_of_mem_argmin
        (mem_candidates sound length found finalized source span awaits) chosen
      refine Or.inr (.range ⟨awaits.touches, ?_, awaits.within⟩)
      intro cursor reached
      cases reached
      exact lt_of_le_of_ne first fun equal => same (place_injective equal).symm

theorem setWater_sound (held : c.work[camera]? = some work) {highWater : Place}
    (water : c.initializeWater camera work = some highWater) :
    Sound (c.setWork camera { work with highWater := some highWater }) := by
  refine sound.setWork held c.runtime.workClock (sound.jobs camera work held) ?_
  intro id file found _ source _ covers
  apply Or.inr
  cases covers with
  | next stored touches => exact .next stored touches
  | queued stored touches => exact .queued stored touches
  | range awaits =>
    refine .range ⟨awaits.touches, awaits.ahead, ?_⟩
    intro reached marked
    cases marked
    exact initializeWater_within water found source awaits

theorem jobStep_sound (held : c.work[camera]? = some work)
    (stepped : c.jobStep codec camera work = .ok (progress, after)) : Sound after := by
  have turned_sound : Sound (c.turn camera work) := by
    refine sound.setWork held (c.runtime.workClock + 1) (sound.jobs camera work held) ?_
    intro id file _ _ _ _ covers
    apply Or.inr
    cases covers with
    | range awaits => exact .range ⟨awaits.touches, awaits.ahead, awaits.within⟩
    | next stored touches => exact .next stored touches
    | queued stored touches => exact .queued stored touches
  have turned_held : (c.turn camera work).work[camera]? =
      some { work with lastProcessed := (c.turn camera work).runtime.workClock } :=
    ExtTreeMap.getElem?_insert_self
  unfold jobStep at stepped
  dsimp only at stepped
  generalize c.turn camera work = turned at stepped turned_sound turned_held
  split at stepped
  · rename_i unknown
    cases stepped
    apply finishJob_sound turned_sound turned_held
    intro id file found finalized source span _
    rcases Option.isSome_iff_exists.mp span with ⟨length, span_eq⟩
    rcases turned_sound.spans id file camera length found finalized source span_eq with
      ⟨longest, known, -⟩
    rw [unknown] at known
    cases known
  · rename_i dry
    cases stepped
    apply finishJob_sound turned_sound turned_held
    intro id file found _ source _ _
    exact initializeWater_none dry found source
  rename_i longest highWater length water
  have watered_sound := setWater_sound turned_sound turned_held water
  dsimp only at watered_sound
  have watered_length : (turned.setWork camera { work with
      lastProcessed := turned.runtime.workClock
      highWater := some highWater }).spans[camera]? = some longest := length
  have watered_held : (turned.setWork camera { work with
      lastProcessed := turned.runtime.workClock
      highWater := some highWater }).work[camera]? = some { work with
        lastProcessed := turned.runtime.workClock
        highWater := some highWater } := ExtTreeMap.getElem?_insert_self
  generalize turned.setWork camera { work with
    lastProcessed := turned.runtime.workClock
    highWater := some highWater } = watered at stepped watered_sound watered_held watered_length
  split at stepped
  · rename_i exhausted
    cases stepped
    apply finishJob_sound watered_sound watered_held
    intro id file found finalized source span awaits
    have inside := mem_candidates watered_sound watered_length found finalized source span awaits
    exact List.eq_nil_iff_forall_not_mem.mp (List.argmin_eq_none.mp exhausted) _ inside
  rename_i id file chosen
  split at stepped
  · cases stepped
  split at stepped
  · rename_i passed
    cases stepped
    apply finishJob_sound watered_sound watered_held
    intro other row found finalized source span awaits
    have first := List.le_of_mem_argmin
      (mem_candidates watered_sound watered_length found finalized source span awaits) chosen
    exact absurd (lt_of_lt_of_le passed first) (not_lt_of_ge (awaits.within highWater rfl))
  · rcases map_eq_ok stepped with ⟨⟨_, visited⟩, visit, same⟩
    cases same
    have visits := jobVisit_visits watered_sound (candidate_found chosen).1 visit
    exact visited_sound watered_sound watered_held watered_length chosen visits

theorem eventStep_sound (stepped : c.eventStep codec = .ok (some (progress, after))) :
    Sound after := by
  unfold eventStep at stepped
  split at stepped
  · cases stepped
  rename_i camera work loaded
  split at stepped
  · rcases map_eq_ok stepped with ⟨⟨_, _⟩, job, same⟩
    cases same
    have inside := (List.mem_filter.mp (List.argmin_mem loaded)).1
    exact jobStep_sound sound (ExtTreeMap.mem_toList_iff_getElem?_eq_some.mp inside) job
  · cases stepped

end

/-! ### Activation and steps -/

section

variable (sound : Sound c)
include sound

theorem activate_sound (complete : c.runtime.complete = true)
    (pending : c.runtime.requestPending = true)
    (activated : c.activate codec = .ok after) : Sound after := by
  unfold activate at activated
  split at activated
  · split at activated
    · cases activated
      have stamp : c.stamp = c.runtime.generation + 1 := by
        unfold Catalog.stamp
        rw [pending]
        rfl
      constructor
      case named => exact sound.named
      case indexed => exact sound.indexed
      case spans => exact sound.spans
      case bare =>
        intro (bare : c.runtime.requested = none)
        show c.requestedPolicies = ∅
        unfold requestedPolicies
        rw [bare]
      case stamped =>
        intro id file found marked
        have bound := sound.stamped id file found marked
        rw [stamp] at bound
        exact bound
      case jobs =>
        intro camera work held
        have bound := sound.jobs camera work held
        rw [stamp] at bound
        exact bound
      case overflow =>
        intro overflow
        have running := sound.overflow overflow
        rw [complete] at running
        cases running
      case requested =>
        intro waiting
        cases waiting
      case claimed => exact sound.claimed
      case accounted =>
        intro _ id file found _
        cases asked : c.runtime.requested with
        | none =>
          refine Or.inl (.answered ?_)
          intro policy applies
          simp [Catalog.policyFor, requestedPolicies, asked] at applies
        | some settings =>
          refine Or.inr (.swept ?_ ?_ (exists_lastFile found))
          · simp
          · intro cursor reached
            cases reached
    · cases activated
  · cases activated

theorem settledStep_sound (complete : c.runtime.complete = true)
    (stepped : c.settledStep codec = .ok (progress, after)) : Sound after := by
  unfold settledStep at stepped
  split at stepped
  · rename_i id chosen
    rcases map_eq_ok stepped with ⟨⟨_, evaluated⟩, evaluation, same⟩
    cases same
    rcases Option.map_eq_some_iff.mp chosen with ⟨⟨_, file⟩, inside, rfl⟩
    have found := ExtTreeMap.mem_toList_iff_getElem?_eq_some.mp
      (List.mem_filter.mp (List.argmin_mem inside)).1
    exact (evaluate_visits sound found evaluation).sound
  split at stepped
  · cases stepped
  · rename_i worked
    cases stepped
    exact eventStep_sound sound worked
  split at stepped
  · cases stepped
    exact sound
  rename_i pending
  split at stepped
  · cases stepped
    exact sound
  · rcases map_eq_ok stepped with ⟨activated, activation, same⟩
    cases same
    exact activate_sound sound complete (by simpa using pending) activation

theorem sweepStep_sound (stepped : c.sweepStep codec = .ok (progress, after)) : Sound after := by
  unfold sweepStep at stepped
  split at stepped
  · split at stepped
    · cases stepped
    · rename_i worked
      cases stepped
      exact eventStep_sound sound worked
    · exact backfill_sound sound stepped
  · exact backfill_sound sound stepped

theorem reconcileEvents_sound {current : Bool}
    (reconciled : c.reconcileEvents = .ok (current, after)) : Sound after := by
  unfold Catalog.reconcileEvents at reconciled
  split at reconciled
  · rcases map_eq_ok reconciled with ⟨⟨events, _⟩, index, same⟩
    cases same
    exact reconcile_sound sound index
  · cases reconciled
    exact sound

theorem step_sound (stepped : c.step codec = .ok (progress, after)) : Sound after := by
  unfold step at stepped
  split at stepped
  · cases stepped
  · rename_i reconciled
    cases stepped
    exact reconcileEvents_sound sound reconciled
  rename_i index reconciled
  have reconciled_sound := reconcileEvents_sound sound reconciled
  split at stepped
  · rename_i complete
    exact settledStep_sound reconciled_sound complete stepped
  · exact sweepStep_sound reconciled_sound stepped

end

/-! ### Histories -/

theorem transact_sound {now : Timestamp} {op : Op} (sound : Sound c)
    (current : Current c (now, op)) (done : c.transact codec now op = .ok after) :
    Sound after := by
  have owned : op.owns = true → Sound after :=
    fun owns => (transact_eq_ok done).sound owns sound current
  cases op with
  | insertRecording id recording =>
    cases done
    exact insertRecording_sound sound id recording
  | finalizeRecording id endedAtMs => exact finalizeRecording_sound sound done
  | setMaintained id maintained =>
    cases done
    exact (setMark_sound sound id maintained).1
  | setEvicting id evicting =>
    cases done
    exact (setMark_sound sound id evicting).2
  | setProtected => exact owned rfl
  | claimCleanup => exact owned rfl
  | cancelCleanup => exact owned rfl
  | completeCleanup => exact owned rfl
  | beginRetirement => exact owned rfl
  | completeRetirement => exact owned rfl
  | writeEvent event => exact writeEvent_sound sound done
  | deleteEvent id =>
    cases done
    exact deleteEvent_sound sound id
  | reconcileEvents limit =>
    rcases map_eq_ok done with ⟨⟨events, _⟩, index, rfl⟩
    exact reconcile_sound sound index
  | commitRetention id revision policy =>
    simp only [transact] at done
    split at done
    · exact commitSnapshot_sound sound done
    · cases done
  | request settings =>
    cases done
    exact request_sound sound settings
  | step =>
    rcases map_eq_ok done with ⟨⟨_, _⟩, stepped, rfl⟩
    exact step_sound sound stepped

theorem run_sound (codec : Codec) {history : List (Timestamp × Op)}
    (current : AllSteps (next codec) Current .empty history) : Sound (run codec history) := by
  apply current.foldl_invariant _ empty_sound
  intro c input sound still
  unfold next
  split
  · rename_i done
    exact transact_sound sound still done
  · exact sound

/-! ### Nothing pending -/

theorem eventStep_pending (stepped : c.eventStep codec = .ok (some (progress, after))) :
    progress.pending = true := by
  unfold eventStep at stepped
  split at stepped
  · cases stepped
  split at stepped
  · rcases map_eq_ok stepped with ⟨⟨_, _⟩, job, same⟩
    cases same
    unfold jobStep at job
    dsimp only at job
    split at job
    · cases job
      rfl
    · cases job
      rfl
    split at job
    · cases job
      rfl
    split at job
    · cases job
    split at job
    · cases job
      rfl
    · rcases map_eq_ok job with ⟨⟨_, _⟩, -, same⟩
      cases same
      rfl
  · cases stepped

theorem backfill_pending (filled : c.backfill codec = .ok (progress, after)) :
    progress.pending = true := by
  unfold backfill at filled
  split at filled
  · cases filled
    rfl
  split at filled
  · cases filled
  · rcases map_eq_ok filled with ⟨⟨_, _⟩, -, same⟩
    cases same
    rfl

/-- Nothing waits in any queue. -/
structure Idle (catalog : Catalog) : Prop where
  complete : catalog.runtime.complete = true
  requestPending : catalog.runtime.requestPending = false
  pendingFile : catalog.pendingFile = none
  loadJob : catalog.loadJob = none

theorem settledStep_idle (complete : c.runtime.complete = true)
    (stepped : c.settledStep codec = .ok (progress, after))
    (idle : progress.pending = false) :
    Idle after := by
  unfold settledStep at stepped
  split at stepped
  · rcases map_eq_ok stepped with ⟨⟨_, _⟩, -, same⟩
    cases same
    cases idle
  rename_i unmarked
  split at stepped
  · cases stepped
  · rename_i worked
    cases stepped
    rw [eventStep_pending worked] at idle
    cases idle
  rename_i unworked
  split at stepped
  · rename_i unrequested
    cases stepped
    refine ⟨complete, by simpa using unrequested, unmarked, ?_⟩
    unfold eventStep at unworked
    split at unworked
    · assumption
    split at unworked
    · rcases map_eq_ok unworked with ⟨_, -, same⟩
      cases same
    · cases unworked
  split at stepped
  · cases stepped
    cases idle
  · rcases map_eq_ok stepped with ⟨_, -, same⟩
    cases same
    cases idle

theorem step_idle (stepped : c.step codec = .ok (progress, after))
    (idle : progress.pending = false) : Idle after := by
  unfold step at stepped
  split at stepped
  · cases stepped
  · cases stepped
    cases idle
  split at stepped
  · rename_i complete
    exact settledStep_idle complete stepped idle
  unfold sweepStep at stepped
  split at stepped
  · split at stepped
    · cases stepped
    · rename_i worked
      cases stepped
      rw [eventStep_pending worked] at idle
      cases idle
    · rw [backfill_pending stepped] at idle
      cases idle
  · rw [backfill_pending stepped] at idle
    cases idle

theorem Idle.stamp (idle : Idle c) : c.stamp = c.runtime.generation := by
  unfold Catalog.stamp
  rw [idle.requestPending]
  rfl

theorem Idle.not_queued (idle : Idle c) (sound : Sound c) : ¬c.Queued id file := by
  intro queued
  cases queued with
  | swept running => exact absurd (running.symm.trans idle.complete) (by decide)
  | sweptNext overflow =>
    exact absurd ((sound.overflow overflow).symm.trans idle.complete) (by decide)
  | @job camera work _ _ held _ =>
    have current := sound.jobs camera work held
    rw [idle.stamp] at current
    refine List.eq_nil_iff_forall_not_mem.mp (List.argmin_eq_none.mp idle.loadJob) (camera, work) ?_
    rw [List.mem_filter, ExtTreeMap.mem_toList_iff_getElem?_eq_some]
    exact ⟨held, by simpa using current⟩

theorem Idle.not_pending (idle : Idle c) (sound : Sound c)
    (found : c.files[id]? = some file) (unclaimed : file.cleanupPending = false)
    (unretired : c.retiring id = false) (kept : file.evicting = false) :
    file.retentionPending ≠ .pending := by
  intro pending
  have current := sound.stamped id file found pending
  rw [idle.stamp] at current
  have empty := List.argmin_eq_none.mp (Option.map_eq_none_iff.mp idle.pendingFile)
  refine List.eq_nil_iff_forall_not_mem.mp empty (id, file) ?_
  rw [List.mem_filter, ExtTreeMap.mem_toList_iff_getElem?_eq_some]
  exact ⟨found, by simp [pending, current, unclaimed, unretired, kept]⟩

/-- The policy applies to the finalized recording, which no claim, retirement, eviction or
quarantine mark takes out of the runtime's hands. -/
def Answerable (catalog : Catalog) (id : String) (file : RecordingFile) (policy : Policy) : Prop :=
  catalog.files[id]? = some file ∧ file.finalized = true ∧ catalog.policyFor file = some policy ∧
    file.cleanupPending = false ∧ catalog.retiring id = false ∧ file.evicting = false ∧
    file.retentionPending ≠ .quarantined

instance (catalog : Catalog) (id : String) (file : RecordingFile) (policy : Policy) :
    Decidable (Answerable catalog id file policy) :=
  inferInstanceAs (Decidable (_ ∧ _ ∧ _ ∧ _ ∧ _ ∧ _ ∧ _))

/-- In every history whose claims are given up only while nothing has passed over them,
whenever a step reports nothing pending, every finalized recording with a policy that has
no claim, retirement, eviction or quarantine mark has a decision at least as late as what
its policy resolves from the canonical events then. -/
theorem reconciled_evidence_is_kept (codec : Codec) (history : List (Timestamp × Op))
    (current : AllSteps (next codec) Current .empty history) (progress : Progress)
    (after : Catalog) (stepped : (run codec history).step codec = .ok (progress, after))
    (idle : progress.pending = false) (id : String) (file : RecordingFile) (policy : Policy)
    (answerable : Answerable after id file policy) :
    ∃ decision, file.decision = some decision ∧
      ∀ deadline, file.demanded policy after.events = .ok deadline →
        Postponed deadline decision.deadlineMs := by
  rcases answerable with ⟨found, finalized, applies, unclaimed, unretired, kept, unquarantined⟩
  have sound := step_sound (run_sound codec current) stepped
  have rests := step_idle stepped idle
  rcases sound.accounted rests.requestPending id file found finalized with attended | queued
  · cases attended with
    | answered answered => exact (answered policy applies).2
    | pending pending =>
      exact absurd pending (rests.not_pending sound found unclaimed unretired kept)
    | quarantined quarantined => exact absurd quarantined unquarantined
    | retiring retiring =>
      rw [unretired] at retiring
      cases retiring
    | passedOver claimed =>
      rw [unclaimed] at claimed
      cases claimed
  · exact absurd queued (rests.not_queued sound)

/-! A policy that keeps motion for a second, active and swept, and a recording of one
second that is claimed before an event of its first milliseconds is written. -/

def keepMotionSettings : Settings :=
  ⟨"motion", (∅ : ExtTreeMap String Policy).insert "" keepMotion⟩

def steps (count : Nat) : List (Timestamp × Op) :=
  List.replicate count (instant 2000, .step)

def claimedBeforeMotion : List (Timestamp × Op) :=
  [(instant 1000, .insertRecording "clip"
      ⟨some "front", some "main", instant 0, some (instant 1000), true⟩),
    (instant 1000, .request (some keepMotionSettings))] ++
    steps 3 ++
    [(instant 2000, .claimCleanup "clip" false true),
      (instant 2000, .writeEvent earlyMotion)]

/-- The claim is given up before the camera's job comes to the recording. -/
def givenUpInTime : List (Timestamp × Op) :=
  claimedBeforeMotion ++ [(instant 2000, .cancelCleanup "clip")] ++ steps 2

/-- The claim is given up after the camera's job went past the recording. -/
def givenUpTooLate : List (Timestamp × Op) :=
  claimedBeforeMotion ++ steps 2 ++ [(instant 2000, .cancelCleanup "clip")]

/-- A step after the history reports and leaves of a recording what the check accepts. -/
def stepLeaves (history : List (Timestamp × Op)) (id : String)
    (check : Progress → Catalog → RecordingFile → Bool) : Bool :=
  match (run plainCodec history).step plainCodec with
  | .error _ => false
  | .ok (progress, after) => (after.files[id]?).any (check progress after)

theorem exists_of_stepLeaves {history : List (Timestamp × Op)}
    {check : Progress → Catalog → RecordingFile → Bool}
    (leaves : stepLeaves history id check = true) :
    ∃ progress after file, (run plainCodec history).step plainCodec = .ok (progress, after) ∧
      check progress after file = true := by
  unfold stepLeaves at leaves
  split at leaves
  · cases leaves
  rename_i progress after stepped
  cases found : after.files[id]? with
  | none =>
    rw [found] at leaves
    cases leaves
  | some file =>
    rw [found] at leaves
    exact ⟨progress, after, file, stepped, leaves⟩

theorem reconciled_evidence_is_kept_givenUpInTime :
    AllSteps (next plainCodec) Current .empty givenUpInTime ∧ ∃ progress after file decision,
        (run plainCodec givenUpInTime).step plainCodec = .ok (progress, after) ∧
          Answerable after "clip" file keepMotion ∧ file.decision = some decision ∧
          Postponed (some (instant 2000)) decision.deadlineMs := by
  have current : AllSteps (next plainCodec) Current .empty givenUpInTime := by decide +kernel
  have leaves : stepLeaves givenUpInTime "clip" (fun progress after file =>
      progress.pending = false ∧ Answerable after "clip" file keepMotion ∧
        file.demanded keepMotion after.events = .ok (some (instant 2000))) = true := by
    decide +kernel
  rcases exists_of_stepLeaves leaves with ⟨progress, after, file, stepped, checked⟩
  rcases of_decide_eq_true checked with ⟨idle, answerable, demanded⟩
  rcases reconciled_evidence_is_kept plainCodec givenUpInTime current progress after stepped idle
    "clip" file keepMotion answerable with ⟨decision, stored, meets⟩
  exact ⟨current, progress, after, file, decision, stepped, answerable, stored, meets _ demanded⟩

/-- Nothing brings back a recording that was passed over while it was claimed: the claim
is gone, nothing is pending, and the evidence of the event is lost. -/
theorem cancelled_claim_loses_evidence :
    ∃ progress after file, (run plainCodec givenUpTooLate).step plainCodec = .ok (progress, after) ∧
        progress.pending = false ∧ Answerable after "clip" file keepMotion ∧
        file.demanded keepMotion after.events = .ok (some (instant 2000)) ∧
        file.deadline = none := by
  have leaves : stepLeaves givenUpTooLate "clip" (fun progress after file =>
      progress.pending = false ∧ Answerable after "clip" file keepMotion ∧
        file.demanded keepMotion after.events = .ok (some (instant 2000)) ∧
        file.deadline = none) = true := by
    decide +kernel
  rcases exists_of_stepLeaves leaves with ⟨progress, after, file, stepped, checked⟩
  exact ⟨progress, after, file, stepped, of_decide_eq_true checked⟩

end Catalog

end KeepPeek.Retention
