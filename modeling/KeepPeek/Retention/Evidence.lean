import KeepPeek.Retention.Demand

/-! No event evidence is lost by the retention runtime.

Every finalized recording is answered (its decision meets what its policy asks for
now), or marked for an evaluation, or still ahead of the sweep or of its camera's
job. A write that may raise a demand puts the recording ahead of one of them; a visit
answers it. The one way out is a recording that is visited while it is claimed: it is
passed over, and nothing brings it back when the claim is given up. -/
namespace KeepPeek.Retention

open Lib
open Std (ExtTreeMap)
open EventCatalog

variable {file other : RecordingFile}

/-! ### Rows -/

structure SameMedia (file other : RecordingFile) : Prop where
  source : other.sourceId = file.sourceId
  stream : other.logicalStreamId = file.logicalStreamId
  started : other.startedAtMs = file.startedAtMs
  ended : other.endedAtMs = file.endedAtMs

section

variable (same : SameMedia file other)
include same

theorem SameMedia.span : other.span = file.span := by
  unfold RecordingFile.span
  rw [same.started, same.ended]

theorem SameMedia.place (id : String) : other.place id = file.place id := by
  unfold RecordingFile.place
  rw [same.started]

theorem SameMedia.policyFor (c : Catalog) : c.policyFor other = c.policyFor file := by
  unfold Catalog.policyFor
  rw [same.source]

theorem SameMedia.touches {range : Range} (touches : range.Touches file) : range.Touches other := by
  unfold Range.Touches at touches ⊢
  rw [same.started, same.ended]
  exact touches

/-- A hold is no part of what a policy asks for. -/
theorem SameMedia.demanded (p : Policy) (events : EventCatalog) :
    other.demanded p events = file.demanded p events := by
  unfold RecordingFile.demanded RecordingFile.snapshot
  rw [same.source, same.stream, same.started, same.ended]
  cases file.sourceId with
  | none => rfl
  | some camera =>
    cases file.logicalStreamId with
    | none => rfl
    | some stream =>
      dsimp only
      by_cases camera_valid : validIdentity camera = true
      · by_cases stream_valid : validIdentity stream = true
        · rw [dif_pos camera_valid, dif_pos stream_valid, dif_pos camera_valid,
            dif_pos stream_valid]
          cases file.endedAtMs with
          | none => rfl
          | some ended =>
            dsimp only
            cases Interval.new file.startedAtMs ended with
            | error message => rfl
            | ok interval => rfl
        · rw [dif_pos camera_valid, dif_neg stream_valid, dif_pos camera_valid,
            dif_neg stream_valid]
      · rw [dif_neg camera_valid, dif_neg camera_valid]

end

namespace Work

variable {f : RecordingFile}

/-- The job's own range has the recording before it. -/
structure Awaits (work : Work) (id : String) (file : RecordingFile) : Prop where
  touches : work.range.Touches file
  ahead : ∀ cursor, work.cursor = some cursor → cursor < file.place id
  within : ∀ highWater, work.highWater = some highWater → file.place id ≤ highWater

/-- The job will come to the recording. -/
inductive Covers (work : Work) (id : String) (file : RecordingFile) : Prop
  | range (awaits : work.Awaits id file)
  | next {range : Range} (held : work.next = some range) (touches : range.Touches file)
  | queued {range : Range} (held : work.queued = some range) (touches : range.Touches file)

theorem Covers.of_done {work : Work} {id : String} (covers : work.Covers id f)
    (done : ¬work.Awaits id f) :
    ∃ range, (work.next = some range ∨ work.queued = some range) ∧ range.Touches f := by
  cases covers with
  | range awaits => exact absurd awaits done
  | next held touches => exact ⟨_, Or.inl held, touches⟩
  | queued held touches => exact ⟨_, Or.inr held, touches⟩

theorem Covers.media {work : Work} {id : String} (covers : work.Covers id f)
    (same : SameMedia f other) : work.Covers id other := by
  cases covers with
  | range awaits =>
    refine .range ⟨same.touches awaits.touches, ?_, ?_⟩
    · intro cursor held
      rw [same.place]
      exact awaits.ahead cursor held
    · intro highWater held
      rw [same.place]
      exact awaits.within highWater held
  | next held touches => exact .next held (same.touches touches)
  | queued held touches => exact .queued held (same.touches touches)

theorem covers_of_fresh {work : Work} {id : String} (touches : work.range.Touches f)
    (cursor : work.cursor = none) (highWater : work.highWater = none) : work.Covers id f := by
  refine .range ⟨touches, ?_, ?_⟩
  · intro place held
    rw [cursor] at held
    cases held
  · intro place held
    rw [highWater] at held
    cases held

/-- Another range for the same camera leaves the job's own range, and is looked at later. -/
theorem Covers.enqueue {work : Work} {id : String} (covers : work.Covers id f) (range : Range)
    (generation : Nat) : (work.enqueue range generation).Covers id f := by
  unfold Work.enqueue
  split
  · cases covers with
    | range awaits => exact .range ⟨awaits.touches, awaits.ahead, awaits.within⟩
    | next held touches =>
      rw [held]
      exact .next rfl touches.widen_other
    | queued held touches => exact .queued held touches
  · cases covers with
    | range awaits => exact .range ⟨awaits.touches, awaits.ahead, awaits.within⟩
    | next held touches => exact .next held touches
    | queued held touches =>
      rw [held]
      exact .queued rfl touches.widen_other

theorem enqueue_covers (work : Work) {range : Range} (generation : Nat) (id : String)
    (touches : range.Touches f) : (work.enqueue range generation).Covers id f := by
  unfold Work.enqueue
  split
  · exact .next rfl (touches.widen _)
  · exact .queued rfl (touches.widen _)

end Work

namespace Catalog

variable {c before after : Catalog} {id : String} {f other : RecordingFile}
  {p : Policy} {e : TimelineEvent}

theorem exists_lastFile (found : c.files[id]? = some f) :
    ∃ last, c.lastFile = some last ∧ id ≤ last := by
  have inside := ExtTreeMap.mem_toList_iff_getElem?_eq_some.mpr found
  unfold lastFile
  cases chosen : c.files.toList.argmax Prod.fst with
  | none =>
    rw [List.argmax_eq_none.mp chosen] at inside
    cases inside
  | some row => exact ⟨row.1, rfl, List.le_of_mem_argmax inside chosen⟩

/-! ### Accounts -/

def Answered (catalog : Catalog) (file : RecordingFile) : Prop :=
  ∀ policy, catalog.policyFor file = some policy →
    file.span.isSome = true ∧ ∃ decision, file.decision = some decision ∧
      ∀ deadline, file.demanded policy catalog.events = .ok deadline →
        Postponed deadline decision.deadlineMs

/-- Nothing is owed to the recording but what is marked on it. -/
inductive Attended (catalog : Catalog) (id : String) (file : RecordingFile) : Prop
  | answered (answered : catalog.Answered file)
  | pending (pending : file.retentionPending = .pending)
  | quarantined (quarantined : file.retentionPending = .quarantined)
  | retiring (retiring : catalog.retiring id = true)
  | passedOver (claimed : file.cleanupPending = true) (passed : id ∈ catalog.passedOver)

/-- The sweep or the camera's job will come to the recording. -/
inductive Queued (catalog : Catalog) (id : String) (file : RecordingFile) : Prop
  | swept (running : catalog.runtime.complete = false)
    (ahead : ∀ cursor, catalog.runtime.cursor = some cursor → cursor < id)
    (within : ∃ highWater, catalog.runtime.highWater = some highWater ∧ id ≤ highWater)
  | sweptNext (overflow : catalog.runtime.overflowNext = true)
  | job {camera : String} {work : Work} (source : file.sourceId = some camera)
    (span : file.span.isSome = true) (held : catalog.work[camera]? = some work)
    (covers : work.Covers id file)

def Accounted (catalog : Catalog) (id : String) (file : RecordingFile) : Prop :=
  catalog.Attended id file ∨ catalog.Queued id file

abbrev Named (catalog : Catalog) : Prop :=
  ∀ (id : String) (file : RecordingFile), catalog.files[id]? = some file → "" < id

abbrev Spanned (catalog : Catalog) : Prop :=
  ∀ (id : String) (file : RecordingFile) (camera : String) (span : Int),
    catalog.files[id]? = some file → file.finalized = true → file.sourceId = some camera →
    file.span = some span → ∃ longest, catalog.spans[camera]? = some longest ∧ span ≤ longest

abbrev Claimed (catalog : Catalog) : Prop :=
  ∀ (id : String) (file : RecordingFile), catalog.files[id]? = some file →
    file.cleanupPending = true → file.isProtected = false

structure Sound (catalog : Catalog) : Prop where
  named : catalog.Named
  indexed : catalog.events.Indexed
  spans : catalog.Spanned
  bare : catalog.runtime.settings = none → catalog.policies = ∅
  stamped : ∀ (id : String) (file : RecordingFile), catalog.files[id]? = some file →
    file.retentionPending = .pending → file.retentionGeneration ≤ catalog.stamp
  jobs : ∀ (camera : String) (work : Work), catalog.work[camera]? = some work →
    work.generation ≤ catalog.stamp
  overflow : catalog.runtime.overflowNext = true → catalog.runtime.complete = false
  requested : catalog.runtime.requestPending = true →
    catalog.runtime.settings.map Settings.json ≠ catalog.runtime.requested.map Settings.json
  claimed : catalog.Claimed
  /-- While a request waits the accounts are open: its activation sweeps everything. -/
  accounted : catalog.runtime.requestPending = false → ∀ (id : String) (file : RecordingFile),
    catalog.files[id]? = some file → file.finalized = true → catalog.Accounted id file

theorem empty_sound : Sound .empty := by
  refine ⟨fun _ _ => ?_, initializeIndex_indexed [], fun _ _ _ _ => ?_, fun _ => rfl, ?_, ?_, ?_,
    ?_, fun _ _ => ?_, ?_⟩
  all_goals
    intros
    simp_all [Catalog.empty]

/-! ### Frames -/

structure SameQueues (before after : Catalog) : Prop where
  policies : after.policies = before.policies
  events : after.events.events = before.events.events
  retirements : after.retirements = before.retirements
  passedOver : after.passedOver = before.passedOver
  runtime : after.runtime = before.runtime
  work : after.work = before.work

theorem demanded_of_events {before after : EventCatalog} (same : after.events = before.events) :
    f.demanded p after = f.demanded p before := by
  apply demanded_congr
  intro snapshot e _ _ _
  rw [same]

def KeepsDecision (file other : RecordingFile) : Prop :=
  ∀ stored, file.decision = some stored →
    ∃ later, other.decision = some later ∧ Postponed stored.deadlineMs later.deadlineMs

/-- A row of the same media with a decision no shorter stays answered. -/
theorem Answered.keep (answered : before.Answered f)
    (policies : after.policies = before.policies) (media : SameMedia f other)
    (decision : KeepsDecision f other)
    (demand : ∀ p, before.policyFor f = some p → f.demanded p after.events =
      f.demanded p before.events) : after.Answered other := by
  intro p applies
  have before_applies : before.policyFor f = some p := by
    rw [← applies, media.policyFor]
    unfold Catalog.policyFor
    rw [policies]
  rcases answered p before_applies with ⟨span, stored, held, meets⟩
  rcases decision stored held with ⟨later, held', postponed⟩
  refine ⟨media.span ▸ span, later, held', ?_⟩
  intro deadline asked
  rw [media.demanded, demand p before_applies] at asked
  exact (meets deadline asked).trans postponed

theorem stored_refl (f : RecordingFile) (stored : StoredDecision)
    (held : f.decision = some stored) :
    ∃ later, f.decision = some later ∧ Postponed stored.deadlineMs later.deadlineMs :=
  ⟨stored, held, .refl _⟩

theorem Attended.frame (attended : before.Attended id f)
    (policies : after.policies = before.policies)
    (events : after.events.events = before.events.events)
    (retiring : before.retiring id = true → after.retiring id = true)
    (passed : id ∈ before.passedOver → id ∈ after.passedOver) : after.Attended id f := by
  cases attended with
  | answered answered =>
    exact .answered (answered.keep policies ⟨rfl, rfl, rfl, rfl⟩ (stored_refl f)
      fun _ _ => demanded_of_events events)
  | pending pending => exact .pending pending
  | quarantined quarantined => exact .quarantined quarantined
  | retiring held => exact .retiring (retiring held)
  | passedOver claimed held => exact .passedOver claimed (passed held)

theorem Attended.same (attended : before.Attended id f)
    (policies : after.policies = before.policies)
    (events : after.events.events = before.events.events)
    (retirements : after.retirements = before.retirements)
    (passedOver : after.passedOver = before.passedOver) : after.Attended id f := by
  apply attended.frame policies events
  · unfold Catalog.retiring
    rw [retirements]
    exact fun held => held
  · rw [passedOver]
    exact fun held => held

theorem Queued.frame (queued : before.Queued id f) (runtime : after.runtime = before.runtime)
    (work : after.work = before.work) : after.Queued id f := by
  cases queued with
  | swept running ahead within =>
    rw [← runtime] at running ahead within
    exact .swept running ahead within
  | sweptNext overflow =>
    rw [← runtime] at overflow
    exact .sweptNext overflow
  | job source span held covers =>
    rw [← work] at held
    exact .job source span held covers

theorem Accounted.frame (accounted : before.Accounted id f)
    (policies : after.policies = before.policies)
    (events : after.events.events = before.events.events)
    (retiring : before.retiring id = true → after.retiring id = true)
    (passed : id ∈ before.passedOver → id ∈ after.passedOver)
    (runtime : after.runtime = before.runtime) (work : after.work = before.work) :
    after.Accounted id f := by
  rcases accounted with attended | queued
  · exact Or.inl (attended.frame policies events retiring passed)
  · exact Or.inr (queued.frame runtime work)

theorem SameQueues.accounted (same : SameQueues before after) (accounted : before.Accounted id f) :
    after.Accounted id f := by
  rcases accounted with attended | queued
  · exact Or.inl (attended.same same.policies same.events same.retirements same.passedOver)
  · exact Or.inr (queued.frame same.runtime same.work)

theorem Attended.row (attended : c.Attended id f) (media : SameMedia f other)
    (decision : KeepsDecision f other)
    (attention : other.retentionPending = f.retentionPending)
    (claim : f.cleanupPending = true → id ∈ c.passedOver → other.cleanupPending = true) :
    c.Attended id other := by
  cases attended with
  | answered answered => exact .answered (answered.keep rfl media decision fun _ _ => rfl)
  | pending pending => exact .pending (attention.trans pending)
  | quarantined quarantined => exact .quarantined (attention.trans quarantined)
  | retiring held => exact .retiring held
  | passedOver claimed held => exact .passedOver (claim claimed held) held

theorem Queued.row (queued : c.Queued id f) (media : SameMedia f other) : c.Queued id other := by
  cases queued with
  | swept running ahead within => exact .swept running ahead within
  | sweptNext overflow => exact .sweptNext overflow
  | job source span held covers =>
    exact .job (media.source.trans source) (media.span ▸ span) held (covers.media media)

theorem Accounted.row (accounted : c.Accounted id f) (media : SameMedia f other)
    (decision : KeepsDecision f other)
    (attention : other.retentionPending = f.retentionPending)
    (claim : f.cleanupPending = true → id ∈ c.passedOver → other.cleanupPending = true) :
    c.Accounted id other := by
  rcases accounted with attended | queued
  · exact Or.inl (attended.row media decision attention claim)
  · exact Or.inr (queued.row media)

/-! ### Writes of one row -/

def Grown (before after : ExtTreeMap String Int) : Prop :=
  ∀ (camera : String) (longest : Int), before[camera]? = some longest →
    ∃ longer, after[camera]? = some longer ∧ longest ≤ longer

theorem Grown.refl (spans : ExtTreeMap String Int) : Grown spans spans := by
  intro camera longest held
  exact ⟨longest, held, le_refl longest⟩

theorem Grown.trans {first second third : ExtTreeMap String Int} (left : Grown first second)
    (right : Grown second third) : Grown first third := by
  intro camera longest held
  rcases left camera longest held with ⟨longer, held, before⟩
  rcases right camera longer held with ⟨final, held, between⟩
  exact ⟨final, held, le_trans before between⟩

theorem recordSpan_grown (c : Catalog) (id : String) : Grown c.spans (c.recordSpan id).spans := by
  unfold recordSpan
  split
  · exact .refl _
  split
  · rename_i camera span _ _
    intro other longest held
    by_cases same : other = camera
    · subst same
      refine ⟨_, ExtTreeMap.getElem?_insert_self, ?_⟩
      rw [ExtTreeMap.getD_eq_getD_getElem?, held]
      exact le_max_left _ _
    · refine ⟨longest, ?_, le_refl longest⟩
      rw [getElem?_insert_of_ne same]
      exact held
  · exact .refl _

theorem recordSpan_records (found : c.files[id]? = some f) {camera : String}
    (source : f.sourceId = some camera) {span : Int} (length : f.span = some span) :
    ∃ longest, (c.recordSpan id).spans[camera]? = some longest ∧ span ≤ longest := by
  unfold recordSpan
  rw [found]
  dsimp only
  rw [source, length]
  exact ⟨_, ExtTreeMap.getElem?_insert_self, le_max_right _ _⟩

theorem recordSpan_queues (c : Catalog) (id : String) : SameQueues c (c.recordSpan id) := by
  unfold recordSpan
  split
  · exact ⟨rfl, rfl, rfl, rfl, rfl, rfl⟩
  · split <;> exact ⟨rfl, rfl, rfl, rfl, rfl, rfl⟩

theorem recordSpan_events (c : Catalog) (id : String) : (c.recordSpan id).events = c.events := by
  unfold recordSpan
  split
  · rfl
  · split <;> rfl

/-- The row is written, known lengths may grow, and nothing else changes. -/
structure Rewrites (id : String) (file : RecordingFile) (before after : Catalog) : Prop where
  self : after.files[id]? = some file
  others : ∀ other : String, other ≠ id → after.files[other]? = before.files[other]?
  grown : Grown before.spans after.spans
  events : after.events = before.events
  queues : SameQueues before after

theorem Rewrites.setFile (c : Catalog) (id : String) (f : RecordingFile) :
    Rewrites id f c (c.setFile id f) where
  self := setFile_self c id f
  others := fun _ different => (Untouched.setFile different f).files
  grown := .refl _
  events := rfl
  queues := ⟨rfl, rfl, rfl, rfl, rfl, rfl⟩

theorem Rewrites.again {first second third : Catalog} (left : Rewrites id f first second)
    (right : Rewrites id other second third) :
    Rewrites id other first third where
  self := right.self
  others := fun other different => (right.others other different).trans
    (left.others other different)
  grown := left.grown.trans right.grown
  events := right.events.trans left.events
  queues :=
    ⟨right.queues.policies.trans left.queues.policies, right.queues.events.trans left.queues.events,
      right.queues.retirements.trans left.queues.retirements,
      right.queues.passedOver.trans left.queues.passedOver,
      right.queues.runtime.trans left.queues.runtime, right.queues.work.trans left.queues.work⟩

theorem Rewrites.recordSpan (rewrites : Rewrites id f before after) :
    Rewrites id f before (after.recordSpan id) := by
  refine rewrites.again ⟨?_, ?_, recordSpan_grown after id, recordSpan_events after id,
    recordSpan_queues after id⟩
  · rw [(recordSpan_files after id).1]
    exact rewrites.self
  · intro other _
    rw [(recordSpan_files after id).1]

theorem Rewrites.stamp (rewrites : Rewrites id f before after) : after.stamp = before.stamp := by
  unfold Catalog.stamp
  rw [rewrites.queues.runtime]

theorem Sound.of_tables (sound : Sound before) (indexed : after.events.Indexed)
    (policies : after.policies = before.policies) (runtime : after.runtime = before.runtime)
    (work : after.work = before.work)
    (named : after.Named) (spans : after.Spanned)
    (stamped : ∀ (id : String) (f : RecordingFile), after.files[id]? = some f →
      f.retentionPending = .pending → f.retentionGeneration ≤ before.stamp)
    (claimed : after.Claimed)
    (accounted : before.runtime.requestPending = false → ∀ (id : String) (f : RecordingFile),
      after.files[id]? = some f → f.finalized = true → after.Accounted id f) :
    Sound after where
  named := named
  indexed := indexed
  spans := spans
  bare := by
    rw [runtime, policies]
    exact sound.bare
  stamped := by
    intro id f found pending
    unfold Catalog.stamp
    rw [runtime]
    exact stamped id f found pending
  jobs := by
    intro camera job held
    unfold Catalog.stamp
    rw [runtime]
    rw [work] at held
    exact sound.jobs camera job held
  overflow := by
    rw [runtime]
    exact sound.overflow
  requested := by
    rw [runtime]
    exact sound.requested
  claimed := claimed
  accounted := by
    rw [runtime]
    exact accounted

theorem Sound.rewrite (sound : Sound before) (rewrites : Rewrites id f before after)
    (named : "" < id)
    (span : ∀ camera span, f.finalized = true → f.sourceId = some camera → f.span =
      some span → ∃ longest, after.spans[camera]? = some longest ∧ span ≤ longest)
    (stamped : f.retentionPending = .pending → f.retentionGeneration ≤ before.stamp)
    (claimed : f.cleanupPending = true → f.isProtected = false)
    (accounted : before.runtime.requestPending = false → f.finalized = true →
      before.Accounted id f) : Sound after := by
  have cases_on : ∀ (other : String) (row : RecordingFile), after.files[other]? = some row →
      (other = id ∧ row = f) ∨ before.files[other]? = some row := by
    intro other row found
    by_cases same : other = id
    · subst same
      rw [rewrites.self] at found
      cases found
      exact Or.inl ⟨rfl, rfl⟩
    · rw [rewrites.others other same] at found
      exact Or.inr found
  apply sound.of_tables _ rewrites.queues.policies rewrites.queues.runtime rewrites.queues.work
  · intro other row found
    rcases cases_on other row found with ⟨rfl, rfl⟩ | found
    · exact named
    · exact sound.named other row found
  · intro other row camera length found finalized source length_eq
    rcases cases_on other row found with ⟨rfl, rfl⟩ | found
    · exact span camera length finalized source length_eq
    rcases sound.spans other row camera length found finalized source length_eq with
      ⟨longest, held, bound⟩
    rcases rewrites.grown camera longest held with ⟨longer, held, more⟩
    exact ⟨longer, held, le_trans bound more⟩
  · intro other row found pending
    rcases cases_on other row found with ⟨rfl, rfl⟩ | found
    · exact stamped pending
    · exact sound.stamped other row found pending
  · intro other row found pending
    rcases cases_on other row found with ⟨rfl, rfl⟩ | found
    · exact claimed pending
    · exact sound.claimed other row found pending
  · intro waiting other row found finalized
    apply rewrites.queues.accounted
    rcases cases_on other row found with ⟨rfl, rfl⟩ | found
    · exact accounted waiting finalized
    · exact sound.accounted waiting other row found finalized
  · rw [rewrites.events]
    exact sound.indexed

theorem Sound.answered_of_bare (sound : Sound c) (bare : c.runtime.settings = none)
    (f : RecordingFile) : c.Answered f := by
  intro p applies
  unfold Catalog.policyFor at applies
  rw [sound.bare bare] at applies
  simp at applies

theorem Sound.update (sound : Sound c) (found : c.files[id]? = some f)
    (rewrites : Rewrites id other c after) (media : SameMedia f other)
    (finalized : other.finalized = f.finalized) (decision : KeepsDecision f other)
    (attention : other.retentionPending = f.retentionPending)
    (generation : other.retentionGeneration = f.retentionGeneration)
    (claimed : other.cleanupPending = true → other.isProtected = false)
    (claim : f.cleanupPending = true → id ∈ c.passedOver → other.cleanupPending = true) :
    Sound after := by
  apply sound.rewrite rewrites (sound.named id f found)
  · intro camera span final source length
    rw [finalized] at final
    rw [media.source] at source
    rw [media.span] at length
    rcases sound.spans id f camera span found final source length with ⟨longest, held, bound⟩
    rcases rewrites.grown camera longest held with ⟨longer, held, more⟩
    exact ⟨longer, held, le_trans bound more⟩
  · intro pending
    rw [generation]
    exact sound.stamped id f found (attention.symm.trans pending)
  · exact claimed
  · intro waiting final
    rw [finalized] at final
    exact (sound.accounted waiting id f found final).row media decision attention claim

/-- The triggers on a written row mark it, or there is no policy yet. -/
theorem fileWritten_sound {base written : Catalog} (sound : Sound base)
    (rewrites : Rewrites id f base written) (named : "" < id)
    (stamped : f.retentionPending = .pending → f.retentionGeneration ≤ base.stamp)
    (claimed : f.cleanupPending = true → f.isProtected = false) :
    Sound (written.fileWritten id) := by
  have runtime := rewrites.queues.runtime
  unfold fileWritten
  rw [rewrites.self]
  dsimp only
  split
  · rename_i unfinished
    apply sound.rewrite rewrites named
    · intro camera span finalized
      simp [finalized] at unfinished
    · exact stamped
    · exact claimed
    · intro _ finalized
      simp [finalized] at unfinished
  · have spanned := rewrites.recordSpan
    have records := fun camera span source length =>
      @recordSpan_records written id f rewrites.self camera source span length
    split
    · apply sound.rewrite (spanned.again (.setFile _ id _)) named
      · intro camera span _ source length
        exact records camera span source length
      · intro _
        dsimp only
        split
        · rename_i pending
          exact stamped pending
        · rw [rewrites.stamp]
      · exact claimed
      · intro _ _
        exact Or.inl (.pending rfl)
    · rename_i settings
      apply sound.rewrite spanned named
      · intro camera span _ source length
        exact records camera span source length
      · exact stamped
      · exact claimed
      · intro _ _
        rw [runtime] at settings
        apply Or.inl
        apply Attended.answered
        apply sound.answered_of_bare
        simpa using settings

/-! ### Recordings, claims and retirements -/

def Op.gives : Op → Option String
  | .cancelCleanup id => some id
  | _ => none

/-- Only claims of recordings that nothing passed over are given up. -/
def Current (catalog : Catalog) (input : Timestamp × Op) : Prop :=
  ∀ id ∈ input.2.gives, id ∉ catalog.passedOver

instance (catalog : Catalog) (input : Timestamp × Op) : Decidable (Current catalog input) :=
  inferInstanceAs (Decidable (∀ id ∈ input.2.gives, id ∉ catalog.passedOver))

section

variable (sound : Sound c)
include sound

theorem insertRecording_sound (id : String) (recording : NewRecording) :
    Sound (c.insertRecording id recording) := by
  unfold insertRecording
  split
  · exact sound
  rename_i fresh
  have named := empty_lt fun empty => fresh (Or.inl empty)
  apply fileWritten_sound sound (.setFile c id recording.file) named
  · intro pending
    cases pending
  · intro claimed
    cases claimed

theorem finalizeRecording_sound {endedAtMs : Option Timestamp}
    (finalized : c.finalizeRecording id endedAtMs = .ok after) : Sound after := by
  unfold finalizeRecording at finalized
  split at finalized
  · cases finalized
  rename_i written updated
  cases finalized
  rcases updateFile_eq_ok updated with ⟨missing, rfl⟩ | ⟨f, found, -, -, rfl⟩
  · unfold fileWritten
    rw [missing]
    exact sound
  · apply fileWritten_sound sound (.setFile c id _) (sound.named id f found)
    · exact sound.stamped id f found
    · exact sound.claimed id f found

/-- The marks of the writer and of the evictor are no evidence. -/
theorem setMark_sound (id : String) (mark : Bool) :
    Sound (c.setMaintained id mark) ∧ Sound (c.setEvicting id mark) := by
  unfold setMaintained setEvicting
  split
  · exact ⟨sound, sound⟩
  · rename_i f found
    constructor
    all_goals
      exact sound.update found (.setFile c id _) ⟨rfl, rfl, rfl, rfl⟩ rfl (stored_refl f) rfl
        rfl (sound.claimed id f found) fun claimed _ => claimed

theorem commitSnapshot_sound {codec : Codec} {revision : Nat} {requiresEvents : Bool}
    (committed : c.commitSnapshot codec id revision p requiresEvents = .ok after) :
    Sound after := by
  rcases commitSnapshot_eq_ok committed with
    ⟨f, snapshot, events, decision, found, -, -, -, -, resolved, rfl⟩
  refine sound.update found (.setFile c id _) ⟨rfl, rfl, rfl, rfl⟩ rfl ?_ rfl rfl
    (sound.claimed id f found) fun claimed _ => claimed
  intro stored held
  refine ⟨_, rfl, ?_⟩
  have committed_deadline : f.deadline = stored.deadlineMs := by
    simp [RecordingFile.deadline, held]
  rw [← committed_deadline]
  exact Policy.resolve_postpones resolved

theorem eraseFile_sound (id : String) (files : after.files = (c.eraseFile id).files)
    (spans : after.spans = c.spans) (events : after.events = c.events)
    (policies : after.policies = c.policies) (runtime : after.runtime = c.runtime)
    (work : after.work = c.work) (passed : after.passedOver = c.passedOver.erase id)
    (retiring : ∀ other, other ≠ id → after.retiring other = c.retiring other) :
    Sound after := by
  have remains : ∀ (other : String) (f : RecordingFile), after.files[other]? = some f →
      other ≠ id ∧ c.files[other]? = some f := by
    intro other f found
    rw [files] at found
    have different : other ≠ id := by
      rintro rfl
      rw [eraseFile_self] at found
      cases found
    exact ⟨different, (Untouched.eraseFile different).files ▸ found⟩
  apply sound.of_tables (events ▸ sound.indexed) policies runtime work
  · intro other f found
    exact sound.named other f (remains other f found).2
  · intro other f camera span found
    rw [spans]
    exact sound.spans other f camera span (remains other f found).2
  · intro other f found
    exact sound.stamped other f (remains other f found).2
  · intro other f found
    exact sound.claimed other f (remains other f found).2
  · intro waiting other f found finalized
    rcases remains other f found with ⟨different, held⟩
    refine (sound.accounted waiting other f held finalized).frame policies (by rw [events])
      (fun still => (retiring other different).trans still) ?_ runtime work
    intro inside
    rw [passed]
    exact ExtTreeMap.mem_erase.mpr ⟨by simpa using different.symm, inside⟩

theorem forget_sound (current : id ∉ c.passedOver) :
    Sound { c with passedOver := c.passedOver.erase id } := by
  refine sound.of_tables sound.indexed rfl rfl rfl sound.named sound.spans sound.stamped
    sound.claimed ?_
  intro waiting other f found finalized
  refine (sound.accounted waiting other f found finalized).frame rfl rfl (fun held => held) ?_ rfl
    rfl
  intro inside
  refine ExtTreeMap.mem_erase.mpr ⟨?_, inside⟩
  intro same
  exact current (Std.LawfulEqCmp.eq_of_compare same ▸ inside)

end

theorem Transacted.sound {now : Timestamp} {op : Op} (done : Transacted c now op after)
    (owns : op.owns = true) (sound : Sound c) (current : Current c (now, op)) :
    Sound after := by
  cases done with
  | same => exact sound
  | steady other _ =>
    rw [owns] at other
    cases other
  | @forgotten id missing => exact forget_sound sound (current id rfl)
  | @claimed id expiry free f found deletable _ =>
    refine sound.update found (.setFile c id _) ⟨rfl, rfl, rfl, rfl⟩ rfl (stored_refl f) rfl
      rfl ?_ fun _ _ => rfl
    intro _
    exact (deletable_guards deletable).2.1
  | @cancelled id f found _ =>
    have forgotten := forget_sound sound (current id rfl)
    refine forgotten.update found (.setFile _ id _) ⟨rfl, rfl, rfl, rfl⟩ rfl (stored_refl f) rfl
      rfl ?_ ?_
    · intro claimed
      cases claimed
    · intro _ inside
      exact absurd Std.ReflCmp.compare_self (ExtTreeMap.mem_erase.mp inside).1
  | @completed id _ f found pending =>
    exact eraseFile_sound sound id rfl rfl rfl rfl rfl rfl rfl fun _ _ => rfl
  | @held id isProtected _ f found _ unclaimed =>
    refine sound.update found (.setFile c id _) ⟨rfl, rfl, rfl, rfl⟩ rfl (stored_refl f) rfl
      rfl ?_ ?_
    · intro claimed
      simp only [Bool.and_eq_true, Bool.not_eq_true'] at claimed
      exact claimed.1
    · intro claimed _
      have released := (unclaimed claimed).trans (sound.claimed id f found claimed)
      simp [released, claimed]
  | @retired id expiry free f found _ _ =>
    refine sound.of_tables sound.indexed rfl rfl rfl sound.named sound.spans sound.stamped
      sound.claimed ?_
    intro waiting other row found finalized
    refine (sound.accounted waiting other row found finalized).frame rfl rfl ?_
      (fun held => held) rfl rfl
    intro still
    by_cases same : other = id
    · subst same
      exact retiring_setRetirement c other false
    · exact (Untouched.setRetirement same false).retiring.trans still
  | @removed id _ _ _ =>
    refine eraseFile_sound sound id rfl rfl rfl rfl rfl rfl rfl ?_
    intro other different
    exact (Untouched.setRetirement different true).retiring

/-! ### Moves of the queues -/

/-- Everything but the work, the cursor of the sweep and its flags. -/
structure SameTables (before after : Catalog) : Prop where
  files : after.files = before.files
  spans : after.spans = before.spans
  events : after.events = before.events
  policies : after.policies = before.policies
  retirements : after.retirements = before.retirements
  passedOver : after.passedOver = before.passedOver
  generation : after.runtime.generation = before.runtime.generation
  settings : after.runtime.settings = before.runtime.settings
  requested : after.runtime.requested = before.runtime.requested
  requestPending : after.runtime.requestPending = before.runtime.requestPending

theorem SameTables.refl (c : Catalog) : SameTables c c :=
  ⟨rfl, rfl, rfl, rfl, rfl, rfl, rfl, rfl, rfl, rfl⟩

theorem SameTables.stamp (same : SameTables before after) : after.stamp = before.stamp := by
  unfold Catalog.stamp
  rw [same.generation, same.requestPending]

theorem SameTables.policyFor (same : SameTables before after) (f : RecordingFile) :
    after.policyFor f = before.policyFor f := by
  unfold Catalog.policyFor
  rw [same.policies]

/-- The queues move; whoever was ahead of them is attended to or still ahead. -/
theorem Sound.moves (sound : Sound before) (same : SameTables before after)
    (jobs : ∀ (camera : String) (work : Work), after.work[camera]? = some work →
      work.generation ≤ before.stamp)
    (overflow : after.runtime.overflowNext = true → after.runtime.complete = false)
    (queued : before.runtime.requestPending = false → ∀ (id : String) (f : RecordingFile),
      before.files[id]? = some f → f.finalized = true → before.Queued id f →
      after.Accounted id f) :
    Sound after where
  named := by
    unfold Named
    rw [same.files]
    exact sound.named
  indexed := by
    rw [same.events]
    exact sound.indexed
  spans := by
    unfold Spanned
    rw [same.files, same.spans]
    exact sound.spans
  bare := by
    rw [same.settings, same.policies]
    exact sound.bare
  stamped := by
    rw [same.files, same.stamp]
    exact sound.stamped
  jobs := by
    rw [same.stamp]
    exact jobs
  overflow := overflow
  requested := by
    rw [same.requestPending, same.settings, same.requested]
    exact sound.requested
  claimed := by
    unfold Claimed
    rw [same.files]
    exact sound.claimed
  accounted := by
    rw [same.requestPending, same.files]
    intro waiting id f found finalized
    rcases sound.accounted waiting id f found finalized with attended | ahead
    · exact Or.inl (attended.same same.policies (by rw [same.events]) same.retirements
        same.passedOver)
    · exact queued waiting id f found finalized ahead

/-! ### Events -/

inductive Enqueues (catalog : Catalog) (event : TimelineEvent) : Catalog → Prop
  | unused (unused : catalog.usesEvents event.cameraId = false) : Enqueues catalog event catalog
  | waiting (waiting : catalog.runtime.requestPending = true) : Enqueues catalog event catalog
  | filed {job : Work}
    (stamped : job.generation = catalog.stamp ∨
      ∃ previous, catalog.work[event.cameraId]? = some previous ∧
        job.generation = previous.generation)
    (keeps : ∀ previous id file, catalog.work[event.cameraId]? = some previous →
      previous.Covers id file → job.Covers id file)
    (covers : ∀ id file, (eventRange event).Touches file → job.Covers id file) :
    Enqueues catalog event { catalog with work := catalog.work.insert event.cameraId job }
  | restarted (complete : catalog.runtime.complete = true) :
    Enqueues catalog event { catalog with runtime := { catalog.runtime with
      overflow := true, complete := false, cursor := none, highWater := catalog.lastFile } }
  | again (running : catalog.runtime.complete = false) :
    Enqueues catalog event { catalog with runtime := { catalog.runtime with
      overflow := true, overflowNext := true } }

theorem enqueueEvent_enqueues (c : Catalog) (e : TimelineEvent) :
    Enqueues c e (c.enqueueEvent e) := by
  unfold enqueueEvent
  split
  · rename_i unused
    exact .unused (by simpa using unused)
  split
  · rename_i work held
    refine .filed (Or.inr ⟨work, held, ?_⟩) ?_ fun id _ touches => work.enqueue_covers _ id touches
    · unfold Work.enqueue
      split <;> rfl
    · intro previous id f found covers
      cases held.symm.trans found
      exact covers.enqueue _ _
  rename_i unheld
  split
  · refine .filed (Or.inl rfl) ?_ fun id f touches => Work.covers_of_fresh touches rfl rfl
    intro previous id f found
    cases unheld.symm.trans found
  unfold overflowed
  dsimp only
  split
  · exact .waiting ‹_›
  split
  · exact .restarted ‹_›
  · rename_i running
    exact .again (by simpa using running)

section

variable (done : Enqueues c e after)
include done

theorem Enqueues.tables : SameTables c after := by
  cases done <;> exact ⟨rfl, rfl, rfl, rfl, rfl, rfl, rfl, rfl, rfl, rfl⟩

theorem Enqueues.covers (uses : c.usesEvents e.cameraId = true)
    (waiting : c.runtime.requestPending = false) (found : c.files[id]? = some f)
    (source : f.sourceId = some e.cameraId) (span : f.span.isSome = true)
    (touches : (eventRange e).Touches f) : after.Queued id f := by
  cases done with
  | unused unused => exact absurd (unused.symm.trans uses) (by decide)
  | waiting pending => exact absurd (pending.symm.trans waiting) (by decide)
  | filed _ _ covers =>
    exact .job source span ExtTreeMap.getElem?_insert_self (covers id f touches)
  | restarted _ =>
    apply Queued.swept rfl
    · intro cursor held
      cases held
    · exact exists_lastFile found
  | again _ => exact .sweptNext rfl

theorem Enqueues.queued (sound : Sound c) (queued : c.Queued id f) : after.Queued id f := by
  cases queued with
  | swept running ahead within =>
    cases done with
    -- nothing is ahead of a sweep that is done
    | restarted complete => exact absurd (running.symm.trans complete) (by decide)
    | _ => exact .swept running ahead within
  | sweptNext overflow =>
    cases done with
    | restarted complete => exact absurd ((sound.overflow overflow).symm.trans complete) (by decide)
    | again _ => exact .sweptNext rfl
    | _ => exact .sweptNext overflow
  | @job camera job source span found covers =>
    cases done with
    | filed _ keeps _ =>
      by_cases same : camera = e.cameraId
      · subst same
        exact .job source span ExtTreeMap.getElem?_insert_self (keeps _ _ _ found covers)
      · exact .job source span ((getElem?_insert_of_ne same _ _).trans found) covers
    | _ => exact .job source span found covers

theorem Enqueues.jobs (sound : Sound c) {camera : String} {work : Work}
    (held : after.work[camera]? = some work) : work.generation ≤ c.stamp := by
  cases done with
  | filed stamped _ _ =>
    rcases getElem?_insert_cases held with ⟨rfl, rfl⟩ | ⟨_, kept⟩
    · rcases stamped with fresh | ⟨previous, found, same⟩
      · exact fresh.le
      · exact same ▸ sound.jobs _ previous found
    · exact sound.jobs camera work kept
  | _ => exact sound.jobs camera work held

theorem Enqueues.overflow (sound : Sound c) (overflow : after.runtime.overflowNext = true) :
    after.runtime.complete = false := by
  cases done with
  | restarted _ => rfl
  | again running => exact running
  | _ => exact sound.overflow overflow

end

theorem enqueueEvent_told (waiting : c.runtime.requestPending = false)
    (found : c.files[id]? = some f) (span : f.span.isSome = true)
    (applies : c.policyFor f = some p) (needed : p.requiresEventEvidence = true)
    {sn : Snapshot} (snapped : f.snapshot = .ok sn)
    (scope : e.inScope sn.cameraId sn.streamId = true)
    (overlaps : e.overlaps sn.interval = true) :
    (c.enqueueEvent e).Queued id f := by
  have camera : e.cameraId = sn.cameraId := by
    simp only [TimelineEvent.inScope, Bool.and_eq_true, beq_iff_eq] at scope
    exact scope.1
  have source : f.sourceId = some e.cameraId := by
    rw [camera]
    exact (RecordingFile.snapshot_eq_ok snapped).1
  have uses : c.usesEvents e.cameraId = true := by
    unfold Catalog.policyFor at applies
    rw [source, Option.getD_some] at applies
    unfold usesEvents
    rw [applies]
    exact needed
  exact (enqueueEvent_enqueues c e).covers uses waiting found source span
    (eventRange_touches snapped overlaps)

theorem enqueueVersion_tables (c : Catalog) (version : Option TimelineEvent) :
    SameTables c (c.enqueueVersion version) := by
  cases version with
  | none => exact .refl c
  | some e => exact (enqueueEvent_enqueues c e).tables

section

variable (sound : Sound c)
include sound

theorem enqueueEvent_sound (e : TimelineEvent) : Sound (c.enqueueEvent e) := by
  have done := enqueueEvent_enqueues c e
  apply sound.moves done.tables
  · intro camera work held
    exact done.jobs sound held
  · exact done.overflow sound
  · intro _ id f _ _ queued
    exact Or.inr (done.queued sound queued)

/-- Canonical events change, and every recording whose evidence changes is queued. -/
theorem Sound.change {events : EventCatalog} (indexed : events.Indexed) (revision : Nat)
    (told : c.runtime.requestPending = false →
      ∀ (id : String) (f : RecordingFile) (p : Policy) (snapshot : Snapshot)
      (e : TimelineEvent), c.files[id]? = some f → f.span.isSome = true →
      c.policyFor f = some p → p.requiresEventEvidence = true → f.snapshot = .ok snapshot →
      e.inScope snapshot.cameraId snapshot.streamId = true →
      e.overlaps snapshot.interval = true →
      ¬((∃ id : String, c.events.events[id]? = some e) ↔
        ∃ id : String, events.events[id]? = some e) → c.Queued id f) :
    Sound { c with events, eventRevision := revision } := by
  refine sound.of_tables indexed rfl rfl rfl sound.named sound.spans sound.stamped
    sound.claimed ?_
  intro waiting id f found finalized
  have kept : ∀ {row}, c.Queued id row →
      ({ c with events, eventRevision := revision } : Catalog).Queued id row :=
    fun queued => queued.frame rfl rfl
  rcases sound.accounted waiting id f found finalized with attended | queued
  · cases attended with
    | pending pending => exact Or.inl (.pending pending)
    | quarantined quarantined => exact Or.inl (.quarantined quarantined)
    | retiring held => exact Or.inl (.retiring held)
    | passedOver claimed held => exact Or.inl (.passedOver claimed held)
    | answered answered =>
      -- the demand is the same, or a version in scope comes or goes
      by_cases same : ∀ p, c.policyFor f = some p → f.demanded p events = f.demanded p c.events
      · exact Or.inl (.answered (answered.keep rfl ⟨rfl, rfl, rfl, rfl⟩ (stored_refl f) same))
      · push Not at same
        rcases same with ⟨p, applies, differs⟩
        have span := (answered p applies).1
        have needed : p.requiresEventEvidence = true := by
          apply Bool.eq_true_of_not_eq_false
          intro unneeded
          exact differs (demanded_of_no_evidence unneeded _ _)
        apply Or.inr
        apply kept
        by_contra unqueued
        apply differs
        apply demanded_congr
        intro snapshot e snapped scope overlaps
        by_contra changed
        exact unqueued (told waiting id f p snapshot e found span applies needed snapped
          scope overlaps changed)
  · exact Or.inr (kept queued)

theorem enqueueVersion_sound (version : Option TimelineEvent) :
    Sound (c.enqueueVersion version) := by
  cases version with
  | none => exact sound
  | some e => exact enqueueEvent_sound sound e

theorem writeEvent_sound (written : c.writeEvent e = .ok after) : Sound after := by
  unfold writeEvent at written
  split at written
  · cases written
  rename_i events stored
  cases written
  have versions := enqueueVersion_sound sound c.events.events[e.id]?
  have first := enqueueVersion_tables c c.events.events[e.id]?
  have enqueued :=
    enqueueEvent_enqueues (c.enqueueVersion c.events.events[e.id]?) e
  have second := enqueued.tables
  refine (enqueueEvent_sound versions e).change (writeEvent_indexed sound.indexed stored) _ ?_
  intro waiting id f p snapshot version found span applies needed snapped scope overlaps changed
  rw [second.requestPending] at waiting
  rw [second.files] at found
  rw [second.policyFor] at applies
  rw [second.events, first.events] at changed
  by_cases new : version = e
  · subst new
    exact enqueueEvent_told waiting found span applies needed snapped scope overlaps
  -- another version comes or goes only as the one that is replaced
  have replaced : c.events.events[e.id]? = some version := by
    by_contra other
    apply changed
    rw [writeEvent_events stored]
    constructor
    · rintro ⟨key, held⟩
      have different : key ≠ e.id := by
        rintro rfl
        exact other held
      exact ⟨key, (getElem?_insert_of_ne different _ _).trans held⟩
    · rintro ⟨key, held⟩
      by_cases same : key = e.id
      · subst same
        rw [ExtTreeMap.getElem?_insert_self] at held
        cases held
        exact absurd rfl new
      · exact ⟨key, (getElem?_insert_of_ne same _ _).symm.trans held⟩
  apply enqueued.queued versions
  rw [first.requestPending] at waiting
  rw [first.files] at found
  rw [first.policyFor] at applies
  rw [replaced]
  exact enqueueEvent_told waiting found span applies needed snapped scope overlaps

theorem deleteEvent_sound (id : String) : Sound (c.deleteEvent id) := by
  unfold deleteEvent
  split
  · exact sound
  rename_i e held
  have same := (enqueueEvent_enqueues c e).tables
  refine (enqueueEvent_sound sound e).change (deleteEvent_indexed sound.indexed id) _ ?_
  intro waiting other f p snapshot version found span applies needed snapped scope overlaps changed
  rw [same.requestPending] at waiting
  rw [same.files] at found
  rw [same.policyFor] at applies
  rw [same.events] at changed
  have gone : version = e := by
    by_contra different
    apply changed
    constructor
    · rintro ⟨key, stored⟩
      have other_key : key ≠ id := by
        rintro rfl
        rw [held] at stored
        cases stored
        exact different rfl
      exact ⟨key, (getElem?_erase_of_ne other_key _).trans stored⟩
    · rintro ⟨key, stored⟩
      exact ⟨key, getElem?_of_erase stored⟩
  subst gone
  exact enqueueEvent_told waiting found span applies needed snapped scope overlaps

theorem reconcile_sound {limit : Nat} {events : EventCatalog} {current : Bool}
    (reconciled : c.events.reconcile limit = .ok (events, current)) :
    Sound { c with events } := by
  have same := reconcile_events reconciled
  refine sound.of_tables (reconcile_indexed sound.indexed reconciled) rfl rfl rfl
    sound.named sound.spans sound.stamped sound.claimed ?_
  intro waiting id f found finalized
  have queues : SameQueues c { c with events } := ⟨rfl, same, rfl, rfl, rfl, rfl⟩
  exact queues.accounted (sound.accounted waiting id f found finalized)

theorem request_sound (settings : Option Settings) : Sound (c.request settings) := by
  unfold request
  split
  · exact sound
  rename_i taken
  -- a request that waits is not withdrawn
  have waits : c.runtime.requestPending = true →
      (c.runtime.settings.map Settings.json != settings.map Settings.json) = true := by
    intro pending
    rw [pending] at taken
    simp only [Bool.true_and, bne_iff_ne, ne_eq, Decidable.not_not] at taken
    rw [← taken, bne_iff_ne]
    exact sound.requested pending
  have later : c.stamp ≤ c.runtime.generation +
      if c.runtime.settings.map Settings.json != settings.map Settings.json then 1
      else 0 := by
    unfold Catalog.stamp
    split
    · rename_i pending
      rw [if_pos (waits pending)]
    · exact Nat.add_le_add_left (Nat.zero_le _) _
  constructor
  case named => exact sound.named
  case indexed => exact sound.indexed
  case spans => exact sound.spans
  case bare => exact sound.bare
  case overflow => exact sound.overflow
  case claimed => exact sound.claimed
  case requested =>
    intro pending
    simpa using pending
  case stamped =>
    intro id f found pending
    exact le_trans (sound.stamped id f found pending) later
  case jobs =>
    intro camera work held
    exact le_trans (sound.jobs camera work held) later
  case accounted =>
    intro unchanged id f found finalized
    have waiting : c.runtime.requestPending = false := by
      apply Bool.eq_false_of_not_eq_true
      intro pending
      exact absurd (waits pending) (by simpa using unchanged)
    rcases sound.accounted waiting id f found finalized with attended | queued
    · exact Or.inl (attended.frame rfl rfl (fun held => held) (fun held => held))
    apply Or.inr
    cases queued with
    | swept running ahead within => exact .swept running ahead within
    | sweptNext overflow => exact .sweptNext overflow
    | job source span held covers => exact .job source span held covers

end

end Catalog

end KeepPeek.Retention
