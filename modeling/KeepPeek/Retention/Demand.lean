import KeepPeek.Retention.Committed

/-! The deadline a policy asks for, from the canonical events themselves.

It is what the rules resolve to without a hold or a stored deadline, looking at
every event the catalog holds. A committed decision meets it; it changes only with
events whose range touches the recording, and not at all for a policy that looks at
none. -/
namespace KeepPeek.Retention

open Lib

variable {p : Policy} {applies : Rule → Bool} {sn : Snapshot} {f : RecordingFile}

/-- The recording with neither hold nor stored deadline. -/
def Snapshot.bare (snapshot : Snapshot) : Recording :=
  { snapshot.recording none with isProtected := false }

/-- The deadline the policy asks for from the canonical events. -/
def RecordingFile.demanded (file : RecordingFile) (policy : Policy) (events : EventCatalog) :
    Except String (Option Timestamp) :=
  match file.snapshot with
  | .error message => .error message
  | .ok snapshot =>
    (policy.evaluate snapshot.bare fun rule =>
      rule.evidenced snapshot.bare (events.canonical snapshot)).map Decision.deadlineMs

theorem Policy.evaluate_congr {r : Recording} {others : Rule → Bool}
    (same : ∀ rule ∈ p.rules, rule.durationMs ≠ 0 → applies rule = others rule) :
    p.evaluate r applies = p.evaluate r others := by
  unfold Policy.evaluate
  generalize (none, []) = start
  apply congrArg
  generalize rules_eq : p.rules = rules at same
  clear rules_eq
  induction rules generalizing start with
  | nil => rfl
  | cons rule rules ih =>
    have turn : resolveRule r applies start rule = resolveRule r others start rule := by
      unfold resolveRule
      split
      · rfl
      · rename_i counts
        rw [same rule List.mem_cons_self counts]
    rw [List.foldlM_cons, List.foldlM_cons, turn]
    cases resolveRule r others start rule with
    | error message => rfl
    | ok next =>
      apply ih
      intro other inside counts
      exact same other (List.mem_cons_of_mem _ inside) counts

theorem Policy.evaluate_of_no_evidence (unneeded : p.requiresEventEvidence = false)
    {r : Recording} {others : Rule → Bool}
    (applies_continuous : ∀ rule : Rule, rule.predicate = .continuous → applies rule = true)
    (others_continuous : ∀ rule : Rule, rule.predicate = .continuous → others rule = true) :
    p.evaluate r applies = p.evaluate r others := by
  apply Policy.evaluate_congr
  intro rule inside counts
  have continuous : rule.predicate = .continuous := by
    have none_needed := List.any_eq_false.mp unneeded rule inside
    simpa [counts] using none_needed
  rw [applies_continuous rule continuous, others_continuous rule continuous]

theorem Rule.evidenced_of_continuous {r : Rule} (continuous : r.predicate = .continuous)
    (recording : Recording) (events : List TimelineEvent) :
    r.evidenced recording events = true := by
  simp [Rule.evidenced, continuous]

theorem Rule.applies_of_continuous {r : Rule} (continuous : r.predicate = .continuous)
    (recording : Recording) (obs : List Observation) :
    r.applies recording obs = true := by
  simp [Rule.applies, continuous]

/-- A decision keeps what the rules ask for, whatever was committed and held before. -/
theorem Policy.evaluate_meets {committed : Option Timestamp} {decision asked : Decision}
    (resolved : p.evaluate (sn.recording committed) applies = .ok decision)
    (bare : p.evaluate sn.bare applies = .ok asked) :
    Postponed asked.deadlineMs decision.deadlineMs := by
  rcases map_eq_ok resolved with ⟨found, folded, rfl⟩
  rcases map_eq_ok bare with ⟨found', folded', rfl⟩
  have same : found = found' := by
    have folds : p.rules.foldlM (resolveRule (sn.recording committed) applies)
        (none, []) = p.rules.foldlM (resolveRule sn.bare applies) (none, []) := rfl
    rw [folds, folded'] at folded
    cases folded
    rfl
  subst same
  intro deadline held
  have asked_deadline : found.1 = some deadline := held
  cases committed with
  | none => exact ⟨deadline, asked_deadline, le_refl deadline⟩
  | some stored =>
    refine ⟨laterDeadline (some deadline) stored, ?_, ?_⟩
    · simp only [decisionFor, mergedDeadline, Snapshot.recording, asked_deadline]
    · unfold laterDeadline
      dsimp only
      split
      · rename_i before
        exact before
      · exact le_refl deadline

theorem demanded_met {c : Catalog} (indexed : c.events.Indexed)
    (snapped : f.snapshot = .ok sn) {events : List TimelineEvent}
    (gathered : c.evidence sn p.requiresEventEvidence = .ok events)
    {committed : Option Timestamp} {decision : Decision}
    (resolved : p.resolve (sn.recording committed) events = .ok decision)
    {deadline : Option Timestamp} (demanded : f.demanded p c.events = .ok deadline) :
    Postponed deadline decision.deadlineMs := by
  unfold RecordingFile.demanded at demanded
  rw [snapped] at demanded
  rcases map_eq_ok demanded with ⟨asked, bare, rfl⟩
  have resolves : p.evaluate (sn.recording committed) (fun rule =>
      rule.evidenced sn.bare (c.events.canonical sn)) = .ok decision := by
    cases needed : p.requiresEventEvidence with
    | true =>
      rw [needed] at gathered
      rw [← resolved]
      exact (EventCatalog.resolve_matching indexed gathered committed p).symm
    | false =>
      rw [needed] at gathered
      cases gathered
      have observed : recordingEvents (sn.recording committed) [] = .ok [] := by
        have camera := not_isEmpty_of_validIdentity sn.camera_valid
        have stream := not_isEmpty_of_validIdentity sn.stream_valid
        simp only [recordingEvents, Snapshot.recording, camera, stream]
        rfl
      unfold Policy.resolve at resolved
      rw [observed] at resolved
      rw [← resolved]
      exact Policy.evaluate_of_no_evidence needed
        (fun rule continuous => Rule.evidenced_of_continuous continuous _ _)
        (fun rule continuous => Rule.applies_of_continuous continuous _ _)
  exact Policy.evaluate_meets resolves bare

/-! ### What an event can change -/

def Range.Touches (range : Range) (file : RecordingFile) : Prop :=
  file.startedAtMs < range.upperMs ∧ ∃ ended, file.endedAtMs = some ended ∧ range.lowerMs < ended

theorem Range.Touches.widen {range : Range} (touches : range.Touches f) (other : Option Range) :
    (range.widen other).Touches f := by
  rcases touches with ⟨starts, ended, found, ends⟩
  cases other with
  | none => exact ⟨starts, ended, found, ends⟩
  | some other =>
    exact ⟨lt_of_lt_of_le starts (le_max_right _ _), ended, found,
      lt_of_le_of_lt (min_le_right _ _) ends⟩

theorem Range.Touches.widen_other {range other : Range} (touches : other.Touches f) :
    (range.widen (some other)).Touches f := by
  rcases touches with ⟨starts, ended, found, ends⟩
  exact ⟨lt_of_lt_of_le starts (le_max_left _ _), ended, found,
    lt_of_le_of_lt (min_le_left _ _) ends⟩

theorem RecordingFile.snapshot_eq_ok (snapped : f.snapshot = .ok sn) :
    f.sourceId = some sn.cameraId ∧ f.startedAtMs = sn.interval.startMs ∧
      f.endedAtMs = some sn.interval.endMs := by
  unfold RecordingFile.snapshot at snapped
  split at snapped
  · cases snapped
  rename_i camera source
  split at snapped
  · cases snapped
  split at snapped
  · split at snapped
    · split at snapped
      · cases snapped
      rename_i ended finish
      split at snapped
      · cases snapped
      rename_i interval made
      rcases Interval.new_eq_ok made with ⟨starts, ends⟩
      cases snapped
      exact ⟨source, starts.symm, by rw [finish, ends]⟩
    · cases snapped
  · cases snapped

theorem eventRange_touches (snapped : f.snapshot = .ok sn) {e : TimelineEvent}
    (overlaps : e.overlaps sn.interval = true) :
    (Catalog.eventRange e).Touches f := by
  rcases RecordingFile.snapshot_eq_ok snapped with ⟨-, starts, ends⟩
  simp only [TimelineEvent.overlaps, Bool.and_eq_true, decide_eq_true_eq] at overlaps
  rcases overlaps with ⟨before, after⟩
  have nonempty := sn.interval.nonempty
  have last := sn.interval.endMs.property
  refine ⟨?_, sn.interval.endMs, ends, before⟩
  rw [starts]
  show sn.interval.startMs.val < (Catalog.eventRange e).upperMs.val
  unfold Catalog.eventRange
  dsimp only
  split
  · simp only [timestampMax]
    omega
  rename_i ended finish
  simp only [finish, Option.all_some, Bool.or_eq_true, Bool.and_eq_true, decide_eq_true_eq] at after
  split
  · omega
  rename_i pulse
  cases added : checkedAdd e.startTimeMs 1 with
  | none =>
    simp only [Option.getD_none, timestampMax]
    omega
  | some next =>
    have value := checkedAdd_eq_some added
    simp only [Option.getD_some]
    omega

theorem demanded_congr {before after : EventCatalog}
    (same : ∀ sn event, f.snapshot = .ok sn → event.inScope sn.cameraId sn.streamId = true →
      event.overlaps sn.interval = true → ((∃ id : String, before.events[id]? = some event) ↔
      ∃ id : String, after.events[id]? = some event)) :
    f.demanded p after = f.demanded p before := by
  unfold RecordingFile.demanded
  split
  · rfl
  rename_i sn snapped
  have listed : ∀ (catalog : EventCatalog) (event : TimelineEvent), event ∈ catalog.canonical sn ↔
        (∃ id : String, catalog.events[id]? = some event) ∧
          event.inScope sn.cameraId sn.streamId = true := by
    intro catalog event
    simp only [EventCatalog.canonical, List.mem_filter, List.mem_map, Prod.exists,
      Std.ExtTreeMap.mem_toList_iff_getElem?_eq_some, exists_eq_right]
  apply congrArg
  apply Policy.evaluate_congr
  intro rule _ _
  rw [Bool.eq_iff_iff, Rule.evidenced_iff, Rule.evidenced_iff]
  apply or_congr_right
  apply exists_congr
  intro event
  rw [listed, listed]
  constructor
  · rintro ⟨⟨stored, scope⟩, inside, overlaps, matched⟩
    exact ⟨⟨(same sn event snapped scope overlaps).mpr stored, scope⟩, inside, overlaps, matched⟩
  · rintro ⟨⟨stored, scope⟩, inside, overlaps, matched⟩
    exact ⟨⟨(same sn event snapped scope overlaps).mp stored, scope⟩, inside, overlaps, matched⟩

theorem demanded_of_no_evidence (unneeded : p.requiresEventEvidence = false)
    (before after : EventCatalog) : f.demanded p after = f.demanded p before := by
  unfold RecordingFile.demanded
  split
  · rfl
  apply congrArg
  exact Policy.evaluate_of_no_evidence unneeded
    (fun rule continuous => Rule.evidenced_of_continuous continuous _ _)
    (fun rule continuous => Rule.evidenced_of_continuous continuous _ _)

end KeepPeek.Retention
