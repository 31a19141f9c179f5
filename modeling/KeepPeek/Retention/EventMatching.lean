import KeepPeek.Retention.EventIndex

/-! The seeks of `matching` against the bins of the index: an event that overlaps a
recording is met by exactly one seek, and a call that succeeds has seen every
canonical event the recording's policy may look at. -/
namespace KeepPeek.Retention

open Lib

variable {bin : Bin} {event : TimelineEvent} {snapshot : Snapshot}

theorem Timestamp.inWidth (time : Timestamp) : InWidth 64 time.val := by
  have := time.property
  unfold InWidth
  omega

theorem inclusiveEnd_bounds (start : Timestamp) (endMs : Option Timestamp) :
    InWidth 64 (inclusiveEnd start endMs) := by
  have := start.property
  unfold inclusiveEnd InWidth
  cases endMs with
  | none => simp
  | some endMs =>
    have := endMs.property
    dsimp only
    split <;> omega

theorem level_eq_commonLevel (start : Timestamp) (endMs : Option Timestamp) :
    64 - leadingZeros (castUnsigned 64 start.val ^^^ castUnsigned 64 (inclusiveEnd start endMs)) =
      commonLevel 64 start.val (inclusiveEnd start endMs) := by
  have := commonLevel_le_width start.inWidth (inclusiveEnd_bounds start endMs)
  unfold leadingZeros
  unfold commonLevel at this ⊢
  omega

theorem Bin.new_eq_ok {start : Timestamp} {endMs : Option Timestamp}
    (h : Bin.new start endMs = .ok bin) :
    (∀ finish, endMs = some finish → start.val ≤ finish.val) ∧ bin.level ≤ 64 ∧
      (bin.level = 64 → bin.bucket = 0) ∧
      (bin.level < 64 → start.val >>> bin.level = bin.bucket ∧
      inclusiveEnd start endMs >>> bin.level = bin.bucket) := by
  unfold Bin.new at h
  split at h
  next ordered =>
    rw [level_eq_commonLevel] at h
    have hwidth := commonLevel_le_width start.inWidth (inclusiveEnd_bounds start endMs)
    have hblock := @commonLevel_le_iff 64 (commonLevel 64 start.val (inclusiveEnd start endMs))
      start.val (inclusiveEnd start endMs) start.inWidth (inclusiveEnd_bounds start endMs)
    cases h
    refine ⟨?_, hwidth, ?_, ?_⟩
    · intro finish hfinish
      subst hfinish
      simpa using ordered
    · intro hlevel
      exact if_pos hlevel
    · intro hlevel
      dsimp only at hlevel ⊢
      rw [if_neg (by omega)]
      refine ⟨rfl, ?_⟩
      have hsame := (hblock hlevel).mp (le_refl _)
      rw [Int.shiftRight_eq_div_pow, Int.shiftRight_eq_div_pow]
      push_cast
      exact hsame.symm
  next => cases h

theorem Bin.new_of_ordered {start : Timestamp} {endMs : Option Timestamp}
    (ordered : ∀ finish, endMs = some finish → start.val ≤ finish.val) :
    ∃ bin, Bin.new start endMs = .ok bin := by
  have hall : endMs.all (fun finish => decide (start.val ≤ finish.val)) = true := by
    cases endMs with
    | none => rfl
    | some finish => simpa using ordered finish rfl
  unfold Bin.new
  rw [if_pos hall]
  exact ⟨_, rfl⟩

theorem TimelineEvent.overlaps_bounds {interval : Interval}
    (ordered : ∀ finish, event.endTimeMs = some finish → event.startTimeMs.val ≤ finish.val)
    (h : event.overlaps interval = true) :
    event.startTimeMs.val ≤ interval.endMs.val - 1 ∧ interval.startMs.val ≤
      inclusiveEnd event.startTimeMs event.endTimeMs := by
  unfold TimelineEvent.overlaps at h
  have hstart := interval.startMs.property
  rw [Bool.and_eq_true, decide_eq_true_eq] at h
  rcases h with ⟨hbefore, hafter⟩
  refine ⟨by omega, ?_⟩
  unfold inclusiveEnd
  cases hend : event.endTimeMs with
  | none =>
    dsimp only
    omega
  | some finish =>
    have := ordered finish hend
    rw [hend] at hafter
    simp only [Option.all_some, Bool.or_eq_true, Bool.and_eq_true, decide_eq_true_eq] at hafter
    dsimp only
    rcases hafter with hlong | ⟨hpulse, hinside⟩
    · split <;> omega
    · rw [hpulse]
      split <;> omega

theorem shiftRight_mono {left right : Int} (h : left ≤ right) (level : Nat) :
    left >>> level ≤ right >>> level := by
  rw [Int.shiftRight_eq_div_pow, Int.shiftRight_eq_div_pow]
  exact Int.ediv_le_ediv (by positivity) h

theorem seekAt_meets (hbin : Bin.new event.startTimeMs event.endTimeMs = .ok bin)
    (hoverlaps : event.overlaps snapshot.interval = true) (scope : String) :
    (seekAt snapshot bin.level scope).low ≤ bin.bucket ∧ bin.bucket ≤
      (seekAt snapshot bin.level scope).high := by
  rcases Bin.new_eq_ok hbin with ⟨ordered, hlevel, hwhole, hblock⟩
  rcases TimelineEvent.overlaps_bounds ordered hoverlaps with ⟨hbefore, hafter⟩
  unfold seekAt
  dsimp only
  by_cases whole : bin.level = 64
  · rw [if_pos whole, if_pos whole, hwhole whole]
    exact ⟨le_refl _, le_refl _⟩
  rw [if_neg whole, if_neg whole]
  rcases hblock (by omega) with ⟨hstart, hend⟩
  constructor
  · rw [← hend]
    exact shiftRight_mono hafter bin.level
  · rw [← hstart]
    exact shiftRight_mono hbefore bin.level

theorem scopeOf_mem_scopes (h : event.inScope snapshot.cameraId snapshot.streamId = true) :
    scopeOf event.stream ∈ scopes snapshot := by
  unfold TimelineEvent.inScope at h
  rw [Bool.and_eq_true] at h
  cases hstream : event.stream with
  | none => simp [scopeOf, scopes]
  | some stream =>
    rw [hstream] at h
    have : stream = snapshot.streamId := by simpa using h.2
    simp [scopeOf, scopes, this]

theorem scopes_nodup (sn : Snapshot) : (scopes sn).Nodup := by
  have hne : ("" : String) ≠ ":" ++ sn.streamId := by
    intro h
    have hlength := congrArg String.length h
    have hcolon : ":".length = 1 := rfl
    rw [String.length_append, hcolon] at hlength
    have hempty : "".length = 0 := rfl
    omega
  simp [scopes, hne]

theorem countP_level {scope : String} (hscope : scope ∈ scopes snapshot)
    (hlow : (seekAt snapshot bin.level scope).low ≤ bin.bucket)
    (hhigh : bin.bucket ≤ (seekAt snapshot bin.level scope).high) (level : Nat) :
    ((scopes snapshot).map (seekAt snapshot level)).countP
      (fun seek => seek.meets scope bin.level bin.bucket) = if level = bin.level then 1 else 0 := by
  rw [List.countP_map]
  by_cases same : level = bin.level
  · subst same
    rw [if_pos rfl, ← List.count_eq_one_of_mem (scopes_nodup snapshot) hscope]
    apply List.countP_congr
    intro other _
    have hranges : (seekAt snapshot bin.level other).low ≤ bin.bucket ∧
        bin.bucket ≤ (seekAt snapshot bin.level other).high := ⟨hlow, hhigh⟩
    simp only [Function.comp_apply, Seek.meets, hranges, decide_true, Bool.and_true,
      Bool.and_eq_true, decide_eq_true_eq, beq_iff_eq]
    constructor
    · exact fun h => h.2.symm
    · exact fun h => ⟨rfl, h.symm⟩
  · rw [if_neg same, List.countP_eq_zero]
    intro other _ hmeets
    simp only [Function.comp_apply, Seek.meets, Bool.and_eq_true, decide_eq_true_eq] at hmeets
    have hlevel : (bin.level : Int) = level := hmeets.1.1
    omega

theorem sum_indicator (levels : List Nat) (level : Nat) :
    (levels.map fun other => if other = level then 1 else 0).sum = levels.count level := by
  induction levels with
  | nil => rfl
  | cons first levels ih =>
    rw [List.map_cons, List.sum_cons, List.count_cons, ih, Nat.add_comm]
    simp

/-- An overlapping event in scope is met by exactly one seek. -/
theorem seeks_countP (hbin : Bin.new event.startTimeMs event.endTimeMs = .ok bin)
    (hscope : event.inScope snapshot.cameraId snapshot.streamId = true)
    (hoverlaps : event.overlaps snapshot.interval = true) :
    (seeks snapshot).countP (fun seek => seek.meets (scopeOf event.stream) bin.level bin.bucket) =
      1 := by
  rcases seekAt_meets hbin hoverlaps (scopeOf event.stream) with ⟨hlow, hhigh⟩
  have hlevel : bin.level ∈ List.range 65 := by
    have := (Bin.new_eq_ok hbin).2.1
    rw [List.mem_range]
    omega
  have hcounts : (fun level => ((scopes snapshot).map (seekAt snapshot level)).countP
      (fun seek => seek.meets (scopeOf event.stream) bin.level bin.bucket)) =
      fun level => if level = bin.level then 1 else 0 :=
    funext (countP_level (scopeOf_mem_scopes hscope) hlow hhigh)
  unfold seeks
  rw [List.countP_flatMap, ← List.count_eq_one_of_mem List.nodup_range hlevel, ← sum_indicator]
  exact congrArg (fun counts => ((List.range 65).map counts).sum) hcounts

/-! What a successful call has seen. -/

namespace EventCatalog

variable {c : EventCatalog} {sn : Snapshot}
variable {e : TimelineEvent} {state after : Visit} {row : IndexRow}
  {events : List TimelineEvent}

def evidence (catalog : EventCatalog) (snapshot : Snapshot) (row : IndexRow) :
    Option TimelineEvent :=
  catalog.events[row.eventId]?.filter fun event => event.overlaps snapshot.interval

/-- A visited row names a canonical event in scope with valid identities. -/
def Sighted (catalog : EventCatalog) (snapshot : Snapshot) (row : IndexRow) : Prop :=
  ∃ event, catalog.events[row.eventId]? = some event ∧ validIdentity event.id = true ∧
    event.inScope snapshot.cameraId snapshot.streamId = true ∧
    ∃ bin, Bin.new event.startTimeMs event.endTimeMs = .ok bin

theorem validateCandidate_eq_ok {bin : Bin} (h : validateCandidate e sn bin = .ok ()) :
    validIdentity e.id = true ∧ e.inScope sn.cameraId sn.streamId = true ∧
      Bin.new e.startTimeMs e.endTimeMs = .ok bin := by
  unfold validateCandidate at h
  split at h
  next identities =>
    split at h
    next inside =>
      split at h
      next => cases h
      next own hown =>
        split at h
        next same =>
          rw [Bool.and_eq_true] at identities
          exact ⟨identities.1, inside, same ▸ hown⟩
        next => cases h
    next => cases h
  next => cases h

theorem visit_eq_ok {level : Nat} (h : c.visit sn level state row = .ok after) :
    after.visited = state.visited + 1 ∧ after.visited ≤ maxEvents ∧ after.events =
      state.events ++ (c.evidence sn row).toList ∧ c.Sighted sn row := by
  unfold visit at h
  split at h
  next room =>
    split at h
    next => cases h
    next e hevent =>
      split at h
      next => cases h
      next hvalid =>
        cases h
        rcases validateCandidate_eq_ok hvalid with ⟨hidentity, hscope, hbin⟩
        refine ⟨rfl, room, ?_, e, hevent, hidentity, hscope, _, hbin⟩
        unfold evidence
        rw [hevent, Option.filter_some]
        dsimp only
        split <;> simp
  next => cases h

theorem visits_eq_ok {level : Nat} {rows : List IndexRow}
    (h : rows.foldlM (c.visit sn level) state = .ok after)
    (room : state.visited ≤ maxEvents) :
    after.visited = state.visited + rows.length ∧ after.visited ≤ maxEvents ∧ after.events =
      state.events ++ rows.filterMap (c.evidence sn) ∧ ∀ row ∈ rows,
      c.Sighted sn row := by
  induction rows generalizing state with
  | nil =>
    cases h
    simp [room]
  | cons row rows ih =>
    rcases foldlM_cons_eq_ok h with ⟨next, hfirst, hrest⟩
    rcases visit_eq_ok hfirst with ⟨hvisited, hroom, hevents, hsighted⟩
    rcases ih hrest hroom with ⟨hvisited', hroom', hevents', hsighted'⟩
    refine ⟨?_, hroom', ?_, ?_⟩
    · rw [hvisited', hvisited, List.length_cons]
      omega
    · rw [hevents', hevents, List.append_assoc]
      congr 1
      cases hevidence : c.evidence sn row <;> simp [hevidence]
    · intro other hother
      rcases List.mem_cons.mp hother with rfl | later
      · exact hsighted
      · exact hsighted' other later

/-- The limit of a seek is one more than a successful call may still visit, so
nothing was cut off. -/
theorem runSeek_eq_ok {seek : Seek} (h : c.runSeek sn state seek = .ok after)
    (room : state.visited ≤ maxEvents) :
    after.visited = state.visited + (c.candidates sn seek).length ∧ after.visited ≤
      maxEvents ∧ after.events = state.events ++ (c.candidates sn seek).filterMap
      (c.evidence sn) ∧ ∀ row ∈ c.candidates sn seek,
      c.Sighted sn row := by
  have hvisits := visits_eq_ok h room
  have hshort : (c.candidates sn seek).length ≤ maxEvents + 1 - state.visited := by
    have hlength := hvisits.1
    have hbound := hvisits.2.1
    rw [List.length_take] at hlength
    omega
  rwa [List.take_of_length_le hshort] at hvisits

theorem runSeeks_eq_ok {wanted : List Seek}
    (h : wanted.foldlM (c.runSeek sn) state = .ok after)
    (room : state.visited ≤ maxEvents) :
    after.visited = state.visited + (wanted.flatMap (c.candidates sn)).length ∧
      after.visited ≤ maxEvents ∧
      after.events = state.events ++
        (wanted.flatMap (c.candidates sn)).filterMap (c.evidence sn) ∧
      ∀ row ∈ wanted.flatMap (c.candidates sn), c.Sighted sn row := by
  induction wanted generalizing state with
  | nil =>
    cases h
    simp [room]
  | cons seek wanted ih =>
    rcases foldlM_cons_eq_ok h with ⟨next, hfirst, hrest⟩
    rcases runSeek_eq_ok hfirst room with ⟨hvisited, hroom, hevents, hsighted⟩
    rcases ih hrest hroom with ⟨hvisited', hroom', hevents', hsighted'⟩
    refine ⟨?_, hroom', ?_, ?_⟩
    · rw [hvisited', hvisited, List.flatMap_cons, List.length_append]
      omega
    · rw [hevents', hevents, List.flatMap_cons, List.filterMap_append, List.append_assoc]
    · intro row hrow
      rw [List.flatMap_cons, List.mem_append] at hrow
      rcases hrow with now | later
      · exact hsighted row now
      · exact hsighted' row later

def sought (catalog : EventCatalog) (snapshot : Snapshot) : List IndexRow :=
  (seeks snapshot).flatMap (catalog.candidates snapshot)

theorem matching_eq_ok (h : c.matching sn = .ok events) :
    c.ensureReady sn.cameraId = .ok () ∧ (c.sought sn).length ≤ maxEvents ∧ events =
      (c.sought sn).filterMap (c.evidence sn) ∧ ∀ row ∈ c.sought sn, c.Sighted sn row := by
  unfold matching at h
  split at h
  next => cases h
  next hready =>
    cases hseeks : (seeks sn).foldlM (c.runSeek sn) ⟨0, []⟩ with
    | error message =>
      rw [hseeks] at h
      cases h
    | ok after =>
      rw [hseeks] at h
      cases h
      rcases runSeeks_eq_ok hseeks (Nat.zero_le _) with ⟨hvisited, hroom, hevents, hsighted⟩
      refine ⟨hready, ?_, ?_, hsighted⟩
      · unfold sought
        dsimp only at hvisited
        omega
      · rw [hevents]
        rfl

theorem ensureReady_eq_ok {camera : String} (h : c.ensureReady camera = .ok ()) :
    c.complete = true ∧ ∀ (id : String) row, c.index[id]? = some row →
      row.cameraId = camera → row.level ≠ -1 := by
  unfold ensureReady at h
  split at h
  next hcomplete =>
    split at h
    next => cases h
    next hnone =>
      refine ⟨hcomplete, ?_⟩
      intro id row hrow hcamera hlevel
      apply hnone
      apply List.any_eq_true.mpr
      refine ⟨(id, row), Std.ExtTreeMap.mem_toList_iff_getElem?_eq_some.mpr hrow, ?_⟩
      simp [hcamera, hlevel]
  next => cases h

theorem mem_candidates {seek : Seek} :
    row ∈ c.candidates sn seek ↔ (∃ id : String, c.index[id]? = some row) ∧
      row.cameraId = sn.cameraId ∧ seek.meets row.scope row.level row.bucket = true := by
  unfold candidates
  rw [List.mem_insertionSort, List.mem_filter, List.mem_map, Bool.and_eq_true, decide_eq_true_eq]
  constructor
  · rintro ⟨⟨⟨id, other⟩, hmem, rfl⟩, hcamera, hmeets⟩
    exact ⟨⟨id, Std.ExtTreeMap.mem_toList_iff_getElem?_eq_some.mp hmem⟩, hcamera, hmeets⟩
  · rintro ⟨⟨id, hrow⟩, hcamera, hmeets⟩
    exact ⟨⟨(id, row), Std.ExtTreeMap.mem_toList_iff_getElem?_eq_some.mpr hrow, rfl⟩,
      hcamera, hmeets⟩

/-- Exact: what is found is canonical, in scope, valid and overlapping. -/
theorem mem_matching (hevents : c.matching sn = .ok events) (hevent : e ∈ events) :
    e ∈ c.canonical sn ∧ e.overlaps sn.interval = true ∧ validIdentity e.id = true ∧ ∃ bin,
      Bin.new e.startTimeMs e.endTimeMs = .ok bin := by
  rcases matching_eq_ok hevents with ⟨_, _, hfound, hsighted⟩
  rw [hfound] at hevent
  rcases List.mem_filterMap.mp hevent with ⟨row, hrow, hevidence⟩
  unfold evidence at hevidence
  rw [Option.filter_eq_some_iff] at hevidence
  rcases hevidence with ⟨hlookup, hoverlaps⟩
  rcases hsighted row hrow with ⟨other, hother, hidentity, hscope, hbin⟩
  have hsame : other = e := Option.mem_unique hother hlookup
  subst hsame
  refine ⟨?_, hoverlaps, hidentity, hbin⟩
  apply List.mem_filter.mpr
  exact ⟨List.mem_map.mpr ⟨_, Std.ExtTreeMap.mem_toList_iff_getElem?_eq_some.mpr hlookup, rfl⟩,
    hscope⟩

theorem Seek.eq_of_meets {left right : Seek} (hleft : left ∈ seeks sn)
    (hright : right ∈ seeks sn)
    (hmeetsLeft : left.meets row.scope row.level row.bucket = true)
    (hmeetsRight : right.meets row.scope row.level row.bucket = true) : left = right := by
  unfold seeks at hleft hright
  rcases List.mem_flatMap.mp hleft with ⟨level, _, hmapped⟩
  rcases List.mem_map.mp hmapped with ⟨scope, _, rfl⟩
  rcases List.mem_flatMap.mp hright with ⟨level', _, hmapped'⟩
  rcases List.mem_map.mp hmapped' with ⟨scope', _, rfl⟩
  simp only [Seek.meets, Bool.and_eq_true, decide_eq_true_eq] at hmeetsLeft hmeetsRight
  have hlevel : level = level' := by
    have := hmeetsLeft.1.1.symm.trans hmeetsRight.1.1
    simpa [seekAt] using this
  have hscope : scope = scope' := hmeetsLeft.1.2.symm.trans hmeetsRight.1.2
  rw [hlevel, hscope]

theorem seeks_nodup (sn : Snapshot) : (seeks sn).Nodup := by
  unfold seeks
  apply List.nodup_flatMap.mpr
  constructor
  · intro level _
    apply (scopes_nodup sn).map
    intro left right hsame
    exact congrArg Seek.scope hsame
  · apply (List.nodup_range (n := 65)).imp
    intro left right hne seek hleft hright
    rcases List.mem_map.mp hleft with ⟨scope, _, rfl⟩
    rcases List.mem_map.mp hright with ⟨scope', _, hsame⟩
    exact hne (congrArg Seek.level hsame).symm

section

variable (h : c.Indexed)
include h

theorem Indexed.row_eventId {id : String} (hrow : c.index[id]? = some row) : row.eventId = id := by
  rcases h.current id row hrow with ⟨e, hevent, rfl | ⟨bin, _, rfl⟩⟩
  · exact h.keyed id e hevent
  · exact h.keyed id e hevent

/-- Complete: an overlapping event in scope is found. -/
theorem mem_matching_of_overlaps (hevents : c.matching sn = .ok events)
    (hcanonical : e ∈ c.canonical sn)
    (hoverlaps : e.overlaps sn.interval = true) : e ∈ events := by
  rcases matching_eq_ok hevents with ⟨hready, _, hfound, _⟩
  rcases ensureReady_eq_ok hready with ⟨hcomplete, hsettled⟩
  rcases List.mem_filter.mp hcanonical with ⟨htable, hscope⟩
  rcases List.mem_map.mp htable with ⟨⟨id, stored⟩, hmem, rfl⟩
  have hlookup := Std.ExtTreeMap.mem_toList_iff_getElem?_eq_some.mp hmem
  have hcamera : stored.cameraId = sn.cameraId := by
    unfold TimelineEvent.inScope at hscope
    rw [Bool.and_eq_true, beq_iff_eq] at hscope
    exact hscope.1
  -- The migration has reached the event, and its row is no longer pending.
  have hindexed := h.covered id stored hlookup (Or.inl hcomplete)
  rw [Std.ExtTreeMap.mem_iff_isSome_getElem?, Option.isSome_iff_exists] at hindexed
  rcases hindexed with ⟨row, hrow⟩
  have hid := h.row_eventId hrow
  rcases h.current id row hrow with ⟨other, hother, describes⟩
  have hsame : other = stored := Option.mem_unique hother hlookup
  subst hsame
  rcases describes with rfl | ⟨bin, hbin, rfl⟩
  · exact absurd rfl (hsettled id _ hrow hcamera)
  have hcount := seeks_countP hbin hscope hoverlaps
  have hone : 0 < (seeks sn).countP
      (fun seek => seek.meets (scopeOf other.stream) bin.level bin.bucket) := by omega
  rcases List.countP_pos_iff.mp hone with ⟨seek, hseek, hmeets⟩
  rw [hfound]
  apply List.mem_filterMap.mpr
  refine ⟨binnedRow other bin, ?_, ?_⟩
  · apply List.mem_flatMap.mpr
    exact ⟨seek, hseek, mem_candidates.mpr ⟨⟨id, hrow⟩, hcamera, hmeets⟩⟩
  · unfold evidence
    rw [hid, hlookup, Option.filter_some, if_pos hoverlaps]

theorem candidates_distinct (seek : Seek) :
    (c.candidates sn seek).Pairwise fun left right => left.eventId ≠ right.eventId := by
  unfold candidates
  apply ((List.perm_insertionSort _ _).pairwise_iff fun hne => Ne.symm hne).mpr
  apply List.Pairwise.filter
  rw [List.pairwise_map]
  apply Std.ExtTreeMap.distinct_keys_toList.imp_of_mem
  intro left right hleft hright hne hsame
  apply hne
  rw [Std.ExtTreeMap.mem_toList_iff_getElem?_eq_some] at hleft hright
  rw [← h.row_eventId hleft, ← h.row_eventId hright, hsame]
  exact Std.ReflCmp.compare_self

theorem sought_distinct :
    (c.sought sn).Pairwise fun left right => left.eventId ≠ right.eventId := by
  unfold sought
  apply List.pairwise_flatMap.mpr
  refine ⟨fun seek _ => candidates_distinct h seek, ?_⟩
  apply (seeks_nodup sn).imp_of_mem
  intro left right hleft hright hne row hrow other hother hsame
  rcases mem_candidates.mp hrow with ⟨⟨id, hid⟩, _, hmeets⟩
  rcases mem_candidates.mp hother with ⟨⟨id', hid'⟩, _, hmeets'⟩
  have hrows : row = other := by
    rw [← h.row_eventId hid, hsame, h.row_eventId hid'] at hid
    exact Option.mem_unique hid hid'
  subst hrows
  exact hne (Seek.eq_of_meets hleft hright hmeets hmeets')

theorem matching_distinct (hevents : c.matching sn = .ok events) :
    events.Pairwise fun left right => left.id ≠ right.id := by
  rw [(matching_eq_ok hevents).2.2.1]
  apply (sought_distinct h).filterMap
  intro left right hne e hevent other hother hsame
  unfold evidence at hevent hother
  rw [Option.filter_eq_some_iff] at hevent hother
  apply hne
  rw [← h.keyed _ _ hevent.1, ← h.keyed _ _ hother.1, hsame]

end

end EventCatalog

def Snapshot.recording (snapshot : Snapshot) (committed : Option Timestamp) : Recording where
  cameraId := snapshot.cameraId
  streamId := snapshot.streamId
  interval := snapshot.interval
  isProtected := snapshot.isProtected
  committedDeadlineMs := committed

theorem not_isEmpty_of_validIdentity {value : String} (h : validIdentity value = true) :
    value.isEmpty = false := by
  unfold validIdentity at h
  rw [Bool.and_eq_true, Bool.and_eq_true] at h
  exact Bool.eq_false_of_not_eq_true (by simpa using h.1.1)

namespace EventCatalog

variable {c : EventCatalog} {sn : Snapshot}
variable {events : List TimelineEvent}

theorem matching_accepted (h : c.Indexed) (hevents : c.matching sn = .ok events)
    (committed : Option Timestamp) :
    ∃ observations, recordingEvents (sn.recording committed) events = .ok observations := by
  apply recordingEvents_accepts
  · rcases matching_eq_ok hevents with ⟨_, hbound, hfound, _⟩
    rw [hfound]
    exact (List.length_filterMap_le _ _).trans hbound
  · exact not_isEmpty_of_validIdentity sn.camera_valid
  · exact not_isEmpty_of_validIdentity sn.stream_valid
  · intro event hevent
    rcases mem_matching hevents hevent with ⟨_, hoverlaps, hidentity, bin, hbin⟩
    exact ⟨not_isEmpty_of_validIdentity hidentity, (Bin.new_eq_ok hbin).1, hoverlaps⟩
  · exact matching_distinct h hevents

/-- A rule finds its evidence among the matching events exactly when it does among
all canonical ones. -/
theorem matching_evidenced (h : c.Indexed) (hevents : c.matching sn = .ok events)
    (committed : Option Timestamp) (r : Rule) :
    r.evidenced (sn.recording committed) events =
      r.evidenced (sn.recording committed) (c.canonical sn) := by
  rw [Bool.eq_iff_iff, Rule.evidenced_iff, Rule.evidenced_iff]
  apply or_congr_right
  constructor
  · rintro ⟨event, hevent, hscope, hoverlaps, hmatches⟩
    exact ⟨event, (mem_matching hevents hevent).1, hscope, hoverlaps, hmatches⟩
  · rintro ⟨event, hevent, hscope, hoverlaps, hmatches⟩
    exact ⟨event, mem_matching_of_overlaps h hevents hevent hoverlaps, hscope, hoverlaps, hmatches⟩

theorem resolve_matching (h : c.Indexed) (hevents : c.matching sn = .ok events)
    (committed : Option Timestamp) (p : Policy) :
    p.resolve (sn.recording committed) events =
      p.evaluate (sn.recording committed) fun rule => rule.evidenced
      (sn.recording committed) (c.canonical sn) := by
  rcases matching_accepted h hevents committed with ⟨observations, haccepted⟩
  rw [Policy.resolve_of_accepted haccepted]
  exact congrArg (p.evaluate _) (funext (matching_evidenced h hevents committed))

end EventCatalog

namespace EventCatalog

/-- The bin of every overlapping event in scope is met by exactly one seek, and a
successful `matching` resolves a policy as the evidence of all canonical events
does; so it agrees with `resolve` over all of them wherever that succeeds. -/
theorem event_index_exact (legacy : List TimelineEvent) (ops : List EventOp)
    (snapshot : Snapshot) :
    (∀ event : TimelineEvent,
      (∀ finish, event.endTimeMs = some finish → event.startTimeMs.val ≤ finish.val) →
      event.inScope snapshot.cameraId snapshot.streamId = true →
      event.overlaps snapshot.interval = true →
      ∃ bin, Bin.new event.startTimeMs event.endTimeMs = .ok bin ∧ (seeks snapshot).countP
          (fun seek => seek.meets (scopeOf event.stream) bin.level bin.bucket) = 1) ∧
    ∀ events, (run legacy ops).matching snapshot = .ok events →
      ∀ (policy : Policy) (committed : Option Timestamp),
        policy.resolve (snapshot.recording committed) events =
            policy.evaluate (snapshot.recording committed) (fun rule =>
              rule.evidenced (snapshot.recording committed) ((run legacy ops).canonical snapshot)) ∧
          ∀ decision, policy.resolve (snapshot.recording committed)
              ((run legacy ops).canonical snapshot) = .ok decision →
            policy.resolve (snapshot.recording committed) events = .ok decision := by
  constructor
  · intro event ordered hscope hoverlaps
    rcases Bin.new_of_ordered ordered with ⟨bin, hbin⟩
    exact ⟨bin, hbin, seeks_countP hbin hscope hoverlaps⟩
  · intro events hevents policy committed
    have hresolved := resolve_matching (run_indexed legacy ops) hevents committed policy
    refine ⟨hresolved, ?_⟩
    intro decision hdecision
    have haccepted : ∃ observations, recordingEvents (snapshot.recording committed)
        ((run legacy ops).canonical snapshot) = .ok observations := by
      cases hall : recordingEvents (snapshot.recording committed)
          ((run legacy ops).canonical snapshot) with
      | ok observations => exact ⟨observations, rfl⟩
      | error message =>
        unfold Policy.resolve at hdecision
        rw [hall] at hdecision
        cases hdecision
    rcases haccepted with ⟨observations, haccepted⟩
    rw [hresolved, ← Policy.resolve_of_accepted haccepted]
    exact hdecision

def firstSecond : Snapshot :=
  ⟨"front", "main", ⟨⟨0, by decide⟩, ⟨1000, by decide⟩, by decide⟩, false, by decide, by decide⟩

def keepMotion : Policy := ⟨[⟨"motion", 1000, .motion⟩], by decide, by decide⟩

def earlyMotion : TimelineEvent :=
  ⟨"motion", 1, "front", some "main", "camera", "motion", ⟨-5, by decide⟩, some ⟨5, by decide⟩⟩

theorem event_index_exact_early_motion :
    (run [] [.write earlyMotion]).matching firstSecond = .ok [earlyMotion] ∧
      keepMotion.resolve (firstSecond.recording none) [earlyMotion] =
        keepMotion.evaluate (firstSecond.recording none) (fun rule =>
          rule.evidenced (firstSecond.recording none)
            ((run [] [.write earlyMotion]).canonical firstSecond)) :=
  ⟨by decide, ((event_index_exact [] [.write earlyMotion] firstSecond).2 _ (by decide)
    keepMotion none).1⟩

def lastMs : Timestamp := ⟨2 ^ 63 - 1, by decide⟩

def latePulse : TimelineEvent :=
  ⟨"pulse", 1, "front", none, "camera", "motion", lastMs, some lastMs⟩

/-- A pulse in the last millisecond is far from the recording and is not found, but
it makes `resolve` over all canonical events fail. -/
theorem resolve_canonical_fails_on_late_pulse :
    (run [] [.write latePulse]).matching firstSecond = .ok [] ∧
      (run [] [.write latePulse]).canonical firstSecond = [latePulse] ∧
      keepMotion.resolve (firstSecond.recording none) [] =
        .ok ⟨none, [], false, .noMatchingEvidence⟩ ∧
      keepMotion.resolve (firstSecond.recording none) [latePulse] =
        .error "retention pulse exceeds the UTC range" := by
  decide

end EventCatalog

end KeepPeek.Retention
