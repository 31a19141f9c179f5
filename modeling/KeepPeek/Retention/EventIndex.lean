import Mathlib.Data.List.Sort
import KeepPeek.Lib.Dyadic
import KeepPeek.Lib.Run
import KeepPeek.Lib.TreeMap
import KeepPeek.Retention.Policy

/-! The temporal event index of `catalog/retention/event_index.rs`: every event
has the bin of the smallest aligned block that holds it, and a recording seeks one
range of bins per level and scope. The index is kept by triggers on the event
table, by the event writes themselves and by reconciliation. -/
namespace KeepPeek.Retention

open Lib
open Std (ExtTreeMap)

def leadingZeros (word : Nat) : Nat := 64 - bitLength word

structure Bin where
  level : Nat
  bucket : Int
deriving DecidableEq, Repr

def inclusiveEnd (start : Timestamp) : Option Timestamp → Int
  | some endMs => if start.val < endMs.val then endMs.val - 1 else start.val
  | none => 2 ^ 63 - 1

def Bin.new (start : Timestamp) (endMs : Option Timestamp) : Except String Bin :=
  if endMs.all fun endMs => decide (start.val ≤ endMs.val) then
    let level := 64 - leadingZeros
      (castUnsigned 64 start.val ^^^ castUnsigned 64 (inclusiveEnd start endMs))
    .ok ⟨level, if level = 64 then 0 else start.val >>> level⟩
  else .error "retention event ends before it starts"

def validIdentity (value : String) : Bool :=
  !value.isEmpty && decide (value.utf8ByteSize ≤ 256) && !value.toList.contains '\x00'

theorem empty_lt {text : String} (named : text ≠ "") : "" < text := by
  rw [String.lt_iff_toList_lt]
  cases characters : text.toList with
  | nil => exact absurd (String.toList_eq_nil_iff.mp characters) named
  | cons first rest => exact List.nil_lt_cons first rest

/-- A finalized recording as `recording_snapshot` reads it, identities checked. -/
structure Snapshot where
  cameraId : String
  streamId : String
  interval : Interval
  isProtected : Bool
  camera_valid : validIdentity cameraId
  stream_valid : validIdentity streamId
deriving DecidableEq

def scopeOf : Option String → String
  | none => ""
  | some stream => ":" ++ stream

/-- A row of `recording_retention_event_index`; level `-1` marks a pending row. -/
structure IndexRow where
  eventId : String
  cameraId : String
  scope : String
  level : Int
  bucket : Int
deriving DecidableEq, Repr

structure EventCatalog where
  events : ExtTreeMap String TimelineEvent
  index : ExtTreeMap String IndexRow
  cursor : Option String
  complete : Bool

structure Seek where
  level : Nat
  scope : String
  low : Int
  high : Int
deriving DecidableEq, Repr

def seekAt (snapshot : Snapshot) (level : Nat) (scope : String) : Seek where
  level := level
  scope := scope
  low := if level = 64 then 0 else snapshot.interval.startMs.val >>> level
  high := if level = 64 then 0 else (snapshot.interval.endMs.val - 1) >>> level

def scopes (snapshot : Snapshot) : List String := ["", ":" ++ snapshot.streamId]

/-- The seeks of `matching`, in the order they are made. -/
def seeks (snapshot : Snapshot) : List Seek :=
  (List.range 65).flatMap fun level => (scopes snapshot).map (seekAt snapshot level)

def Seek.meets (seek : Seek) (scope : String) (level bucket : Int) : Bool :=
  decide (level = seek.level) && decide (scope = seek.scope) &&
    (decide (seek.low ≤ bucket) && decide (bucket ≤ seek.high))

namespace EventCatalog

variable {c after : EventCatalog} {e : TimelineEvent} {entry : TimelineEvent × Bin}
  {staged : List (TimelineEvent × Bin)} {limit : Nat}

def ensureReady (catalog : EventCatalog) (camera : String) : Except String Unit :=
  if catalog.complete then
    if catalog.index.toList.any fun row => decide (row.2.cameraId = camera ∧ row.2.level = -1) then
      .error "retention event index has pending canonical changes"
    else .ok ()
  else .error "retention event index migration is incomplete"

def candidates (catalog : EventCatalog) (snapshot : Snapshot) (seek : Seek) : List IndexRow :=
  ((catalog.index.toList.map Prod.snd).filter fun row =>
    decide (row.cameraId = snapshot.cameraId) && seek.meets row.scope row.level
      row.bucket).insertionSort
    fun left right => left.bucket ≤ right.bucket

def validateCandidate (event : TimelineEvent) (snapshot : Snapshot) (bin : Bin) :
    Except String Unit :=
  if validIdentity event.id && validIdentity event.kind then
    if event.inScope snapshot.cameraId snapshot.streamId then
      match Bin.new event.startTimeMs event.endTimeMs with
      | .error message => .error message
      | .ok own =>
        if own = bin then .ok () else .error "retention event index geometry mismatch"
    else .error "retention event index identity mismatch"
  else .error "retention identity must contain 1 to 256 bytes without NUL"

structure Visit where
  visited : Nat
  events : List TimelineEvent

def visit (catalog : EventCatalog) (snapshot : Snapshot) (level : Nat) (state : Visit)
    (row : IndexRow) : Except String Visit :=
  if state.visited < maxEvents then
    match catalog.events[row.eventId]? with
    | none => .error "invalid column type"
    | some event =>
      match validateCandidate event snapshot ⟨level, row.bucket⟩ with
      | .error message => .error message
      | .ok () =>
        .ok ⟨state.visited + 1,
          if event.overlaps snapshot.interval then state.events ++ [event] else state.events⟩
  else .error "retention event snapshot limit exceeded"

def runSeek (catalog : EventCatalog) (snapshot : Snapshot) (state : Visit) (seek : Seek) :
    Except String Visit :=
  ((catalog.candidates snapshot seek).take (maxEvents + 1 - state.visited)).foldlM
    (catalog.visit snapshot seek.level) state

/-- `matching`, apart from its time budget, which can only make it fail. -/
def matching (catalog : EventCatalog) (snapshot : Snapshot) : Except String (List TimelineEvent) :=
  match catalog.ensureReady snapshot.cameraId with
  | .error message => .error message
  | .ok () => ((seeks snapshot).foldlM (catalog.runSeek snapshot) ⟨0, []⟩).map Visit.events

def canonical (catalog : EventCatalog) (snapshot : Snapshot) : List TimelineEvent :=
  (catalog.events.toList.map Prod.snd).filter fun event =>
    event.inScope snapshot.cameraId snapshot.streamId

def pendingRow (event : TimelineEvent) : IndexRow :=
  ⟨event.id, event.cameraId, scopeOf event.stream, -1, 0⟩

def binnedRow (event : TimelineEvent) (bin : Bin) : IndexRow :=
  ⟨event.id, event.cameraId, scopeOf event.stream, bin.level, bin.bucket⟩

/-- `INSERT` into the index, whose primary key is the event. -/
def insertRow (catalog : EventCatalog) (row : IndexRow) : Except String EventCatalog :=
  if row.eventId ∈ catalog.index then .error "UNIQUE constraint failed"
  else .ok { catalog with index := catalog.index.insert row.eventId row }

def eraseRow (catalog : EventCatalog) (id : String) : EventCatalog :=
  { catalog with index := catalog.index.erase id }

def putEvent (catalog : EventCatalog) (event : TimelineEvent) : EventCatalog :=
  { catalog with events := catalog.events.insert event.id event }

def upsert (catalog : EventCatalog) (event : TimelineEvent) : Except String EventCatalog :=
  if event.id ∈ catalog.events then
    ((catalog.putEvent event).eraseRow event.id).insertRow (pendingRow event)
  else (catalog.putEvent event).insertRow (pendingRow event)

def store (catalog : EventCatalog) (event : TimelineEvent) (bin : Bin) : EventCatalog :=
  { catalog with index := catalog.index.insert event.id (binnedRow event bin) }

def indexWrite (catalog : EventCatalog) (event : TimelineEvent) : Except String EventCatalog :=
  match Bin.new event.startTimeMs event.endTimeMs with
  | .error message => .error message
  | .ok bin => .ok (catalog.store event bin)

/-- `event_write::prepare` and the revision checks of `event_write::write`. -/
def checkWrite (catalog : EventCatalog) (event : TimelineEvent) : Except String Unit :=
  if event.kind.isEmpty then .error "event kind must not be empty"
  else if event.revision = 0 then .error "event revision must be greater than zero"
  else if event.endTimeMs.any fun endMs => decide (endMs.val < event.startTimeMs.val) then
    .error "event end must not precede its start"
  else match catalog.events[event.id]? with
    | none =>
      if event.revision = 1 then .ok () else .error "new events must start at revision one"
    | some existing =>
      if event.revision ≤ existing.revision then .error
        "event revision does not exceed stored revision"
      else if event.cameraId = existing.cameraId ∧ event.source = existing.source then .ok ()
      else .error "event revision cannot change source identity"

def writeEvent (catalog : EventCatalog) (event : TimelineEvent) : Except String EventCatalog :=
  match catalog.checkWrite event with
  | .error message => .error message
  | .ok () =>
    match catalog.upsert event with
    | .error message => .error message
    | .ok written => written.indexWrite event

/-- The delete trigger and the foreign key both remove the index row. -/
def deleteEvent (catalog : EventCatalog) (id : String) : EventCatalog :=
  { catalog with events := catalog.events.erase id, index := catalog.index.erase id }

def behind (catalog : EventCatalog) : List (String × TimelineEvent) :=
  catalog.events.toList.filter fun row => catalog.cursor.all fun cursor => decide (cursor < row.1)

/-- The rows of one reconciliation batch: canonical events behind the cursor until
the migration is complete, afterwards the events of pending rows. A pending row
without its event reads as a null identity. -/
def batch (catalog : EventCatalog) (limit : Nat) : List (Option TimelineEvent) :=
  if catalog.complete then
    ((catalog.index.toList.filter fun row => decide (row.2.level = -1)).take limit).map
      fun row => catalog.events[row.1]?
  else (catalog.behind.take limit).map fun row => some row.2

def stage : Option TimelineEvent → Except String (TimelineEvent × Bin)
  | none => .error "invalid column type"
  | some event =>
    if validIdentity event.id && validIdentity event.cameraId && event.stream.all validIdentity then
      match Bin.new event.startTimeMs event.endTimeMs with
      | .error message => .error message
      | .ok bin => .ok (event, bin)
    else .error "retention identity must contain 1 to 256 bytes without NUL"

def storeAll (catalog : EventCatalog) (staged : List (TimelineEvent × Bin)) : EventCatalog :=
  staged.foldl (fun catalog entry => catalog.store entry.1 entry.2) catalog

/-- The migration cursor moves to the last staged event; a short batch ends it. -/
def advance (catalog : EventCatalog) (staged : List (TimelineEvent × Bin)) (limit : Nat) :
    EventCatalog :=
  if catalog.complete then catalog
  else { catalog with
    cursor := (staged.getLast?.map fun entry => entry.1.id).or catalog.cursor
    complete := decide (staged.length < limit) }

def hasPending (catalog : EventCatalog) : Bool :=
  catalog.index.toList.any fun row => decide (row.2.level = -1)

/-- `event_index::reconcile`; the flag says that the index is current. -/
def reconcile (catalog : EventCatalog) (limit : Nat) : Except String (EventCatalog × Bool) :=
  if catalog.cursor.all validIdentity then
    match (catalog.batch limit).mapM stage with
    | .error message => .error message
    | .ok staged =>
      let stored := (catalog.storeAll staged).advance staged limit
      .ok (stored, (catalog.complete || decide (staged.length < limit)) && !stored.hasPending)
  else .error "retention identity must contain 1 to 256 bytes without NUL"

def eventTable (events : List TimelineEvent) : ExtTreeMap String TimelineEvent :=
  events.foldl (fun table event => table.insert event.id event) ∅

/-- `event_index::initialize` over the events of an older catalog. -/
def initializeIndex (legacy : List TimelineEvent) : EventCatalog where
  events := eventTable legacy
  index := ∅
  cursor := none
  complete := (eventTable legacy).isEmpty

inductive EventOp
  | write (event : TimelineEvent)
  | delete (id : String)
  | reconcile (limit : Nat)

def step (catalog : EventCatalog) : EventOp → EventCatalog
  | .write event =>
    match catalog.writeEvent event with
    | .ok written => written
    | .error _ => catalog
  | .delete id => catalog.deleteEvent id
  | .reconcile limit =>
    match catalog.reconcile limit with
    | .ok (reconciled, _) => reconciled
    | .error _ => catalog

def run (legacy : List TimelineEvent) (ops : List EventOp) : EventCatalog :=
  ops.foldl step (initializeIndex legacy)

def Keyed (events : ExtTreeMap String TimelineEvent) : Prop :=
  ∀ (id : String) (event : TimelineEvent), events[id]? = some event → event.id = id

/-- Every index row describes its canonical event, and every event the migration
has reached has a row. -/
structure Indexed (catalog : EventCatalog) : Prop where
  keyed : Keyed catalog.events
  current : ∀ (id : String) row, catalog.index[id]? = some row →
    ∃ event, catalog.events[id]? = some event ∧
    (row = pendingRow event ∨
      ∃ bin, Bin.new event.startTimeMs event.endTimeMs = .ok bin ∧ row = binnedRow event bin)
  covered : ∀ (id : String) event, catalog.events[id]? = some event →
    (catalog.complete = true ∨ ∃ cursor, catalog.cursor = some cursor ∧ id ≤ cursor) →
    id ∈ catalog.index

theorem eventTable_keyed (events : List TimelineEvent) : Keyed (eventTable events) := by
  apply foldl_invariant
  · intro table first hkeyed other e hevent
    rcases getElem?_insert_cases hevent with ⟨rfl, rfl⟩ | ⟨_, kept⟩
    · rfl
    · exact hkeyed other e kept
  · intro other e hevent
    rw [ExtTreeMap.getElem?_empty] at hevent
    cases hevent

theorem initializeIndex_indexed (legacy : List TimelineEvent) :
    (initializeIndex legacy).Indexed where
  keyed := eventTable_keyed legacy
  current id row h := by
    rw [initializeIndex, ExtTreeMap.getElem?_empty] at h
    cases h
  covered id e h reached := by
    rcases reached with hcomplete | ⟨cursor, hcursor, _⟩
    · have hempty : eventTable legacy = ∅ := ExtTreeMap.isEmpty_iff.mp hcomplete
      rw [initializeIndex, hempty, ExtTreeMap.getElem?_empty] at h
      cases h
    · cases hcursor

theorem Indexed.insert (h : c.Indexed) (stored : c.events[e.id]? = some e)
    {row : IndexRow}
    (describes : row = pendingRow e ∨ ∃ bin, Bin.new e.startTimeMs e.endTimeMs = .ok bin ∧
      row = binnedRow e bin) :
    Indexed { c with index := c.index.insert e.id row } where
  keyed := h.keyed
  current id other hother := by
    rcases getElem?_insert_cases hother with ⟨rfl, rfl⟩ | ⟨_, kept⟩
    · exact ⟨e, stored, describes⟩
    · exact h.current id other kept
  covered id other hother reached :=
    ExtTreeMap.mem_insert.mpr (Or.inr (h.covered id other hother reached))

theorem store_indexed (h : c.Indexed) (stored : c.events[e.id]? = some e)
    {bin : Bin} (hbin : Bin.new e.startTimeMs e.endTimeMs = .ok bin) :
    (c.store e bin).Indexed :=
  h.insert stored (Or.inr ⟨bin, hbin, rfl⟩)

theorem upsert_index {written : EventCatalog} (h : c.upsert e = .ok written) :
    written.events = c.events.insert e.id e ∧
      (∀ id, id ≠ e.id → written.index[id]? = c.index[id]?) ∧
      written.index[e.id]? = some (pendingRow e) ∧ written.cursor = c.cursor ∧
      written.complete = c.complete := by
  unfold upsert at h
  split at h
  all_goals
    unfold insertRow at h
    split at h
    · cases h
    cases h
    refine ⟨rfl, ?_, ExtTreeMap.getElem?_insert_self, rfl, rfl⟩
    intro id hne
    first
      | exact getElem?_insert_of_ne hne _ _
      | exact (getElem?_insert_of_ne hne _ _).trans (getElem?_erase_of_ne hne _)

theorem writeEvent_events (hafter : c.writeEvent e = .ok after) :
    after.events = c.events.insert e.id e := by
  unfold writeEvent at hafter
  split at hafter
  · cases hafter
  split at hafter
  · cases hafter
  next written hwritten =>
    unfold indexWrite at hafter
    split at hafter
    · cases hafter
    · cases hafter
      exact (upsert_index hwritten).1

theorem stage_eq_ok {row : Option TimelineEvent} (h : stage row = .ok entry) :
    row = some entry.1 ∧ Bin.new entry.1.startTimeMs entry.1.endTimeMs = .ok entry.2 := by
  unfold stage at h
  split at h
  · cases h
  split at h
  · split at h
    · cases h
    next bin hbin =>
      cases h
      exact ⟨rfl, hbin⟩
  · cases h

theorem staged_events {rows : List (Option TimelineEvent)} (h : rows.mapM stage = .ok staged) :
    rows = (staged.map fun entry => some entry.1) ∧ ∀ entry ∈ staged,
      Bin.new entry.1.startTimeMs entry.1.endTimeMs = .ok entry.2 := by
  have hforall := mapM_eq_ok h
  clear h
  induction hforall with
  | nil => simp
  | cons first _ ih =>
    rcases stage_eq_ok first with ⟨hrow, hbin⟩
    rw [List.map_cons, hrow, ← ih.1]
    refine ⟨rfl, ?_⟩
    intro entry hentry
    rcases List.mem_cons.mp hentry with rfl | later
    · exact hbin
    · exact ih.2 entry later

theorem storeAll_frame (c : EventCatalog) (staged : List (TimelineEvent × Bin)) :
    (c.storeAll staged).events = c.events ∧ (c.storeAll staged).cursor = c.cursor ∧
      (c.storeAll staged).complete = c.complete := by
  induction staged generalizing c with
  | nil => exact ⟨rfl, rfl, rfl⟩
  | cons entry staged ih => exact ih (c.store entry.1 entry.2)

theorem storeAll_keeps {id : String} (h : id ∈ c.index) (staged : List (TimelineEvent × Bin)) :
    id ∈ (c.storeAll staged).index := by
  induction staged generalizing c with
  | nil => exact h
  | cons entry staged ih => exact ih (ExtTreeMap.mem_insert.mpr (Or.inr h))

theorem storeAll_mem (c : EventCatalog) (h : entry ∈ staged) :
    entry.1.id ∈ (c.storeAll staged).index := by
  induction staged generalizing c with
  | nil => cases h
  | cons first staged ih =>
    rcases List.mem_cons.mp h with rfl | later
    · exact storeAll_keeps ExtTreeMap.mem_insert_self staged
    · exact ih _ later

theorem mem_take_of_le_getLast {rows : List (String × TimelineEvent)}
    (sorted : rows.Pairwise fun left right => left.1 < right.1) {row last : String × TimelineEvent}
    (hrow : row ∈ rows) (hlast : (rows.take limit).getLast? = some last) (hle : row.1 ≤ last.1) :
    row ∈ rows.take limit := by
  rw [← List.take_append_drop limit rows] at hrow sorted
  rcases List.mem_append.mp hrow with taken | dropped
  · exact taken
  · have hmem := List.mem_of_getLast? hlast
    have hlt := (List.pairwise_append.mp sorted).2.2 last hmem row dropped
    exact absurd hlt (not_lt.mpr hle)

theorem behind_sorted (c : EventCatalog) :
    c.behind.Pairwise fun left right => left.1 < right.1 := by
  apply List.Pairwise.filter
  apply ExtTreeMap.ordered_keys_toList.imp
  intro left right hlt
  exact compare_lt_iff_lt.mp hlt

theorem mem_behind {id : String} (h : c.events[id]? = some e)
    (unreached : ¬ ∃ cursor, c.cursor = some cursor ∧ id ≤ cursor) :
    (id, e) ∈ c.behind := by
  apply List.mem_filter.mpr
  refine ⟨ExtTreeMap.mem_toList_iff_getElem?_eq_some.mpr h, ?_⟩
  cases hcursor : c.cursor with
  | none => rfl
  | some cursor =>
    have : ¬ id ≤ cursor := fun hle => unreached ⟨cursor, hcursor, hle⟩
    simpa using this

theorem reconcile_events {current : Bool} (hafter : c.reconcile limit = .ok (after, current)) :
    after.events = c.events := by
  unfold reconcile at hafter
  split at hafter
  · split at hafter
    · cases hafter
    next staged _ =>
      cases hafter
      unfold advance
      split <;> exact (storeAll_frame c staged).1
  · cases hafter

section

variable (h : c.Indexed)
include h

theorem upsert_indexed {written : EventCatalog} (hwritten : c.upsert e = .ok written) :
    written.Indexed := by
  rcases upsert_index hwritten with ⟨hevents, hother, hown, hcursor, hcomplete⟩
  have stored : written.events[e.id]? = some e := by
    rw [hevents, ExtTreeMap.getElem?_insert_self]
  have others : ∀ id, id ≠ e.id → written.events[id]? = c.events[id]? := by
    intro id hne
    rw [hevents, getElem?_insert_of_ne hne]
  constructor
  · intro id other hid
    by_cases same : id = e.id
    · subst same
      rw [stored] at hid
      cases hid
      rfl
    · rw [others id same] at hid
      exact h.keyed id other hid
  · intro id row hrow
    by_cases same : id = e.id
    · subst same
      rw [hown] at hrow
      cases hrow
      exact ⟨e, stored, Or.inl rfl⟩
    · rw [hother id same] at hrow
      rw [others id same]
      exact h.current id row hrow
  · intro id other hid reached
    rw [hcursor, hcomplete] at reached
    by_cases same : id = e.id
    · subst same
      exact ExtTreeMap.mem_iff_isSome_getElem?.mpr (by rw [hown]; rfl)
    rw [others id same] at hid
    have := h.covered id other hid reached
    rw [ExtTreeMap.mem_iff_isSome_getElem?] at this ⊢
    rwa [hother id same]

theorem writeEvent_indexed (hafter : c.writeEvent e = .ok after) : after.Indexed := by
  unfold writeEvent at hafter
  split at hafter
  · cases hafter
  split at hafter
  · cases hafter
  next written hwritten =>
    unfold indexWrite at hafter
    split at hafter
    · cases hafter
    next bin hbin =>
      cases hafter
      apply store_indexed (upsert_indexed h hwritten) _ hbin
      rw [(upsert_index hwritten).1, ExtTreeMap.getElem?_insert_self]

theorem deleteEvent_indexed (id : String) : (c.deleteEvent id).Indexed where
  keyed other e hevent := h.keyed other e (getElem?_of_erase hevent)
  current other row hrow := by
    have hne := ne_of_getElem?_erase hrow
    rcases h.current other row (getElem?_of_erase hrow) with ⟨e, hevent, describes⟩
    exact ⟨e, (getElem?_erase_of_ne hne _).trans hevent, describes⟩
  covered other e hevent reached := by
    have hne := ne_of_getElem?_erase hevent
    have := h.covered other e (getElem?_of_erase hevent) reached
    rw [ExtTreeMap.mem_iff_isSome_getElem?] at this ⊢
    exact (congrArg Option.isSome (getElem?_erase_of_ne hne _)).trans this

theorem staged_canonical (hstaged : (c.batch limit).mapM stage = .ok staged)
    (hentry : entry ∈ staged) :
    c.events[entry.1.id]? = some entry.1 ∧ Bin.new entry.1.startTimeMs entry.1.endTimeMs =
      .ok entry.2 := by
  rcases staged_events hstaged with ⟨hrows, hbins⟩
  refine ⟨?_, hbins entry hentry⟩
  have hrow : some entry.1 ∈ c.batch limit := by
    rw [hrows]
    exact List.mem_map_of_mem hentry
  unfold batch at hrow
  split at hrow
  · rcases List.mem_map.mp hrow with ⟨row, _, hlookup⟩
    rw [h.keyed row.1 entry.1 hlookup]
    exact hlookup
  · rcases List.mem_map.mp hrow with ⟨row, htaken, hevent⟩
    have hmem := List.mem_of_mem_filter (List.mem_of_mem_take htaken)
    have hlookup := ExtTreeMap.mem_toList_iff_getElem?_eq_some.mp hmem
    rw [← Option.some.inj hevent, h.keyed row.1 row.2 hlookup]
    exact hlookup

theorem storeAll_indexed
    (hstaged : ∀ entry ∈ staged, c.events[entry.1.id]? = some entry.1 ∧
      Bin.new entry.1.startTimeMs entry.1.endTimeMs = .ok entry.2) :
    (c.storeAll staged).Indexed := by
  induction staged generalizing c with
  | nil => exact h
  | cons entry staged ih =>
    have first := hstaged entry List.mem_cons_self
    apply ih (store_indexed h first.1 first.2)
    intro other hother
    exact hstaged other (List.mem_cons_of_mem _ hother)

theorem migrated_covered (hincomplete : c.complete = false)
    (hstaged : (c.batch limit).mapM stage = .ok staged) {id : String}
    (hevent : c.events[id]? = some e)
    (reached : staged.length < limit ∨ ∃ cursor, (staged.getLast?.map fun entry =>
      entry.1.id).or c.cursor = some cursor ∧ id ≤ cursor) : id ∈ (c.storeAll staged).index := by
  have hbatch : c.batch limit = (c.behind.take limit).map fun row => some row.2 := by
    unfold batch
    rw [if_neg (by rw [hincomplete]; exact Bool.false_ne_true)]
  have hrows := (staged_events hstaged).1
  rw [hbatch] at hrows
  by_cases already : ∃ cursor, c.cursor = some cursor ∧ id ≤ cursor
  · exact storeAll_keeps (h.covered id e hevent (Or.inr already)) staged
  have hbehind := mem_behind hevent already
  have htaken : (id, e) ∈ c.behind.take limit := by
    rcases reached with short | ⟨cursor, hcursor, hle⟩
    · have hlength := congrArg List.length hrows
      rw [List.length_map, List.length_map, List.length_take] at hlength
      rwa [List.take_of_length_le (by omega)]
    · cases hlast : (c.behind.take limit).getLast? with
      | none =>
        -- An empty batch keeps the old cursor, which has not reached the event.
        have hlast' := congrArg List.getLast? hrows
        rw [List.getLast?_map, List.getLast?_map, hlast] at hlast'
        have hnone : staged.getLast? = none := by
          cases hstagedLast : staged.getLast? with
          | none => rfl
          | some entry =>
            rw [hstagedLast] at hlast'
            cases hlast'
        rw [hnone] at hcursor
        exact absurd ⟨cursor, hcursor, hle⟩ already
      | some last =>
        have hlast' := congrArg List.getLast? hrows
        rw [List.getLast?_map, List.getLast?_map, hlast] at hlast'
        apply mem_take_of_le_getLast (behind_sorted c) hbehind hlast
        cases hstagedLast : staged.getLast? with
        | none =>
          rw [hstagedLast] at hlast'
          cases hlast'
        | some entry =>
          rw [hstagedLast] at hlast' hcursor
          have hentry : last.2 = entry.1 := Option.some.inj (Option.some.inj hlast')
          have hkey : last.2.id = last.1 := by
            apply h.keyed last.1 last.2
            apply ExtTreeMap.mem_toList_iff_getElem?_eq_some.mp
            exact List.mem_of_mem_filter (List.mem_of_mem_take (List.mem_of_getLast? hlast))
          have hcursor' : entry.1.id = cursor := Option.some.inj hcursor
          rw [← hkey, hentry, hcursor']
          exact hle
  have hentry : some e ∈ staged.map fun entry => some entry.1 := by
    rw [← hrows]
    exact List.mem_map.mpr ⟨(id, e), htaken, rfl⟩
  rcases List.mem_map.mp hentry with ⟨entry, hmem, hsame⟩
  rw [← h.keyed id e hevent, ← Option.some.inj hsame]
  exact storeAll_mem c hmem

theorem reconcile_indexed {current : Bool} (hafter : c.reconcile limit = .ok (after, current)) :
    after.Indexed := by
  unfold reconcile at hafter
  split at hafter
  · split at hafter
    · cases hafter
    next staged hstaged =>
      cases hafter
      have hstored := storeAll_indexed h fun entry hentry => staged_canonical h hstaged hentry
      rcases storeAll_frame c staged with ⟨hevents, hcursor, hcomplete⟩
      unfold advance
      rw [hcomplete]
      split
      · exact hstored
      next hincomplete =>
        constructor
        · exact hstored.keyed
        · exact hstored.current
        · intro id e hevent reached
          dsimp only at hevent reached
          rw [hevents] at hevent
          apply migrated_covered h (eq_false_of_ne_true hincomplete) hstaged hevent
          rw [hcursor, decide_eq_true_eq] at reached
          exact reached
  · cases hafter

end

theorem step_indexed (c : EventCatalog) (op : EventOp) (h : c.Indexed) : (c.step op).Indexed := by
  cases op with
  | write e =>
    unfold step
    dsimp only
    split
    next written hwritten => exact writeEvent_indexed h hwritten
    next => exact h
  | delete id => exact deleteEvent_indexed h id
  | reconcile limit =>
    unfold step
    dsimp only
    split
    next reconciled current hreconciled => exact reconcile_indexed h hreconciled
    next => exact h

theorem run_indexed (legacy : List TimelineEvent) (ops : List EventOp) : (run legacy ops).Indexed :=
  foldl_invariant step_indexed (initializeIndex_indexed legacy) ops

end EventCatalog

end KeepPeek.Retention
