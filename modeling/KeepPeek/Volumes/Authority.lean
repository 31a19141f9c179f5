import KeepPeek.Volumes.Balance

/-! Which copy of an object is authoritative. The three tables are tied together by
one invariant: before a move is published its source is what `lookup` returns, after
that its destination is, and only then may the source be given up. -/
namespace KeepPeek.Volumes

open Lib
open Std (ExtTreeMap)

/-- Published, with the source not yet given up. -/
def Phase.handedOver : Phase → Bool
  | .published | .retiring => true
  | _ => false

theorem sameText_comm (left right : String) : sameText left right = sameText right left := by
  unfold sameText
  exact Bool.beq_comm

theorem Row.conflicts_comm (row other : Row) : row.conflicts other = other.conflicts row := by
  unfold Row.conflicts
  rw [sameText_comm row.relativeKey, sameText_comm row.destinationPath]
  simp only [eq_comm]

abbrev Row.Evidenced (row : Row) : Prop :=
  row.state = .published → row.fileIdentity.isSome = true ∧ row.digest.isSome = true

namespace Ledger

variable {ledger after : Ledger} {op : String} {old row : Row}
variable {object : Object} {owned outstanding pending : Int} {id : String} {m before : Move}
  {phase : Phase} {location : Location} {middle : Ledger} {answers : Answers} {job : Job}

/-- The row that `lookup` finds for an object. -/
structure Visible (ledger : Ledger) (object : Object) (operation : String) (row : Row) : Prop where
  found : ledger.allocations[operation]? = some row
  object : row.object = object
  state : row.state = .published
  current : ledger.hidden operation = false

structure Entry (ledger : Ledger) (move : Move) : Prop where
  source : ∃ row, ledger.allocations[move.sourceOperation]? = some row ∧ row.state ≠ .reserved
  early : move.phase.early = true → ∃ row,
    ledger.Visible move.object move.sourceOperation row ∧ row.locationRevision = move.sourceRevision
  handedOver : move.phase.handedOver = true → ∃ source row,
    ledger.allocations[move.sourceOperation]? = some source ∧
      ledger.Visible move.object move.destinationOperation row ∧
      row.locationRevision = move.sourceRevision + 1 ∧ row.bytes = source.bytes ∧
      row.digest = source.digest
  complete : move.phase = .complete → ∃ row,
    ledger.allocations[move.sourceOperation]? = some row ∧ row.state = .cancelled

abbrev Unique (rows : ExtTreeMap String Row) : Prop :=
  ∀ (first second : String) row other, rows[first]? = some row → rows[second]? = some other →
    first ≠ second → row.conflicts other = false

def Unmoved (ledger : Ledger) (operation : String) (retirement : Retirement) : Prop :=
  ∃ row, ledger.allocations[operation]? = some row ∧ row.state ≠ .reserved ∧
    row.object = ⟨.recording, retirement.recordingId⟩ ∧
    ∀ (id : String) move, ledger.moves[id]? = some move → move.object = row.object →
      move.phase.finished = true

structure Consistent (ledger : Ledger) : Prop where
  unique : Unique ledger.allocations
  evidenced : ∀ (operation : String) row, ledger.allocations[operation]? = some row → row.Evidenced
  entries : ∀ (id : String) move, ledger.moves[id]? = some move → ledger.Entry move
  single : ∀ (first second : String) move other, ledger.moves[first]? = some move →
    ledger.moves[second]? = some other → move.phase.finished = false →
    other.phase.finished = false → move.object = other.object → first = second
  retiring : ∀ (operation : String) retirement, ledger.retirements[operation]? = some retirement →
    retirement.complete = false → ledger.Unmoved operation retirement

theorem Consistent.entry (h : ledger.Consistent) (hmove : ledger.moves[id]? = some m) :
    ledger.Entry m :=
  h.entries id m hmove

theorem initial_consistent : initial.Consistent := by
  constructor
  all_goals
    intros
    simp_all [initial, Unique]

/-- A later form of a row that an entry has as its source. -/
structure StandsFor (row found : Row) : Prop where
  state : row.state ≠ .reserved
  bytes : row.bytes = found.bytes
  digest : row.digest = found.digest
  cancelled : found.state = .cancelled → row.state = .cancelled

/-- An entry holds on while its source stands and what it relies on is still shown. -/
theorem Entry.transport (entry : ledger.Entry m)
    (source : ∀ row, ledger.allocations[m.sourceOperation]? = some row → row.state ≠ .reserved →
      ∃ row', after.allocations[m.sourceOperation]? = some row' ∧ StandsFor row' row)
    (early : ∀ row, m.phase.early = true → ledger.Visible m.object m.sourceOperation row →
      after.Visible m.object m.sourceOperation row)
    (handedOver : ∀ row, m.phase.handedOver = true →
      ledger.Visible m.object m.destinationOperation row →
      after.Visible m.object m.destinationOperation row) : after.Entry m := by
  rcases entry.source with ⟨row, hrow, hstate⟩
  rcases source row hrow hstate with ⟨row', hrow', stands⟩
  refine ⟨⟨row', hrow', stands.state⟩, ?_, ?_, ?_⟩
  · intro hearly
    rcases entry.early hearly with ⟨shown, visible, revision⟩
    exact ⟨shown, early shown hearly visible, revision⟩
  · intro hphase
    rcases entry.handedOver hphase with ⟨own, shown, hown, visible, revision, bytes, digest⟩
    cases Option.mem_unique hrow hown
    exact ⟨row', shown, hrow', handedOver shown hphase visible, revision,
      bytes.trans stands.bytes.symm, digest.trans stands.digest.symm⟩
  · intro hphase
    rcases entry.complete hphase with ⟨own, hown, cancelled⟩
    cases Option.mem_unique hrow hown
    exact ⟨row', hrow', stands.cancelled cancelled⟩

/-- Every object keeps the row it shows. -/
def SameView (ledger after : Ledger) : Prop :=
  ∀ object operation row, ledger.Visible object operation row → after.Visible object operation row

theorem SameView.trans (first : SameView ledger middle) (second : SameView middle after) :
    SameView ledger after :=
  fun object op row visible => second object op row (first object op row visible)

structure Keeps (ledger after : Ledger) : Prop where
  consistent : after.Consistent
  view : SameView ledger after

theorem Keeps.refl (h : ledger.Consistent) : Keeps ledger ledger :=
  ⟨h, fun _ _ _ visible => visible⟩

theorem Keeps.trans (first : Keeps ledger middle) (second : Keeps middle after) :
    Keeps ledger after :=
  ⟨second.consistent, first.view.trans second.view⟩

theorem Entry.kept (entry : ledger.Entry m)
    (rows : ∀ (op : String) row, ledger.allocations[op]? = some row →
      row.state ≠ .reserved → after.allocations[op]? = some row)
    (view : SameView ledger after) : after.Entry m := by
  refine entry.transport ?_ (fun row _ => view _ _ row) (fun row _ => view _ _ row)
  intro row hrow hstate
  exact ⟨row, rows _ row hrow hstate, hstate, rfl, rfl, fun cancelled => cancelled⟩

theorem hidden_iff (op : String) : ledger.hidden op = true ↔
    ∃ (id : String) (m : Move), ledger.moves[id]? = some m ∧
      m.sourceOperation = op ∧ m.phase.superseded = true := by
  unfold hidden
  rw [List.any_eq_true]
  constructor
  · rintro ⟨⟨id, m⟩, hmove, matched⟩
    simp only [Bool.and_eq_true, decide_eq_true_eq] at matched
    exact ⟨id, m, ExtTreeMap.mem_toList_iff_getElem?_eq_some.mp hmove, matched.1, matched.2⟩
  · rintro ⟨id, m, hmove, hsource, superseded⟩
    refine ⟨(id, m), ExtTreeMap.mem_toList_iff_getElem?_eq_some.mpr hmove, ?_⟩
    simp [hsource, superseded]

/-- A move that supersedes the row had one before it that did. -/
def HidesNoMore (ledger after : Ledger) (operation : String) : Prop :=
  ∀ (id : String) move, after.moves[id]? = some move →
    move.sourceOperation = operation → move.phase.superseded = true →
    ∃ (other : String) (found : Move), ledger.moves[other]? = some found ∧
      found.sourceOperation = operation ∧ found.phase.superseded = true

theorem hidden_mono (current : ledger.hidden op = false)
    (moves : HidesNoMore ledger after op) : after.hidden op = false := by
  by_contra visible
  rw [Bool.not_eq_false, hidden_iff] at visible
  rcases visible with ⟨id, m, hmove, hsource, superseded⟩
  have still := (hidden_iff op).mpr (moves id m hmove hsource superseded)
  rw [current] at still
  cases still

theorem uniqueRow_iff : ledger.uniqueRow op row = true ↔
    ∀ (other : String) found, ledger.allocations[other]? = some found → other ≠ op →
      row.conflicts found = false := by
  unfold uniqueRow
  rw [List.all_eq_true]
  constructor
  · intro h other found hfound hne
    have entry := h (other, found) (ExtTreeMap.mem_toList_iff_getElem?_eq_some.mpr hfound)
    simpa [hne] using entry
  · rintro h ⟨other, found⟩ hentry
    by_cases same : other = op
    · simp [same]
    · simp [h other found (ExtTreeMap.mem_toList_iff_getElem?_eq_some.mp hentry) same]

theorem unique_insert (unique : Unique ledger.allocations) (hrow : ledger.uniqueRow op row = true) :
    Unique (ledger.allocations.insert op row) := by
  intro first second left right hfirst hsecond hne
  rw [uniqueRow_iff] at hrow
  rcases getElem?_insert_cases hfirst with ⟨rfl, rfl⟩ | ⟨hfirstne, hleft⟩
  · rcases getElem?_insert_cases hsecond with ⟨rfl, rfl⟩ | ⟨_, hright⟩
    · exact absurd rfl hne
    · exact hrow second right hright (Ne.symm hne)
  · rcases getElem?_insert_cases hsecond with ⟨rfl, rfl⟩ | ⟨_, hright⟩
    · rw [Row.conflicts_comm]
      exact hrow first left hleft hne
    · exact unique first second left right hleft hright hne

section

variable (visible : ledger.Visible object op row)
include visible

theorem Visible.not_reserved : row.state ≠ .reserved := by
  rw [visible.state]
  decide

theorem Visible.mono (found : after.allocations[op]? = some row)
    (moves : HidesNoMore ledger after op) : after.Visible object op row :=
  ⟨found, visible.object, visible.state, hidden_mono visible.current moves⟩

theorem Visible.of_moves (found : after.allocations[op]? = some row)
    (moves : after.moves = ledger.moves) : after.Visible object op row := by
  apply visible.mono found
  intro id m hmove hsource superseded
  rw [moves] at hmove
  exact ⟨id, m, hmove, hsource, superseded⟩

end

/-- Rows that were more than reserved stay, and all rows are unique and evidenced. -/
structure KeepsRows (ledger after : Ledger) : Prop where
  kept : ∀ (operation : String) row, ledger.allocations[operation]? = some row →
    row.state ≠ .reserved → after.allocations[operation]? = some row
  unique : Unique after.allocations
  evidenced : ∀ (operation : String) row, after.allocations[operation]? = some row → row.Evidenced

section

variable (h : ledger.Consistent)
include h

/-- Writes that touch only rows no move can see: reserved ones and new ones. -/
theorem Consistent.of_rows (moves : after.moves = ledger.moves) (rows : KeepsRows ledger after)
    (retiring : ∀ (op : String) retirement, after.retirements[op]? = some retirement →
      retirement.complete = false → ledger.Unmoved op retirement) : Keeps ledger after := by
  have view : SameView ledger after := by
    intro object op row visible
    exact visible.of_moves (rows.kept op row visible.found visible.not_reserved) moves
  refine ⟨⟨rows.unique, rows.evidenced, ?_, moves ▸ h.single, ?_⟩, view⟩
  · intro id m hmove
    rw [moves] at hmove
    exact (h.entry hmove).kept rows.kept view
  · intro op retirement hretirement hincomplete
    unfold Unmoved
    rw [moves]
    rcases retiring op retirement hretirement hincomplete with ⟨row, hrow, hstate, hrest⟩
    exact ⟨row, rows.kept _ row hrow hstate, hstate, hrest⟩

theorem Consistent.of_kept (moves : after.moves = ledger.moves)
    (retirements : after.retirements = ledger.retirements) (rows : KeepsRows ledger after) :
    Keeps ledger after := by
  apply h.of_rows moves rows
  rw [retirements]
  exact h.retiring

theorem Written.keeps (written : Written ledger after op row owned outstanding pending)
    (unseen : ∀ old, ledger.allocations[op]? = some old → old.state = .reserved)
    (evidence : row.Evidenced) : Keeps ledger after := by
  refine h.of_kept written.moves written.retirements ⟨?_, ?_, ?_⟩
  · intro other found hfound hstate
    rw [written.allocations]
    have hne : other ≠ op := by
      rintro rfl
      exact hstate (unseen found hfound)
    rw [getElem?_insert_of_ne hne]
    exact hfound
  · rw [written.allocations]
    exact unique_insert h.unique written.unique
  · intro other found hfound hstate
    rw [written.allocations] at hfound
    rcases getElem?_insert_cases hfound with ⟨rfl, rfl⟩ | ⟨_, hfound⟩
    · exact evidence hstate
    · exact h.evidenced other found hfound hstate

theorem Consistent.of_same (allocations : after.allocations = ledger.allocations)
    (moves : after.moves = ledger.moves) (retirements : after.retirements = ledger.retirements) :
    Keeps ledger after := by
  refine h.of_kept moves retirements ⟨?_, ?_, ?_⟩ <;> rw [allocations]
  · exact fun _ _ hrow _ => hrow
  · exact h.unique
  · exact h.evidenced

theorem Consistent.cancelled (hold : ledger.allocations[op]? = some old)
    (written : Written ledger after op (withState old .cancelled) owned outstanding pending)
    (loose : ∀ (id : String) m, ledger.moves[id]? = some m →
      (m.phase.early = true → m.sourceOperation ≠ op) ∧
      (m.phase.handedOver = true → m.destinationOperation ≠ op)) :
    after.Consistent := by
  have others : ∀ (other : String) found, ledger.allocations[other]? = some found →
      other ≠ op → after.allocations[other]? = some found := by
    intro other found hfound hne
    rw [written.allocations, getElem?_insert_of_ne hne]
    exact hfound
  have itself : after.allocations[op]? = some (withState old .cancelled) := by
    rw [written.allocations, ExtTreeMap.getElem?_insert_self]
  have visible : ∀ object other row, other ≠ op → ledger.Visible object other row →
      after.Visible object other row := by
    intro object other row hne hvisible
    exact hvisible.of_moves (others other row hvisible.found hne) written.moves
  -- A row that is not reserved stays so, with its object.
  have given : ∀ (other : String) found, ledger.allocations[other]? = some found →
      found.state ≠ .reserved → ∃ row, after.allocations[other]? = some row ∧
        row.object = found.object ∧ StandsFor row found := by
    intro other found hfound hstate
    by_cases same : other = op
    · subst same
      rw [hold] at hfound
      cases hfound
      exact ⟨_, itself, rfl, (nofun), rfl, rfl, fun _ => rfl⟩
    · exact ⟨found, others other found hfound same, rfl, hstate, rfl, rfl, id⟩
  constructor
  · rw [written.allocations]
    exact unique_insert h.unique written.unique
  · intro other found hfound hstate
    rw [written.allocations] at hfound
    rcases getElem?_insert_cases hfound with ⟨rfl, rfl⟩ | ⟨_, hfound⟩
    · cases hstate
    · exact h.evidenced other found hfound hstate
  · intro id m hmove
    rw [written.moves] at hmove
    apply (h.entry hmove).transport
    · intro row hrow hstate
      rcases given _ row hrow hstate with ⟨row', hrow', _, stands⟩
      exact ⟨row', hrow', stands⟩
    · intro row hearly
      exact visible _ _ row ((loose id m hmove).1 hearly)
    · intro row hphase
      exact visible _ _ row ((loose id m hmove).2 hphase)
  · rw [written.moves]
    exact h.single
  · intro other retirement hretirement hincomplete
    rw [written.retirements] at hretirement
    unfold Unmoved
    rw [written.moves]
    rcases h.retiring other retirement hretirement hincomplete
      with ⟨row, hrow, hstate, hobject, hmoves⟩
    rcases given _ row hrow hstate with ⟨row', hrow', hobject', stands⟩
    refine ⟨row', hrow', stands.state, hobject'.trans hobject, ?_⟩
    rw [hobject']
    exact hmoves

end

theorem Keeps.bump (keeps : Keeps ledger middle) (hbump : middle.bumpRevision = some after) :
    Keeps ledger after := by
  cases bumpRevision_eq_some hbump
  exact keeps.trans (keeps.consistent.of_same rfl rfl rfl)

theorem Consistent.bump (h : ledger.Consistent) (hbump : ledger.bumpRevision = some after) :
    after.Consistent :=
  ((Keeps.refl h).bump hbump).consistent

/-- A later form of a journal entry that hides no more than it did. -/
structure Continues (ledger : Ledger) (move before : Move) : Prop where
  object : move.object = before.object
  sourceOperation : move.sourceOperation = before.sourceOperation
  destinationOperation : move.destinationOperation = before.destinationOperation
  sourceRevision : move.sourceRevision = before.sourceRevision
  superseded : move.phase.superseded = true → before.phase.superseded = true
  early : move.phase.early = true → before.phase.early = true
  handedOver : move.phase.handedOver = true → before.phase.handedOver = true
  unfinished : move.phase.finished = false → before.phase.finished = false
  complete : move.phase = .complete → ∃ row,
    ledger.allocations[move.sourceOperation]? = some row ∧ row.state = .cancelled
  cancelled : move.phase = .cancelled → before.phase = .cancelled ∨ before.phase.early = true

theorem Entry.continues (entry : ledger.Entry before) (continues : ledger.Continues m before) :
    ledger.Entry m := by
  refine ⟨?_, ?_, ?_, continues.complete⟩
  · rw [continues.sourceOperation]
    exact entry.source
  · rw [continues.object, continues.sourceOperation, continues.sourceRevision]
    exact fun hearly => entry.early (continues.early hearly)
  · rw [continues.object, continues.sourceOperation, continues.sourceRevision,
      continues.destinationOperation]
    exact fun hphase => entry.handedOver (continues.handedOver hphase)

section

variable (h : ledger.Consistent)
include h

/-- Steps of the journal that leave the allocations alone: every entry continues one
that was there. -/
theorem Consistent.of_moves (allocations : after.allocations = ledger.allocations)
    (retirements : after.retirements = ledger.retirements)
    (moves : ∀ (id : String) m, after.moves[id]? = some m → ∃ before, ledger.moves[id]? =
      some before ∧ ledger.Continues m before) : Keeps ledger after := by
  have view : SameView ledger after := by
    intro object op row visible
    apply visible.mono
    · rw [allocations]
      exact visible.found
    · intro id m hmove hsource superseded
      rcases moves id m hmove with ⟨before, hbefore, continues⟩
      exact ⟨id, before, hbefore, continues.sourceOperation.symm.trans hsource,
        continues.superseded superseded⟩
  refine ⟨⟨?_, ?_, ?_, ?_, ?_⟩, view⟩
  · rw [allocations]
    exact h.unique
  · rw [allocations]
    exact h.evidenced
  · intro id m hmove
    rcases moves id m hmove with ⟨before, hbefore, continues⟩
    refine ((h.entry hbefore).continues continues).kept ?_ view
    rw [allocations]
    exact fun _ _ hrow _ => hrow
  · intro first second m other hfirst hsecond hunfinished hother hobject
    rcases moves first m hfirst with ⟨before, hbefore, continues⟩
    rcases moves second other hsecond with ⟨before', hbefore', continues'⟩
    apply h.single first second before before' hbefore hbefore'
    · exact continues.unfinished hunfinished
    · exact continues'.unfinished hother
    · rw [← continues.object, hobject, continues'.object]
  · intro op retirement hretirement hincomplete
    rw [retirements] at hretirement
    unfold Unmoved
    rw [allocations]
    rcases h.retiring op retirement hretirement hincomplete
      with ⟨row, hrow, hstate, hobject, hmoves⟩
    refine ⟨row, hrow, hstate, hobject, ?_⟩
    intro id m hmove hsame
    rcases moves id m hmove with ⟨before, hbefore, continues⟩
    have finished := hmoves id before hbefore (continues.object.symm.trans hsame)
    by_contra unfinished
    rw [continues.unfinished (eq_false_of_ne_true unfinished)] at finished
    cases finished

theorem Continues.refl (hmove : ledger.moves[id]? = some m) : ledger.Continues m m :=
  ⟨rfl, rfl, rfl, rfl, fun s => s, fun s => s, fun s => s, fun s =>
    s, (h.entry hmove).complete, Or.inl⟩

theorem setMove_keeps (hbefore : ledger.moves[id]? = some before)
    (continues : ledger.Continues m before) : Keeps ledger (ledger.setMove id m) := by
  refine h.of_moves rfl rfl ?_
  intro other found hfound
  rcases getElem?_insert_cases hfound with ⟨rfl, rfl⟩ | ⟨_, hfound⟩
  · exact ⟨before, hbefore, continues⟩
  · exact ⟨found, hfound, .refl h hfound⟩

theorem forgetReceipts_keeps : Keeps ledger ledger.forgetReceipts := by
  refine h.of_moves rfl rfl ?_
  intro id m hmove
  rw [forgetReceipts, setMoves, ExtTreeMap.getElem?_filter', Option.filter_eq_some_iff] at hmove
  exact ⟨m, hmove.1, .refl h hmove.1⟩

theorem Consistent.insertMove (visible : ledger.Visible m.object m.sourceOperation row)
    (revision : row.locationRevision = m.sourceRevision) (phase : m.phase = .reserved)
    (free : ∀ (other : String) found, ledger.moves[other]? = some found → found.phase.finished =
      true ∨ found.object ≠ m.object)
    (active : ∀ (op : String) retirement, ledger.retirements[op]? = some retirement →
      m.object ≠ ⟨.recording, retirement.recordingId⟩) :
    Keeps ledger (ledger.setMove id m) := by
  have still : SameView ledger (ledger.setMove id m) := by
    intro object op row hvisible
    refine hvisible.mono hvisible.found ?_
    intro other found hfound hsource superseded
    rcases getElem?_insert_cases hfound with ⟨_, rfl⟩ | ⟨_, hfound⟩
    · rw [phase] at superseded
      cases superseded
    · exact ⟨other, found, hfound, hsource, superseded⟩
  refine ⟨⟨h.unique, h.evidenced, ?_, ?_, ?_⟩, still⟩
  · intro other found hfound
    rcases getElem?_insert_cases hfound with ⟨_, rfl⟩ | ⟨_, hfound⟩
    · refine ⟨⟨row, visible.found, visible.not_reserved⟩,
        fun _ => ⟨row, still _ _ row visible, revision⟩, ?_, ?_⟩
      · rw [phase]
        exact nofun
      · rw [phase]
        exact nofun
    · exact (h.entry hfound).kept (fun _ _ hrow _ => hrow) still
  · intro first second left right hfirst hsecond hleft hright hobject
    rcases getElem?_insert_cases hfirst with ⟨rfl, rfl⟩ | ⟨_, known⟩
    · rcases getElem?_insert_cases hsecond with ⟨rfl, _⟩ | ⟨_, known⟩
      · rfl
      rcases free second right known with finished | other
      · rw [hright] at finished
        cases finished
      · exact absurd hobject.symm other
    · rcases getElem?_insert_cases hsecond with ⟨rfl, rfl⟩ | ⟨_, known'⟩
      · rcases free first left known with finished | other
        · rw [hleft] at finished
          cases finished
        · exact absurd hobject other
      · exact h.single first second left right known known' hleft hright hobject
  · intro op retirement hretirement hincomplete
    rcases h.retiring op retirement hretirement hincomplete
      with ⟨row', hrow', hstate, hobject, hmoves⟩
    refine ⟨row', hrow', hstate, hobject, ?_⟩
    intro other found hfound hsame
    rcases getElem?_insert_cases hfound with ⟨_, rfl⟩ | ⟨_, hfound⟩
    · exact absurd (hsame.trans hobject) (active op retirement hretirement)
    · exact hmoves other found hfound hsame

end

theorem lookupRow_eq_some (h : ledger.lookupRow object = some (op, row)) :
    ledger.Visible object op row := by
  have hmem := List.mem_of_find?_eq_some h
  have hmatch := List.find?_some h
  simp only [Bool.and_eq_true, decide_eq_true_eq, Bool.not_eq_true'] at hmatch
  exact ⟨ExtTreeMap.mem_toList_iff_getElem?_eq_some.mp hmem, hmatch.1, hmatch.2.1, hmatch.2.2⟩

theorem Consistent.visible_unique (h : ledger.Consistent) {first second : String} {left right : Row}
    (hfirst : ledger.Visible object first left) (hsecond : ledger.Visible object second right) :
    first = second ∧ left = right := by
  have same : first = second := by
    by_contra hne
    have conflict := h.unique first second left right hfirst.found hsecond.found hne
    unfold Row.conflicts at conflict
    rw [hfirst.object, hsecond.object] at conflict
    simp at conflict
  subst same
  exact ⟨rfl, Option.mem_unique hfirst.found hsecond.found⟩

theorem Consistent.lookupRow_of_visible (h : ledger.Consistent)
    (visible : ledger.Visible object op row) :
    ledger.lookupRow object = some (op, row) := by
  cases hlookup : ledger.lookupRow object with
  | none =>
    have hnone := List.find?_eq_none.mp hlookup (op, row)
      (ExtTreeMap.mem_toList_iff_getElem?_eq_some.mpr visible.found)
    simp [visible.object, visible.state, visible.current] at hnone
  | some entry =>
    rcases h.visible_unique visible (lookupRow_eq_some hlookup) with ⟨hoperation, hrow⟩
    rw [hoperation, hrow]

theorem Phase.superseded_of_handedOver (h : phase.handedOver = true) : phase.superseded = true := by
  cases phase with
  | published => rfl
  | retiring => rfl
  | _ => cases h

theorem Phase.unfinished_of_early (h : phase.early = true) : phase.finished = false := by
  cases phase with
  | reserved => rfl
  | verified => rfl
  | filePublished => rfl
  | _ => cases h

theorem Phase.unfinished_of_handedOver (h : phase.handedOver = true) : phase.finished = false := by
  cases phase with
  | published => rfl
  | retiring => rfl
  | _ => cases h

/-- The tables after a move is published: the source renamed, the destination in its
place, the journal entry advanced. -/
structure Swapped (ledger after : Ledger) (job : Job) : Prop where
  allocations : after.allocations =
    (ledger.allocations.insert job.move.sourceOperation (retiredRow job.sourceRow job.id)).insert
      job.move.destinationOperation (movedRow job.destination job)
  moves : after.moves = ledger.moves.insert job.id (withPhase job.move .published)
  retirements : after.retirements = ledger.retirements
  unique : Unique after.allocations

structure Publishable (ledger : Ledger) (job : Job) : Prop where
  move : ledger.moves[job.id]? = some job.move
  source : ledger.allocations[job.move.sourceOperation]? = some job.sourceRow
  destination : ledger.allocations[job.move.destinationOperation]? = some job.destination
  location : job.sourceRow.location job.move.object job.move.sourceRevision = some job.source
  phase : job.move.phase = .filePublished
  reserved : job.destination.state = .reserved
  identity : job.destination.fileIdentity.isSome = true
  digest : job.destination.digest = some job.source.digest

theorem location_eq_some {revision : Nat} (h : row.location object revision = some location) :
    location.object = object ∧ location.volume = row.volume ∧ location.generation = row.generation ∧
      location.relativeKey = row.relativeKey ∧ location.revision = revision ∧
      location.bytes = row.bytes ∧ row.fileIdentity = some location.fileIdentity ∧
      row.digest = some location.digest := by
  unfold Row.location at h
  split at h
  next identity digest hidentity hdigest =>
    cases h
    exact ⟨rfl, rfl, rfl, rfl, rfl, rfl, hidentity, hdigest⟩
  next => cases h

section Publishing

variable (swapped : Swapped ledger after job) (ready : ledger.Publishable job)
  (h : ledger.Consistent)

section

include ready

theorem Publishable.early : job.move.phase.early = true := by
  rw [ready.phase]
  rfl

theorem Publishable.unfinished : job.move.phase.finished = false :=
  Phase.unfinished_of_early ready.early

/-- The destination is in no other role: all of them need a row that is not reserved. -/
theorem Publishable.ne_destination {other : String} {found : Row}
    (hfound : ledger.allocations[other]? = some found) (hstate : found.state ≠ .reserved) :
    other ≠ job.move.destinationOperation := by
  rintro rfl
  cases Option.mem_unique hfound ready.destination
  exact hstate ready.reserved

include h

theorem Publishable.visible :
    ledger.Visible job.move.object job.move.sourceOperation job.sourceRow ∧
      job.sourceRow.locationRevision = job.move.sourceRevision := by
  rcases (h.entry ready.move).early ready.early with ⟨row, visible, revision⟩
  cases Option.mem_unique visible.found ready.source
  exact ⟨visible, revision⟩

theorem Publishable.source_ne_destination :
    job.move.sourceOperation ≠ job.move.destinationOperation := by
  exact ready.ne_destination ready.source (ready.visible h).1.not_reserved

/-- No other unfinished move has its source or its destination in this source row. -/
theorem Publishable.ne_source {id : String} {other : Move} (hother : ledger.moves[id]? = some other)
    (hne : id ≠ job.id) (unfinished : other.phase.finished = false) {op : String} {found : Row}
    (visible : ledger.Visible other.object op found) : op ≠ job.move.sourceOperation := by
  rintro rfl
  cases Option.mem_unique visible.found ready.source
  have object : other.object = job.move.object := visible.object.symm.trans
    (ready.visible h).1.object
  exact hne (h.single id job.id other job.move hother ready.move unfinished ready.unfinished object)

end

include swapped

theorem Swapped.destination :
    after.allocations[job.move.destinationOperation]? = some (movedRow job.destination job) := by
  rw [swapped.allocations, ExtTreeMap.getElem?_insert_self]

theorem Swapped.other {other : String} (hsource : other ≠ job.move.sourceOperation)
    (hdestination : other ≠ job.move.destinationOperation) :
    after.allocations[other]? = ledger.allocations[other]? := by
  rw [swapped.allocations, getElem?_insert_of_ne hdestination, getElem?_insert_of_ne hsource]

include ready

theorem Swapped.visible (visible : ledger.Visible object op row)
    (hne : op ≠ job.move.sourceOperation) : after.Visible object op row := by
  apply visible.mono
  · rw [swapped.other hne (ready.ne_destination visible.found visible.not_reserved)]
    exact visible.found
  · intro id m hmove hsource superseded
    rw [swapped.moves] at hmove
    rcases getElem?_insert_cases hmove with ⟨_, rfl⟩ | ⟨_, hmove⟩
    · exact absurd hsource.symm hne
    · exact ⟨id, m, hmove, hsource, superseded⟩

include h

theorem Swapped.source :
    after.allocations[job.move.sourceOperation]? = some (retiredRow job.sourceRow job.id) := by
  rw [swapped.allocations, getElem?_insert_of_ne (ready.source_ne_destination h),
    ExtTreeMap.getElem?_insert_self]

theorem Swapped.role {other : String} {found : Row}
    (hfound : ledger.allocations[other]? = some found) (hstate : found.state ≠ .reserved) :
    ∃ row, after.allocations[other]? = some row ∧ row.state = found.state ∧
      StandsFor row found := by
  by_cases same : other = job.move.sourceOperation
  · subst same
    cases Option.mem_unique hfound ready.source
    exact ⟨_, swapped.source ready h, rfl, hstate, rfl, rfl, fun cancelled => cancelled⟩
  · refine ⟨found, ?_, rfl, hstate, rfl, rfl, fun cancelled => cancelled⟩
    rw [swapped.other same (ready.ne_destination hfound hstate)]
    exact hfound

theorem Swapped.moved :
    after.Visible job.move.object job.move.destinationOperation (movedRow job.destination job) := by
  refine ⟨swapped.destination, rfl, rfl, ?_⟩
  by_contra shown
  rw [Bool.not_eq_false, hidden_iff] at shown
  rcases shown with ⟨id, m, hmove, hsource, _⟩
  rw [swapped.moves] at hmove
  rcases getElem?_insert_cases hmove with ⟨_, rfl⟩ | ⟨_, hmove⟩
  · exact ready.source_ne_destination h hsource
  · rcases (h.entry hmove).source with ⟨row, hrow, hstate⟩
    exact ready.ne_destination hrow hstate hsource

theorem Swapped.consistent : after.Consistent := by
  rcases location_eq_some ready.location with ⟨_, _, _, _, hrevision, hbytes, _, hdigest⟩
  refine ⟨swapped.unique, ?_, ?_, ?_, ?_⟩
  · intro other found hfound hstate
    rw [swapped.allocations] at hfound
    rcases getElem?_insert_cases hfound with ⟨_, rfl⟩ | ⟨_, hfound⟩
    · refine ⟨ready.identity, ?_⟩
      show job.destination.digest.isSome = true
      rw [ready.digest]
      rfl
    · rcases getElem?_insert_cases hfound with ⟨_, rfl⟩ | ⟨_, hfound⟩
      · exact h.evidenced _ job.sourceRow ready.source hstate
      · exact h.evidenced other found hfound hstate
  · intro id m hmove
    rw [swapped.moves] at hmove
    rcases getElem?_insert_cases hmove with ⟨_, rfl⟩ | ⟨hne, hmove⟩
    · refine ⟨⟨_, swapped.source ready h, (ready.visible h).1.not_reserved⟩, (nofun), ?_, (nofun)⟩
      intro _
      refine ⟨_, _, swapped.source ready h, swapped.moved ready h, ?_, hbytes, ?_⟩
      · show job.source.revision + 1 = job.move.sourceRevision + 1
        rw [hrevision]
      · show job.destination.digest = job.sourceRow.digest
        rw [ready.digest, hdigest]
    · have other := fun unfinished op found visible =>
        @Publishable.ne_source ledger job ready h id m hmove hne unfinished op found visible
      apply (h.entry hmove).transport
      · intro row hrow hstate
        rcases swapped.role ready h hrow hstate with ⟨row', hrow', _, stands⟩
        exact ⟨row', hrow', stands⟩
      · intro row hearly visible
        exact swapped.visible ready visible (other (Phase.unfinished_of_early hearly) _ row visible)
      · intro row hphase visible
        exact swapped.visible ready visible
          (other (Phase.unfinished_of_handedOver hphase) _ row visible)
  · -- The advanced entry is as unfinished as it was.
    have before : ∀ (id : String) m, after.moves[id]? = some m → m.phase.finished = false →
        ∃ found, ledger.moves[id]? = some found ∧ found.phase.finished = false ∧
          found.object = m.object := by
      intro id m hmove unfinished
      rw [swapped.moves] at hmove
      rcases getElem?_insert_cases hmove with ⟨rfl, rfl⟩ | ⟨_, hmove⟩
      · exact ⟨job.move, ready.move, ready.unfinished, rfl⟩
      · exact ⟨m, hmove, unfinished, rfl⟩
    intro first second m other hfirst hsecond hleft hright hobject
    rcases before first m hfirst hleft with ⟨left, hleft', unfinished, hobject'⟩
    rcases before second other hsecond hright with ⟨right, hright', unfinished', hobject''⟩
    exact h.single first second left right hleft' hright' unfinished unfinished'
      (hobject'.trans (hobject.trans hobject''.symm))
  · intro op retirement hretirement hincomplete
    rw [swapped.retirements] at hretirement
    rcases h.retiring op retirement hretirement hincomplete
      with ⟨row, hrow, hstate, hobject, hmoves⟩
    -- The object of this move is not being retired: the move is unfinished.
    have other : job.move.object ≠ row.object := by
      intro same
      have finished := hmoves job.id job.move ready.move same
      rw [ready.unfinished] at finished
      cases finished
    have hne : op ≠ job.move.sourceOperation := by
      rintro rfl
      cases Option.mem_unique hrow ready.source
      exact other (ready.visible h).1.object.symm
    refine ⟨row, ?_, hstate, hobject, ?_⟩
    · rw [swapped.other hne (ready.ne_destination hrow hstate)]
      exact hrow
    · intro id m hmove hsame
      rw [swapped.moves] at hmove
      rcases getElem?_insert_cases hmove with ⟨_, rfl⟩ | ⟨_, hmove⟩
      · exact absurd hsame other
      · exact hmoves id m hmove hsame

end Publishing

theorem Consistent.of_retirements (h : ledger.Consistent)
    (allocations : after.allocations = ledger.allocations) (moves : after.moves = ledger.moves)
    (retirements : ∀ (op : String) retirement, after.retirements[op]? = some retirement →
      retirement.complete = false →
      ledger.retirements[op]? = some retirement ∨ ledger.Unmoved op retirement) :
    after.Consistent := by
  refine (h.of_rows moves ?_ ?_).consistent
  · constructor <;> rw [allocations]
    · exact fun _ _ hrow _ => hrow
    · exact h.unique
    · exact h.evidenced
  · intro op retirement hretirement hincomplete
    rcases retirements op retirement hretirement hincomplete with known | fresh
    · exact h.retiring op retirement known hincomplete
    · exact fresh

/-! What the requests do. -/

section

variable (h : ledger.Consistent)
include h

theorem updateRow_keeps (hupdate : ledger.updateRow op old row = some after)
    (hold : ledger.allocations[op]? = some old) (reserved : old.state = .reserved)
    (volume : row.volume = old.volume) (evidence : row.Evidenced) : Keeps ledger after := by
  apply Written.keeps h (updateRow_written hupdate volume) _ evidence
  intro other hother
  cases Option.mem_unique hold hother
  exact reserved

theorem rewritten_keeps (hupdate : (ledger.updateRow op old row >>= bumpRevision) = some after)
    (hold : ledger.allocations[op]? = some old) (reserved : old.state = .reserved)
    (volume : row.volume = old.volume) (evidence : row.Evidenced) : Keeps ledger after := by
  obtain ⟨updated, hupdated, hbump⟩ := Option.bind_eq_some_iff.mp hupdate
  exact (updateRow_keeps h hupdated hold reserved volume evidence).bump hbump

theorem reserve_keeps {allocation : Allocation}
    (hreserve : ledger.reserve allocation answers = some after) :
    Keeps ledger after ∧ after.moves = ledger.moves ∧ after.retirements = ledger.retirements := by
  obtain ⟨_, ⟨rfl, _⟩ | ⟨fresh, path, _, hreserve⟩⟩ := reserve_eq_some hreserve
  · exact ⟨.refl h, rfl, rfl⟩
  obtain ⟨inserted, hinserted, hbump⟩ := Option.bind_eq_some_iff.mp hreserve
  rcases insertRow_written hinserted with ⟨_, written⟩
  have keeps : Keeps ledger inserted := by
    apply Written.keeps h written
    · intro old hold
      rw [fresh] at hold
      cases hold
    · intro published
      cases published
  refine ⟨keeps.bump hbump, ?_⟩
  cases bumpRevision_eq_some hbump
  exact ⟨written.moves, written.retirements⟩

theorem grow_keeps {growth : Growth} (hgrow : ledger.grow growth answers = some after) :
    Keeps ledger after := by
  obtain ⟨row, hrow, _, _, reserved, ⟨rfl, _⟩ | ⟨_, _, _, hgrow⟩⟩ := grow_eq_some hgrow
  · exact .refl h
  apply rewritten_keeps h hgrow hrow reserved rfl
  intro (published : row.state = .published)
  rw [reserved] at published
  cases published

theorem checkpoint_keeps {request : Materialization}
    (hcheckpoint : ledger.checkpoint request answers = some after) : Keeps ledger after := by
  obtain ⟨row, hrow, _, _, reserved, _, ⟨rfl, _⟩ | hcheckpoint⟩ := checkpoint_eq_some hcheckpoint
  · exact .refl h
  apply rewritten_keeps h hcheckpoint hrow reserved rfl
  intro (published : row.state = .published)
  rw [reserved] at published
  cases published

theorem publish_keeps {pub : Publication} (hpublish : ledger.publish pub answers = some after) :
    Keeps ledger after := by
  obtain ⟨_, _, row, hrow, ⟨rfl, _⟩ | ⟨reserved, hpublish⟩⟩ := publish_eq_some hpublish
  · exact .refl h
  · exact rewritten_keeps h hpublish hrow reserved rfl (fun _ => ⟨rfl, rfl⟩)

theorem setRecordings_keeps (recordings : ExtTreeMap String RecordingFile) :
    Keeps ledger (ledger.setRecordings recordings) :=
  h.of_same rfl rfl rfl

theorem finalize_keeps {pub : Publication} (hfinalize : ledger.finalize pub answers = some after) :
    Keeps ledger after := by
  obtain ⟨_, _, _, _, _, ⟨_, _, hfinalize⟩ | ⟨_, hfinalize⟩⟩ := finalize_eq_some hfinalize
  · exact publish_keeps h hfinalize
  · have recorded := setRecordings_keeps h
    exact (recorded _).trans (publish_keeps (recorded _).consistent hfinalize)

theorem setBindings_keeps (bindings : ExtTreeMap String Binding) :
    Keeps ledger (ledger.setBindings bindings) :=
  h.of_same rfl rfl rfl

theorem bind_keeps {cfg : BindingConfig} (hbind : ledger.bind id cfg = some after) :
    Keeps ledger after := by
  unfold Ledger.bind at hbind
  dsimp only at hbind
  split at hbind
  · split at hbind
    · exact (setBindings_keeps h _).bump hbind
    · cases hbind
  · split at hbind
    · exact (setBindings_keeps h _).bump hbind
    · cases hbind

theorem setDraining_keeps {volume : String} {generation : Nat} {draining : Bool}
    (hdraining : ledger.setDraining volume generation draining = some after) :
    Keeps ledger after := by
  obtain rfl | ⟨_, _, hdraining⟩ := setDraining_eq_some hdraining
  · exact .refl h
  · exact (setBindings_keeps h _).bump hdraining

end

structure Advances (ledger after : Ledger) : Prop extends Keeps ledger after where
  rows : ∀ (operation : String) row, ledger.allocations[operation]? = some row →
    row.state = .published → after.allocations[operation]? = some row
  entries : ∀ (id : String) move, after.moves[id]? = some move →
    ∃ before, ledger.moves[id]? = some before ∧ (move.phase.early = true →
      before.phase.early = true) ∧
      (move.phase = .cancelled → before.phase = .cancelled ∨ before.phase.early = true)

theorem Advances.refl (h : ledger.Consistent) : Advances ledger ledger :=
  ⟨.refl h, fun _ _ found _ => found, fun _ m hmove => ⟨m, hmove, fun e => e, Or.inl⟩⟩

theorem Advances.trans (first : Advances ledger middle) (second : Advances middle after) :
    Advances ledger after := by
  refine ⟨first.toKeeps.trans second.toKeeps, ?_, ?_⟩
  · intro op row hrow hstate
    exact second.rows op row (first.rows op row hrow hstate) hstate
  · intro id m hmove
    rcases second.entries id m hmove with ⟨middle, hmiddle, early, cancelled⟩
    rcases first.entries id middle hmiddle with ⟨before, hbefore, early', cancelled'⟩
    refine ⟨before, hbefore, fun e => early' (early e), ?_⟩
    intro ends
    rcases cancelled ends with ended | still
    · exact cancelled' ended
    · exact Or.inr (early' still)

theorem Advances.bump (advances : Advances ledger middle)
    (hbump : middle.bumpRevision = some after) :
    Advances ledger after := by
  refine ⟨advances.toKeeps.bump hbump, ?_, ?_⟩
  · cases bumpRevision_eq_some hbump
    exact advances.rows
  · cases bumpRevision_eq_some hbump
    exact advances.entries

theorem transition_allocations {first last : Phase}
    (h : ledger.transition job first last = some after) :
    after.allocations = ledger.allocations := by
  obtain ⟨rfl, _⟩ | ⟨_, hbump⟩ := transition_eq_some h
  · rfl
  · cases bumpRevision_eq_some hbump
    rfl

theorem continues_early (hearly : m.phase.early = true) (superseded : phase.superseded = false) :
    ledger.Continues (withPhase m phase) m := by
  refine ⟨rfl, rfl, rfl, rfl, ?_, fun _ => hearly, ?_, fun _ =>
    Phase.unfinished_of_early hearly, ?_,
    fun _ => Or.inr hearly⟩
  · intro (hidden : phase.superseded = true)
    rw [superseded] at hidden
    cases hidden
  · intro (handedOver : phase.handedOver = true)
    rw [Phase.superseded_of_handedOver handedOver] at superseded
    cases superseded
  · intro (complete : phase = .complete)
    rw [complete] at superseded
    cases superseded

theorem continues_retiring (hphase : m.phase = .published) :
    ledger.Continues (withPhase m .retiring) m := by
  refine ⟨rfl, rfl, rfl, rfl, ?_, (nofun), ?_, ?_, (nofun), (nofun)⟩
  · rw [hphase]
    exact fun _ => rfl
  · rw [hphase]
    exact fun _ => rfl
  · rw [hphase]
    exact fun _ => rfl

structure Retires (ledger after : Ledger) (job : Job) : Prop extends Keeps ledger after where
  move : ledger.moves[job.id]? = some job.move
  phase : job.move.phase = .retiring
  rows : ∀ (operation : String) row, ledger.allocations[operation]? = some row →
    operation ≠ job.move.sourceOperation → after.allocations[operation]? = some row
  entries : ∀ (id : String) move, after.moves[id]? = some move →
    ∃ before, ledger.moves[id]? = some before ∧
      (move.phase = .cancelled → before.phase = .cancelled ∨ before.phase.early = true)

theorem recordingActive_iff (h : ledger.recordingActive object = true) {retirement : Retirement}
    (hretirement : ledger.retirements[op]? = some retirement) :
    object ≠ ⟨.recording, retirement.recordingId⟩ := by
  rintro rfl
  simp only [recordingActive, Bool.or_eq_true, Bool.not_eq_true', decide_eq_true_eq] at h
  rcases h with other | inactive
  · exact other rfl
  · have none := List.any_eq_false.mp inactive (op, retirement)
      (ExtTreeMap.mem_toList_iff_getElem?_eq_some.mpr hretirement)
    simp at none

theorem unmoved_finished (h : ledger.unmoved object = true) (hmove : ledger.moves[id]? = some m)
    (same : m.object = object) : m.phase.finished = true := by
  have entry := List.all_eq_true.mp h (id, m)
    (ExtTreeMap.mem_toList_iff_getElem?_eq_some.mpr hmove)
  simp only [Bool.or_eq_true, decide_eq_true_eq, Bool.and_eq_true] at entry
  rcases entry with other | finished
  · exact absurd same other
  · exact finished.1

section

variable (h : ledger.Consistent)
include h

theorem updateRow_advances (hupdate : ledger.updateRow op old row = some after)
    (hold : ledger.allocations[op]? = some old) (reserved : old.state = .reserved)
    (volume : row.volume = old.volume) (unpublished : row.state ≠ .published) :
    Advances ledger after := by
  have written := updateRow_written hupdate volume
  refine ⟨updateRow_keeps h hupdate hold reserved volume (absurd · unpublished), ?_, ?_⟩
  · intro other found hfound hstate
    have hne : other ≠ op := by
      rintro rfl
      cases Option.mem_unique hold hfound
      rw [reserved] at hstate
      cases hstate
    rw [written.allocations, getElem?_insert_of_ne hne]
    exact hfound
  · intro id m hmove
    rw [written.moves] at hmove
    exact ⟨m, hmove, fun e => e, Or.inl⟩

theorem setMove_advances (hbefore : ledger.moves[id]? = some before)
    (continues : ledger.Continues m before) : Advances ledger (ledger.setMove id m) := by
  refine ⟨setMove_keeps h hbefore continues, fun _ _ found _ => found, ?_⟩
  intro other found hfound
  rcases getElem?_insert_cases hfound with ⟨rfl, rfl⟩ | ⟨_, hfound⟩
  · exact ⟨before, hbefore, continues.early, continues.cancelled⟩
  · exact ⟨found, hfound, fun e => e, Or.inl⟩

theorem transition_advances {first last : Phase} (hmove : ledger.moves[job.id]? = some job.move)
    (continues : job.move.phase = first → ledger.Continues (withPhase job.move last) job.move)
    (htransition : ledger.transition job first last = some after) : Advances ledger after := by
  obtain ⟨rfl, _⟩ | ⟨same, hbump⟩ := transition_eq_some htransition
  · exact .refl h
  · exact (setMove_advances h hmove (continues same)).bump hbump

theorem noteMove_advances (hbump : (ledger.setMove id m).bumpRevision = some after)
    (hbefore : ledger.moves[id]? = some before) (object : m.object = before.object)
    (sourceOperation : m.sourceOperation = before.sourceOperation)
    (destinationOperation : m.destinationOperation = before.destinationOperation)
    (sourceRevision : m.sourceRevision = before.sourceRevision)
    (phase : m.phase = before.phase) : Advances ledger after := by
  have continues : ledger.Continues m before := by
    refine ⟨object, sourceOperation, destinationOperation, sourceRevision, fun same => phase ▸ same,
      fun same => phase ▸ same, fun same => phase ▸ same, fun same => phase ▸ same, ?_,
      fun same => .inl (phase ▸ same)⟩
    rw [phase, sourceOperation]
    exact (h.entry hbefore).complete
  exact (setMove_advances h hbefore continues).bump hbump

theorem retired_retires (hjob : ledger.load id = some job) (hphase : job.move.phase = .retiring)
    (hretire : (ledger.updateRow job.move.sourceOperation job.sourceRow
      (withState job.sourceRow .cancelled) >>= fun updated => updated.transition job .retiring
      .complete) = some after) : Retires ledger after job := by
  rcases load_eq_some hjob with ⟨hid, hmove, hsource, _⟩
  obtain ⟨updated, hupdated, htransition⟩ := Option.bind_eq_some_iff.mp hretire
  have written := updateRow_written hupdated rfl
  have superseded : ledger.hidden job.move.sourceOperation = true := by
    rw [hidden_iff]
    refine ⟨id, job.move, hmove, rfl, ?_⟩
    rw [hphase]
    rfl
  have unseen : ∀ object op row, ledger.Visible object op row →
      op ≠ job.move.sourceOperation := by
    rintro object op row visible rfl
    rw [visible.current] at superseded
    cases superseded
  have updates : Keeps ledger updated := by
    constructor
    · apply h.cancelled hsource written
      intro other found hfound
      constructor
      · intro hearly
        rcases (h.entry hfound).early hearly with ⟨row, visible, _⟩
        exact unseen _ _ row visible
      · intro hphase
        rcases (h.entry hfound).handedOver hphase with ⟨_, row, _, visible, _⟩
        exact unseen _ _ row visible
    · intro object op row visible
      refine visible.of_moves ?_ written.moves
      rw [written.allocations, getElem?_insert_of_ne (unseen object op row visible)]
      exact visible.found
  have hupdatedMove : updated.moves[job.id]? = some job.move := by
    rw [written.moves, hid]
    exact hmove
  have completes : Advances updated after := by
    apply transition_advances updates.consistent hupdatedMove _ htransition
    intro _
    refine ⟨rfl, rfl, rfl, rfl, ?_, (nofun), (nofun), (nofun), ?_, (nofun)⟩
    · intro _
      rw [hphase]
      rfl
    · intro _
      refine ⟨withState job.sourceRow .cancelled, ?_, rfl⟩
      rw [written.allocations]
      exact ExtTreeMap.getElem?_insert_self
  have same : after.allocations = updated.allocations := transition_allocations htransition
  rw [written.moves] at hupdatedMove
  refine ⟨updates.trans completes.toKeeps, hupdatedMove, hphase, ?_, ?_⟩
  · intro op row hrow hne
    rw [same, written.allocations, getElem?_insert_of_ne hne]
    exact hrow
  · intro other m hother
    rcases completes.entries other m hother with ⟨before, hbefore, _, cancelled⟩
    rw [written.moves] at hbefore
    exact ⟨before, hbefore, cancelled⟩

theorem beginMove_keeps {intent : Intent} (hbegin : ledger.beginMove intent answers = some after) :
    Keeps ledger after := by
  rcases beginMove_eq_some hbegin with
    rfl | ⟨source, row, reserved, journaled, hactive, hlookup, _, hreserved, hinsert, hbump⟩
  · exact .refl h
  · have forgets := forgetReceipts_keeps h
    rcases reserve_keeps forgets.consistent hreserved with ⟨reserves, _, hretirements⟩
    have keeps := forgets.trans reserves
    have visible := keeps.view _ _ _ (lookupRow_eq_some hlookup)
    rcases insertMove_eq_some hinsert with ⟨rfl, _, hfree⟩
    refine keeps.trans (Keeps.bump ?_ hbump)
    apply keeps.consistent.insertMove visible rfl rfl
    · intro other found hfound
      exact (hfree other found hfound).2
    · intro op retirement hretirement
      rw [hretirements] at hretirement
      exact recordingActive_iff hactive hretirement

theorem publishMove_cases (hjob : ledger.load id = some job)
    (hpublish : ledger.publishMove job = some after) :
    Advances ledger after ∨ ledger.Publishable job ∧ Swapped ledger after job := by
  rcases load_eq_some hjob with ⟨hid, hmove, hsource, hdestination, hlocation⟩
  rcases publishMove_eq_some hpublish with
    rfl | ⟨renamed, recordings, moved, hphase, _, hreserved, hidentity, hdigest, hrenamed, hmoved,
      htransition⟩
  · exact Or.inl (.refl h)
  · have first := updateRow_written hrenamed rfl
    have second := updateRow_written hmoved rfl
    have swapped : Swapped ledger after job := by
      obtain ⟨_, done⟩ | ⟨_, hbump⟩ := transition_eq_some htransition
      · rw [hphase] at done
        cases done
      cases bumpRevision_eq_some hbump
      have allocations : moved.allocations =
          (ledger.allocations.insert job.move.sourceOperation
            (retiredRow job.sourceRow job.id)).insert
            job.move.destinationOperation (movedRow job.destination job) := by
        rw [second.allocations]
        show renamed.allocations.insert _ _ = _
        rw [first.allocations]
      have moves : moved.moves = ledger.moves := second.moves.trans first.moves
      refine ⟨allocations, ?_, second.retirements.trans first.retirements, ?_⟩
      · show moved.moves.insert _ _ = _
        rw [moves]
      · have renamedUnique := unique_insert h.unique first.unique
        rw [← first.allocations] at renamedUnique
        show Unique moved.allocations
        rw [second.allocations]
        exact unique_insert renamedUnique second.unique
    rw [← hid] at hmove
    exact Or.inr ⟨⟨hmove, hsource, hdestination, hlocation, hphase, hreserved, hidentity,
      hdigest⟩, swapped⟩

theorem advance_cases {step : Step} (hadvance : ledger.advance step answers = some after) :
    Advances ledger after ∨ (∃ job, Retires ledger after job) ∨ ∃ job, ledger.Publishable job ∧
      Swapped ledger after job := by
  obtain ⟨job, hjob, _, _, hadvance⟩ := advance_eq_some hadvance
  obtain ⟨hid, hmove, _, hdestination, _⟩ := load_eq_some hjob
  rw [← hid] at hmove
  cases advanceJob_course hadvance with
  | same => exact Or.inl (.refl h)
  | noted bump object source destination revision phase =>
    exact Or.inl (noteMove_advances h bump hmove object source destination revision phase)
  | passed step between =>
    refine Or.inl (transition_advances h hmove ?_ step)
    intro hphase
    rcases between with ⟨early, current⟩ | ⟨rfl, rfl⟩
    · exact continues_early (hphase ▸ early) current
    · exact continues_retiring hphase
  | rewritten step early current reserved volume unpublished =>
    obtain ⟨updated, hupdated, htransition⟩ := Option.bind_eq_some_iff.mp step
    have updates := updateRow_advances h hupdated hdestination reserved volume unpublished
    rw [← (updateRow_written hupdated volume).moves] at hmove
    refine Or.inl (updates.trans (transition_advances updates.consistent hmove ?_ htransition))
    intro hphase
    exact continues_early (hphase ▸ early) current
  | retired step phase => exact Or.inr (Or.inl ⟨job, retired_retires h hjob phase step⟩)
  | published step =>
    rcases publishMove_cases h hjob step with advances | swapped
    · exact Or.inl advances
    · exact Or.inr (Or.inr ⟨job, swapped⟩)

theorem Consistent.released (hold : ledger.allocations[op]? = some old)
    (written : Written ledger after op (withState old .cancelled) owned outstanding pending)
    (finished : ∀ (id : String) m, ledger.moves[id]? = some m → m.object = old.object →
      m.phase.finished = true) : after.Consistent := by
  apply h.cancelled hold written
  intro id m hmove
  have own : ∀ row, ledger.Visible m.object op row → m.phase.finished = true := by
    intro row visible
    cases Option.mem_unique hold visible.found
    exact finished id m hmove visible.object.symm
  constructor
  · rintro hearly rfl
    rcases (h.entry hmove).early hearly with ⟨row, visible, _⟩
    have done := own row visible
    rw [Phase.unfinished_of_early hearly] at done
    cases done
  · rintro hphase rfl
    rcases (h.entry hmove).handedOver hphase with ⟨_, row, _, visible, _⟩
    have done := own row visible
    rw [Phase.unfinished_of_handedOver hphase] at done
    cases done

theorem dispatch_consistent {request : Request}
    (hdispatch : ledger.dispatch answers request = some after) : after.Consistent := by
  cases request with
  | bind id config => exact (bind_keeps h hdispatch).consistent
  | setDraining volume generation draining => exact (setDraining_keeps h hdispatch).consistent
  | reserve allocation => exact (reserve_keeps h hdispatch).1.consistent
  | grow growth => exact (grow_keeps h hdispatch).consistent
  | materialize request => exact (checkpoint_keeps h hdispatch).consistent
  | publish publication => exact (publish_keeps h hdispatch).consistent
  | finalize publication => exact (finalize_keeps h hdispatch).consistent
  | beginMove intent => exact (beginMove_keeps h hdispatch).consistent
  | advanceMove step =>
    rcases advance_cases h hdispatch with advances | ⟨job, retires⟩ | ⟨job, ready, swapped⟩
    · exact advances.consistent
    · exact retires.consistent
    · exact swapped.consistent ready h
  | beginRetirement op =>
    rcases beginRetirement_eq_some hdispatch with ⟨row, hrow, hkind, hstate, _, hunmoved, hbump⟩
    refine Consistent.bump ?_ hbump
    refine h.of_retirements rfl rfl ?_
    intro other retirement hretirement _
    rcases getElem?_insert_cases hretirement with ⟨rfl, rfl⟩ | ⟨_, known⟩
    · refine Or.inr ⟨row, hrow, ?_, ?_, fun id m hmove same => unmoved_finished hunmoved hmove same⟩
      · rw [hstate]
        decide
      · rw [← hkind]
    · exact Or.inl known
  | completeRetirement evidence =>
    rcases completeRetirement_eq_some hdispatch with
      rfl | ⟨retirement, row, updated, hretirement, hincomplete, hrow, hupdated, hbump⟩
    · exact h
    · have written := updateRow_written hupdated rfl
      have released : updated.Consistent := by
        rcases h.retiring _ retirement hretirement hincomplete with ⟨row', hrow', _, _, hmoves⟩
        cases Option.mem_unique hrow hrow'
        exact h.released hrow written hmoves
      refine Consistent.bump ?_ hbump
      refine released.of_retirements rfl rfl ?_
      intro other found hfound incomplete
      rcases getElem?_insert_cases hfound with ⟨_, rfl⟩ | ⟨_, known⟩
      · cases incomplete
      · exact Or.inl known
  | acknowledgeRetirement op =>
    rcases acknowledgeRetirement_eq_some hdispatch with ⟨retirement, _, hcomplete, rfl⟩
    refine h.of_retirements rfl rfl ?_
    intro other found hfound incomplete
    rcases getElem?_insert_cases hfound with ⟨_, rfl⟩ | ⟨_, known⟩
    · have same : retirement.complete = false := incomplete
      rw [hcomplete] at same
      cases same
    · exact Or.inl known
  | release op =>
    rcases release_eq_some hdispatch with ⟨row, updated, hrow, hunmoved, hupdated, hbump⟩
    refine Consistent.bump ?_ hbump
    apply h.released hrow (updateRow_written hupdated rfl)
    intro id m hmove same
    exact unmoved_finished hunmoved hmove same
  | insertRecording id path =>
    simp only [dispatch, insertRecording] at hdispatch
    split at hdispatch
    · cases hdispatch
      exact (setRecordings_keeps h _).consistent
    · cases hdispatch

end

theorem execute_consistent (call : Call) (h : ledger.Consistent) :
    (ledger.execute call).Consistent := by
  rcases execute_cases ledger call with same | committed
  · rw [same]
    exact h
  · exact dispatch_consistent h committed

theorem run_consistent (calls : List Call) : (run calls).Consistent := by
  apply foldl_invariant
  · intro ledger call h
    exact execute_consistent call h
  · exact initial_consistent

/-! The location of an object. -/

def sourceOf (ledger : Ledger) (move : Move) : Option Location :=
  (ledger.allocations[move.sourceOperation]?).bind fun row =>
    row.location move.object move.sourceRevision

def destinationOf (ledger : Ledger) (move : Move) : Option Location :=
  (ledger.allocations[move.destinationOperation]?).bind fun row =>
    row.location move.object row.locationRevision

theorem Consistent.lookup_of_visible (h : ledger.Consistent)
    (visible : ledger.Visible object op row) :
    ∃ location, row.location object row.locationRevision = some location ∧ ledger.lookup object =
      some location := by
  rcases h.evidenced op row visible.found visible.state with ⟨hidentity, hdigest⟩
  rcases Option.isSome_iff_exists.mp hidentity with ⟨identity, hidentity⟩
  rcases Option.isSome_iff_exists.mp hdigest with ⟨digest, hdigest⟩
  have location : row.location object row.locationRevision =
    some ⟨object, row.volume, row.generation,
      row.relativeKey, row.locationRevision, row.bytes, identity, digest⟩ := by
    rw [Row.location, hidentity, hdigest]
  refine ⟨_, location, ?_⟩
  rw [lookup, h.lookupRow_of_visible visible]
  exact location

theorem visible_of_lookup (h : ledger.lookup object = some location) : ∃ op row,
      ledger.Visible object op row ∧ row.location object row.locationRevision = some location := by
  rcases Option.bind_eq_some_iff.mp h with ⟨⟨op, row⟩, hrow, hlocation⟩
  exact ⟨op, row, lookupRow_eq_some hrow, hlocation⟩

theorem SameView.lookup (view : SameView ledger after) (h : after.Consistent)
    (hlookup : ledger.lookup object = some location) : after.lookup object = some location := by
  rcases visible_of_lookup hlookup with ⟨op, row, visible, hlocation⟩
  rcases h.lookup_of_visible (view _ _ _ visible) with ⟨current, hcurrent, hafter⟩
  rw [hlocation] at hcurrent
  cases hcurrent
  exact hafter

/-- Who is authoritative while a move of the object is under way. -/
structure Authority (ledger : Ledger) (object : Object) : Prop where
  early : ∀ (id : String) move, ledger.moves[id]? = some move → move.object = object →
    move.phase.early = true → ∃ source, ledger.sourceOf move = some source ∧
      ledger.lookup object = some source
  handedOver : ∀ (id : String) move, ledger.moves[id]? = some move → move.object = object →
    move.phase.handedOver = true → ∃ row destination,
      ledger.allocations[move.sourceOperation]? = some row ∧
      ledger.destinationOf move = some destination ∧ ledger.lookup object = some destination ∧
      destination.revision = move.sourceRevision + 1 ∧ destination.bytes = row.bytes ∧
      row.digest = some destination.digest

theorem Consistent.early_lookup (h : ledger.Consistent) (hmove : ledger.moves[id]? = some m)
    (hearly : m.phase.early = true) :
    ∃ source, ledger.sourceOf m = some source ∧ ledger.lookup m.object = some source := by
  rcases (h.entry hmove).early hearly with ⟨row, visible, revision⟩
  rcases h.lookup_of_visible visible with ⟨location, hlocation, hlookup⟩
  refine ⟨location, ?_, hlookup⟩
  rw [sourceOf, visible.found, ← revision]
  exact hlocation

theorem Consistent.handedOver_lookup (h : ledger.Consistent) (hmove : ledger.moves[id]? = some m)
    (hphase : m.phase.handedOver = true) :
    ∃ row destination, ledger.allocations[m.sourceOperation]? = some row ∧
      ledger.destinationOf m = some destination ∧ ledger.lookup m.object = some destination ∧
      destination.revision = m.sourceRevision + 1 ∧ destination.bytes = row.bytes ∧
      row.digest = some destination.digest := by
  rcases (h.entry hmove).handedOver hphase with ⟨source, row, hsource, visible, revision,
    bytes, digest⟩
  rcases h.lookup_of_visible visible with ⟨location, hlocation, hlookup⟩
  rcases location_eq_some hlocation with ⟨_, _, _, _, hrevision, hbytes, _, hdigest⟩
  refine ⟨source, location, hsource, ?_, hlookup, ?_, ?_, ?_⟩
  · rw [destinationOf, visible.found]
    exact hlocation
  · rw [hrevision, revision]
  · rw [hbytes, bytes]
  · rw [← digest, hdigest]

theorem Consistent.authority (h : ledger.Consistent) (object : Object) :
    ledger.Authority object where
  early id m hmove hobject hearly := by
    rw [← hobject]
    exact h.early_lookup hmove hearly
  handedOver id m hmove hobject hphase := by
    rw [← hobject]
    exact h.handedOver_lookup hmove hphase

structure Transfers (ledger after : Ledger) : Prop where
  /-- A location stays, or a move of the object puts its destination in its place. -/
  lookup : ∀ object location, ledger.lookup object = some location →
    after.lookup object = some location ∨
      ∃ (id : String) (move : Move) (destination : Location), ledger.moves[id]? = some move ∧
        move.object = object ∧ ledger.sourceOf move = some location ∧
        after.destinationOf move = some destination ∧ after.lookup object = some destination ∧
        destination.revision = location.revision + 1 ∧ destination.bytes = location.bytes ∧
        destination.digest = location.digest
  /-- A published copy is given up only as the source of a move whose destination is
  what `lookup` returns. -/
  givenUp : ∀ (operation : String) row row', ledger.allocations[operation]? = some row →
    row.state = .published → after.allocations[operation]? = some row' → row'.state = .cancelled →
    ∃ (id : String) (move : Move) (destination : Location), ledger.moves[id]? = some move ∧
      move.sourceOperation = operation ∧ ledger.destinationOf move = some destination ∧
      ledger.lookup move.object = some destination ∧ after.lookup move.object = some destination
  /-- A move that ends cancelled leaves its source where it was. -/
  cancelled : ∀ (id : String) move move', ledger.moves[id]? = some move →
    after.moves[id]? = some move' → move.phase ≠ .cancelled → move'.phase = .cancelled →
    ∃ source, ledger.sourceOf move = some source ∧ ledger.lookup move.object = some source ∧
      after.lookup move.object = some source

theorem Keeps.transfers (keeps : Keeps ledger after) (h : ledger.Consistent)
    (givenUp : ∀ (op : String) row row', ledger.allocations[op]? = some row →
      row.state = .published → after.allocations[op]? = some row' → row'.state = .cancelled →
      ∃ (id : String) (m : Move), ledger.moves[id]? = some m ∧
        m.sourceOperation = op ∧ m.phase.handedOver = true)
    (ends : ∀ (id : String) m move', ledger.moves[id]? = some m →
      after.moves[id]? = some move' → move'.phase = .cancelled →
      m.phase = .cancelled ∨ m.phase.early = true) : Transfers ledger after where
  lookup object location hlookup := Or.inl (keeps.view.lookup keeps.consistent hlookup)
  givenUp op row row' hrow hstate hrow' hstate' := by
    rcases givenUp op row row' hrow hstate hrow' hstate' with ⟨id, m, hmove, hsource, hphase⟩
    rcases h.handedOver_lookup hmove hphase with ⟨_, destination, _, hdestination, hlookup, _⟩
    exact ⟨id, m, destination, hmove, hsource, hdestination, hlookup,
      keeps.view.lookup keeps.consistent hlookup⟩
  cancelled id m move' hmove hmove' hphase hphase' := by
    rcases ends id m move' hmove hmove' hphase' with ended | hearly
    · exact absurd ended hphase
    · rcases h.early_lookup hmove hearly with ⟨source, hsource, hlookup⟩
      exact ⟨source, hsource, hlookup, keeps.view.lookup keeps.consistent hlookup⟩

theorem Advances.transfers (advances : Advances ledger after) (h : ledger.Consistent) :
    Transfers ledger after := by
  apply advances.toKeeps.transfers h
  · intro op row row' hrow hstate hrow' hstate'
    rw [advances.rows op row hrow hstate] at hrow'
    cases hrow'
    rw [hstate] at hstate'
    cases hstate'
  · intro id m move' hmove hmove' hphase
    rcases advances.entries id move' hmove' with ⟨before, hbefore, _, cancelled⟩
    cases Option.mem_unique hmove hbefore
    exact cancelled hphase

theorem Retires.transfers (retires : Retires ledger after job) (h : ledger.Consistent) :
    Transfers ledger after := by
  apply retires.toKeeps.transfers h
  · intro op row row' hrow hstate hrow' hstate'
    by_cases same : op = job.move.sourceOperation
    · refine ⟨job.id, job.move, retires.move, same.symm, ?_⟩
      rw [retires.phase]
      rfl
    · rw [retires.rows op row hrow same] at hrow'
      cases hrow'
      rw [hstate] at hstate'
      cases hstate'
  · intro id m move' hmove hmove' hphase
    rcases retires.entries id move' hmove' with ⟨before, hbefore, cancelled⟩
    cases Option.mem_unique hmove hbefore
    exact cancelled hphase

theorem Swapped.transfers (swapped : Swapped ledger after job) (ready : ledger.Publishable job)
    (h : ledger.Consistent) : Transfers ledger after where
  lookup object location hlookup := by
    rcases visible_of_lookup hlookup with ⟨op, row, visible, hlocation⟩
    have consistent := swapped.consistent ready h
    by_cases same : op = job.move.sourceOperation
    · subst same
      cases Option.mem_unique visible.found ready.source
      rcases ready.visible h with ⟨own, revision⟩
      have hobject : job.move.object = object := own.object.symm.trans visible.object
      subst hobject
      have moved := swapped.moved ready h
      rcases consistent.lookup_of_visible moved with ⟨destination, hdestination, hafter⟩
      rcases location_eq_some hdestination with ⟨_, _, _, _, hrevision, hbytes, _, hdigest⟩
      rcases location_eq_some hlocation with ⟨_, _, _, _, hrevision', hbytes', _, hdigest'⟩
      rcases location_eq_some ready.location with ⟨_, _, _, _, hrevision'', hbytes'', _, hdigest''⟩
      refine Or.inr ⟨job.id, job.move, destination, ready.move, rfl, ?_, ?_, hafter, ?_, ?_, ?_⟩
      · rw [sourceOf, ready.source, ← revision]
        exact hlocation
      · rw [destinationOf, moved.found]
        exact hdestination
      · rw [hrevision, hrevision', revision]
        show job.source.revision + 1 = _
        rw [hrevision'']
      · rw [hbytes, hbytes']
        exact hbytes''
      · have moved : job.destination.digest = some destination.digest := hdigest
        rw [ready.digest] at moved
        rw [hdigest'] at hdigest''
        exact (Option.some.inj moved).symm.trans (Option.some.inj hdigest'').symm
    · rcases consistent.lookup_of_visible (swapped.visible ready visible same) with
        ⟨current, hcurrent, hafter⟩
      rw [hlocation] at hcurrent
      cases hcurrent
      exact Or.inl hafter
  givenUp op row row' hrow hstate hrow' hstate' := by
    have hne : row.state ≠ .reserved := by
      rw [hstate]
      decide
    rcases swapped.role ready h hrow hne with ⟨found, hfound, hkept, _⟩
    cases Option.mem_unique hrow' hfound
    rw [hkept, hstate] at hstate'
    cases hstate'
  cancelled id m move' hmove hmove' hphase hphase' := by
    rw [swapped.moves] at hmove'
    rcases getElem?_insert_cases hmove' with ⟨_, rfl⟩ | ⟨_, hmove'⟩
    · cases hphase'
    · cases Option.mem_unique hmove hmove'
      exact absurd hphase' hphase

theorem reserve_rows {allocation : Allocation} (h : ledger.reserve allocation answers = some after)
    (hrow : ledger.allocations[op]? = some row) :
    after.allocations[op]? = some row := by
  obtain ⟨_, ⟨rfl, _⟩ | ⟨fresh, path, _, h⟩⟩ := reserve_eq_some h
  · exact hrow
  obtain ⟨inserted, hinserted, hbump⟩ := Option.bind_eq_some_iff.mp h
  cases bumpRevision_eq_some hbump
  rcases insertRow_written hinserted with ⟨_, written⟩
  have hne : op ≠ allocation.operation := by
    rintro rfl
    rw [fresh] at hrow
    cases hrow
  show inserted.allocations[op]? = some row
  rw [written.allocations, getElem?_insert_of_ne hne]
  exact hrow

theorem beginMove_transfers {intent : Intent} (h : ledger.Consistent)
    (hbegin : ledger.beginMove intent answers = some after) : Transfers ledger after := by
  apply (beginMove_keeps h hbegin).transfers h
  · intro op row row' hrow hstate hrow' hstate'
    rcases beginMove_eq_some hbegin with
      rfl | ⟨_, _, reserved, _, _, _, _, hreserved, hinsert, hbump⟩
    · cases Option.mem_unique hrow hrow'
      rw [hstate] at hstate'
      cases hstate'
    · cases bumpRevision_eq_some hbump
      rcases insertMove_eq_some hinsert with ⟨rfl, _⟩
      have kept := reserve_rows hreserved hrow
      cases Option.mem_unique kept hrow'
      rw [hstate] at hstate'
      cases hstate'
  · intro id m move' hmove hmove' hphase
    rcases beginMove_eq_some hbegin with
      rfl | ⟨_, _, reserved, _, _, _, _, hreserved, hinsert, hbump⟩
    · cases Option.mem_unique hmove hmove'
      exact Or.inl hphase
    · cases bumpRevision_eq_some hbump
      rcases insertMove_eq_some hinsert with ⟨rfl, _⟩
      rcases getElem?_insert_cases hmove' with ⟨_, rfl⟩ | ⟨_, known⟩
      · cases hphase
      rw [(reserve_keeps (forgetReceipts_keeps h).consistent hreserved).2.1, forgetReceipts,
        setMoves,
        ExtTreeMap.getElem?_filter', Option.filter_eq_some_iff] at known
      cases Option.mem_unique hmove known.1
      exact Or.inl hphase

def Request.isMove : Request → Bool
  | .beginMove _ | .advanceMove _ => true
  | _ => false

theorem execute_transfers {call : Call} (h : ledger.Consistent)
    (moving : call.request.isMove = true) :
    Transfers ledger (ledger.execute call) := by
  rcases execute_cases ledger call with same | committed
  · rw [same]
    exact (Advances.refl h).transfers h
  cases hrequest : call.request with
  | beginMove intent =>
    rw [hrequest] at committed
    exact beginMove_transfers h committed
  | advanceMove step =>
    rw [hrequest] at committed
    rcases advance_cases h committed with advances | ⟨job, retires⟩ | ⟨job, ready, swapped⟩
    · exact advances.transfers h
    · exact retires.transfers h
    · exact swapped.transfers ready h
  | _ =>
    rw [hrequest] at moving
    cases moving

/-- An object with a location keeps one through every sequence of move requests. -/
theorem moves_keep_authority (past : List Call) (object : Object) (location : Location)
    (published : (run past).lookup object = some location) (calls : List Call)
    (moving : ∀ call ∈ calls, call.request.isMove = true) :
    (∃ current, (run (past ++ calls)).lookup object = some current ∧
        current.bytes = location.bytes ∧ current.digest = location.digest) ∧
      (run (past ++ calls)).Authority object ∧
      AllSteps execute (fun ledger call => Transfers ledger (ledger.execute call)) (run past)
        calls := by
  have steps : AllSteps execute (fun ledger call =>
    Transfers ledger (ledger.execute call)) (run past)
      calls := by
    apply AllSteps.of_invariant _ _ (run_consistent past) (AllSteps.of_forall moving (run past))
    · intro ledger call h _
      exact execute_consistent call h
    · intro ledger call h hmove
      exact execute_transfers h hmove
  refine ⟨?_, (run_consistent _).authority object, steps⟩
  have located := @AllSteps.foldl_invariant Ledger Call execute
    (fun ledger => ∃ current, ledger.lookup object = some current ∧
      current.bytes = location.bytes ∧ current.digest = location.digest)
    (fun ledger call => Transfers ledger (ledger.execute call))
  rw [run, List.foldl_append]
  apply located _ ⟨location, published, rfl, rfl⟩ steps
  rintro ledger call ⟨current, hcurrent, hbytes, hdigest⟩ transfers
  rcases transfers.lookup object current hcurrent with same | ⟨_, _, next, _, _, _, _, hnext, _,
    bytes, digest⟩
  · exact ⟨current, same, hbytes, hdigest⟩
  · exact ⟨next, hnext, bytes.trans hbytes, digest.trans hdigest⟩

def clip : Object := ⟨.exported, "clip"⟩

def volumeConfig (rootIdentity : String) : BindingConfig :=
  ⟨1, "/" ++ rootIdentity, "fs-" ++ rootIdentity, rootIdentity, true, false, none, 0⟩

def publishedClip : List Call :=
  [⟨.bind "first" (volumeConfig "a"), granted, true⟩,
    ⟨.bind "second" (volumeConfig "b"), granted, true⟩,
    ⟨.reserve ⟨"op", clip, "first", 1, "clip.mp4", 10, ⟨3, 100, "fs-a", "a"⟩⟩, granted, true⟩,
    ⟨.publish ⟨"op", 10, "inode-1", 7⟩, granted, true⟩]

def movedClip : List Call :=
  [⟨.beginMove ⟨"move", clip, 1,
      ⟨"move", ⟨.exported, "move"⟩, "second", 1, "clip.mp4", 10, ⟨5, 100, "fs-b", "b"⟩⟩⟩,
        granted, true⟩,
    ⟨.advanceMove (.verified ⟨"move", 10, "inode-2", 7⟩), granted, true⟩,
    ⟨.advanceMove (.filePublished "move"), granted, true⟩,
    ⟨.advanceMove (.publish "move"), granted, false⟩,
    ⟨.advanceMove (.publish "move"), granted, true⟩,
    ⟨.advanceMove (.retiring "move"), granted, true⟩,
    ⟨.advanceMove (.retired ⟨"move", 10, "inode-1", 7⟩), granted, true⟩]

theorem moves_keep_authority_clip :
    (run publishedClip).lookup clip = some ⟨clip, "first", 1, "clip.mp4", 1, 10, "inode-1", 7⟩ ∧
      (run (publishedClip ++ movedClip)).lookup clip =
        some ⟨clip, "second", 1, "clip.mp4", 2, 10, "inode-2", 7⟩ ∧
      (run (publishedClip ++ movedClip)).Authority clip ∧
      AllSteps execute (fun ledger call => Transfers ledger (ledger.execute call))
        (run publishedClip)
        movedClip := by
  have before : (run publishedClip).lookup clip =
      some ⟨clip, "first", 1, "clip.mp4", 1, 10, "inode-1", 7⟩ := by decide +kernel
  have after : (run (publishedClip ++ movedClip)).lookup clip =
      some ⟨clip, "second", 1, "clip.mp4", 2, 10, "inode-2", 7⟩ := by decide +kernel
  have moving : ∀ call ∈ movedClip, call.request.isMove = true := by decide
  exact ⟨before, after, (moves_keep_authority publishedClip clip _ before movedClip moving).2⟩

/-- A recording that is being retired is not being moved. -/
theorem retirement_excludes_moves (calls : List Call) :
    ¬∃ (operation id : String) (retirement : Retirement) (move : Move),
      (run calls).retirements[operation]? = some retirement ∧ retirement.complete = false ∧
      (run calls).moves[id]? = some move ∧ move.phase.finished = false ∧
      move.object = ⟨.recording, retirement.recordingId⟩ := by
  rintro ⟨operation, id, retirement, move, retired, waits, held, working, same⟩
  obtain ⟨row, -, -, object, finished⟩ :=
    (run_consistent calls).retiring operation retirement retired waits
  cases working.symm.trans (finished id move held (same.trans object.symm))

end Ledger

end KeepPeek.Volumes
