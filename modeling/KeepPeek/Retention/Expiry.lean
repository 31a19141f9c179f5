import KeepPeek.Lib.Paging
import KeepPeek.Retention.Catalog

/-! The recordings offered for expiry: a durable cursor over the decisions of the
current generation, in the order of deadline and recording, that starts again
after an answer found nothing more.

Nothing but the cursor changes here; the decisions are as the triggers left them. -/
namespace KeepPeek.Retention

open Lib

theorem timestampMin_bounds : -(2 ^ 63) ≤ (-(2 ^ 63) : Int) ∧ (-(2 ^ 63) : Int) < 2 ^ 63 := by
  decide

def timestampMin : Timestamp := ⟨-(2 ^ 63), timestampMin_bounds⟩

/-- A row of `recording_retention_decisions` with the columns of its recording that the
triggers read. -/
structure ExpiryDecision where
  runtimeGeneration : Nat
  deadlineMs : Option Timestamp
  isProtected : Bool
  finalized : Bool
  cleanupPending : Bool
  retentionPending : Attention
deriving DecidableEq

namespace ExpiryDecision

variable (decision : ExpiryDecision)

def expiryAtMs : Timestamp :=
  decision.deadlineMs.getD timestampMin

def expiryEligible : Bool :=
  !decision.isProtected && decision.finalized && !decision.cleanupPending &&
    decision.retentionPending == .settled

end ExpiryDecision

/-- The runtime's row as far as expiry reads it, and the decisions. -/
structure Expiry where
  generation : Nat
  requestPending : Bool
  complete : Bool
  cursorMs : Timestamp
  cursorId : String
  decisions : Std.ExtTreeMap String ExpiryDecision

/-- A call, at a reading of the clock. `failure` is what stops the transaction:
the catalog closed or busy, the authority gone, the time over. -/
structure ExpiryCall where
  now : Timestamp
  maxRecords : Nat
  failure : Option String

namespace Expiry

variable (expiry : Expiry)

def activationPending : Bool :=
  expiry.requestPending || !expiry.complete

def dueRows (now : Timestamp) : List Place :=
  (expiry.decisions.toList.filter fun (_, decision) =>
    decision.runtimeGeneration == expiry.generation && decision.expiryEligible &&
      decide (decision.expiryAtMs ≤ now)).map
    fun (id, decision) => toLex (decision.expiryAtMs, id)

def sameDeadline (now : Timestamp) (limit : Nat) : List Place :=
  (((expiry.dueRows now).filter fun place =>
      (ofLex place).1 = expiry.cursorMs ∧ expiry.cursorId < (ofLex place).2).insertionSort
    fun left right => (ofLex left).2 ≤ (ofLex right).2).take limit

def laterDeadlines (now : Timestamp) (limit : Nat) : List Place :=
  (((expiry.dueRows now).filter fun place =>
      expiry.cursorMs < (ofLex place).1).insertionSort (· ≤ ·)).take limit

/-- The rows of a query are checked one by one. -/
def collect (limit : Nat) : List Place → List Place → Except String (List Place)
  | records, [] => .ok records
  | records, row :: rows =>
    if records.length < limit then
      if validIdentity (ofLex row).2 then collect limit (records ++ [row]) rows
      else .error "retention identity must contain 1 to 256 bytes without NUL"
    else .error "retention expiry candidate bound exceeded"

/-- The second query fills what the first one left of the limit. -/
def collectLater (now : Timestamp) (limit : Nat) (records : List Place) :
    Except String (List Place) :=
  if records.length < limit then
    collect limit records (expiry.laterDeadlines now (limit - records.length))
  else .ok records

def cursor : Place :=
  toLex (expiry.cursorMs, expiry.cursorId)

def start : Place :=
  toLex (timestampMin, "")

def moveTo (place : Place) : Expiry :=
  { expiry with cursorMs := (ofLex place).1, cursorId := (ofLex place).2 }

def candidates (now : Timestamp) (limit : Nat) : Except String (List String × Expiry) :=
  if expiry.activationPending then .ok ([], expiry)
  else if !expiry.cursorId.isEmpty && !validIdentity expiry.cursorId then
    .error "retention identity must contain 1 to 256 bytes without NUL"
  else do
    let records ← collect limit [] (expiry.sameDeadline now limit)
    let records ← expiry.collectLater now limit records
    .ok (records.map fun place => (ofLex place).2, expiry.moveTo (records.getLast?.getD start))

def recordsPerCallMax : Nat := 8

def expiredRetentionCandidates (call : ExpiryCall) : Except String (List String × Expiry) :=
  if 1 ≤ call.maxRecords ∧ call.maxRecords ≤ recordsPerCallMax then
    match call.failure with
    | some message => .error message
    | none => expiry.candidates call.now call.maxRecords
  else .error "retention expiry batch must be 1 to 8"

def afterCall (call : ExpiryCall) : Expiry :=
  match expiry.expiredRetentionCandidates call with
  | .ok (_, moved) => moved
  | .error _ => expiry

def answers : Expiry → List ExpiryCall → List (Except String (List String))
  | _, [] => []
  | expiry, call :: calls =>
    (expiry.expiredRetentionCandidates call).map Prod.fst :: answers (expiry.afterCall call) calls

/-! ### The two queries as one page -/

def due (now : Timestamp) : List Place :=
  (expiry.dueRows now).insertionSort (· ≤ ·)

variable {expiry}

theorem mem_due {now : Timestamp} {place : Place} :
    place ∈ expiry.due now ↔ place ∈ expiry.dueRows now :=
  List.mem_insertionSort _

instance : Std.Total fun left right : Place => (ofLex left).2 ≤ (ofLex right).2 :=
  ⟨fun left right => le_total (ofLex left).2 (ofLex right).2⟩

instance : IsTrans Place fun left right : Place => (ofLex left).2 ≤ (ofLex right).2 :=
  ⟨fun _ _ _ => le_trans⟩

theorem lt_iff_ofLex {left right : Place} :
    left < right ↔ (ofLex left).1 < (ofLex right).1 ∨
      (ofLex left).1 = (ofLex right).1 ∧ (ofLex left).2 < (ofLex right).2 :=
  Prod.Lex.lt_iff

section

variable (now : Timestamp)
include now

theorem nodup_dueRows : (expiry.dueRows now).Nodup := by
  have distinct := expiry.decisions.distinct_keys_toList
  unfold dueRows List.Nodup
  rw [List.pairwise_map]
  refine (distinct.filter _).imp ?_
  rintro ⟨left, _⟩ ⟨right, _⟩ apart same
  have ids : left = right := congrArg (fun place : Place => (ofLex place).2) same
  exact apart (Std.compare_eq_iff_eq.mpr ids)

theorem sorted_due : (expiry.due now).Pairwise (· < ·) := by
  have sorted : (expiry.due now).Pairwise (· ≤ ·) := List.pairwise_insertionSort _ _
  have nodup : (expiry.due now).Nodup :=
    (List.perm_insertionSort _ _).nodup_iff.mpr (nodup_dueRows now)
  refine (sorted.and nodup).imp ?_
  rintro left right ⟨le, ne⟩
  exact lt_of_le_of_ne le ne

theorem insertionSort_filter_dueRows {r : Place → Place → Prop} [DecidableRel r] [Std.Total r]
    [IsTrans Place r] {p : Place → Bool}
    (ordered : ∀ left right, p left → p right → r left right → left ≠ right → left < right) :
    ((expiry.dueRows now).filter p).insertionSort r = (expiry.due now).filter p := by
  have sorted := List.pairwise_insertionSort r ((expiry.dueRows now).filter p)
  have nodup := (List.perm_insertionSort r ((expiry.dueRows now).filter p)).nodup_iff.mpr
    ((nodup_dueRows now).filter _)
  refine List.Pairwise.eq_of_mem_iff (r := (· < ·)) ?_ ((sorted_due now).filter _) ?_
  · refine (sorted.and nodup).imp_of_mem ?_
    rintro left right leftMem rightMem ⟨le, ne⟩
    have leftHolds := (List.mem_filter.mp ((List.mem_insertionSort _).mp leftMem)).2
    have rightHolds := (List.mem_filter.mp ((List.mem_insertionSort _).mp rightMem)).2
    exact ordered left right leftHolds rightHolds le ne
  · intro place
    rw [List.mem_insertionSort, List.mem_filter, List.mem_filter, mem_due]

theorem sameDeadline_eq (limit : Nat) : expiry.sameDeadline now limit = ((expiry.due now).filter fun
    place => (ofLex place).1 = expiry.cursorMs ∧ expiry.cursorId < (ofLex place).2).take limit := by
  unfold sameDeadline
  rw [insertionSort_filter_dueRows]
  intro left right leftSame rightSame le ne
  simp only [decide_eq_true_eq] at leftSame rightSame
  have times : (ofLex left).1 = (ofLex right).1 := leftSame.1.trans rightSame.1.symm
  refine lt_iff_ofLex.mpr (.inr ⟨times, lt_of_le_of_ne le fun ids => ne ?_⟩)
  exact Prod.ext times ids

theorem laterDeadlines_eq (limit : Nat) : expiry.laterDeadlines now limit = ((expiry.due now).filter
    fun place => expiry.cursorMs < (ofLex place).1).take limit := by
  unfold laterDeadlines
  rw [insertionSort_filter_dueRows]
  intro left right _ _ le ne
  exact lt_of_le_of_ne le ne

/-- Behind the cursor are its own deadline's later recordings, then the later deadlines. -/
theorem remaining_cursor : ((expiry.due now).filter fun place => (ofLex place).1 = expiry.cursorMs ∧
    expiry.cursorId < (ofLex place).2) ++ ((expiry.due now).filter fun place => expiry.cursorMs <
    (ofLex place).1) = remaining (expiry.due now) expiry.cursor := by
  refine List.Pairwise.eq_of_mem_iff (r := (· < ·)) ?_ ((sorted_due now).filter _) ?_
  · refine List.pairwise_append.mpr ⟨(sorted_due now).filter _, (sorted_due now).filter _, ?_⟩
    intro same sameMem later laterMem
    have atCursor := (List.mem_filter.mp sameMem).2
    have beyond := (List.mem_filter.mp laterMem).2
    simp only [decide_eq_true_eq] at atCursor beyond
    exact lt_iff_ofLex.mpr (.inl (atCursor.1 ▸ beyond))
  · intro place
    rw [mem_remaining, lt_iff_ofLex, List.mem_append, List.mem_filter, List.mem_filter]
    simp only [decide_eq_true_eq, cursor, ofLex_toLex]
    constructor
    · rintro (⟨mem, same, later⟩ | ⟨mem, later⟩)
      · exact ⟨mem, .inr ⟨same.symm, later⟩⟩
      · exact ⟨mem, .inl later⟩
    · rintro ⟨mem, later | ⟨same, later⟩⟩
      · exact .inr ⟨mem, later⟩
      · exact .inl ⟨mem, same.symm, later⟩

end

theorem collect_eq_ok {limit : Nat} {records rows result : List Place}
    (collected : collect limit records rows = .ok result) :
    result = records ++ rows ∧ ∀ row ∈ rows, validIdentity (ofLex row).2 = true := by
  induction rows generalizing records with
  | nil =>
    cases collected
    exact ⟨(List.append_nil _).symm, fun _ mem => by cases mem⟩
  | cons row rows ih =>
    unfold collect at collected
    split at collected
    · split at collected
      · next valid =>
        obtain ⟨rfl, others⟩ := ih collected
        exact ⟨List.append_assoc records [row] rows, List.forall_mem_cons.mpr ⟨valid, others⟩⟩
      · cases collected
    · cases collected

/-- An answer is the page behind the cursor, and the cursor moves to its end. -/
theorem candidates_eq_ok {now : Timestamp} {limit : Nat} {ids : List String} {moved : Expiry}
    (settled : expiry.activationPending = false)
    (answered : expiry.candidates now limit = .ok (ids, moved)) :
    ids = (page (expiry.due now) expiry.cursor limit).map (fun place => (ofLex place).2) ∧ moved =
      expiry.moveTo ((page (expiry.due now) expiry.cursor limit).getLast?.getD start) := by
  unfold candidates at answered
  rw [settled, if_neg (by decide)] at answered
  split at answered
  · cases answered
  obtain ⟨first, firstEq, answered⟩ := bind_eq_ok answered
  obtain ⟨records, recordsEq, answered⟩ := bind_eq_ok answered
  cases answered
  obtain ⟨firstRows, -⟩ := collect_eq_ok firstEq
  rw [List.nil_append, sameDeadline_eq] at firstRows
  set same := (expiry.due now).filter fun place =>
    (ofLex place).1 = expiry.cursorMs ∧ expiry.cursorId < (ofLex place).2
  have whole : page (expiry.due now) expiry.cursor limit = records := by
    rw [page, ← remaining_cursor, List.take_append, ← firstRows]
    unfold collectLater at recordsEq
    split at recordsEq
    · next short =>
      obtain ⟨laterRows, -⟩ := collect_eq_ok recordsEq
      rw [laterDeadlines_eq] at laterRows
      have length : first.length = same.length := by
        rw [firstRows, List.length_take] at short ⊢
        omega
      rw [laterRows, length]
    · next full =>
      cases recordsEq
      have enough : limit - same.length = 0 := by
        rw [firstRows, List.length_take] at full
        omega
      rw [enough, List.take_zero, List.append_nil]
  rw [whole]
  exact ⟨rfl, rfl⟩

/-! ### What is due -/

def Offered (expiry : Expiry) (now : Timestamp) (id : String) : Prop :=
  ∃ decision ∈ expiry.decisions[id]?, decision.runtimeGeneration = expiry.generation ∧
    decision.expiryEligible = true ∧ decision.expiryAtMs ≤ now

theorem mem_dueRows {now : Timestamp} {place : Place} :
    place ∈ expiry.dueRows now ↔ expiry.Offered now (ofLex place).2 ∧
      (expiry.decisions[(ofLex place).2]?).map ExpiryDecision.expiryAtMs =
        some (ofLex place).1 := by
  unfold dueRows Offered
  simp only [List.mem_map, List.mem_filter, Std.ExtTreeMap.mem_toList_iff_getElem?_eq_some,
    Prod.exists, Bool.and_eq_true, beq_iff_eq, decide_eq_true_eq, Option.mem_def]
  constructor
  · rintro ⟨id, decision, ⟨found, ⟨current, eligible⟩, reached⟩, rfl⟩
    refine ⟨⟨decision, found, current, eligible, reached⟩, ?_⟩
    rw [ofLex_toLex, found, Option.map_some]
  · rintro ⟨⟨decision, found, current, eligible, reached⟩, time⟩
    refine ⟨(ofLex place).2, decision, ⟨found, ⟨current, eligible⟩, reached⟩, ?_⟩
    rw [found, Option.map_some, Option.some.injEq] at time
    rw [time]
    rfl

theorem due_congr {now later : Timestamp}
    (same : ∀ id, expiry.Offered later id ↔ expiry.Offered now id) :
    expiry.due later = expiry.due now := by
  refine List.Pairwise.eq_of_mem_iff (sorted_due later) (sorted_due now) fun place => ?_
  rw [mem_due, mem_due, mem_dueRows, mem_dueRows, same]

theorem start_lt {now : Timestamp} (named : ∀ id, expiry.Offered now id → id ≠ "") :
    ∀ place ∈ expiry.due now, start < place := by
  intro place mem
  obtain ⟨offered, -⟩ := mem_dueRows.mp (mem_due.mp mem)
  have least : (timestampMin : Timestamp) ≤ (ofLex place).1 := (ofLex place).1.property.1
  have behind := empty_lt (named _ offered)
  rcases lt_or_eq_of_le least with earlier | same
  · exact lt_iff_ofLex.mpr (.inl earlier)
  · exact lt_iff_ofLex.mpr (.inr ⟨same, behind⟩)

/-! ### Answers -/

def returned : Except String (List String) → List String
  | .ok ids => ids
  | .error _ => []

structure Alike (expiry later : Expiry) : Prop where
  generation : later.generation = expiry.generation
  pending : later.activationPending = expiry.activationPending
  decisions : later.decisions = expiry.decisions

theorem Alike.refl (expiry : Expiry) : Alike expiry expiry := ⟨rfl, rfl, rfl⟩

theorem Alike.trans {first second third : Expiry} (earlier : Alike first second)
    (later : Alike second third) : Alike first third :=
  ⟨later.generation.trans earlier.generation, later.pending.trans earlier.pending,
    later.decisions.trans earlier.decisions⟩

theorem alike_moveTo (place : Place) : Alike expiry (expiry.moveTo place) := ⟨rfl, rfl, rfl⟩

theorem Alike.due {later : Expiry} (alike : Alike expiry later) (now : Timestamp) :
    later.due now = expiry.due now := by
  unfold Expiry.due dueRows
  rw [alike.decisions, alike.generation]

theorem cursor_moveTo (place : Place) : (expiry.moveTo place).cursor = place := rfl

theorem answer_of_pending (pending : expiry.activationPending = true) (call : ExpiryCall) :
    returned ((expiry.expiredRetentionCandidates call).map Prod.fst) = [] ∧
      expiry.afterCall call = expiry := by
  unfold afterCall expiredRetentionCandidates
  split
  · rcases call.failure with _ | message
    · simp only [candidates, pending]
      exact ⟨rfl, rfl⟩
    · exact ⟨rfl, rfl⟩
  · exact ⟨rfl, rfl⟩

section

variable (settled : expiry.activationPending = false)
include settled

/-- What one call does: it fails, or it finds nothing more and starts again, or it
answers with what comes next. -/
theorem call_cases (call : ExpiryCall) : ((∃ message, expiry.expiredRetentionCandidates call =
    .error message) ∧ expiry.afterCall call = expiry) ∨ ((expiry.expiredRetentionCandidates
    call).map Prod.fst = .ok [] ∧ remaining (expiry.due call.now) expiry.cursor = [] ∧
    expiry.afterCall call = expiry.moveTo start) ∨ ∃ ids place, (expiry.expiredRetentionCandidates
    call).map Prod.fst = .ok ids ∧ ids ≠ [] ∧ expiry.afterCall call = expiry.moveTo place ∧
    (remaining (expiry.due call.now) expiry.cursor).map (fun place => (ofLex place).2) = ids ++
    (remaining (expiry.due call.now) place).map fun place => (ofLex place).2 := by
  rcases answered : expiry.expiredRetentionCandidates call with message | ⟨ids, moved⟩
  · refine .inl ⟨⟨message, rfl⟩, ?_⟩
    simp only [afterCall, answered]
  have moves : expiry.afterCall call = moved := by
    simp only [afterCall, answered]
  unfold expiredRetentionCandidates at answered
  split at answered
  · next range =>
    split at answered
    · cases answered
    obtain ⟨idsEq, movedEq⟩ := candidates_eq_ok settled answered
    rw [moves, movedEq, idsEq]
    rcases last : (page (expiry.due call.now) expiry.cursor call.maxRecords).getLast? with
      _ | place
    · rw [List.getLast?_eq_none_iff] at last
      rw [last]
      exact .inr (.inl ⟨rfl, remaining_of_page_nil range.1 last, rfl⟩)
    · refine .inr (.inr ⟨_, place, rfl, ?_, rfl, ?_⟩)
      · rw [ne_eq, List.map_eq_nil_iff]
        intro nothing
        rw [nothing] at last
        cases last
      · rw [remaining_of_page (sorted_due call.now) last, ← List.map_append]
        exact congrArg _ (List.take_append_drop _ _).symm
  · cases answered

theorem alike_afterCall (call : ExpiryCall) : Alike expiry (expiry.afterCall call) := by
  rcases call_cases settled call with ⟨-, stays⟩ | ⟨-, -, restarts⟩ | ⟨-, place, -, -, moves, -⟩
  · rw [stays]
    exact .refl expiry
  · rw [restarts]
    exact alike_moveTo start
  · rw [moves]
    exact alike_moveTo place

theorem returned_until_empty {calls : List ExpiryCall} {now : Timestamp}
    (fixed : ∀ call ∈ calls, expiry.due call.now = expiry.due now)
    {between back : List (Except String (List String))}
    (run : answers expiry calls = between ++ .ok [] :: back)
    (held : ∀ answer ∈ between, answer ≠ .ok []) :
    between.flatMap returned = (remaining (expiry.due now) expiry.cursor).map fun place =>
      (ofLex place).2 := by
  induction between generalizing expiry calls with
  | nil =>
    cases calls with
    | nil => cases run
    | cons call calls =>
      obtain ⟨first, -⟩ := List.cons.inj run
      rw [← fixed call List.mem_cons_self]
      rcases call_cases settled call with
        ⟨⟨message, failed⟩, -⟩ | ⟨-, nothing, -⟩ | ⟨ids, -, answered, some, -⟩
      · rw [failed] at first
        cases first
      · rw [nothing]
        rfl
      · rw [answered] at first
        cases first
        exact absurd rfl some
  | cons answer between ih =>
    cases calls with
    | nil => cases run
    | cons call calls =>
      obtain ⟨first, rest⟩ := List.cons.inj run
      obtain ⟨here, others⟩ := List.forall_mem_cons.mp held
      have alike := alike_afterCall settled call
      have later := ih (alike.pending.trans settled)
        (fun next mem => by
          rw [alike.due, alike.due]
          exact fixed next (List.mem_cons_of_mem _ mem)) rest others
      rw [alike.due] at later
      rw [List.flatMap_cons, later]
      have clock := fixed call List.mem_cons_self
      rcases call_cases settled call with
        ⟨⟨message, failed⟩, stays⟩ | ⟨empty, -⟩ | ⟨ids, place, answered, -, moves, next⟩
      · rw [failed] at first
        rw [← first, stays]
        rfl
      · exact absurd (first.symm.trans empty) here
      · rw [answered] at first
        rw [← first, moves, cursor_moveTo, ← clock, next]
        rfl

theorem start_of_empty {calls : List ExpiryCall} {front rest : List (Except String (List String))}
    (run : answers expiry calls = front ++ .ok [] :: rest) :
    ∃ later after, Alike expiry later ∧ later.cursor = start ∧ after.Sublist calls ∧
      answers later after = rest := by
  induction front generalizing expiry calls with
  | nil =>
    cases calls with
    | nil => cases run
    | cons call calls =>
      obtain ⟨first, run⟩ := List.cons.inj run
      refine ⟨_, calls, alike_afterCall settled call, ?_, List.sublist_cons_self call calls, run⟩
      rcases call_cases settled call with
        ⟨⟨message, failed⟩, -⟩ | ⟨-, -, restarts⟩ | ⟨ids, -, answered, some, -⟩
      · rw [failed] at first
        cases first
      · rw [restarts, cursor_moveTo]
      · rw [answered] at first
        cases first
        exact absurd rfl some
  | cons answer front ih =>
    cases calls with
    | nil => cases run
    | cons call calls =>
      obtain ⟨-, run⟩ := List.cons.inj run
      have alike := alike_afterCall settled call
      obtain ⟨later, after, same, atStart, part, answered⟩ :=
        ih (alike.pending.trans settled) run
      exact ⟨later, after, alike.trans same, atStart, part.cons call, answered⟩

theorem offered_of_returned {call : ExpiryCall} {id : String}
    (mem : id ∈ returned ((expiry.expiredRetentionCandidates call).map Prod.fst)) :
    expiry.Offered call.now id := by
  rcases call_cases settled call with
    ⟨⟨message, failed⟩, -⟩ | ⟨empty, -⟩ | ⟨ids, place, answered, -, -, next⟩
  · rw [failed] at mem
    cases mem
  · rw [empty] at mem
    cases mem
  · rw [answered] at mem
    have listed : id ∈ (remaining (expiry.due call.now) expiry.cursor).map
        fun place => (ofLex place).2 := by
      rw [next]
      exact List.mem_append_left _ mem
    obtain ⟨found, rest, rfl⟩ := List.mem_map.mp listed
    exact (mem_dueRows.mp (mem_due.mp (mem_remaining.mp rest).1)).1

end

/-- Whatever the calls are, they answer with recordings of the current generation. -/
theorem current_of_returned {calls : List ExpiryCall} {answer : Except String (List String)}
    (answered : answer ∈ answers expiry calls) {id : String} (mem : id ∈ returned answer) :
    ∃ decision ∈ expiry.decisions[id]?, decision.runtimeGeneration = expiry.generation := by
  induction calls generalizing expiry with
  | nil => cases answered
  | cons call calls ih =>
    rcases pending : expiry.activationPending with _ | _
    · have alike := alike_afterCall pending call
      rcases List.mem_cons.mp answered with rfl | later
      · obtain ⟨decision, found, current, -⟩ := offered_of_returned pending mem
        exact ⟨decision, found, current⟩
      · obtain ⟨decision, found, current⟩ := ih later
        rw [alike.decisions] at found
        exact ⟨decision, found, current.trans alike.generation⟩
    · obtain ⟨nothing, stays⟩ := answer_of_pending pending call
      rcases List.mem_cons.mp answered with rfl | later
      · rw [nothing] at mem
        cases mem
      · rw [stays] at later
        exact ih later

theorem nodup_due_ids (now : Timestamp) :
    ((expiry.due now).map fun place => (ofLex place).2).Nodup := by
  rw [List.Nodup, List.pairwise_map]
  refine (sorted_due now).imp_of_mem ?_
  intro left right leftMem rightMem less ids
  have leftTime := (mem_dueRows.mp (mem_due.mp leftMem)).2
  have rightTime := (mem_dueRows.mp (mem_due.mp rightMem)).2
  rw [ids, rightTime] at leftTime
  exact less.ne (Prod.ext (Option.some.inj leftTime).symm ids)

theorem mem_due_ids {now : Timestamp} {id : String} :
    id ∈ (expiry.due now).map (fun place => (ofLex place).2) ↔ expiry.Offered now id := by
  rw [List.mem_map]
  constructor
  · rintro ⟨place, mem, rfl⟩
    exact (mem_dueRows.mp (mem_due.mp mem)).1
  · rintro ⟨decision, found, rest⟩
    refine ⟨toLex (decision.expiryAtMs, id), mem_due.mpr (mem_dueRows.mpr ?_), rfl⟩
    rw [Option.mem_def] at found
    refine ⟨⟨decision, found, rest⟩, ?_⟩
    rw [ofLex_toLex, found, Option.map_some]

/-- Expired recordings are all offered: while no activation is pending and the set of
what is due stays as it is, the answers between two empty ones hold each recording
of the set once, in the order of deadline and recording; and no answer holds a
recording of another generation. -/
theorem expired_are_offered_once (expiry : Expiry) (calls : List ExpiryCall) :
    (∀ now, expiry.activationPending = false →
      (∀ id, expiry.Offered now id → id ≠ "") →
      (∀ call ∈ calls, ∀ id, expiry.Offered call.now id ↔ expiry.Offered now id) →
      ∀ front between back,
        expiry.answers calls = front ++ .ok [] :: (between ++ .ok [] :: back) →
        (∀ answer ∈ between, answer ≠ .ok []) →
        (between.flatMap returned).Nodup ∧
        (∀ id, id ∈ between.flatMap returned ↔ expiry.Offered now id) ∧
        ∃ places : List Place, places.Pairwise (· < ·) ∧
          between.flatMap returned = places.map (fun place => (ofLex place).2) ∧
          ∀ place ∈ places, (expiry.decisions[(ofLex place).2]?).map ExpiryDecision.expiryAtMs =
            some (ofLex place).1) ∧
    ∀ answer ∈ expiry.answers calls, ∀ id ∈ returned answer,
      ∃ decision ∈ expiry.decisions[id]?, decision.runtimeGeneration = expiry.generation := by
  refine ⟨fun now settled named fixed front between back run held => ?_,
    fun answer answered id mem => current_of_returned answered mem⟩
  obtain ⟨later, after, alike, atStart, part, rest⟩ := start_of_empty settled run
  have clock (call : ExpiryCall) (mem : call ∈ after) :
      later.due call.now = later.due now := by
    rw [alike.due, alike.due]
    exact due_congr (fixed call (part.subset mem))
  have cycle := returned_until_empty (alike.pending.trans settled) clock rest held
  rw [atStart, alike.due, remaining_of_lt (start_lt named)] at cycle
  rw [cycle]
  refine ⟨nodup_due_ids now, fun id => mem_due_ids, expiry.due now, sorted_due now, rfl, ?_⟩
  intro place mem
  exact (mem_dueRows.mp (mem_due.mp mem)).2

namespace Fixture

def millisecond (ms : Nat) (fits : ms < 2 ^ 63) : Timestamp :=
  ⟨ms, by omega⟩

def noon : Timestamp := millisecond 10 (by decide)

def decision (generation : Nat) (deadlineMs : Option Timestamp) : ExpiryDecision :=
  ⟨generation, deadlineMs, false, true, false, .settled⟩

def two : Expiry where
  generation := 2
  requestPending := false
  complete := true
  cursorMs := timestampMin
  cursorId := ""
  decisions := .ofList
    [("a", decision 2 (some (millisecond 5 (by decide)))), ("b", decision 2 none),
      ("c", decision 1 none)]

def call : ExpiryCall := ⟨noon, 1, none⟩

def waiting : Expiry := { two with requestPending := true }

def unnamed : Expiry := { two with decisions := .ofList [("", decision 2 none)] }

end Fixture

open Fixture

theorem expired_are_offered_once_of_two :
    two.answers (List.replicate 6 call) =
        [.ok ["b"], .ok ["a"]] ++ .ok [] :: ([.ok ["b"], .ok ["a"]] ++ [.ok []]) ∧
      ∀ id, id ∈ ["b", "a"] ↔ two.Offered noon id := by
  have run : two.answers (List.replicate 6 call) =
      [.ok ["b"], .ok ["a"]] ++ .ok [] :: ([.ok ["b"], .ok ["a"]] ++ [.ok []]) := by
    rfl
  have named (id : String) (offered : two.Offered noon id) : id ≠ "" := by
    rintro rfl
    obtain ⟨decision, found, -⟩ := offered
    have none : two.decisions[""]? = none := by
      rfl
    rw [none] at found
    cases found
  refine ⟨run, ((expired_are_offered_once two _).1 noon rfl named ?_ _ _ [] run
    (by simp)).2.1⟩
  intro call mem id
  rw [List.eq_of_mem_replicate mem]
  rfl

/-- While an activation is pending, or where a recording without a deadline has an empty
name, two empty answers follow each other and a recording is due. -/
theorem pending_or_unnamed_is_not_offered :
    (waiting.answers (List.replicate 2 call) = [.ok [], .ok []] ∧
      waiting.Offered noon "b") ∧
    unnamed.answers (List.replicate 2 call) = [.ok [], .ok []] ∧
      unnamed.Offered noon "" := by
  refine ⟨⟨rfl, decision 2 none, rfl, rfl, rfl, ?_⟩,
    rfl, decision 2 none, rfl, rfl, rfl, ?_⟩ <;> decide

end Expiry

end KeepPeek.Retention
