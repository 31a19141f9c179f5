import KeepPeek.Storage.Continuous

/-! A continuous history conserves its frames. Once a stream without groups is
switched to continuous, every frame offered to it is refused, released, taken,
trimmed from a replay as uncovered audio, or still in a group. The frames in groups
are always the newest offers, so what is released leaves in offered order. -/
namespace KeepPeek.Storage

open Lib Std
open StreamHistory

variable {settled : List Settled} {backlog : List RecordingFrame} {exits : Exits}

/-- How an offered frame came to be in no group. -/
inductive Fate where
  | rejected
  | released
  | taken
  | trimmed
  deriving DecidableEq, Repr

structure Settled where
  frame : RecordingFrame
  fate : Fate
  deriving DecidableEq, Repr

def Settled.offer (entry : Settled) : Offer := ⟨entry.frame, entry.fate != .rejected⟩

def framesOf (frames : List BufferedFrame) : List RecordingFrame := frames.map BufferedFrame.frame

def withFate (fate : Fate) (settled : List Settled) : List RecordingFrame :=
  (settled.filter fun entry => entry.fate = fate).map Settled.frame

def settledAs (fate : Fate) (frames : List BufferedFrame) : List Settled :=
  frames.map fun buffered => ⟨buffered.frame, fate⟩

@[simp] theorem framesOf_append (first second : List BufferedFrame) :
    framesOf (first ++ second) = framesOf first ++ framesOf second :=
  List.map_append

@[simp] theorem withFate_append (fate : Fate) (first second : List Settled) :
    withFate fate (first ++ second) = withFate fate first ++ withFate fate second := by
  simp [withFate]

@[simp] theorem withFate_settledAs (fate other : Fate) (fs : List BufferedFrame) :
    withFate fate (settledAs other fs) = if other = fate then framesOf fs else [] := by
  unfold withFate settledAs framesOf
  induction fs with
  | nil => simp
  | cons buffered fs ih => by_cases h : other = fate <;> simp_all

theorem settledAs_offers {fate : Fate} (h : fate ≠ .rejected) (fs : List BufferedFrame) :
    (settledAs fate fs).map Settled.offer = acceptedOffers fs := by
  simp [settledAs, acceptedOffers, Settled.offer, h]

structure Exits where
  offered : List Offer
  delivered : List RecordingFrame
  taken : List RecordingFrame
  deriving DecidableEq, Repr

namespace Exits

def none : Exits := ⟨[], [], []⟩

def offer (exits : Exits) (offer : Offer) : Exits :=
  { exits with offered := exits.offered ++ [offer] }

def deliver (exits : Exits) (frame : RecordingFrame) : Exits :=
  { exits with delivered := exits.delivered ++ [frame] }

def take (exits : Exits) (frames : List RecordingFrame) : Exits :=
  { exits with taken := exits.taken ++ frames }

def observe (key : StreamKey) (buffers : PreRecordBuffers) (exits : Exits) : PreRecordOp → Exits
  | .pushOwned other frame now =>
    if other = key then exits.offer ⟨frame, (buffers.pushOwned other frame now).2.toBool⟩ else exits
  | .nextReleased =>
    match buffers.nextReleased.2 with
    | some (other, buffered) => if other = key then exits.deliver buffered.frame else exits
    | Option.none => exits
  | .take other now =>
    if other = key then exits.take (framesOf (buffers.take other now).2) else exits
  | _ => exits

variable {key other : StreamKey} {b : PreRecordBuffers} {exits : Exits}

theorem observe_pushOwned (f : RecordingFrame) (now : Nat) :
    exits.observe key b (.pushOwned other f now) = if other =
      key then exits.offer ⟨f, (b.pushOwned other f now).2.toBool⟩ else exits := rfl

theorem observe_take (now : Nat) :
    exits.observe key b (.take other now) =
      if other = key then exits.take (framesOf (b.take other now).2) else exits := rfl

end Exits

/-- Every offered frame is settled or in a group, never both: the groups hold the
newest offers. The frames released before the first offer are the backlog. -/
structure Explains (settled : List Settled) (backlog : List RecordingFrame)
    (contents released : List BufferedFrame) (exits : Exits) : Prop where
  offered : exits.offered = settled.map Settled.offer ++ acceptedOffers contents
  delivered : exits.delivered ++ framesOf released = backlog ++ withFate .released settled
  taken : exits.taken = withFate .taken settled
  trimmed : ∀ entry ∈ settled, entry.fate = .trimmed → entry.frame.isVideo = false

namespace Explains

variable {settled : List Settled} {backlog : List RecordingFrame}
  {contents dropped kept released : List BufferedFrame} {exits : Exits}

theorem release (h : Explains settled backlog (dropped ++ kept) released exits) :
    Explains (settled ++ settledAs .released dropped) backlog kept (released ++ dropped) exits where
  offered := by
    rw [h.offered, List.map_append, settledAs_offers (by decide), acceptedOffers_append,
      List.append_assoc]
  delivered := by
    rw [framesOf_append, ← List.append_assoc, h.delivered, withFate_append, withFate_settledAs,
      if_pos rfl, List.append_assoc]
  taken := by simp [h.taken]
  trimmed entry hentry htrimmed := by
    rcases List.mem_append.mp hentry with hold | hnew
    · exact h.trimmed entry hold htrimmed
    · obtain ⟨buffered, -, rfl⟩ := List.mem_map.mp hnew
      cases htrimmed

theorem accept (h : Explains settled backlog contents released exits) (buffered : BufferedFrame) :
    Explains settled backlog (contents ++ [buffered]) released
      (exits.offer ⟨buffered.frame, true⟩) where
  offered := by
    show exits.offered ++ _ = _
    rw [h.offered, acceptedOffers_append, List.append_assoc]
    rfl
  delivered := h.delivered
  taken := h.taken
  trimmed := h.trimmed

theorem reject (h : Explains settled backlog [] released exits) (f : RecordingFrame) :
    Explains (settled ++ [⟨f, .rejected⟩]) backlog [] released (exits.offer ⟨f, false⟩) where
  offered := by
    show exits.offered ++ _ = _
    rw [h.offered]
    simp [Settled.offer]
  delivered := by
    show exits.delivered ++ _ = _
    rw [h.delivered]
    simp [withFate]
  taken := by
    show exits.taken = _
    rw [h.taken]
    simp [withFate]
  trimmed entry hentry htrimmed := by
    rcases List.mem_append.mp hentry with hold | hnew
    · exact h.trimmed entry hold htrimmed
    · cases List.mem_singleton.mp hnew
      cases htrimmed

theorem deliver {buffered : BufferedFrame}
    (h : Explains settled backlog contents (buffered :: released) exits) :
    Explains settled backlog contents released (exits.deliver buffered.frame) where
  offered := h.offered
  delivered := by
    rw [← h.delivered]
    simp [Exits.deliver, framesOf]
  taken := h.taken
  trimmed := h.trimmed

end Explains

/-- The frames of a replay, in order, are taken or trimmed; only audio is trimmed. -/
structure Splits (frames kept : List BufferedFrame) (left : List Settled) : Prop where
  offers : left.map Settled.offer = acceptedOffers frames
  released : withFate .released left = []
  taken : withFate .taken left = framesOf kept
  trimmed : ∀ entry ∈ left, entry.fate = .trimmed → entry.frame.isVideo = false

namespace Splits

variable {fs kept : List BufferedFrame} {left : List Settled} {buffered : BufferedFrame}

theorem keep (h : Splits fs kept left) :
    Splits (buffered :: fs) (buffered :: kept) (⟨buffered.frame, .taken⟩ :: left) where
  offers := by
    rw [List.map_cons, h.offers]
    rfl
  released := by simpa [withFate] using h.released
  taken := by simpa [withFate, framesOf] using h.taken
  trimmed entry hentry hfate := by
    rcases List.mem_cons.mp hentry with rfl | hmem
    · cases hfate
    · exact h.trimmed entry hmem hfate

theorem trim (h : Splits fs kept left) (haudio : buffered.frame.isVideo = false) :
    Splits (buffered :: fs) kept (⟨buffered.frame, .trimmed⟩ :: left) where
  offers := by
    rw [List.map_cons, h.offers]
    rfl
  released := by simpa [withFate] using h.released
  taken := by simpa [withFate] using h.taken
  trimmed entry hentry hfate := by
    rcases List.mem_cons.mp hentry with rfl | hmem
    · exact haudio
    · exact h.trimmed entry hmem hfate

end Splits

theorem PreRecordBuffers.Trims.splits {fs kept dropped : List BufferedFrame}
    (h : Trims fs kept dropped) : ∃ left, Splits fs kept left := by
  induction h with
  | nil => exact ⟨[], rfl, rfl, rfl, by simp⟩
  | keep _ _ ih =>
    obtain ⟨left, hleft⟩ := ih
    exact ⟨_, hleft.keep⟩
  | trim audio _ ih =>
    obtain ⟨left, hleft⟩ := ih
    exact ⟨_, hleft.trim audio⟩

theorem Explains.take {left : List Settled} {contents kept released : List BufferedFrame}
    (h : Explains settled backlog contents released exits) (hsplits : Splits contents kept left) :
    Explains (settled ++ left) backlog [] released (exits.take (framesOf kept)) where
  offered := by
    show exits.offered = _
    rw [h.offered, List.map_append, hsplits.offers]
    simp
  delivered := by
    show exits.delivered ++ _ = _
    rw [h.delivered, withFate_append, hsplits.released, List.append_nil]
  taken := by
    show exits.taken ++ _ = _
    rw [h.taken, withFate_append, hsplits.taken]
  trimmed entry hentry hfate := by
    rcases List.mem_append.mp hentry with hold | hnew
    · exact h.trimmed entry hold hfate
    · exact hsplits.trimmed entry hnew hfate

/-- One operation, as a stream that is not reconfigured sees it. -/
inductive Turn : Option StreamHistory → Exits → Option StreamHistory → Exits → Prop where
  | evicts {before after : Option StreamHistory} {exits : Exits}
      (moves : Option.Rel (fun old new => ∃ popped, StreamHistory.Evicts popped old new)
        before after) : Turn before exits after exits
  | absent {exits : Exits} (frame : RecordingFrame) :
      Turn none exits none (exits.offer ⟨frame, false⟩)
  | accepts {before after : StreamHistory} {exits : Exits} {frame : RecordingFrame}
      (accepted : StreamHistory.Accepts frame before after) :
      Turn (some before) exits (some after) (exits.offer ⟨frame, true⟩)
  | refuses {before after : StreamHistory} {exits : Exits} (frame : RecordingFrame)
      (refused : StreamHistory.Refuses before after) :
      Turn (some before) exits (some after) (exits.offer ⟨frame, false⟩)
  | delivers {before : StreamHistory} {exits : Exits} {buffered : BufferedFrame}
      {released : List BufferedFrame} (queued : before.released = buffered :: released) :
      Turn (some before) exits (some { before with released := released })
        (exits.deliver buffered.frame)
  | takes {before middle after : StreamHistory} {exits : Exits} {popped : List Gop}
      (expired : StreamHistory.Evicts popped before middle) (empty : after.gops = [])
      (released : after.released = middle.released)
      (continuous : after.continuous = middle.continuous) :
      Turn (some before) exits (some after)
        (exits.take (framesOf (trimAudioToVideo middle.contents).1))

def heldContents (history : Option StreamHistory) : List BufferedFrame :=
  history.elim [] contents

def heldReleased (history : Option StreamHistory) : List BufferedFrame :=
  history.elim [] released

/-- A registered stream is continuous and keeps no group across a discarded one. -/
def Lossless (history : Option StreamHistory) : Prop :=
  ∀ found, history = some found → found.continuous = true ∧ found.Tame

structure Conserves (backlog : List RecordingFrame) (history : Option StreamHistory)
    (exits : Exits) : Prop where
  lossless : Lossless history
  explained : ∃ settled,
    Explains settled backlog (heldContents history) (heldReleased history) exits

theorem Conserves.some_of {hs : StreamHistory} (hcontinuous : hs.continuous = true)
    (htame : hs.Tame) (h : Explains settled backlog hs.contents hs.released exits) :
    Conserves backlog (some hs) exits :=
  ⟨by
    rintro found hfound
    cases Option.some.inj hfound
    exact ⟨hcontinuous, htame⟩, settled, h⟩

theorem StreamHistory.tame_of_empty {hs : StreamHistory} (h : hs.gops = []) : hs.Tame :=
  fun _ _ => h

theorem Explains.shifts {before after : StreamHistory} {dropped : List BufferedFrame}
    (h : Explains settled backlog before.contents before.released exits)
    (hcontinuous : before.continuous = true) (hshifts : StreamHistory.Shifts dropped before after) :
    Explains (settled ++ settledAs .released dropped) backlog
      after.contents after.released exits := by
  rw [hshifts.contents] at h
  rw [hshifts.released, hcontinuous, if_pos rfl]
  exact h.release

theorem Turn.conserves {before after : Option StreamHistory} {later : Exits}
    (hturn : Turn before exits after later) (h : Conserves backlog before exits) :
    Conserves backlog after later := by
  obtain ⟨hlossless, settled, hexplained⟩ := h
  cases hturn with
  | evicts moves =>
    cases moves with
    | none => exact ⟨hlossless, settled, hexplained⟩
    | some hpop =>
      obtain ⟨popped, hpop⟩ := hpop
      obtain ⟨hcontinuous, htame⟩ := hlossless _ rfl
      exact .some_of (hpop.continuous.trans hcontinuous) (hpop.tame htame)
        (hexplained.shifts hcontinuous hpop.shifts)
  | absent frame => exact ⟨hlossless, _, hexplained.reject frame⟩
  | @accepts old own _ frame accepted =>
    obtain ⟨hcontinuous, -⟩ := hlossless _ rfl
    obtain ⟨dropped, kept, reservation, hbefore, hafter, hreleased, -⟩ := accepted.contents
    have hsplit : Explains settled backlog (dropped ++ kept) old.released exits :=
      hbefore ▸ hexplained
    have hgrown := hsplit.release.accept ⟨frame, reservation⟩
    rw [hcontinuous, if_pos rfl] at hreleased
    rw [← hafter, ← hreleased] at hgrown
    refine .some_of (accepted.continuous.trans hcontinuous) (fun _ hmarked => ?_) hgrown
    rw [accepted.unmarked] at hmarked
    cases hmarked
  | @refuses old own _ frame refused =>
    obtain ⟨hcontinuous, -⟩ := hlossless _ rfl
    obtain ⟨hnil, hreleased⟩ := refused.spilled hcontinuous
    have hall : Explains settled backlog (old.contents ++ []) old.released exits := by
      rw [List.append_nil]
      exact hexplained
    have hspilled := hall.release.reject frame
    rw [← hreleased, ← contents_eq_nil hnil] at hspilled
    exact .some_of (refused.continuous.trans hcontinuous) (tame_of_empty hnil) hspilled
  | @delivers old _ buffered released queued =>
    obtain ⟨hcontinuous, htame⟩ := hlossless _ rfl
    have hqueue : Explains settled backlog old.contents (buffered :: released) exits :=
      queued ▸ hexplained
    exact .some_of hcontinuous htame hqueue.deliver
  | @takes old middle own _ popped expired empty hreleased hcontinuous' =>
    obtain ⟨hcontinuous, -⟩ := hlossless _ rfl
    obtain ⟨left, hsplits⟩ :=
      (PreRecordBuffers.trimAudioToVideo_trims middle.contents).splits
    have htake := (hexplained.shifts hcontinuous expired.shifts).take hsplits
    rw [← hreleased, ← contents_eq_nil empty] at htake
    exact .some_of ((hcontinuous'.trans expired.continuous).trans hcontinuous)
      (tame_of_empty empty) htake

/-- The operation does not configure, clear, remove or switch off the stream. -/
def PreRecordOp.Keeps (key : StreamKey) : PreRecordOp → Prop
  | .configure source stream _ => StreamKey.mk source stream ≠ key
  | .setContinuous other continuous => other = key → continuous = true
  | .clearSource source => source ≠ key.source
  | .clearStream other => other ≠ key
  | .removeSource source => source ≠ key.source
  | _ => True

instance (key : StreamKey) : (op : PreRecordOp) → Decidable (op.Keeps key)
  | .configure source stream _ => inferInstanceAs (Decidable (StreamKey.mk source stream ≠ key))
  | .setContinuous other continuous => inferInstanceAs (Decidable (other = key → continuous = true))
  | .clearSource source => inferInstanceAs (Decidable (source ≠ key.source))
  | .clearStream other => inferInstanceAs (Decidable (other ≠ key))
  | .removeSource source => inferInstanceAs (Decidable (source ≠ key.source))
  | .pushOwned .. | .nextReleased | .expire _ | .take .. | .snapshot .. | .drop _ => .isTrue trivial

namespace PreRecordBuffers

variable {b : PreRecordBuffers} {key : StreamKey}

theorem evicts_of_eq {before after : Option StreamHistory} (h : after = before) :
    Option.Rel (fun old new => ∃ popped, StreamHistory.Evicts popped old new) before after := by
  rw [h]
  apply optionRel_refl
  exact fun history => ⟨[], .refl history⟩

theorem updateStream_of_ne {other : StreamKey} (h : other ≠ key)
    (update : Budgets → StreamHistory → Budgets × StreamHistory) :
    (b.updateStream other update).streams[key]? = b.streams[key]? := by
  rw [updateStream_getElem?, if_neg h]

theorem configure_of_ne {source stream : String} (h : StreamKey.mk source stream ≠ key)
    (duration : Nat) :
    (b.configure source stream duration).1.streams[key]? = b.streams[key]? := by
  unfold configure
  split
  · rfl
  split
  · exact updateStream_of_ne h _
  · split
    · rfl
    · exact getElem?_insert_of_ne (Ne.symm h) _ _

theorem updateStreams_of_unselected {selected : StreamKey → Bool} (h : selected key = false)
    (update : Budgets → StreamHistory → Budgets × StreamHistory) :
    (b.updateStreams selected update).streams[key]? = b.streams[key]? := by
  refine @foldl_invariant_mem _ _ _
    (fun next : PreRecordBuffers => next.streams[key]? = b.streams[key]?) _ rfl _ ?_
  intro next other hother hnext
  rw [updateStream_of_ne, hnext]
  rintro rfl
  simp [h] at hother

theorem removeSource_of_ne {source : String} (h : source ≠ key.source) :
    (b.removeSource source).streams[key]? = b.streams[key]? := by
  refine @foldl_invariant_mem _ _ _
    (fun next : PreRecordBuffers => next.streams[key]? = b.streams[key]?) _ rfl _ ?_
  intro next other hother hnext
  rw [← hnext]
  have hne : other ≠ key := by
    rintro rfl
    have hsource := (List.mem_filter.mp hother).2
    exact h (eq_of_beq hsource).symm
  unfold removeStream
  split
  · rfl
  · rw [ExtTreeMap.getElem?_erase, if_neg]
    exact fun hcompare => hne (LawfulEqCmp.eq_of_compare hcompare)

theorem expire_evicts (now : Nat) : EvictsAll b (b.expire now) := by
  refine @foldl_invariant _ _ _ (fun next : PreRecordBuffers => EvictsAll b next)
    (fun next other hnext => hnext.trans fun own => ?_) _ (EvictsAll.refl b) _
  rw [updateStream_getElem?]
  split
  next heq =>
    subst heq
    cases next.streams[other]? with
    | none => exact .none
    | some history =>
      obtain ⟨popped, after, hexpire, hevicts, -⟩ :=
        expire_spec next.budgets history now
      refine .some ⟨popped, ?_⟩
      dsimp only
      rw [hexpire]
      exact hevicts
  next => exact evicts_of_eq rfl

theorem snapshot_evicts (other : StreamKey) (now : Nat) : EvictsAll b (b.snapshot other now).1 := by
  intro own
  unfold snapshot
  cases hother : b.streams[other]? with
  | none => exact evicts_of_eq rfl
  | some history =>
    obtain ⟨popped, after, hexpire, hevicts, -⟩ :=
      expire_spec b.budgets history now
    dsimp only
    rw [hexpire]
    by_cases hne : own = other
    · subst hne
      rw [hother, ExtTreeMap.getElem?_insert_self]
      exact .some ⟨popped, hevicts⟩
    · exact evicts_of_eq (getElem?_insert_of_ne hne _ _)

theorem nextReleased_cases (b : PreRecordBuffers) :
    (b.nextReleased = (b, none) ∧
      ∀ (key : StreamKey) (history : StreamHistory), b.streams[key]? = some history →
        history.released = []) ∨
      ∃ other history buffered released, b.streams[other]? = some history ∧
        history.released = buffered :: released ∧
        b.nextReleased = ({ b with
              streams := b.streams.insert other { history with released := released } },
            some (other, buffered)) := by
  unfold nextReleased
  split
  next hnone =>
    refine .inl ⟨rfl, fun key history hkey => ?_⟩
    have hfree := List.find?_eq_none.mp hnone (key, history)
      (ExtTreeMap.mem_toList_iff_getElem?_eq_some.mpr hkey)
    simpa using hfree
  next other history hfind =>
    have hother : b.streams[other]? = some history :=
      ExtTreeMap.mem_toList_iff_getElem?_eq_some.mp (List.mem_of_find?_eq_some hfind)
    split
    next hnil =>
      have hqueued := List.find?_some hfind
      simp [hnil] at hqueued
    next buffered released hreleased =>
      exact .inr ⟨other, history, buffered, released, hother, hreleased, rfl⟩

theorem nextReleased_turn (exits : Exits) :
    Turn b.streams[key]? exits b.nextReleased.1.streams[key]?
      (exits.observe key b .nextReleased) := by
  unfold Exits.observe
  rcases nextReleased_cases b with ⟨hnone, -⟩ |
    ⟨other, history, buffered, released, hother, hreleased, hnext⟩
  · rw [hnone]
    exact .evicts (evicts_of_eq rfl)
  · rw [hnext]
    dsimp only
    by_cases hne : other = key
    · subst hne
      rw [if_pos rfl, hother, ExtTreeMap.getElem?_insert_self]
      exact .delivers hreleased
    · rw [if_neg hne]
      exact .evicts (evicts_of_eq (getElem?_insert_of_ne (Ne.symm hne) _ _))

theorem take_turn (other : StreamKey) (now : Nat) (exits : Exits) :
    Turn b.streams[key]? exits (b.take other now).1.streams[key]?
      (exits.observe key b (.take other now)) := by
  rw [Exits.observe_take]
  by_cases hne : other = key
  · subst hne
    rw [if_pos rfl]
    unfold take
    cases hother : b.streams[other]? with
    | none =>
      rw [hother]
      simpa [framesOf, Exits.take] using @Turn.evicts none none exits .none
    | some history =>
      obtain ⟨popped, middle, hexpire, hevicts, -⟩ :=
        expire_spec b.budgets history now
      dsimp only
      rw [hexpire, ExtTreeMap.getElem?_insert_self]
      exact .takes hevicts rfl rfl rfl
  · rw [if_neg hne]
    unfold take
    split
    · exact .evicts (evicts_of_eq rfl)
    · exact .evicts (evicts_of_eq (getElem?_insert_of_ne (Ne.symm hne) _ _))

variable {sb gb : Nat} {detached : Multiset BufferedFrame}
  {offers : StreamKey → List Offer}

theorem pushOwned_turn (haccounted : Accounted sb gb b detached)
    (hcoherent : b.AllCoherent offers) (hlossless : Lossless b.streams[key]?)
    (other : StreamKey) (f : RecordingFrame) (now : Nat) (exits : Exits) :
    Turn b.streams[key]? exits (b.pushOwned other f now).1.streams[key]?
      (exits.observe key b (.pushOwned other f now)) := by
  rw [Exits.observe_pushOwned]
  cases hother : b.streams[other]? with
  | none =>
    have hsame : b.pushOwned other f now = (b, .error f) := by
      simp [pushOwned, hother]
    rw [hsame]
    by_cases hne : other = key
    · subst hne
      rw [if_pos rfl, hother]
      exact .absent f
    · rw [if_neg hne]
      exact .evicts (evicts_of_eq rfl)
  | some history =>
    obtain ⟨own, accepted, hown, hresult, hpushes, hothers⟩ :=
      pushOwned_pushes haccounted hother (hcoherent other history hother) f now
    by_cases hne : other = key
    · subst hne
      have htame := (hlossless history hother).2
      rw [if_pos rfl, hother, hown, hresult]
      cases accepted with
      | false => exact .refuses f (hpushes.refuses (hcoherent other history hother) htame)
      | true => exact .accepts (hpushes.accepts (hcoherent other history hother) htame)
    · rw [if_neg hne]
      exact .evicts (hothers key (Ne.symm hne))

def drainReleased : Nat → PreRecordBuffers → PreRecordBuffers × List (StreamKey × BufferedFrame)
  | 0, buffers => (buffers, [])
  | fuel + 1, buffers =>
    match buffers.nextReleased with
    | (buffers, none) => (buffers, [])
    | (buffers, some entry) =>
      let (buffers, entries) := drainReleased fuel buffers
      (buffers, entry :: entries)

/-- Every round pops a released frame, so their number bounds the loop. -/
def releaseAll (buffers : PreRecordBuffers) :
    PreRecordBuffers × List (StreamKey × BufferedFrame) :=
  drainReleased (total (fun _ history => history.released.length) buffers.streams) buffers

def deliveredTo (key : StreamKey) (entries : List (StreamKey × BufferedFrame)) :
    List BufferedFrame :=
  entries.filterMap fun entry => if entry.1 = key then some entry.2 else none

theorem deliveredTo_cons (key : StreamKey) (entry : StreamKey × BufferedFrame)
    (entries : List (StreamKey × BufferedFrame)) :
    deliveredTo key (entry :: entries) =
      if entry.1 = key then entry.2 :: deliveredTo key entries else deliveredTo key entries := by
  unfold deliveredTo
  split
  next heq => simp [heq]
  next hne => simp [hne]

/-- A drain delivers the released frames of the stream in order and keeps its groups. -/
structure Drained (key : StreamKey) (before after : PreRecordBuffers)
    (entries : List (StreamKey × BufferedFrame)) : Prop where
  contents : heldContents after.streams[key]? = heldContents before.streams[key]?
  released : heldReleased after.streams[key]? = []
  delivered : deliveredTo key entries = heldReleased before.streams[key]?

theorem drainReleased_drained {fuel : Nat} {b : PreRecordBuffers}
    (hfuel : total (fun _ history => history.released.length) b.streams ≤ fuel)
    (key : StreamKey) :
    Drained key b (drainReleased fuel b).1 (drainReleased fuel b).2 := by
  induction fuel generalizing b with
  | zero =>
    refine ⟨rfl, ?_, ?_⟩
    all_goals
      cases hkey : b.streams[key]? with
      | none => simp [drainReleased, heldReleased, deliveredTo, hkey]
      | some history =>
        rw [total_eq_add_erase _ hkey] at hfuel
        have hnil : history.released = [] := List.length_eq_zero_iff.mp (by omega)
        simp [drainReleased, heldReleased, deliveredTo, hkey, hnil]
  | succ fuel ih =>
    rcases nextReleased_cases b with ⟨hnone, hfree⟩ |
      ⟨other, history, buffered, released, hother, hreleased, hnext⟩
    · have hempty : heldReleased b.streams[key]? = [] := by
        cases hkey : b.streams[key]? with
        | none => rfl
        | some history => exact hfree key history hkey
      simp only [drainReleased, hnone]
      exact ⟨rfl, hempty, hempty.symm⟩
    · simp only [drainReleased, hnext]
      have hrest := @ih { b with
          streams := b.streams.insert other { history with released := released } } (by
        rw [total_eq_add_erase _ hother, hreleased, List.length_cons] at hfuel
        rw [total_insert]
        dsimp only
        omega)
      obtain ⟨hcontents, hdrained, hdelivered⟩ := hrest
      by_cases hne : other = key
      · subst hne
        rw [ExtTreeMap.getElem?_insert_self] at hcontents hdelivered
        refine ⟨?_, hdrained, ?_⟩
        · rw [hcontents, hother]
          rfl
        · rw [deliveredTo_cons, if_pos rfl, hdelivered, hother]
          exact hreleased.symm
      · rw [getElem?_insert_of_ne (Ne.symm hne)] at hcontents hdelivered
        refine ⟨hcontents, hdrained, ?_⟩
        rw [deliveredTo_cons, if_neg hne, hdelivered]

end PreRecordBuffers

open PreRecordBuffers

structure StreamTrace where
  system : PreRecordSystem
  exits : Exits

namespace StreamTrace

def step (key : StreamKey) (trace : StreamTrace) (op : PreRecordOp) : StreamTrace :=
  ⟨trace.system.step op, trace.exits.observe key trace.system.buffers op⟩

def run (key : StreamKey) (system : PreRecordSystem) (ops : List PreRecordOp) : StreamTrace :=
  ops.foldl (step key) ⟨system, .none⟩

def Valid (streamBytes globalBytes : Nat) (system : PreRecordSystem) : Prop :=
  ∃ offered, (LoggedSystem.mk system offered).Valid streamBytes globalBytes

variable {sb gb : Nat} {key : StreamKey} {trace : StreamTrace}
  {op : PreRecordOp}

theorem valid_step {system : PreRecordSystem} (h : Valid sb gb system)
    (op : PreRecordOp) : Valid sb gb (system.step op) := by
  obtain ⟨offered, hvalid⟩ := h
  exact ⟨_, LoggedSystem.step_valid hvalid op⟩

theorem step_turn (hvalid : Valid sb gb trace.system)
    (hlossless : Lossless trace.system.buffers.streams[key]?) (hkeeps : op.Keeps key) :
    Turn trace.system.buffers.streams[key]? trace.exits
      (trace.step key op).system.buffers.streams[key]? (trace.step key op).exits := by
  obtain ⟨offered, hvalid⟩ := hvalid
  cases op with
  | configure source stream duration =>
    exact .evicts (evicts_of_eq (configure_of_ne hkeeps duration))
  | pushOwned other frame now =>
    exact pushOwned_turn hvalid.accounted hvalid.coherent hlossless other frame now trace.exits
  | setContinuous other continuous =>
    refine .evicts (evicts_of_eq ?_)
    by_cases hne : other = key
    · subst hne
      cases hkeeps rfl
      show (updateStream _ other _).streams[other]? = _
      rw [updateStream_getElem?, if_pos rfl]
      cases hother : trace.system.buffers.streams[other]? with
      | none => rfl
      | some history =>
        -- It is continuous already.
        have hcontinuous := (hlossless history hother).1
        cases history
        cases hcontinuous
        rfl
    · exact updateStream_of_ne hne _
  | clearSource source =>
    have hunselected : (key.source == source) = false := beq_false_of_ne (Ne.symm hkeeps)
    refine .evicts (evicts_of_eq ?_)
    exact @updateStreams_of_unselected _ key (fun other => other.source == source) hunselected _
  | clearStream other =>
    exact .evicts (evicts_of_eq (updateStream_of_ne hkeeps _))
  | removeSource source =>
    exact .evicts (evicts_of_eq (removeSource_of_ne hkeeps))
  | nextReleased => exact nextReleased_turn trace.exits
  | expire now => exact .evicts (expire_evicts now key)
  | take other now => exact take_turn other now trace.exits
  | snapshot other now => exact .evicts (snapshot_evicts other now key)
  | drop index =>
    refine .evicts (evicts_of_eq ?_)
    simp only [step, PreRecordSystem.step]
    split <;> rfl

theorem valid_run (sb gb : Nat) (ops : List PreRecordOp) :
    Valid sb gb (PreRecordSystem.run sb gb ops) :=
  @foldl_invariant _ _ _ (Valid sb gb) (fun _ op h => valid_step h op) _
    ⟨[], LoggedSystem.new_valid sb gb⟩ ops

theorem run_conserves {backlog : List RecordingFrame} {system : PreRecordSystem}
    {ops : List PreRecordOp} (hkeeps : ∀ op ∈ ops, op.Keeps key)
    (hvalid : Valid sb gb system)
    (hconserves : Conserves backlog system.buffers.streams[key]? .none) :
    Valid sb gb (run key system ops).system ∧
      Conserves backlog (run key system ops).system.buffers.streams[key]?
        (run key system ops).exits := by
  refine @foldl_invariant_mem _ _ _ (fun next : StreamTrace => Valid sb gb next.system ∧
      Conserves backlog next.system.buffers.streams[key]? next.exits) _ ⟨hvalid, hconserves⟩ ops ?_
  rintro next op hop ⟨hnext, hstate⟩
  exact ⟨valid_step hnext op, (step_turn hnext hstate.lossless (hkeeps op hop)).conserves hstate⟩

end StreamTrace

open StreamTrace

def videoOf (frames : List RecordingFrame) : Multiset RecordingFrame :=
  (frames.filter RecordingFrame.isVideo : List RecordingFrame)

@[simp] theorem videoOf_append (first second : List RecordingFrame) :
    videoOf (first ++ second) = videoOf first + videoOf second := by
  simp [videoOf]

theorem videoOf_settled
    (h : ∀ entry ∈ settled, entry.fate = .trimmed → entry.frame.isVideo = false) :
    videoOf (settled.map Settled.frame) =
      videoOf (withFate .rejected settled) + videoOf (withFate .released settled) + videoOf
      (withFate .taken settled) := by
  induction settled with
  | nil => rfl
  | cons entry settled ih =>
    have hrest := ih fun other hother => h other (List.mem_cons_of_mem _ hother)
    have hsplit : ∀ fate, withFate fate (entry :: settled) =
        withFate fate [entry] ++ withFate fate settled :=
      fun fate => withFate_append fate [entry] settled
    have hone : videoOf [entry.frame] =
        videoOf (withFate .rejected [entry]) + videoOf (withFate .released [entry]) +
          videoOf (withFate .taken [entry]) := by
      have haudio := h entry List.mem_cons_self
      obtain ⟨frame, fate⟩ := entry
      cases fate <;> simp_all [withFate, videoOf]
    rw [List.map_cons, ← List.singleton_append, videoOf_append, hone, hrest, hsplit, hsplit, hsplit,
      videoOf_append, videoOf_append, videoOf_append]
    abel

def Exits.rejected (exits : Exits) : List RecordingFrame :=
  (exits.offered.filter fun offer => !offer.accepted).map Offer.frame

namespace Explains

variable {settled : List Settled} {backlog : List RecordingFrame}
  {contents released : List BufferedFrame} {exits : Exits}

theorem rejected_eq (h : Explains settled backlog contents released exits) :
    exits.rejected = withFate .rejected settled := by
  have hkept : (acceptedOffers contents).filter (fun offer => !offer.accepted) = [] := by
    simp [acceptedOffers]
  unfold Exits.rejected
  rw [h.offered, List.filter_append, hkept, List.append_nil]
  unfold withFate
  rw [List.filter_map, List.map_map]
  congr 1
  apply List.filter_congr
  intro entry _
  cases hfate : entry.fate <;> simp [Settled.offer, hfate]

/-- Every video frame that went in is, exactly once, refused, delivered, taken, in a
group or in the released queue. -/
theorem video_conserved (h : Explains settled backlog contents released exits) :
    videoOf backlog + videoOf (exits.offered.map Offer.frame) =
      videoOf exits.rejected + videoOf exits.delivered + videoOf exits.taken + videoOf
      (framesOf contents) + videoOf (framesOf released) := by
  have hoffered : exits.offered.map Offer.frame =
      settled.map Settled.frame ++ framesOf contents := by
    rw [h.offered]
    simp [acceptedOffers, framesOf, Settled.offer, Function.comp_def]
  have hqueue := congrArg videoOf h.delivered
  rw [videoOf_append, videoOf_append] at hqueue
  rw [hoffered, videoOf_append, videoOf_settled h.trimmed, h.rejected_eq, h.taken]
  calc videoOf backlog + (videoOf (withFate .rejected settled) +
          videoOf (withFate .released settled) + videoOf (withFate .taken settled) +
          videoOf (framesOf contents))
      = videoOf (withFate .rejected settled) +
          (videoOf backlog + videoOf (withFate .released settled)) +
          videoOf (withFate .taken settled) + videoOf (framesOf contents) := by abel
    _ = _ := by
      rw [← hqueue]
      abel

end Explains

/-- A refused frame leaves no group behind. Once the released frames are drained the
stream holds nothing that was offered before it, and what was delivered until then
is in offered order. -/
structure Flushed (key : StreamKey) (backlog : List RecordingFrame) (exits : Exits)
    (frame : RecordingFrame) (pushed : PreRecordBuffers) : Prop where
  no_gop : ∀ history : StreamHistory, pushed.streams[key]? = some history → history.gops = []
  drained : heldContents pushed.releaseAll.1.streams[key]? = [] ∧
    heldReleased pushed.releaseAll.1.streams[key]? = []
  ordered : ∃ settled : List Settled,
    settled.map Settled.offer = exits.offered ++ [⟨frame, false⟩] ∧
      exits.delivered ++ framesOf (deliveredTo key pushed.releaseAll.2) =
        backlog ++ withFate .released settled

theorem pushOwned_flushed {sb gb : Nat} {key : StreamKey} {trace : StreamTrace}
    (hvalid : StreamTrace.Valid sb gb trace.system)
    (hconserves : Conserves backlog trace.system.buffers.streams[key]? trace.exits)
    {f returned : RecordingFrame} {now : Nat}
    (hrefused : (trace.system.buffers.pushOwned key f now).2 = .error returned) :
    Flushed key backlog trace.exits f (trace.system.buffers.pushOwned key f now).1 := by
  have hturn := @step_turn _ _ key trace (.pushOwned key f now) hvalid hconserves.lossless trivial
  have hexits : (trace.step key (.pushOwned key f now)).exits = trace.exits.offer ⟨f, false⟩ := by
    show trace.exits.observe key trace.system.buffers (.pushOwned key f now) = _
    rw [Exits.observe_pushOwned, if_pos rfl, hrefused]
    rfl
  obtain ⟨-, settled, hexplained⟩ := hturn.conserves hconserves
  rw [hexits] at hexplained
  have hno : ∀ history : StreamHistory,
      (trace.system.buffers.pushOwned key f now).1.streams[key]? = some history →
        history.gops = [] := by
    obtain ⟨offered, hvalid⟩ := hvalid
    intro history hhistory
    cases hkey : trace.system.buffers.streams[key]? with
    | none => simp [pushOwned, hkey] at hhistory
    | some before =>
      obtain ⟨own, accepted, hown, hresult, hpushes, -⟩ := pushOwned_pushes
        hvalid.accounted hkey (hvalid.coherent key before hkey) f now
      obtain ⟨hcontinuous, htame⟩ := hconserves.lossless before hkey
      rw [hown] at hhistory
      cases Option.some.inj hhistory
      cases accepted with
      | false =>
        exact ((hpushes.refuses (hvalid.coherent key before hkey) htame).spilled hcontinuous).1
      | true =>
        rw [hresult] at hrefused
        cases hrefused
  have hempty : heldContents (trace.system.buffers.pushOwned key f now).1.streams[key]? = [] := by
    cases hkey : (trace.system.buffers.pushOwned key f now).1.streams[key]? with
    | none => rfl
    | some history => exact contents_eq_nil (hno history hkey)
  obtain ⟨hcontents, hreleased, hdelivered⟩ :=
    @drainReleased_drained _ (trace.system.buffers.pushOwned key f now).1 (Nat.le_refl _) key
  have hstep : (trace.step key (.pushOwned key f now)).system.buffers =
      (trace.system.buffers.pushOwned key f now).1 := rfl
  rw [hstep, hempty] at hexplained
  refine ⟨hno, ⟨hcontents.trans hempty, hreleased⟩, settled, ?_, ?_⟩
  · simpa [Exits.offer] using hexplained.offered.symm
  · rw [releaseAll, hdelivered]
    exact hexplained.delivered

/-- After a stream without groups was switched to continuous, and while it is not
configured, cleared, removed or switched off: every video frame offered to it is,
exactly once, handed back, delivered, taken or still held; it delivers in offered
order; and a frame it hands back has no group left to overtake. -/
theorem continuous_history_conserves_frames (streamBytes globalBytes : Nat)
    (earlier later : List PreRecordOp) (key : StreamKey) (start : PreRecordSystem)
    (hstart : start = PreRecordSystem.run streamBytes globalBytes earlier)
    (hempty : ∀ history : StreamHistory,
      start.buffers.streams[key]? = some history → history.gops = [])
    (hkeeps : ∀ op ∈ later, op.Keeps key) (trace : StreamTrace)
    (htrace : trace = run key (start.step (.setContinuous key true)) later) :
    (∃ settled, Explains settled (framesOf (heldReleased start.buffers.streams[key]?))
        (heldContents trace.system.buffers.streams[key]?)
        (heldReleased trace.system.buffers.streams[key]?) trace.exits) ∧
      videoOf (framesOf (heldReleased start.buffers.streams[key]?)) +
          videoOf (trace.exits.offered.map Offer.frame) =
        videoOf trace.exits.rejected + videoOf trace.exits.delivered + videoOf trace.exits.taken +
          videoOf (framesOf (heldContents trace.system.buffers.streams[key]?)) +
          videoOf (framesOf (heldReleased trace.system.buffers.streams[key]?)) ∧
      ∀ frame returned now, (trace.system.buffers.pushOwned key frame now).2 = .error returned →
          Flushed key (framesOf (heldReleased start.buffers.streams[key]?)) trace.exits frame
            (trace.system.buffers.pushOwned key frame now).1 := by
  have hvalid : StreamTrace.Valid streamBytes globalBytes
      (start.step (.setContinuous key true)) := by
    rw [hstart]
    exact valid_step (valid_run streamBytes globalBytes earlier) _
  have hbegin : Conserves (framesOf (heldReleased start.buffers.streams[key]?))
      (start.step (.setContinuous key true)).buffers.streams[key]? .none := by
    show Conserves _ (updateStream _ key _).streams[key]? _
    rw [updateStream_getElem?, if_pos rfl]
    cases hkey : start.buffers.streams[key]? with
    | none =>
      refine ⟨by simp [Lossless], [], ⟨rfl, rfl, rfl, by simp⟩⟩
    | some history =>
      have hnil := hempty history hkey
      have hcontents := contents_eq_nil hnil
      refine .some_of rfl (tame_of_empty hnil) (⟨?_, ?_, rfl, by simp⟩ : Explains [] _ _ _ _)
      · show [] = acceptedOffers history.contents
        rw [hcontents]
        rfl
      · show framesOf history.released = framesOf history.released ++ []
        rw [List.append_nil]
  obtain ⟨hlater, hconserves⟩ := run_conserves hkeeps hvalid hbegin
  rw [← htrace] at hlater hconserves
  obtain ⟨settled, hexplained⟩ := hconserves.explained
  exact ⟨⟨settled, hexplained⟩, hexplained.video_conserved,
    fun frame returned now hrefused => pushOwned_flushed hlater hconserves hrefused⟩

/-- A keyframe out of order is handed back after its group was released. -/
theorem continuous_history_conserves_refused_keyframe :
    let start := PreRecordSystem.run 64 128 [.configure "front" "sub" second]
    let trace := run ⟨"front", "sub"⟩ (start.step (.setContinuous ⟨"front", "sub"⟩ true))
      [.pushOwned ⟨"front", "sub"⟩ (videoFrame true 5) 5,
        .pushOwned ⟨"front", "sub"⟩ (videoFrame false 6) 6]
    (trace.system.buffers.pushOwned ⟨"front", "sub"⟩ (videoFrame true 4) 7).2 =
        .error (videoFrame true 4) ∧
      Flushed ⟨"front", "sub"⟩ [] trace.exits (videoFrame true 4)
        (trace.system.buffers.pushOwned ⟨"front", "sub"⟩ (videoFrame true 4) 7).1 := by
  intro start trace
  have hrefused : (trace.system.buffers.pushOwned ⟨"front", "sub"⟩ (videoFrame true 4) 7).2 =
      .error (videoFrame true 4) := by decide +kernel
  have hempty : ∀ history : StreamHistory,
      start.buffers.streams[StreamKey.mk "front" "sub"]? = some history → history.gops = [] := by
    intro history hhistory
    have hfound : start.buffers.streams[StreamKey.mk "front" "sub"]? =
        some ⟨second, 0, [], true, false, none, .startup, false, []⟩ := by decide +kernel
    rw [hfound] at hhistory
    cases Option.some.inj hhistory
    rfl
  have hbacklog :
      framesOf (heldReleased start.buffers.streams[StreamKey.mk "front" "sub"]?) = [] := by
    decide +kernel
  refine ⟨hrefused, ?_⟩
  rw [← hbacklog]
  exact (continuous_history_conserves_frames 64 128 _ _ ⟨"front", "sub"⟩ start rfl hempty
    (by decide) trace rfl).2.2 _ _ _ hrefused

end KeepPeek.Storage
