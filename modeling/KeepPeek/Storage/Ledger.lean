import KeepPeek.Storage.GlobalRoom

/-! Runs of the pre-record buffers together with the frames they have handed out.
Whatever is pushed, evicted, taken, reconfigured or dropped, and in which order,
the budget counters stay exact. -/
namespace KeepPeek.Storage

open Lib Std
open StreamHistory

theorem Budgets.dropFrames_next (bs : Budgets) (dropped : List BufferedFrame) :
    (bs.dropFrames dropped).next = bs.next := by
  induction dropped generalizing bs with
  | nil => rfl
  | cons frame dropped ih => exact ih (bs.release frame.reservation)

theorem Budgets.setStream_charge_release {sb gb : Nat} {bs : Budgets}
    {held : Multiset BufferedFrame} (h : bs.Exact sb gb held)
    {id bytes : Nat} (hfits : (bs.stream id).fits bytes = true) :
    (bs.setStream id ((bs.stream id).charge bytes)).setStream id
      (((bs.stream id).charge bytes).release bytes) = bs := by
  rw [(h.stream id).charge_release hfits]
  unfold Budgets.setStream
  simp

theorem StreamHistory.store_exact {sb gb : Nat} {bs : Budgets}
    {hs : StreamHistory} {rest : Multiset BufferedFrame}
    (h : bs.Exact sb gb (hs.held + rest))
    (hcreated : hs.budget < bs.next) (f : RecordingFrame) :
    (store bs hs f).1.Exact sb gb ((store bs hs f).2.1.held + rest) ∧ (store bs hs f).1.next =
      bs.next ∧ (store bs hs f).2.1.budget = hs.budget := by
  have hstay : bs.Exact sb gb (hs.held + rest) ∧
      bs.next = bs.next ∧ hs.budget = hs.budget := ⟨h, rfl, rfl⟩
  by_cases hexpected : (hs.awaitingKeyframe && !f.isVideoKeyframe) = true
  · unfold store
    rw [if_pos hexpected]
    exact hstay
  by_cases hstream : (bs.stream hs.budget).fits f.byteLen = true
  · by_cases hglobal : bs.global.fits f.byteLen = true
    · rw [store_of_fits (by simpa using hexpected) hstream hglobal]
      dsimp only
      obtain ⟨dropped, hbudgets, hheld, hbudget⟩ := retain_sheds
        (bs.charge ⟨f.byteLen, hs.budget⟩) hs
        ⟨f, ⟨f.byteLen, hs.budget⟩⟩
      have hcharged := @Budgets.Exact.charge _ _ _ _
        ⟨f, ⟨f.byteLen, hs.budget⟩⟩ h hstream hglobal hcreated rfl
      rw [← Multiset.cons_add, hheld, add_assoc] at hcharged
      rw [hbudgets]
      exact ⟨hcharged.dropFrames, Budgets.dropFrames_next _ _, hbudget⟩
    · -- The global budget refuses: the charge is rolled back and the open group goes.
      have hsame := Budgets.setStream_charge_release h hstream
      obtain ⟨dropped, after, heq, hdiscards⟩ := discardOpen_spec bs hs
      have hstore : store bs hs f = (bs.dropFrames dropped, after, false) := by
        have hglobal' : (bs.setStream hs.budget
          ((bs.stream hs.budget).charge f.byteLen)).global = bs.global := rfl
        unfold store Budget.acquire
        dsimp only
        rw [if_neg hexpected, if_neg (by simp [hstream])]
        dsimp only
        rw [hglobal', if_pos (by simp [hglobal])]
        dsimp only
        rw [hsame, heq]
      rw [hstore]
      have hsheds := hdiscards.sheds
      rw [hsheds.held, add_assoc] at h
      exact ⟨h.dropFrames, Budgets.dropFrames_next _ _, hsheds.budget⟩
  · have hstore : store bs hs f = (bs, hs, false) := by
      unfold store Budget.acquire
      dsimp only
      rw [if_neg hexpected, if_pos (by simp [hstream])]
    rw [hstore]
    exact hstay

namespace PreRecordBuffers

/-- The budgets are exact for what the buffers and their callers hold. -/
structure Accounted (streamBytes globalBytes : Nat) (buffers : PreRecordBuffers)
    (detached : Multiset BufferedFrame) : Prop where
  limit : buffers.streamBytes = streamBytes
  exact : buffers.budgets.Exact streamBytes globalBytes (buffers.held + detached)
  created : ∀ (key : StreamKey) (history : StreamHistory), buffers.streams[key]? = some history →
    history.budget < buffers.budgets.next

variable {sb gb : Nat} {b : PreRecordBuffers} {detached : Multiset BufferedFrame}

theorem Accounted.drops {after : PreRecordBuffers} (h : Accounted sb gb b detached)
    (hdrops : ∃ dropped, Drops dropped b after) : Accounted sb gb after detached := by
  obtain ⟨dropped, hdrops⟩ := hdrops
  refine ⟨hdrops.streamBytes.trans h.limit, ?_, ?_⟩
  · rw [hdrops.budgets]
    have hexact := h.exact
    rw [hdrops.held, add_assoc] at hexact
    exact hexact.dropFrames
  · intro key history hkey
    obtain ⟨old, hold, heq⟩ := hdrops.budget key history hkey
    rw [heq, hdrops.budgets, Budgets.dropFrames_next]
    exact h.created key old hold

theorem withReason_thrifty (reason : HistoryReason) :
    Thrifty fun budgets history => (budgets, history.withReason reason) :=
  fun _ _ => ⟨[], rfl, .of_eq rfl rfl rfl⟩

theorem setContinuous_thrifty (continuous : Bool) :
    Thrifty fun budgets history => (budgets, { history with continuous := continuous }) :=
  fun _ _ => ⟨[], rfl, .of_eq rfl rfl rfl⟩

theorem expire_thrifty (now : Nat) :
    Thrifty fun budgets history => StreamHistory.expire budgets history now := by
  intro budgets history
  obtain ⟨popped, after, heq, hevicts, -⟩ := expire_spec budgets history now
  dsimp only
  rw [heq]
  exact ⟨_, rfl, hevicts.sheds⟩

theorem Accounted.insert {key : StreamKey} {hs after : StreamHistory} {budgets : Budgets}
    (moved : Multiset BufferedFrame) (h : Accounted sb gb b detached)
    (hkey : b.streams[key]? = some hs)
    (hupdate : ∀ rest, b.budgets.Exact sb gb (hs.held + rest) →
      budgets.Exact sb gb (after.held + (moved + rest)) ∧
        budgets.next = b.budgets.next ∧ after.budget = hs.budget) :
    Accounted sb gb { b with budgets := budgets, streams := b.streams.insert key after }
      (moved + detached) := by
  have hbefore := h.exact
  unfold held at hbefore
  rw [total_eq_add_erase _ hkey, add_assoc] at hbefore
  obtain ⟨hexact, hnext, hbudget⟩ := hupdate _ hbefore
  refine ⟨h.limit, ?_, ?_⟩
  · unfold held
    rw [total_insert]
    have hsame : after.held + total (fun _ hs => hs.held) (b.streams.erase key) +
        (moved + detached) = after.held + (moved +
          (total (fun _ hs => hs.held) (b.streams.erase key) + detached)) := by
      abel
    rw [hsame]
    exact hexact
  · intro other found hfound
    rw [ExtTreeMap.getElem?_insert] at hfound
    split at hfound
    · cases Option.some.inj hfound
      rw [hnext, hbudget]
      exact h.created key hs hkey
    · rw [hnext]
      exact h.created other found hfound

theorem removeStream_drops (b : PreRecordBuffers) (key : StreamKey) :
    ∃ dropped, Drops dropped b (b.removeStream key) := by
  unfold removeStream
  cases hkey : b.streams[key]? with
  | none => exact ⟨[], .refl _⟩
  | some history =>
    refine ⟨history.contents ++ history.released, rfl, ?_, rfl, ?_⟩
    · unfold held
      rw [total_eq_add_erase _ hkey, ← Multiset.coe_add]
      rfl
    · intro other found hfound
      rw [ExtTreeMap.getElem?_erase] at hfound
      split at hfound
      · contradiction
      · exact ⟨found, hfound, rfl⟩

/-- The frames of a replay, in order, are kept or trimmed; only audio is trimmed. -/
inductive Trims : List BufferedFrame → List BufferedFrame → List BufferedFrame → Prop
  | nil : Trims [] [] []
  | keep {frames kept dropped : List BufferedFrame} (frame : BufferedFrame)
    (rest : Trims frames kept dropped) : Trims (frame :: frames) (frame :: kept) dropped
  | trim {frames kept dropped : List BufferedFrame} {frame : BufferedFrame}
    (audio : frame.frame.isVideo = false) (rest : Trims frames kept dropped) :
    Trims (frame :: frames) kept (frame :: dropped)

theorem Trims.all {fs : List BufferedFrame}
    (audio : ∀ frame ∈ fs, frame.frame.isVideo = false) : Trims fs [] fs := by
  induction fs with
  | nil => exact .nil
  | cons frame fs ih =>
    exact .trim (audio frame List.mem_cons_self)
      (ih fun other mem => audio other (List.mem_cons_of_mem _ mem))

theorem trimAudio_trims (wallEnd audioEnd : Nat) (fs : List BufferedFrame) :
    Trims fs (trimAudio wallEnd audioEnd fs).1 (trimAudio wallEnd audioEnd fs).2 := by
  induction fs generalizing audioEnd with
  | nil => exact .nil
  | cons frame fs ih =>
    unfold trimAudio
    split
    · exact .keep frame (ih audioEnd)
    next audio haudio =>
      have hnot : frame.frame.isVideo = false := by
        simp [RecordingFrame.isVideo, MediaFrame.isVideo, haudio]
      dsimp only
      split
      · exact .trim hnot (ih audioEnd)
      split
      · exact .trim hnot (ih audioEnd)
      · exact .keep frame (ih _)

theorem trimAudioToVideo_trims (fs : List BufferedFrame) :
    Trims fs (trimAudioToVideo fs).1 (trimAudioToVideo fs).2 := by
  unfold trimAudioToVideo
  dsimp only
  split
  next hnone => exact .all fun frame mem => by simpa using List.filter_eq_nil_iff.mp hnone frame mem
  next => exact trimAudio_trims _ _ fs

theorem Trims.held {fs kept dropped : List BufferedFrame} (h : Trims fs kept dropped) :
    (fs : Multiset BufferedFrame) = dropped + kept := by
  induction h with
  | nil => rfl
  | keep frame _ ih => rw [← Multiset.cons_coe, ← Multiset.cons_coe, ih, Multiset.add_cons]
  | trim _ _ ih => rw [← Multiset.cons_coe, ← Multiset.cons_coe, ih, Multiset.cons_add]

section

variable (h : Accounted sb gb b detached)
include h

theorem storeAdmitted_accounted (key : StreamKey) (f : RecordingFrame) :
    Accounted sb gb (b.storeAdmitted key f).1 detached := by
  have hroom := h.drops (makeGlobalRoom_moves b key f).2.1
  unfold storeAdmitted
  dsimp only
  split
  · exact hroom.drops (updateStream_drops (withReason_thrifty _) _ _)
  cases hown : (b.makeGlobalRoom key f).1.streams[key]? with
  | none => exact hroom
  | some own =>
    have hstore := hroom.insert 0 hown fun rest hexact => by
      rw [zero_add]
      exact store_exact hexact (hroom.created key own hown) f
    rwa [zero_add] at hstore

theorem admitFrame_accounted {key : StreamKey}
    {hs : StreamHistory} (hkey : b.streams[key]? = some hs)
    (f : RecordingFrame) (now globalLimit : Nat) :
    Accounted sb gb { b with
        budgets := (hs.admitFrame b.budgets f now globalLimit).1
        streams := b.streams.insert key (hs.admitFrame b.budgets f now globalLimit).2.1 }
      detached := by
  obtain ⟨dropped, hbudgets, hsheds⟩ :=
    admitFrame_sheds b.budgets hs f now globalLimit
  rw [hbudgets]
  exact h.drops ⟨dropped, drops_insert hkey hsheds⟩

theorem pushOwned_accounted (key : StreamKey) (f : RecordingFrame) (now : Nat) :
    Accounted sb gb (b.pushOwned key f now).1 detached := by
  unfold pushOwned
  cases hkey : b.streams[key]? with
  | none => exact h
  | some history =>
    have hadmit := admitFrame_accounted h hkey f now b.budgets.global.maxBytes
    dsimp only
    split
    · exact hadmit
    · exact storeAdmitted_accounted hadmit key f

theorem configure_accounted (source stream : String) (duration : Nat) :
    Accounted sb gb (b.configure source stream duration).1 detached := by
  unfold configure
  split
  · exact h
  cases hkey : b.streams[StreamKey.mk source stream]? with
  | some history =>
    dsimp only
    refine h.drops (updateStream_drops (fun budgets history => ?_) _ _)
    obtain ⟨dropped, hbudgets, hsheds⟩ := clear_sheds budgets history
    have hsame : StreamHistory.Sheds [] (StreamHistory.clear budgets history).2
        { (StreamHistory.clear budgets history).2 with duration := duration } :=
      .of_eq rfl rfl rfl
    exact ⟨dropped ++ [], by simpa using hbudgets, hsheds.trans hsame⟩
  | none =>
    dsimp only
    split
    · exact h
    refine ⟨h.limit, ?_, ?_⟩
    · have hcreate := h.exact.create
      unfold held at hcreate ⊢
      rw [h.limit, total_insert, erase_of_getElem?_eq_none hkey]
      simpa [StreamHistory.held, StreamHistory.contents] using hcreate
    · intro other found hfound
      rw [ExtTreeMap.getElem?_insert] at hfound
      split at hfound
      · cases Option.some.inj hfound
        exact Nat.lt_succ_self _
      · exact Nat.lt_succ_of_lt (h.created other found hfound)

theorem nextReleased_accounted :
    Accounted sb gb b.nextReleased.1
      ((b.nextReleased.2.toList.map Prod.snd : List BufferedFrame) + detached) := by
  have hstay : Accounted sb gb b (([] : List BufferedFrame) + detached) := by
    simpa using h
  unfold nextReleased
  split
  next => exact hstay
  next key history hfind =>
    have hkey : b.streams[key]? = some history :=
      ExtTreeMap.mem_toList_iff_getElem?_eq_some.mp (List.mem_of_find?_eq_some hfind)
    split
    next => exact hstay
    next frame released hreleased =>
      refine h.insert _ hkey fun rest hexact => ⟨?_, rfl, rfl⟩
      have hheld : history.held + rest =
          { history with released := released }.held + (([frame] : List BufferedFrame) + rest) := by
        unfold StreamHistory.held StreamHistory.contents
        rw [hreleased, ← Multiset.cons_coe, ← Multiset.singleton_add, Multiset.coe_singleton]
        abel
      rw [hheld] at hexact
      exact hexact

theorem take_accounted (key : StreamKey) (now : Nat) :
    Accounted sb gb (b.take key now).1 ((b.take key now).2 + detached) := by
  unfold take
  cases hkey : b.streams[key]? with
  | none => simpa using h
  | some history =>
    obtain ⟨popped, middle, heq, hevicts, -⟩ :=
      expire_spec b.budgets history now
    dsimp only
    rw [heq]
    refine h.insert _ hkey fun rest hexact => ⟨?_, ?_, hevicts.budget⟩
    · rw [hevicts.sheds.held, add_assoc] at hexact
      have hexpired := hexact.dropFrames
      have hheld : middle.held + rest = (trimAudioToVideo middle.contents).2 +
          (middle.released + ((trimAudioToVideo middle.contents).1 + rest)) := by
        unfold StreamHistory.held
        rw [(trimAudioToVideo_trims middle.contents).held]
        abel
      rw [hheld] at hexpired
      have hdone := hexpired.dropFrames
      simpa [StreamHistory.held, StreamHistory.contents] using hdone
    · rw [Budgets.dropFrames_next, Budgets.dropFrames_next]

theorem snapshot_accounted (key : StreamKey) (now : Nat) :
    Accounted sb gb (b.snapshot key now).1 detached := by
  unfold snapshot
  cases hkey : b.streams[key]? with
  | none => exact h
  | some history =>
    obtain ⟨popped, middle, heq, hevicts, -⟩ :=
      expire_spec b.budgets history now
    dsimp only
    rw [heq]
    exact h.drops ⟨_, drops_insert hkey hevicts.sheds⟩

end

end PreRecordBuffers

open PreRecordBuffers

/-- The buffers and the frames they have handed out that are still alive. -/
structure PreRecordSystem where
  buffers : PreRecordBuffers
  detached : List BufferedFrame

inductive PreRecordOp where
  | configure (source stream : String) (duration : Nat)
  | pushOwned (key : StreamKey) (frame : RecordingFrame) (now : Nat)
  | setContinuous (key : StreamKey) (continuous : Bool)
  | clearSource (source : String)
  | clearStream (key : StreamKey)
  | removeSource (source : String)
  | nextReleased
  | expire (now : Nat)
  | take (key : StreamKey) (now : Nat)
  | snapshot (key : StreamKey) (now : Nat)
    | drop (index : Nat)
  deriving DecidableEq, Repr

namespace PreRecordSystem

def new (streamBytes globalBytes : Nat) : PreRecordSystem := ⟨.new streamBytes globalBytes, []⟩

def step (system : PreRecordSystem) : PreRecordOp → PreRecordSystem
  | .configure source stream duration =>
    { system with buffers := (system.buffers.configure source stream duration).1 }
  | .pushOwned key frame now =>
    { system with buffers := (system.buffers.pushOwned key frame now).1 }
  | .setContinuous key continuous =>
    { system with buffers := system.buffers.setContinuous key continuous }
  | .clearSource source => { system with buffers := system.buffers.clearSource source }
  | .clearStream key => { system with buffers := system.buffers.clearStream key }
  | .removeSource source => { system with buffers := system.buffers.removeSource source }
  | .nextReleased =>
    let (buffers, released) := system.buffers.nextReleased
    ⟨buffers, released.toList.map Prod.snd ++ system.detached⟩
  | .expire now => { system with buffers := system.buffers.expire now }
  | .take key now =>
    let (buffers, frames) := system.buffers.take key now
    ⟨buffers, frames ++ system.detached⟩
  | .snapshot key now => { system with buffers := (system.buffers.snapshot key now).1 }
  | .drop index =>
    match system.detached[index]? with
    | none => system
    | some frame =>
      ⟨{ system.buffers with budgets := system.buffers.budgets.dropFrames [frame] },
        system.detached.eraseIdx index⟩

def live (system : PreRecordSystem) : Multiset BufferedFrame :=
  system.buffers.held + system.detached

theorem step_accounted {sb gb : Nat} {system : PreRecordSystem}
    (h : system.buffers.Accounted sb gb system.detached) (op : PreRecordOp) :
    (system.step op).buffers.Accounted sb gb (system.step op).detached := by
  cases op with
  | configure source stream duration => exact configure_accounted h source stream duration
  | pushOwned key frame now => exact pushOwned_accounted h key frame now
  | setContinuous key continuous =>
    exact h.drops (updateStream_drops (setContinuous_thrifty continuous) _ _)
  | clearSource source =>
    exact h.drops (updateStreams_drops clear_sheds _ _)
  | clearStream key =>
    exact h.drops (updateStream_drops clear_sheds _ _)
  | removeSource source =>
    exact h.drops (foldl_drops removeStream_drops _ _)
  | nextReleased =>
    simpa [step] using nextReleased_accounted h
  | expire now =>
    exact h.drops (updateStreams_drops (expire_thrifty now) _ _)
  | take key now => simpa [step] using take_accounted h key now
  | snapshot key now => exact snapshot_accounted h key now
  | drop index =>
    cases hindex : system.detached[index]? with
    | none =>
      have hsame : system.step (.drop index) = system := by simp [step, hindex]
      rw [hsame]
      exact h
    | some frame =>
      have hstep : system.step (.drop index) =
          ⟨{ system.buffers with budgets := system.buffers.budgets.dropFrames [frame] },
            system.detached.eraseIdx index⟩ := by simp [step, hindex]
      obtain ⟨hlt, hframe⟩ := List.getElem?_eq_some_iff.mp hindex
      have hsplit : (system.detached : Multiset BufferedFrame) =
          ([frame] : List BufferedFrame) + system.detached.eraseIdx index := by
        have hperm := List.getElem_cons_eraseIdx_perm hlt
        rw [hframe] at hperm
        rw [← Multiset.coe_eq_coe.mpr hperm, ← Multiset.cons_coe, ← Multiset.singleton_add,
          Multiset.coe_singleton]
      have hexact := h.exact
      rw [hsplit, add_left_comm] at hexact
      rw [hstep]
      refine ⟨h.limit, hexact.dropFrames, ?_⟩
      intro key history hkey
      have := h.created key history hkey
      rwa [← Budgets.dropFrames_next _ [frame]] at this

theorem new_accounted (sb gb : Nat) : (new sb gb).buffers.Accounted sb gb (new sb gb).detached := by
  refine ⟨rfl, ?_, by simp [new, PreRecordBuffers.new]⟩
  simpa [new, PreRecordBuffers.new, PreRecordBuffers.held] using Budgets.Exact.new sb gb

def run (streamBytes globalBytes : Nat) (ops : List PreRecordOp) : PreRecordSystem :=
  ops.foldl step (new streamBytes globalBytes)

theorem run_accounted (sb gb : Nat) (ops : List PreRecordOp) :
    (run sb gb ops).buffers.Accounted sb gb (run sb gb ops).detached :=
  @foldl_invariant _ _ step (fun system => system.buffers.Accounted sb gb system.detached)
    (fun _ op h => step_accounted h op) _ (new_accounted sb gb) ops

end PreRecordSystem

/-- A budget counts exactly the reservations charged to it and is not exceeded,
and no release has ever taken more from a counter than it held. -/
structure Budget.Sound (budget : Budget) (live : Multiset BufferedFrame)
    (maxBytes maxFrames : Nat) : Prop where
  bytes : budget.bytes = (live.map fun frame => frame.frame.byteLen).sum
  frames : budget.frames = live.card
  bytes_le : budget.bytes ≤ maxBytes
  frames_le : budget.frames ≤ maxFrames
  never_underflowed : budget.underflowed = false

theorem Budget.Exact.sound {budget : Budget} {live : Multiset BufferedFrame}
    {maxBytes maxFrames : Nat} (h : budget.Exact live)
    (hlengths : ∀ frame ∈ live, frame.reservation.bytes = frame.frame.byteLen)
    (hbytes : budget.maxBytes ≤ maxBytes) (hframes : budget.maxFrames ≤ maxFrames) :
    budget.Sound live maxBytes maxFrames where
  bytes := by
    rw [h.bytes, reservedBytes, Multiset.map_congr rfl hlengths]
  frames := h.frames
  bytes_le := h.bytes_le.trans hbytes
  frames_le := h.frames_le.trans hframes
  never_underflowed := h.underflowed

/-- The pre-record budgets stay exact and are never exceeded, in every run of the
buffers with every order of dropping what they have handed out. -/
theorem pre_record_budgets_sound (streamBytes globalBytes : Nat) (ops : List PreRecordOp) :
    (PreRecordSystem.run streamBytes globalBytes ops).buffers.budgets.global.Sound
        (PreRecordSystem.run streamBytes globalBytes ops).live globalBytes 131072 ∧
      ∀ id, ((PreRecordSystem.run streamBytes globalBytes ops).buffers.budgets.stream id).Sound
        (chargedTo id (PreRecordSystem.run streamBytes globalBytes ops).live) streamBytes
        16384 := by
  have hexact := (PreRecordSystem.run_accounted streamBytes globalBytes ops).exact
  refine ⟨hexact.global.sound hexact.lengths (Nat.le_of_eq hexact.globalMax.1)
    (Nat.le_of_eq hexact.globalMax.2), fun id => ?_⟩
  exact (hexact.stream id).sound
    (fun frame hframe => hexact.lengths frame (Multiset.mem_of_mem_filter hframe))
    (hexact.streamMax id).1 (hexact.streamMax id).2

end KeepPeek.Storage
