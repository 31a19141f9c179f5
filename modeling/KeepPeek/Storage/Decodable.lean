import KeepPeek.Storage.Ledger

/-! The pre-record history of a stream is a contiguous, decodable run of the frames
offered to it. The offers to a stream are logged with their outcome; the retained
groups are a run of accepted offers, and unless the history is marked discontinuous
that run is the most recent one. -/
namespace KeepPeek.Storage

open Lib Std

def Gop.WellFormed (gop : Gop) : Prop :=
  ∃ first rest, gop.frames = first :: rest ∧ first.frame.isVideoKeyframe = true ∧
    (∀ frame ∈ rest, frame.frame.isVideoKeyframe = false) ∧ gop.start = first.frame.receivedAt

/-- A frame offered to a stream, and whether it was stored. -/
structure Offer where
  frame : RecordingFrame
  accepted : Bool
  deriving DecidableEq, Repr

def acceptedOffers (frames : List BufferedFrame) : List Offer :=
  frames.map fun buffered => ⟨buffered.frame, true⟩

@[simp] theorem acceptedOffers_append (first second : List BufferedFrame) :
    acceptedOffers (first ++ second) = acceptedOffers first ++ acceptedOffers second :=
  List.map_append

@[simp] theorem acceptedOffers_nil : acceptedOffers [] = [] := rfl

namespace StreamHistory

variable {hs : StreamHistory}

/-- The retained groups are well formed, in order, and a run of accepted offers. -/
structure Retains (history : StreamHistory) (log : List Offer) : Prop where
  wellFormed : ∀ gop ∈ history.gops, gop.WellFormed
  ordered : history.contents.Pairwise fun earlier later =>
    earlier.frame.receivedAt ≤ later.frame.receivedAt
  received : ∀ frame ∈ history.contents,
    ∃ last, history.lastReceivedAt = some last ∧ frame.frame.receivedAt ≤ last
  run : acceptedOffers history.contents <:+: log

/-- Holds of every history between two operations. -/
structure Coherent (history : StreamHistory) (log : List Offer) : Prop
    extends Retains history log where
  latest : history.discontinuous = false → acceptedOffers history.contents <:+ log
  nonempty : history.awaitingKeyframe = false → history.gops ≠ []
  stale : history.gops ≠ [] → history.awaitingKeyframe = true → history.discontinuous = true
  closed : history.discontinuous = true → history.awaitingKeyframe = true

/-- Holds of the history while an admitted frame is being stored. -/
structure Admits (history : StreamHistory) (log : List Offer) (frame : RecordingFrame) : Prop
    extends Retains history log where
  latest : acceptedOffers history.contents <:+ log
  nonempty : history.awaitingKeyframe = false → history.gops ≠ []
  stamped : history.lastReceivedAt = some frame.receivedAt
  continuous : history.discontinuous = false

theorem contents_eq_nil (h : hs.gops = []) : hs.contents = [] := by
  simp [contents, h]

theorem Retains.of_empty (h : hs.gops = []) (log : List Offer) : hs.Retains log :=
  ⟨by simp [h], by simp [contents_eq_nil h], by simp [contents_eq_nil h],
    by simp [contents_eq_nil h]⟩

theorem Coherent.of_empty (h : hs.gops = []) (hawaiting : hs.awaitingKeyframe = true)
    (log : List Offer) : hs.Coherent log :=
  ⟨.of_empty h log, by simp [contents_eq_nil h], by simp [hawaiting], by simp [h],
    fun _ => hawaiting⟩

variable {before after : StreamHistory} {log : List Offer} {popped : List Gop}
  {dropped : List BufferedFrame} {f : RecordingFrame}

theorem Evicts.contents_eq (h : Evicts popped before after) :
    before.contents = popped.flatMap Gop.frames ++ after.contents := by
  unfold contents
  rw [h.gops, List.flatMap_append]

theorem Evicts.nonempty (h : Evicts popped before after)
    (hbefore : before.awaitingKeyframe = false → before.gops ≠ [])
    (hawaiting : after.awaitingKeyframe = false) : after.gops ≠ [] := by
  intro hnil
  rcases h.awaiting with hsame | ⟨htrue, -⟩
  · have hgops := hbefore (by rw [← hsame]; exact hawaiting)
    have hpopped : popped ≠ [] := by
      intro hnone
      have := h.gops
      simp [hnone, hnil, hgops] at this
    rw [h.emptied hpopped hnil] at hawaiting
    contradiction
  · rw [htrue] at hawaiting
    contradiction

theorem Retains.evicts (h : before.Retains log) (hevicts : Evicts popped before after) :
    after.Retains log := by
  have hcontents := hevicts.contents_eq
  constructor
  · exact fun gop hgop => h.wellFormed gop (by
      rw [hevicts.gops]
      exact List.mem_append_right _ hgop)
  · have hordered := h.ordered
    rw [hcontents] at hordered
    exact (List.pairwise_append.mp hordered).2.1
  · intro f hframe
    rw [hevicts.lastReceivedAt]
    exact h.received f (by rw [hcontents]; exact List.mem_append_right _ hframe)
  · refine List.IsInfix.trans ?_ h.run
    rw [hcontents, acceptedOffers_append]
    exact (List.suffix_append _ _).isInfix

theorem Coherent.evicts (h : before.Coherent log) (hevicts : Evicts popped before after) :
    after.Coherent log where
  toRetains := h.toRetains.evicts hevicts
  latest hcontinuous := by
    rw [hevicts.discontinuous] at hcontinuous
    refine List.IsSuffix.trans ?_ (h.latest hcontinuous)
    rw [hevicts.contents_eq, acceptedOffers_append]
    exact List.suffix_append _ _
  nonempty := hevicts.nonempty h.nonempty
  stale hgops hawaiting := by
    rw [hevicts.discontinuous]
    rcases hevicts.awaiting with hsame | ⟨-, hnil⟩
    · refine h.stale ?_ (by rw [← hsame]; exact hawaiting)
      rw [hevicts.gops]
      simp [hgops]
    · exact absurd hnil hgops
  closed hdiscontinuous := by
    rw [hevicts.discontinuous] at hdiscontinuous
    rcases hevicts.awaiting with hsame | ⟨htrue, -⟩
    · rw [hsame]
      exact h.closed hdiscontinuous
    · exact htrue

theorem Admits.evicts (h : before.Admits log f) (hevicts : Evicts popped before after) :
    after.Admits log f where
  toRetains := h.toRetains.evicts hevicts
  latest := by
    refine List.IsSuffix.trans ?_ h.latest
    rw [hevicts.contents_eq, acceptedOffers_append]
    exact List.suffix_append _ _
  nonempty := hevicts.nonempty h.nonempty
  stamped := by rw [hevicts.lastReceivedAt, h.stamped]
  continuous := by rw [hevicts.discontinuous, h.continuous]

theorem Retains.append (h : before.Retains log) (more : List Offer) :
    before.Retains (log ++ more) :=
  ⟨h.wellFormed, h.ordered, h.received, h.run.trans (List.prefix_append _ _).isInfix⟩

theorem Discards.gops_older (h : Discards dropped before after) : after.gops <+: before.gops := by
  rw [h.gops]
  split
  · exact List.nil_prefix
  · split
    · exact List.prefix_rfl
    · exact List.dropLast_prefix _

theorem Retains.discards (h : before.Retains log) (hdiscards : Discards dropped before after) :
    after.Retains log := by
  obtain ⟨lost, hgops⟩ := hdiscards.gops_older
  have hcontents : before.contents = after.contents ++ lost.flatMap Gop.frames := by
    unfold contents
    rw [← hgops, List.flatMap_append]
  constructor
  · exact fun gop hgop => h.wellFormed gop (by rw [← hgops]; exact List.mem_append_left _ hgop)
  · have hordered := h.ordered
    rw [hcontents] at hordered
    exact (List.pairwise_append.mp hordered).1
  · intro f hframe
    rw [hdiscards.lastReceivedAt]
    exact h.received f (by rw [hcontents]; exact List.mem_append_left _ hframe)
  · refine List.IsInfix.trans ?_ h.run
    rw [hcontents, acceptedOffers_append]
    exact (List.prefix_append _ _).isInfix

theorem Retains.rejected (h : before.Retains log) (hdiscards : Discards dropped before after)
    (f : RecordingFrame) : after.Coherent (log ++ [⟨f, false⟩]) :=
  ⟨(h.discards hdiscards).append _, by simp [hdiscards.discontinuous],
    by simp [hdiscards.awaiting], fun _ _ => hdiscards.discontinuous,
    fun _ => hdiscards.awaiting⟩

theorem Coherent.missing (h : before.Coherent log) (hawaiting : before.awaitingKeyframe = true)
    (f : RecordingFrame) (reason : HistoryReason) :
    (before.withReason reason).Coherent (log ++ [⟨f, false⟩]) := by
  by_cases hnil : before.gops = []
  · exact @Coherent.of_empty (before.withReason reason) hnil hawaiting _
  have hdiscontinuous := h.stale hnil hawaiting
  refine ⟨⟨h.wellFormed, h.ordered, h.received, (h.toRetains.append _).run⟩, ?_, ?_, ?_, ?_⟩
  · simp [withReason, hdiscontinuous]
  · simp [withReason, hawaiting]
  · exact fun _ _ => hdiscontinuous
  · exact fun _ => hawaiting

theorem Coherent.restart (h : before.Coherent log)
    (hstamped : before.lastReceivedAt = some f.receivedAt)
    (hexpected : before.awaitingKeyframe = true → f.isVideoKeyframe = true)
    (bs : Budgets) :
    (StreamHistory.restart bs (before.closeBefore f.isVideoKeyframe)
      f.isVideoKeyframe).2.Admits log f := by
  unfold StreamHistory.restart
  split
  next hrestart =>
    obtain ⟨hkey, -⟩ := Bool.and_eq_true_iff.mp hrestart
    exact ⟨.of_empty rfl _, by simp [contents], by simp [closeBefore, hkey], hstamped, rfl⟩
  next hcontinue =>
    have hcontinuous : before.discontinuous = false := by
      cases hdiscontinuous : before.discontinuous with
      | false => rfl
      | true =>
        have hkey := hexpected (h.closed hdiscontinuous)
        simp [closeBefore, hkey, hdiscontinuous] at hcontinue
    refine ⟨⟨h.wellFormed, h.ordered, h.received, h.run⟩, h.latest hcontinuous, ?_, hstamped,
      hcontinuous⟩
    intro hawaiting
    refine h.nonempty ?_
    cases hkey : f.isVideoKeyframe with
    | true => simp [closeBefore, hkey] at hawaiting
    | false => simpa [closeBefore, hkey] using hawaiting

theorem admitOrdered_coherent (h : before.Coherent log)
    (hstamped : before.lastReceivedAt = some f.receivedAt) (bs : Budgets)
    (globalLimit : Nat) :
    ∃ budgets' after admitted, admitOrdered bs before f globalLimit =
      (budgets', after, admitted) ∧ (admitted = false → after.Coherent (log ++ [⟨f, false⟩])) ∧
      (admitted = true → after.Admits log f ∧
      (budgets'.stream after.budget).fits f.byteLen = true ∧
      (after.awaitingKeyframe = true → f.isVideoKeyframe = true)) := by
  rcases admitOrdered_cases bs before f globalLimit with
    ⟨hawaiting, -, reason, heq⟩ | ⟨-, reason, dropped, after, heq, hdiscards⟩ |
    ⟨hexpected, start, popped, after, admitted, hstart, heq, hevicts, hadmitted, hrefused⟩
  · exact ⟨_, _, _, heq, fun _ => h.missing hawaiting f reason, by simp⟩
  · refine ⟨_, _, _, heq, fun _ => ?_, by simp⟩
    have hretains : ((before.closeBefore f.isVideoKeyframe).withReason reason).Retains log :=
      ⟨h.wellFormed, h.ordered, h.received, h.run⟩
    exact hretains.rejected hdiscards f
  · refine ⟨_, _, _, heq, fun hno => ?_, fun hyes => ?_⟩
    · obtain ⟨hnil, hawaiting⟩ := hrefused hno
      exact .of_empty hnil hawaiting _
    · have hadmits := h.restart hstamped hexpected bs
      rw [← hstart] at hadmits
      exact ⟨hadmits.evicts hevicts, hadmitted hyes⟩

/-- A frame in order can be stamped as the last one received. -/
theorem Coherent.stamped (h : before.Coherent log) {now : Nat}
    (horder : ¬ before.OutOfOrder f now) :
    (before.stamped f).Coherent log := by
  refine ⟨⟨h.wellFormed, h.ordered, fun buffered hbuffered => ?_, h.run⟩,
    h.latest, h.nonempty, h.stale, h.closed⟩
  obtain ⟨last, hlast, hle⟩ := h.received buffered hbuffered
  refine ⟨f.receivedAt, rfl, Nat.le_trans hle (Nat.le_of_not_lt fun hlt => horder ?_)⟩
  exact .inr (.inr ⟨last, hlast, hlt⟩)

theorem admitFrame_coherent (h : before.Coherent log) (bs : Budgets) (f : RecordingFrame)
    (now globalLimit : Nat) :
    ∃ budgets' after admitted, admitFrame bs before f now globalLimit =
      (budgets', after, admitted) ∧ (admitted = false → after.Coherent (log ++ [⟨f, false⟩])) ∧
      (admitted = true → after.Admits log f ∧
      (budgets'.stream after.budget).fits f.byteLen = true ∧
      (after.awaitingKeyframe = true → f.isVideoKeyframe = true)) := by
  obtain ⟨popped, middle, hevicts, -, hcases⟩ := admitFrame_cases bs before f now globalLimit
  have hmiddle := h.evicts hevicts
  rcases hcases with ⟨-, reason, dropped, after, heq, hdiscards⟩ | ⟨horder, heq⟩
  · refine ⟨_, _, _, heq, fun _ => ?_, by simp⟩
    have hretains : (middle.withReason reason).Retains log :=
      ⟨hmiddle.wellFormed, hmiddle.ordered, hmiddle.received, hmiddle.run⟩
    exact hretains.rejected hdiscards f
  · rw [heq]
    exact admitOrdered_coherent (hmiddle.stamped horder) rfl _ _

theorem Gop.wellFormed_append {gop : Gop} (h : gop.WellFormed) {buffered : BufferedFrame}
    (hdelta : buffered.frame.isVideoKeyframe = false) :
    (⟨gop.start, gop.frames ++ [buffered]⟩ : Gop).WellFormed := by
  obtain ⟨first, rest, hframes, hkey, hrest, hstart⟩ := h
  refine ⟨first, rest ++ [buffered], by simp [hframes], hkey, ?_, hstart⟩
  intro f hframe
  rcases List.mem_append.mp hframe with hmem | hlast
  · exact hrest f hmem
  · cases List.mem_singleton.mp hlast
    exact hdelta

theorem retain_coherent (h : before.Admits log f)
    (hexpected : before.awaitingKeyframe = true → f.isVideoKeyframe = true) (bs : Budgets)
    (reservation : Reservation) :
    (retain bs before ⟨f, reservation⟩).2.Coherent (log ++ [⟨f, true⟩]) ∧
      (retain bs before ⟨f, reservation⟩).2.contents =
      before.contents ++ [⟨f, reservation⟩] := by
  -- It suffices that the frame ends the contents; the rest follows from the history before.
  have hdone : ∀ after : StreamHistory, after.contents = before.contents ++ [⟨f, reservation⟩] →
      after.lastReceivedAt = before.lastReceivedAt → after.discontinuous = before.discontinuous →
      after.awaitingKeyframe = false → (∀ gop ∈ after.gops, gop.WellFormed) →
      after.gops ≠ [] → after.Coherent (log ++ [⟨f, true⟩]) := by
    intro after hcontents hlast hdiscontinuous hawaiting hwellFormed hgops
    have hsuffix : acceptedOffers after.contents <:+ log ++ [⟨f, true⟩] := by
      obtain ⟨older, holder⟩ := h.latest
      rw [hcontents, acceptedOffers_append]
      exact ⟨older, by rw [← List.append_assoc, holder]; rfl⟩
    refine ⟨⟨hwellFormed, ?_, ?_, hsuffix.isInfix⟩, fun _ => hsuffix, fun _ => hgops, ?_, ?_⟩
    · rw [hcontents]
      refine List.pairwise_append.mpr ⟨h.ordered, by simp, fun earlier hearlier later hlater => ?_⟩
      cases List.mem_singleton.mp hlater
      obtain ⟨last, hlast, hle⟩ := h.received earlier hearlier
      rw [h.stamped] at hlast
      cases Option.some.inj hlast
      exact hle
    · intro buffered hbuffered
      rw [hcontents] at hbuffered
      rw [hlast]
      rcases List.mem_append.mp hbuffered with hmem | hnew
      · exact h.received buffered hmem
      · cases List.mem_singleton.mp hnew
        exact ⟨f.receivedAt, h.stamped, Nat.le_refl _⟩
    · simp [hawaiting]
    · rw [hdiscontinuous, h.continuous]
      simp
  by_cases hkey : f.isVideoKeyframe = true
  · unfold retain
    rw [if_pos hkey]
    refine ⟨hdone _ (by simp [contents]) rfl rfl rfl (fun gop hgop => ?_) (by simp),
      by simp [contents]⟩
    rcases List.mem_append.mp hgop with hmem | hnew
    · exact h.wellFormed gop hmem
    · cases List.mem_singleton.mp hnew
      exact ⟨_, [], rfl, hkey, by simp, rfl⟩
  · have hawaiting : before.awaitingKeyframe = false := by
      cases hwaits : before.awaitingKeyframe with
      | false => rfl
      | true => exact absurd (hexpected hwaits) hkey
    obtain ⟨gop, hlast⟩ := Option.isSome_iff_exists.mp
      (List.getLast?_isSome.mpr (h.nonempty hawaiting))
    unfold retain
    rw [if_neg hkey, hlast, contents_split_last hlast]
    refine ⟨hdone _ ?_ rfl rfl hawaiting (fun other hother => ?_) (by simp), by simp [contents]⟩
    · rw [contents_split_last hlast]
      simp [contents]
    · rcases List.mem_append.mp hother with hmem | hnew
      · exact h.wellFormed other (List.mem_of_mem_dropLast hmem)
      · cases List.mem_singleton.mp hnew
        exact Gop.wellFormed_append (h.wellFormed gop (List.mem_of_getLast? hlast))
          (by simpa using hkey)

/-- What `push_owned` makes of the history of its stream, with the outcome: refused
by `admit`, emptied while room was made, or grown by the frame. -/
inductive Pushes (budgets : Budgets) (history : StreamHistory) (frame : RecordingFrame)
    (now globalLimit : Nat) : StreamHistory → Bool → Prop where
  | refused {budgets' : Budgets} {own : StreamHistory}
      (outcome : history.admitFrame budgets frame now globalLimit = (budgets', own, false)) :
      Pushes budgets history frame now globalLimit own false
  | crowded {budgets' : Budgets} {admitted own : StreamHistory} {popped : List Gop}
      (outcome : history.admitFrame budgets frame now globalLimit = (budgets', admitted, true))
      (evicts : Evicts popped admitted own) (empty : own.gops = [])
      (awaiting : own.awaitingKeyframe = true) :
      Pushes budgets history frame now globalLimit own false
  | stored {budgets' charged : Budgets} {admitted room : StreamHistory} {popped : List Gop}
      {reservation : Reservation}
      (outcome : history.admitFrame budgets frame now globalLimit = (budgets', admitted, true))
      (evicts : Evicts popped admitted room)
      (expected : room.awaitingKeyframe = true → frame.isVideoKeyframe = true) :
      Pushes budgets history frame now globalLimit (retain charged room ⟨frame, reservation⟩).2 true

theorem Pushes.coherent {bs : Budgets} {own : StreamHistory} {now globalLimit : Nat}
    {accepted : Bool} (h : Pushes bs hs f now globalLimit own accepted)
    (hcoherent : hs.Coherent log) : own.Coherent (log ++ [⟨f, accepted⟩]) := by
  obtain ⟨budgets', after, admitted, heq, hrefused, hadmitted⟩ :=
    admitFrame_coherent hcoherent bs f now globalLimit
  cases h with
  | refused hadmit =>
    rw [heq] at hadmit
    cases hadmit
    exact hrefused rfl
  | crowded hadmit hevicts hempty hawaiting => exact .of_empty hempty hawaiting _
  | stored hadmit hevicts hexpected =>
    rw [heq] at hadmit
    cases hadmit
    exact (retain_coherent ((hadmitted rfl).1.evicts hevicts) hexpected _ _).1

theorem Pushes.stored_last {bs : Budgets} {own : StreamHistory} {now globalLimit : Nat}
    (h : Pushes bs hs f now globalLimit own true) (hcoherent : hs.Coherent log) :
    ∃ kept reservation, own.contents = kept ++ [⟨f, reservation⟩] := by
  obtain ⟨budgets', after, admitted, heq, -, hadmitted⟩ :=
    admitFrame_coherent hcoherent bs f now globalLimit
  cases h with
  | stored hadmit hevicts hexpected =>
    rw [heq] at hadmit
    cases hadmit
    exact ⟨_, _, (retain_coherent ((hadmitted rfl).1.evicts hevicts) hexpected _ _).2⟩

end StreamHistory

open StreamHistory

namespace PreRecordBuffers

variable {sb gb : Nat} {b : PreRecordBuffers}
  {detached : Multiset BufferedFrame} {log : List Offer}
variable {after : PreRecordBuffers} {key : StreamKey} {hs : StreamHistory}

theorem dropFrames_limits (bs : Budgets) (dropped : List BufferedFrame) (id : Nat) :
    ((bs.dropFrames dropped).stream id).maxBytes = (bs.stream id).maxBytes ∧
      ((bs.dropFrames dropped).stream id).maxFrames = (bs.stream id).maxFrames := by
  induction dropped generalizing bs with
  | nil => exact ⟨rfl, rfl⟩
  | cons frame dropped ih =>
    have hrest := ih (bs.release frame.reservation)
    by_cases heq : frame.reservation.streamBudget = id
    · subst heq
      rw [Budgets.release_stream_self] at hrest
      exact hrest
    · rw [Budgets.release_stream_ne heq] at hrest
      exact hrest

theorem Drops.stream_fits {dropped : List BufferedFrame} (hdrops : Drops dropped b after)
    (hbefore : Accounted sb gb b detached)
    (hafter : Accounted sb gb after detached) {id bytes : Nat}
    (hfits : (b.budgets.stream id).fits bytes = true) :
    (after.budgets.stream id).fits bytes = true := by
  have hlimits := dropFrames_limits b.budgets dropped id
  rw [← hdrops.budgets] at hlimits
  refine (hbefore.exact.stream id).fits_mono (hafter.exact.stream id) ?_ hlimits.1 hlimits.2 hfits
  refine Multiset.filter_le_filter _ (Multiset.add_le_add_right ?_)
  rw [hdrops.held]
  exact Multiset.le_add_left _ _

/-- Storing an admitted frame fails only when its stream has lost all its groups. -/
theorem storeAdmitted_spec (haccounted : Accounted sb gb b detached)
    {admitted : StreamHistory} {f : RecordingFrame}
    (hkey : b.streams[key]? = some admitted) (hadmits : admitted.Admits log f)
    (hfits : (b.budgets.stream admitted.budget).fits f.byteLen = true)
    (hexpected : admitted.awaitingKeyframe = true → f.isVideoKeyframe = true) :
    ∃ own accepted, (b.storeAdmitted key f).1.streams[key]? = some own ∧
      (b.storeAdmitted key f).2 = (if accepted then .ok () else .error f) ∧
      (∀ other, other ≠ key → Option.Rel
      (fun old new => ∃ popped, StreamHistory.Evicts popped old new) b.streams[other]?
      (b.storeAdmitted key f).1.streams[other]?) ∧ ∃ room popped,
      StreamHistory.Evicts popped admitted room ∧
      ((accepted = false ∧ own = room ∧ room.gops = [] ∧ room.awaitingKeyframe = true) ∨
      (accepted = true ∧ (room.awaitingKeyframe = true → f.isVideoKeyframe = true) ∧
      ∃ charged reservation, own = (StreamHistory.retain charged room
      ⟨f, reservation⟩).2)) := by
  obtain ⟨hevicts, ⟨dropped, hdrops⟩, hroom⟩ := makeGlobalRoom_moves b key f
  have hafter := haccounted.drops ⟨dropped, hdrops⟩
  obtain ⟨room, popped, hown, hpop⟩ := hevicts.of_some hkey
  have hrefused : (b.makeGlobalRoom key f).2 = false → room.gops = [] := fun hno =>
    makeGlobalRoom_refused hkey (fun gop hgop => by
        obtain ⟨first, rest, hframes, -, -, hstart⟩ := hadmits.wellFormed gop hgop
        obtain ⟨last, hlast, hle⟩ := hadmits.received first
          (List.mem_flatMap.mpr ⟨gop, hgop, by simp [hframes]⟩)
        rw [hadmits.stamped] at hlast
        cases Option.some.inj hlast
        rw [hstart]
        exact hle)
      (fun hdelta hawaiting => absurd (hexpected hawaiting) (by simp [hdelta])) hno hown
  have hawaiting : room.gops = [] → room.awaitingKeyframe = true := by
    intro hnil
    cases hwaits : room.awaitingKeyframe with
    | true => rfl
    | false => exact absurd hnil (hpop.nonempty hadmits.nonempty hwaits)
  have hothers : ∀ (streams : ExtTreeMap StreamKey StreamHistory) (own : StreamHistory),
      streams = (b.makeGlobalRoom key f).1.streams.insert key own →
      ∀ other, other ≠ key →
        Option.Rel (fun old new => ∃ popped, StreamHistory.Evicts popped old new)
          b.streams[other]? streams[other]? := by
    rintro - own rfl other hne
    rw [getElem?_insert_of_ne hne]
    exact hevicts other
  unfold storeAdmitted
  dsimp only
  split
  next hno =>
    have hnil := hrefused (by simpa using hno)
    rw [updateStream_some hown]
    refine ⟨_, false, ExtTreeMap.getElem?_insert_self, rfl, hothers _ _ rfl, _, _,
      hpop.trans (.reason _ _), .inl ⟨rfl, rfl, hnil, hawaiting hnil⟩⟩
  next hyes =>
    rw [hown]
    dsimp only
    by_cases hkey' : room.awaitingKeyframe = true → f.isVideoKeyframe = true
    · rw [store_of_fits hkey'
        (by rw [hpop.budget]; exact hdrops.stream_fits haccounted hafter hfits)
        (hroom (by simpa using hyes))]
      exact ⟨_, true, ExtTreeMap.getElem?_insert_self, rfl, hothers _ _ rfl, room, popped, hpop,
        .inr ⟨rfl, hkey', _, _, rfl⟩⟩
    · -- A delta frame whose group went while room was made.
      obtain ⟨hwaits, hdelta⟩ := Classical.not_imp.mp hkey'
      have hnil : room.gops = [] := by
        rcases hpop.awaiting with hsame | hempty
        · exact absurd (hexpected (by rw [← hsame]; exact hwaits)) hdelta
        · exact hempty.2
      have hstore : StreamHistory.store (b.makeGlobalRoom key f).1.budgets room f =
          ((b.makeGlobalRoom key f).1.budgets, room, false) := by
        unfold StreamHistory.store
        rw [if_pos (by simp [hwaits, hdelta])]
      rw [hstore]
      exact ⟨room, false, ExtTreeMap.getElem?_insert_self, rfl, hothers _ _ rfl, room, popped, hpop,
        .inl ⟨rfl, rfl, hnil, hwaits⟩⟩

theorem pushOwned_pushes (haccounted : Accounted sb gb b detached)
    (hkey : b.streams[key]? = some hs) (hcoherent : hs.Coherent log)
    (f : RecordingFrame) (now : Nat) :
    ∃ own accepted, (b.pushOwned key f now).1.streams[key]? = some own ∧
      (b.pushOwned key f now).2 = (if accepted then .ok () else .error f) ∧
      hs.Pushes b.budgets f now b.budgets.global.maxBytes own accepted ∧
      ∀ other, other ≠ key → Option.Rel
      (fun old new => ∃ popped, StreamHistory.Evicts popped old new) b.streams[other]?
      (b.pushOwned key f now).1.streams[other]? := by
  obtain ⟨budgets', after, admitted, heq, -, hadmitted⟩ := admitFrame_coherent hcoherent
    b.budgets f now b.budgets.global.maxBytes
  have haccounted' := admitFrame_accounted haccounted hkey f now b.budgets.global.maxBytes
  unfold pushOwned
  rw [hkey]
  dsimp only
  rw [heq] at haccounted' ⊢
  have hinsert : (b.streams.insert key after)[key]? = some after :=
    ExtTreeMap.getElem?_insert_self
  have hothers : ∀ other, other ≠ key →
      Option.Rel (fun old new => ∃ popped, StreamHistory.Evicts popped old new)
        b.streams[other]? (b.streams.insert key after)[other]? := by
    intro other hne
    rw [getElem?_insert_of_ne hne]
    exact EvictsAll.refl b other
  cases admitted with
  | false => exact ⟨after, false, hinsert, rfl, .refused heq, hothers⟩
  | true =>
    obtain ⟨hadmits, hfits, hexpected⟩ := hadmitted rfl
    obtain ⟨own, accepted, hown, hresult, hmoves, room, popped, hpop, houtcome⟩ :=
      storeAdmitted_spec haccounted' hinsert hadmits hfits hexpected
    refine ⟨own, accepted, hown, hresult, ?_, fun other hne => ?_⟩
    · rcases houtcome with ⟨rfl, rfl, hnil, hawaiting⟩ | ⟨rfl, hkey', charged, reservation, rfl⟩
      · exact .crowded heq hpop hnil hawaiting
      · exact .stored heq hpop hkey'
    · have hmove := hmoves other hne
      rw [getElem?_insert_of_ne hne] at hmove
      exact hmove

/-- Every registered history is coherent with the offers made to it. -/
def AllCoherent (buffers : PreRecordBuffers) (offers : StreamKey → List Offer) : Prop :=
  ∀ (key : StreamKey) (history : StreamHistory), buffers.streams[key]? = some history →
    history.Coherent (offers key)

variable {offers : StreamKey → List Offer}

theorem AllCoherent.insert (h : b.AllCoherent offers)
    (hhistory : hs.Coherent (offers key))
    (hafter : after.streams = b.streams.insert key hs) : after.AllCoherent offers := by
  intro other found hfound
  rw [hafter] at hfound
  rcases getElem?_insert_cases hfound with ⟨rfl, rfl⟩ | ⟨-, hold⟩
  · exact hhistory
  · exact h other found hold

/-- An update that keeps a history coherent, whatever was offered to it. -/
def Settles (update : Budgets → StreamHistory → Budgets × StreamHistory) : Prop :=
  ∀ budgets history log, history.Coherent log → (update budgets history).2.Coherent log

theorem AllCoherent.updateStream {update : Budgets → StreamHistory → Budgets × StreamHistory}
    (hupdate : Settles update) (h : b.AllCoherent offers) (key : StreamKey) :
    (b.updateStream key update).AllCoherent offers := by
  cases hkey : b.streams[key]? with
  | none =>
    rw [updateStream_none hkey]
    exact h
  | some hs =>
    rw [updateStream_some hkey]
    exact h.insert (hupdate b.budgets hs _ (h key hs hkey)) rfl

theorem AllCoherent.updateStreams {update : Budgets → StreamHistory → Budgets × StreamHistory}
    (hupdate : Settles update) (h : b.AllCoherent offers) (selected : StreamKey → Bool) :
    (b.updateStreams selected update).AllCoherent offers :=
  @foldl_invariant _ _ _ (fun state : PreRecordBuffers => state.AllCoherent offers)
    (fun _ key hstate => hstate.updateStream hupdate key) _ h _

theorem clear_settles : Settles StreamHistory.clear :=
  fun _ _ log _ => .of_empty rfl rfl log

theorem expire_settles (now : Nat) :
    Settles fun budgets hs => StreamHistory.expire budgets hs now := by
  intro budgets hs log h
  obtain ⟨popped, after, heq, hevicts, -⟩ := expire_spec budgets hs now
  dsimp only
  rw [heq]
  exact h.evicts hevicts

section

variable (h : b.AllCoherent offers)
include h

theorem AllCoherent.evicted {popped : List Gop} (hkey : b.streams[key]? = some hs)
    {own : StreamHistory} (hevicts : StreamHistory.Evicts popped hs own)
    (hafter : after.streams = b.streams.insert key own) : after.AllCoherent offers :=
  h.insert ((h key hs hkey).evicts hevicts) hafter

theorem configure_coherent (source stream : String) (duration : Nat) : (b.configure source
    stream duration).1.AllCoherent offers := by
  unfold configure
  split
  · exact h
  cases hkey : b.streams[StreamKey.mk source stream]? with
  | some hs => exact h.updateStream (fun _ _ log _ => .of_empty rfl rfl log) _
  | none =>
    dsimp only
    split
    · exact h
    · exact h.insert (.of_empty rfl rfl _) rfl

theorem removeStream_coherent (key : StreamKey) : (b.removeStream key).AllCoherent offers := by
  unfold removeStream
  cases hkey : b.streams[key]? with
  | none => exact h
  | some hs =>
    intro other found hfound
    rw [ExtTreeMap.getElem?_erase] at hfound
    split at hfound
    · contradiction
    · exact h other found hfound

theorem nextReleased_coherent : b.nextReleased.1.AllCoherent offers := by
  unfold nextReleased
  split
  next => exact h
  next key hs hfind =>
    have hkey : b.streams[key]? = some hs :=
      ExtTreeMap.mem_toList_iff_getElem?_eq_some.mp (List.mem_of_find?_eq_some hfind)
    have hhistory := h key hs hkey
    split
    next => exact h
    next frame released hreleased =>
      refine h.insert ?_ rfl
      exact ⟨⟨hhistory.wellFormed, hhistory.ordered, hhistory.received, hhistory.run⟩,
        hhistory.latest, hhistory.nonempty, hhistory.stale, hhistory.closed⟩

theorem take_coherent (key : StreamKey) (now : Nat) : (b.take key now).1.AllCoherent offers := by
  unfold take
  cases hkey : b.streams[key]? with
  | none => exact h
  | some hs => exact h.insert (.of_empty rfl rfl _) rfl

theorem snapshot_coherent (key : StreamKey) (now : Nat) :
    (b.snapshot key now).1.AllCoherent offers := by
  unfold snapshot
  cases hkey : b.streams[key]? with
  | none => exact h
  | some hs =>
    obtain ⟨popped, middle, heq, hevicts, -⟩ :=
      expire_spec b.budgets hs now
    dsimp only
    rw [heq]
    exact h.evicted hkey hevicts rfl

end

/-- A push is logged for its stream; the other streams at most lose groups. -/
theorem pushOwned_coherent (haccounted : Accounted sb gb b detached)
    (h : b.AllCoherent offers) (key : StreamKey) (f : RecordingFrame) (now : Nat) :
    (b.pushOwned key f now).1.AllCoherent (Function.update offers key (offers key ++
      [⟨f, (b.pushOwned key f now).2.toBool⟩])) := by
  cases hkey : b.streams[key]? with
  | none =>
    have hsame : b.pushOwned key f now = (b, .error f) := by
      simp [pushOwned, hkey]
    rw [hsame]
    intro other found hfound
    have hne : other ≠ key := by
      rintro rfl
      rw [hkey] at hfound
      contradiction
    rw [Function.update_of_ne hne]
    exact h other found hfound
  | some hs =>
    obtain ⟨own, accepted, hown, hresult, hpushes, hothers⟩ :=
      pushOwned_pushes haccounted hkey (h key hs hkey) f now
    intro other found hfound
    by_cases hne : other = key
    · subst hne
      rw [hown] at hfound
      cases Option.some.inj hfound
      have hbool : (b.pushOwned other f now).2.toBool = accepted := by
        rw [hresult]
        cases accepted <;> rfl
      rw [Function.update_self, hbool]
      exact hpushes.coherent (h other hs hkey)
    · rw [Function.update_of_ne hne]
      have hmove := hothers other hne
      rw [hfound] at hmove
      cases hold : b.streams[other]? with
      | none => rw [hold] at hmove; cases hmove
      | some old =>
        rw [hold] at hmove
        cases hmove with
        | some hpop =>
          obtain ⟨popped, hpop⟩ := hpop
          exact (h other old hold).evicts hpop

theorem Trims.video {fs kept dropped : List BufferedFrame} (h : Trims fs kept dropped) :
    (kept.filter fun frame => frame.frame.isVideo) =
      fs.filter fun frame => frame.frame.isVideo := by
  induction h with
  | nil => rfl
  | keep frame _ ih => simp [List.filter_cons, ih]
  | trim audio _ ih => simp [audio, ih]

theorem take_video (hkey : b.streams[key]? = some hs) (now : Nat) :
    ∃ kept, kept <:+ hs.contents ∧ ((b.take key now).2.filter fun frame => frame.frame.isVideo) =
      kept.filter fun frame => frame.frame.isVideo := by
  obtain ⟨popped, middle, heq, hevicts, -⟩ :=
    expire_spec b.budgets hs now
  refine ⟨middle.contents, ⟨_, hevicts.contents_eq.symm⟩, ?_⟩
  unfold take
  rw [hkey]
  dsimp only
  rw [heq]
  exact (trimAudioToVideo_trims middle.contents).video

end PreRecordBuffers

open PreRecordBuffers

structure LoggedSystem where
  system : PreRecordSystem
  offered : List (StreamKey × Offer)

def offersTo (offered : List (StreamKey × Offer)) (key : StreamKey) : List Offer :=
  offered.filterMap fun entry => if entry.1 = key then some entry.2 else none

namespace LoggedSystem

def new (streamBytes globalBytes : Nat) : LoggedSystem := ⟨.new streamBytes globalBytes, []⟩

def step (logged : LoggedSystem) (op : PreRecordOp) : LoggedSystem where
  system := logged.system.step op
  offered :=
    match op with
    | .pushOwned key frame now =>
      logged.offered ++
        [(key, ⟨frame, (logged.system.buffers.pushOwned key frame now).2.toBool⟩)]
    | _ => logged.offered

structure Valid (streamBytes globalBytes : Nat) (logged : LoggedSystem) : Prop where
  accounted : logged.system.buffers.Accounted streamBytes globalBytes logged.system.detached
  coherent : logged.system.buffers.AllCoherent (offersTo logged.offered)

theorem step_valid {sb gb : Nat} {logged : LoggedSystem}
    (h : logged.Valid sb gb) (op : PreRecordOp) :
    (logged.step op).Valid sb gb := by
  refine ⟨PreRecordSystem.step_accounted h.accounted op, ?_⟩
  cases op with
  | configure source stream duration =>
    exact configure_coherent h.coherent source stream duration
  | pushOwned key frame now =>
    have hpush := pushOwned_coherent h.accounted h.coherent key frame now
    have hlog : offersTo (logged.step (.pushOwned key frame now)).offered =
        Function.update (offersTo logged.offered) key (offersTo logged.offered key ++
            [⟨frame, (logged.system.buffers.pushOwned key frame now).2.toBool⟩]) := by
      funext other
      by_cases hne : other = key
      · subst hne
        simp [step, offersTo]
      · simp [step, offersTo, Function.update_of_ne hne, Ne.symm hne]
    rw [hlog]
    exact hpush
  | setContinuous key continuous =>
    refine PreRecordBuffers.AllCoherent.updateStream (fun _ _ _ hhistory => ?_) h.coherent key
    exact ⟨⟨hhistory.wellFormed, hhistory.ordered, hhistory.received, hhistory.run⟩,
      hhistory.latest, hhistory.nonempty, hhistory.stale, hhistory.closed⟩
  | clearSource source =>
    exact PreRecordBuffers.AllCoherent.updateStreams clear_settles h.coherent _
  | clearStream key =>
    exact PreRecordBuffers.AllCoherent.updateStream clear_settles h.coherent key
  | removeSource source =>
    exact @foldl_invariant _ _ _
      (fun state : PreRecordBuffers => state.AllCoherent (offersTo logged.offered))
      (fun _ key hstate => removeStream_coherent hstate key) _ h.coherent _
  | nextReleased => exact nextReleased_coherent h.coherent
  | expire now =>
    exact PreRecordBuffers.AllCoherent.updateStreams (expire_settles now) h.coherent _
  | take key now => exact take_coherent h.coherent key now
  | snapshot key now => exact snapshot_coherent h.coherent key now
  | drop index =>
    intro key history hkey
    refine h.coherent key history ?_
    have hsame : (logged.system.step (.drop index)).buffers.streams =
        logged.system.buffers.streams := by
      simp only [PreRecordSystem.step]
      split <;> rfl
    rw [← hsame]
    exact hkey

def run (streamBytes globalBytes : Nat) (ops : List PreRecordOp) : LoggedSystem :=
  ops.foldl step (new streamBytes globalBytes)

theorem new_valid (sb gb : Nat) : (new sb gb).Valid sb gb :=
  ⟨PreRecordSystem.new_accounted sb gb,
    by simp [PreRecordBuffers.AllCoherent, new, PreRecordSystem.new, PreRecordBuffers.new]⟩

theorem run_valid (sb gb : Nat) (ops : List PreRecordOp) : (run sb gb ops).Valid sb gb :=
  @foldl_invariant _ _ step (fun logged => logged.Valid sb gb)
    (fun _ op h => step_valid h op) _ (new_valid sb gb) ops

end LoggedSystem

/-- In every run of the pre-record buffers a registered history is a contiguous,
decodable run of the frames offered to its stream, a push that succeeds has stored
its frame, and the video that `take` returns does not span a rejected frame. -/
theorem pre_record_history_decodable (streamBytes globalBytes : Nat) (ops : List PreRecordOp)
    (logged : LoggedSystem) (hrun : logged = LoggedSystem.run streamBytes globalBytes ops)
    (key : StreamKey) (history : StreamHistory)
    (hkey : logged.system.buffers.streams[key]? = some history) :
    (∀ gop ∈ history.gops, ∃ first rest, gop.frames = first :: rest ∧
        first.frame.isVideoKeyframe = true ∧
        ∀ frame ∈ rest, frame.frame.isVideoKeyframe = false) ∧
      (history.contents.Pairwise fun earlier later =>
        earlier.frame.receivedAt ≤ later.frame.receivedAt) ∧
      (history.awaitingKeyframe = false → history.gops ≠ []) ∧
      (∀ frame now, (logged.system.buffers.pushOwned key frame now).2 = .ok () →
        ∃ own kept reservation,
          (logged.system.buffers.pushOwned key frame now).1.streams[key]? = some own ∧
            own.contents = kept ++ [⟨frame, reservation⟩]) ∧
      (history.discontinuous = false →
        acceptedOffers history.contents <:+ offersTo logged.offered key) ∧
      ∀ now, ∃ run, run <:+: offersTo logged.offered key ∧ (∀ offer ∈ run, offer.accepted = true) ∧
        ((logged.system.buffers.take key now).2.map BufferedFrame.frame).filter
            RecordingFrame.isVideo =
          (run.map Offer.frame).filter RecordingFrame.isVideo := by
  have hvalid : logged.Valid streamBytes globalBytes := hrun ▸ LoggedSystem.run_valid _ _ ops
  have hcoherent := hvalid.coherent key history hkey
  refine ⟨fun gop hgop => ?_, hcoherent.ordered, hcoherent.nonempty, fun frame now hok => ?_,
    hcoherent.latest, fun now => ?_⟩
  · obtain ⟨first, rest, hframes, hfirst, hrest, -⟩ := hcoherent.wellFormed gop hgop
    exact ⟨first, rest, hframes, hfirst, hrest⟩
  · obtain ⟨own, accepted, hown, hresult, hpushes, -⟩ :=
      pushOwned_pushes hvalid.accounted hkey hcoherent frame now
    cases accepted with
    | false =>
      rw [hresult] at hok
      contradiction
    | true =>
      obtain ⟨kept, reservation, hlast⟩ := hpushes.stored_last hcoherent
      exact ⟨own, kept, reservation, hown, hlast⟩
  · obtain ⟨kept, ⟨older, holder⟩, htake⟩ := take_video hkey now
    refine ⟨acceptedOffers kept, ?_, by simp [acceptedOffers], ?_⟩
    · refine List.IsInfix.trans ?_ hcoherent.run
      rw [← holder, acceptedOffers_append]
      exact (List.suffix_append _ _).isInfix
    · have hframes := congrArg (List.map BufferedFrame.frame) htake
      simpa [acceptedOffers, List.filter_map, Function.comp_def] using hframes

/-- A keyframe and the frame after it are retained as offered. -/
theorem pre_record_history_keeps_group :
    acceptedOffers [⟨videoFrame true 0, ⟨1, 0⟩⟩, ⟨videoFrame false 1, ⟨1, 0⟩⟩] <:+
      offersTo (LoggedSystem.run 64 128
        [.configure "front" "main" second, .pushOwned ⟨"front", "main"⟩ (videoFrame true 0) 0,
          .pushOwned ⟨"front", "main"⟩ (videoFrame false 1) 1]).offered ⟨"front", "main"⟩ :=
  (pre_record_history_decodable 64 128
    [.configure "front" "main" second, .pushOwned ⟨"front", "main"⟩ (videoFrame true 0) 0,
      .pushOwned ⟨"front", "main"⟩ (videoFrame false 1) 1] _ rfl ⟨"front", "main"⟩
    ⟨second, 0, [⟨0, [⟨videoFrame true 0, ⟨1, 0⟩⟩, ⟨videoFrame false 1, ⟨1, 0⟩⟩]⟩], false, false,
      some 1, .startup, false, []⟩ (by decide)).2.2.2.2.1 rfl

end KeepPeek.Storage
