import KeepPeek.Storage.PreRecord

/-! What the loops of a stream history do. Expiry, stream pressure and global
pressure all pop groups from the front of a history; `Evicts` says what that
changes, and every loop is an instance of it. -/
namespace KeepPeek.Storage

namespace StreamHistory

def contents (history : StreamHistory) : List BufferedFrame := history.gops.flatMap Gop.frames

def freed (history : StreamHistory) (popped : List Gop) : List BufferedFrame :=
  if history.continuous then [] else popped.flatMap Gop.frames

/-- `after` is `before` without the groups `popped` of its front. -/
structure Evicts (popped : List Gop) (before after : StreamHistory) : Prop where
  gops : before.gops = popped ++ after.gops
  released : after.released =
    before.released ++ if before.continuous then popped.flatMap Gop.frames else []
  awaiting : after.awaitingKeyframe = before.awaitingKeyframe ∨
    after.awaitingKeyframe = true ∧ after.gops = []
  emptied : popped ≠ [] → after.gops = [] → after.awaitingKeyframe = true
  duration : after.duration = before.duration
  budget : after.budget = before.budget
  discontinuous : after.discontinuous = before.discontinuous
  lastReceivedAt : after.lastReceivedAt = before.lastReceivedAt
  continuous : after.continuous = before.continuous

namespace Evicts

variable {before middle after : StreamHistory} {first second : List Gop}

theorem refl (hs : StreamHistory) : Evicts [] hs hs :=
  ⟨rfl, by simp, .inl rfl, by simp, rfl, rfl, rfl, rfl, rfl⟩

theorem reason (hs : StreamHistory) (reason : HistoryReason) :
    Evicts [] hs (hs.withReason reason) :=
  ⟨rfl, by simp [withReason], .inl rfl, by simp, rfl, rfl, rfl, rfl, rfl⟩

theorem freed_eq (h : Evicts first before after) (popped : List Gop) :
    after.freed popped = before.freed popped := by
  unfold freed
  rw [h.continuous]

theorem trans (hfirst : Evicts first before middle) (hsecond : Evicts second middle after) :
    Evicts (first ++ second) before after where
  gops := by rw [hfirst.gops, hsecond.gops, List.append_assoc]
  released := by
    rw [hsecond.released, hfirst.released, hfirst.continuous]
    cases before.continuous <;> simp
  awaiting := by
    rcases hsecond.awaiting with heq | hempty
    · rw [heq]
      rcases hfirst.awaiting with heq' | ⟨hawaiting, hnil⟩
      · exact .inl heq'
      have hafter : after.gops = [] := by
        have := hsecond.gops
        rw [hnil] at this
        exact (List.append_eq_nil_iff.mp this.symm).2
      exact .inr ⟨hawaiting, hafter⟩
    · exact .inr hempty
  emptied := by
    intro hpopped hnil
    by_cases hmore : second = []
    · have hmiddle : middle.gops = [] := by rw [hsecond.gops, hmore, hnil]; rfl
      have hpopped' : first ≠ [] := by simpa [hmore] using hpopped
      have hawaiting := hfirst.emptied hpopped' hmiddle
      rcases hsecond.awaiting with heq | ⟨htrue, -⟩
      · rw [heq, hawaiting]
      · exact htrue
    · exact hsecond.emptied hmore hnil
  duration := hsecond.duration.trans hfirst.duration
  budget := hsecond.budget.trans hfirst.budget
  discontinuous := hsecond.discontinuous.trans hfirst.discontinuous
  lastReceivedAt := hsecond.lastReceivedAt.trans hfirst.lastReceivedAt
  continuous := hsecond.continuous.trans hfirst.continuous

end Evicts

@[simp] theorem freed_nil (hs : StreamHistory) : hs.freed [] = [] := by
  simp [freed]

theorem freed_append (hs : StreamHistory) (first second : List Gop) :
    hs.freed (first ++ second) = hs.freed first ++ hs.freed second := by
  unfold freed
  split <;> simp

theorem evictOldest_nil {hs : StreamHistory} (h : hs.gops = []) (bs : Budgets) :
    evictOldest bs hs = (bs, { hs with awaitingKeyframe := true }, false) := by
  simp [evictOldest, h]

theorem evictOldest_cons {hs : StreamHistory} {gop : Gop} {gops : List Gop}
    (h : hs.gops = gop :: gops) (bs : Budgets) :
    ∃ after, evictOldest bs hs = (bs.dropFrames (hs.freed [gop]), after, true) ∧
      Evicts [gop] hs after ∧ after.gops = gops := by
  unfold evictOldest freed
  rw [h]
  dsimp only
  by_cases hcontinuous : hs.continuous = true
  · rw [if_pos hcontinuous, if_pos hcontinuous]
    refine ⟨_, rfl, ⟨h, by simp [hcontinuous], ?_, ?_, rfl, rfl, rfl, rfl, rfl⟩, rfl⟩
    · cases gops <;> simp
    · rintro - rfl
      simp
  · rw [if_neg hcontinuous, if_neg hcontinuous, List.flatMap_singleton]
    refine ⟨_, rfl, ⟨h, by simp [hcontinuous], ?_, ?_, rfl, rfl, rfl, rfl, rfl⟩, rfl⟩
    · cases gops <;> simp
    · rintro - rfl
      simp

end StreamHistory

@[simp] theorem Budgets.dropFrames_nil (bs : Budgets) : bs.dropFrames [] = bs := rfl

theorem Budgets.dropFrames_append (bs : Budgets) (first second : List BufferedFrame) :
    bs.dropFrames (first ++ second) = (bs.dropFrames first).dropFrames second :=
  List.foldl_append

namespace StreamHistory

/-- Everything expiry pops is older than the history's duration, and the budgets
get back what is not released. -/
theorem expireLoop_spec (now fuel : Nat) (bs : Budgets) (hs : StreamHistory) :
    ∃ popped after, expireLoop now fuel bs hs = (bs.dropFrames (hs.freed popped), after) ∧
      Evicts popped hs after ∧ ∀ gop ∈ popped, hs.duration < now - gop.start := by
  induction fuel generalizing bs hs with
  | zero => exact ⟨[], hs, by simp [expireLoop], .refl _, by simp⟩
  | succ fuel ih =>
    have hdone : ∃ popped after, (bs, hs) = (bs.dropFrames (hs.freed popped), after) ∧
        Evicts popped hs after ∧ ∀ gop ∈ popped, hs.duration < now - gop.start :=
      ⟨[], hs, by simp, .refl _, by simp⟩
    unfold expireLoop
    cases hgops : hs.gops with
    | nil => exact hdone
    | cons gop gops =>
      dsimp only
      split
      next hold =>
        have hreason := Evicts.reason hs .durationEviction
        obtain ⟨middle, hevict, hpop, -⟩ := evictOldest_cons
          (show (hs.withReason .durationEviction).gops = gop :: gops from hgops) bs
        rw [hevict]
        dsimp only
        obtain ⟨popped, after, hloop, hrest, hpopped⟩ := ih _ middle
        have hall := (hreason.trans hpop).trans hrest
        refine ⟨gop :: popped, after, ?_, hall, ?_⟩
        · rw [hloop, hpop.freed_eq, hreason.freed_eq, hreason.freed_eq, ← Budgets.dropFrames_append,
            ← freed_append]
          rfl
        · intro other hother
          rcases List.mem_cons.mp hother with rfl | hmem
          · exact hold
          · have := hpopped other hmem
            rwa [(hreason.trans hpop).duration] at this
      next => exact hdone

theorem expire_spec (bs : Budgets) (hs : StreamHistory) (now : Nat) :
    ∃ popped after, expire bs hs now = (bs.dropFrames (hs.freed popped), after) ∧
      Evicts popped hs after ∧ ∀ gop ∈ popped, hs.duration < now - gop.start :=
  expireLoop_spec now _ bs hs

theorem evictAll_spec {fuel : Nat} {hs : StreamHistory} (hfuel : hs.gops.length < fuel)
    (bs : Budgets) :
    ∃ after, evictAll fuel bs hs = (bs.dropFrames (hs.freed hs.gops), after) ∧
      Evicts hs.gops hs after := by
  induction fuel generalizing bs hs with
  | zero => omega
  | succ fuel ih =>
    unfold evictAll
    cases hgops : hs.gops with
    | nil =>
      rw [evictOldest_nil hgops]
      refine ⟨{ hs with awaitingKeyframe := true }, by simp, ?_⟩
      exact ⟨by simp, by simp, .inr ⟨rfl, hgops⟩, by simp, rfl, rfl, rfl, rfl, rfl⟩
    | cons gop gops =>
      obtain ⟨middle, hevict, hpop, hrest⟩ := evictOldest_cons hgops bs
      rw [hgops, List.length_cons] at hfuel
      rw [hevict]
      dsimp only
      obtain ⟨after, hloop, hmore⟩ := @ih middle (by rw [hrest]; omega)
        (bs.dropFrames (hs.freed [gop]))
      rw [hrest] at hloop hmore
      refine ⟨after, ?_, hpop.trans hmore⟩
      rw [if_pos rfl, hloop, hpop.freed_eq, ← Budgets.dropFrames_append, ← freed_append]
      rfl

/-- What a rejected frame does to the history: a continuous one releases all its
groups, another one loses its open group. -/
structure Discards (dropped : List BufferedFrame) (before after : StreamHistory) : Prop where
  gops : after.gops =
    if before.continuous then [] else if before.awaitingKeyframe then before.gops
    else before.gops.dropLast
  released : after.released =
    before.released ++ if before.continuous then before.contents else []
  dropped : dropped =
    if before.continuous || before.awaitingKeyframe then []
    else before.gops.getLast?.elim [] Gop.frames
  awaiting : after.awaitingKeyframe = true
  discontinuous : after.discontinuous = true
  duration : after.duration = before.duration
  budget : after.budget = before.budget
  lastReceivedAt : after.lastReceivedAt = before.lastReceivedAt
  continuous : after.continuous = before.continuous

theorem discardOpen_spec (bs : Budgets) (hs : StreamHistory) :
    ∃ dropped after, discardOpen bs hs = (bs.dropFrames dropped, after) ∧
      Discards dropped hs after := by
  unfold discardOpen
  by_cases hcontinuous : hs.continuous = true
  · obtain ⟨after, hloop, hpop⟩ := evictAll_spec (Nat.lt_succ_self hs.gops.length) bs
    have hnil : after.gops = [] := by
      have := hpop.gops
      simpa using this
    have hfreed : hs.freed hs.gops = [] := by simp [freed, hcontinuous]
    rw [if_pos hcontinuous, hloop, hfreed]
    refine ⟨[], _, rfl, ?_⟩
    exact ⟨by simp [hcontinuous, hnil], by simp [hcontinuous, hpop.released, contents],
      by simp [hcontinuous], rfl, rfl, hpop.duration, hpop.budget, hpop.lastReceivedAt,
      hpop.continuous⟩
  · rw [if_neg hcontinuous]
    by_cases hawaiting : hs.awaitingKeyframe = true
    · rw [hawaiting]
      refine ⟨[], _, rfl, ?_⟩
      exact ⟨by simp [hcontinuous, hawaiting], by simp [hcontinuous], by simp [hawaiting], rfl, rfl,
        rfl, rfl, rfl, rfl⟩
    · refine ⟨hs.gops.getLast?.elim [] Gop.frames, { hs with
          gops := hs.gops.dropLast, awaitingKeyframe := true, discontinuous := true }, ?_, ?_⟩
      · cases hs.gops.getLast? <;> simp [hawaiting, Budgets.dropFrames]
      · exact ⟨by simp [hcontinuous, hawaiting], by simp [hcontinuous],
          by simp [hcontinuous, hawaiting], rfl, rfl, rfl, rfl, rfl, rfl⟩

theorem makeStreamRoom_spec (bytes : Nat) {fuel : Nat} {hs : StreamHistory}
    (hfuel : hs.gops.length < fuel) (bs : Budgets) :
    ∃ popped after room, makeStreamRoom bytes fuel bs hs =
        (bs.dropFrames (hs.freed popped), after, room) ∧
      Evicts popped hs after ∧
      (room = true → ((bs.dropFrames (hs.freed popped)).stream hs.budget).fits bytes = true) ∧
      (room = false → after.gops = [] ∧ after.awaitingKeyframe = true) := by
  induction fuel generalizing bs hs with
  | zero => omega
  | succ fuel ih =>
    unfold makeStreamRoom
    split
    next hfits =>
      exact ⟨[], hs, true, by simp, .refl _, by simpa using hfits, by simp⟩
    next =>
      have hreason := Evicts.reason hs .streamPressure
      cases hgops : hs.gops with
      | nil =>
        rw [evictOldest_nil (show (hs.withReason .streamPressure).gops = [] from hgops)]
        refine ⟨[], { hs.withReason .streamPressure with awaitingKeyframe := true }, false,
          by simp, ?_, by simp, fun _ => ⟨hgops, rfl⟩⟩
        exact ⟨by simp [withReason], by simp [withReason], .inr ⟨rfl, hgops⟩, by simp, rfl, rfl,
          rfl, rfl, rfl⟩
      | cons gop gops =>
        obtain ⟨middle, hevict, hpop, hrest⟩ := evictOldest_cons
          (show (hs.withReason .streamPressure).gops = gop :: gops from hgops) bs
        rw [hgops, List.length_cons] at hfuel
        rw [hevict]
        dsimp only
        obtain ⟨popped, after, room, hloop, hmore, hroom, hnoroom⟩ :=
          @ih middle (by rw [hrest]; omega)
            (bs.dropFrames ((hs.withReason .streamPressure).freed [gop]))
        have hall := hreason.trans hpop
        have hbudgets :
            (bs.dropFrames ((hs.withReason .streamPressure).freed [gop])).dropFrames
              (middle.freed popped) = bs.dropFrames (hs.freed (gop :: popped)) := by
          rw [hpop.freed_eq, hreason.freed_eq, hreason.freed_eq, ← Budgets.dropFrames_append,
            ← freed_append]
          rfl
        rw [hbudgets] at hloop hroom
        rw [hall.budget] at hroom
        exact ⟨gop :: popped, after, room, by rw [if_pos rfl, hloop], hall.trans hmore, hroom,
          hnoroom⟩

/-- The frame is refused because a keyframe is awaited or because of its size, or
groups are evicted until it fits. -/
theorem admitOrdered_cases (bs : Budgets) (hs : StreamHistory) (f : RecordingFrame)
    (globalLimit : Nat) :
    (hs.awaitingKeyframe = true ∧ f.isVideoKeyframe = false ∧
      ∃ reason, admitOrdered bs hs f globalLimit = (bs, hs.withReason reason, false)) ∨
    ((hs.awaitingKeyframe = true → f.isVideoKeyframe = true) ∧
      ∃ reason dropped after, admitOrdered bs hs f globalLimit =
          (bs.dropFrames dropped, after, false) ∧
        Discards dropped ((hs.closeBefore f.isVideoKeyframe).withReason reason) after) ∨
    ((hs.awaitingKeyframe = true → f.isVideoKeyframe = true) ∧ ∃ start popped after admitted,
        start = restart bs (hs.closeBefore f.isVideoKeyframe) f.isVideoKeyframe ∧
        admitOrdered bs hs f globalLimit =
          (start.1.dropFrames (start.2.freed popped), after, admitted) ∧
        Evicts popped start.2 after ∧
        (admitted = true →
          ((start.1.dropFrames (start.2.freed popped)).stream after.budget).fits f.byteLen = true ∧
            (after.awaitingKeyframe = true → f.isVideoKeyframe = true)) ∧
        (admitted = false → after.gops = [] ∧ after.awaitingKeyframe = true)) := by
  unfold admitOrdered
  dsimp only
  split
  next hmissing =>
    obtain ⟨hawaiting, hkey⟩ := Bool.and_eq_true_iff.mp hmissing
    exact .inl ⟨hawaiting, by simpa using hkey, _, rfl⟩
  next hexpected =>
    have hexpected' : hs.awaitingKeyframe = true → f.isVideoKeyframe = true := by
      simpa using hexpected
    split
    next =>
      obtain ⟨dropped, after, heq, hdiscards⟩ := discardOpen_spec bs
        ((hs.closeBefore f.isVideoKeyframe).withReason
          (if (bs.stream (hs.closeBefore f.isVideoKeyframe).budget).maxBytes <
            f.byteLen then .streamPressure else .globalPressure))
      rw [heq]
      exact .inr (.inl ⟨hexpected', _, dropped, after, rfl, hdiscards⟩)
    next =>
      refine .inr (.inr ⟨hexpected', ?_⟩)
      generalize hstart : restart bs (hs.closeBefore f.isVideoKeyframe) f.isVideoKeyframe = start
      obtain ⟨popped, after, room, heq, hevicts, hroom, hnoroom⟩ :=
        makeStreamRoom_spec f.byteLen (Nat.lt_succ_self start.2.gops.length) start.1
      rw [heq]
      dsimp only
      cases room with
      | false => exact ⟨start, popped, after, false, rfl, rfl, hevicts, by simp, hnoroom⟩
      | true =>
        rw [if_neg (by simp)]
        split
        next hlost =>
          -- Only an eviction of everything makes a delta frame lose its group here.
          obtain ⟨hawaiting, hkey⟩ := Bool.and_eq_true_iff.mp hlost
          have hdelta : f.isVideoKeyframe = false := by simpa using hkey
          have hbefore : start.2.awaitingKeyframe = false := by
            rw [← hstart]
            cases hwas : hs.awaitingKeyframe with
            | true => simp [hexpected' hwas] at hdelta
            | false => simp [restart, hdelta, closeBefore, hwas]
          have hgops : after.gops = [] := by
            rcases hevicts.awaiting with hsame | hempty
            · rw [hsame, hbefore] at hawaiting
              contradiction
            · exact hempty.2
          exact ⟨start, popped, after, false, rfl, rfl, hevicts, by simp,
            fun _ => ⟨hgops, hawaiting⟩⟩
        next hkept =>
          refine ⟨start, popped, after, true, rfl, rfl, hevicts, fun _ => ⟨?_, ?_⟩, by simp⟩
          · rw [hevicts.budget]
            exact hroom rfl
          · simpa using hkept

def OutOfOrder (history : StreamHistory) (frame : RecordingFrame) (now : Nat) : Prop :=
  now < frame.receivedAt ∨ history.duration < now - frame.receivedAt ∨
    ∃ last ∈ history.lastReceivedAt, frame.receivedAt < last

def stamped (history : StreamHistory) (frame : RecordingFrame) : StreamHistory :=
  { history with lastReceivedAt := some frame.receivedAt }

theorem admitFrame_cases (bs : Budgets) (hs : StreamHistory) (f : RecordingFrame)
    (now globalLimit : Nat) :
    ∃ popped middle, Evicts popped hs middle ∧ (∀ gop ∈ popped, hs.duration < now - gop.start) ∧
      ((middle.OutOfOrder f now ∧ ∃ reason dropped after, admitFrame bs hs f now globalLimit =
              ((bs.dropFrames (hs.freed popped)).dropFrames dropped, after, false) ∧
            Discards dropped (middle.withReason reason) after) ∨
        (¬ middle.OutOfOrder f now ∧ admitFrame bs hs f now globalLimit =
          admitOrdered (bs.dropFrames (hs.freed popped)) (middle.stamped f) f globalLimit)) := by
  obtain ⟨popped, middle, heq, hevicts, hold⟩ := expire_spec bs hs now
  refine ⟨popped, middle, hevicts, hold, ?_⟩
  have horder : (decide (now < f.receivedAt) ||
      decide (middle.duration < now - f.receivedAt) ||
      middle.lastReceivedAt.any fun last => decide (f.receivedAt < last)) = true ↔
      middle.OutOfOrder f now := by
    unfold OutOfOrder
    cases middle.lastReceivedAt <;> simp [or_assoc]
  unfold admitFrame
  rw [heq]
  dsimp only
  by_cases hbad : middle.OutOfOrder f now
  · obtain ⟨dropped, after, heq', hdiscards⟩ := discardOpen_spec (bs.dropFrames (hs.freed popped))
      (middle.withReason (if decide (middle.duration < now - f.receivedAt) = true then
        .durationEviction else .invalidOrder))
    rw [if_pos (horder.mpr hbad), heq']
    exact .inl ⟨hbad, _, dropped, after, rfl, hdiscards⟩
  · rw [if_neg (mt horder.mp hbad)]
    exact .inr ⟨hbad, rfl⟩

theorem store_of_fits {bs : Budgets} {hs : StreamHistory} {f : RecordingFrame}
    (hkey : hs.awaitingKeyframe = true → f.isVideoKeyframe = true)
    (hstream : (bs.stream hs.budget).fits f.byteLen = true)
    (hglobal : bs.global.fits f.byteLen = true) :
    store bs hs f = ((retain (bs.charge ⟨f.byteLen, hs.budget⟩) hs ⟨f, ⟨f.byteLen, hs.budget⟩⟩).1,
        (retain (bs.charge ⟨f.byteLen, hs.budget⟩) hs ⟨f, ⟨f.byteLen, hs.budget⟩⟩).2,
        true) := by
  have hexpected : (hs.awaitingKeyframe && !f.isVideoKeyframe) = false := by
    cases hawaiting : hs.awaitingKeyframe with
    | true => simp [hkey hawaiting]
    | false => rfl
  have hglobal' : (bs.setStream hs.budget
      ((bs.stream hs.budget).charge f.byteLen)).global = bs.global := rfl
  unfold store Budget.acquire
  dsimp only
  rw [hexpected, if_neg (by simp), if_neg (by simp [hstream])]
  dsimp only
  rw [hglobal', if_neg (by simp [hglobal])]
  rfl

end StreamHistory

end KeepPeek.Storage
