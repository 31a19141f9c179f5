import KeepPeek.Storage.Accounts

/-! Operations over all registered streams: what they do to the history of one
stream, and that the reservations they let go are given back. Room in the global
budget is made by evicting the oldest groups, whichever stream they belong to. -/
namespace KeepPeek.Storage

open Lib Std

namespace PreRecordBuffers

variable {before after b : PreRecordBuffers} {key : StreamKey} {hs : StreamHistory}

def held (buffers : PreRecordBuffers) : Multiset BufferedFrame :=
  total (fun _ history => history.held) buffers.streams

/-- The reservations `dropped` were given back, and no stream changed its budget. -/
structure Drops (dropped : List BufferedFrame) (before after : PreRecordBuffers) : Prop where
  budgets : after.budgets = before.budgets.dropFrames dropped
  held : before.held = dropped + after.held
  streamBytes : after.streamBytes = before.streamBytes
  budget : ∀ (key : StreamKey) (history : StreamHistory), after.streams[key]? = some history →
    ∃ old : StreamHistory, before.streams[key]? = some old ∧ history.budget = old.budget

theorem Drops.refl (b : PreRecordBuffers) : Drops [] b b :=
  ⟨rfl, by simp, rfl, fun _ hs h => ⟨hs, h, rfl⟩⟩

theorem Drops.trans {first second : List BufferedFrame} {middle : PreRecordBuffers}
    (hfirst : Drops first before middle) (hsecond : Drops second middle after) :
    Drops (first ++ second) before after where
  budgets := by rw [hsecond.budgets, hfirst.budgets, Budgets.dropFrames_append]
  held := by rw [hfirst.held, hsecond.held, ← Multiset.coe_add, add_assoc]
  streamBytes := hsecond.streamBytes.trans hfirst.streamBytes
  budget key hs h := by
    obtain ⟨middle, hmiddle, heq⟩ := hsecond.budget key hs h
    obtain ⟨old, hold, heq'⟩ := hfirst.budget key middle hmiddle
    exact ⟨old, hold, heq.trans heq'⟩

theorem drops_insert {after : StreamHistory} {dropped : List BufferedFrame}
    (hkey : b.streams[key]? = some hs) (hsheds : hs.Sheds dropped after) :
    Drops dropped b { b with
        budgets := b.budgets.dropFrames dropped
        streams := b.streams.insert key after } where
  budgets := rfl
  held := by
    unfold held
    rw [total_eq_add_erase _ hkey, total_insert, hsheds.held, add_assoc]
  streamBytes := rfl
  budget other found hfound := by
    rw [ExtTreeMap.getElem?_insert] at hfound
    split at hfound
    next heq =>
      cases Option.some.inj hfound
      rw [← LawfulEqCmp.eq_of_compare heq]
      exact ⟨hs, hkey, hsheds.budget⟩
    next => exact ⟨found, hfound, rfl⟩

theorem updateStream_none (hkey : b.streams[key]? = none)
    (update : Budgets → StreamHistory → Budgets × StreamHistory) :
    b.updateStream key update = b := by
  simp [updateStream, hkey]

theorem updateStream_some (hkey : b.streams[key]? = some hs)
    (update : Budgets → StreamHistory → Budgets × StreamHistory) :
    b.updateStream key update = { b with
        budgets := (update b.budgets hs).1
        streams := b.streams.insert key (update b.budgets hs).2 } := by
  simp [updateStream, hkey]

/-- An update that gives back what it drops, on whatever budgets it runs. -/
def Thrifty (update : Budgets → StreamHistory → Budgets × StreamHistory) : Prop :=
  ∀ budgets history, ∃ dropped, (update budgets history).1 = budgets.dropFrames dropped ∧
    history.Sheds dropped (update budgets history).2

theorem updateStream_drops {update : Budgets → StreamHistory → Budgets × StreamHistory}
    (h : Thrifty update) (b : PreRecordBuffers) (key : StreamKey) :
    ∃ dropped, Drops dropped b (b.updateStream key update) := by
  cases hkey : b.streams[key]? with
  | none =>
    rw [updateStream_none hkey]
    exact ⟨[], .refl _⟩
  | some hs =>
    obtain ⟨dropped, hbudgets, hsheds⟩ := h b.budgets hs
    rw [updateStream_some hkey, hbudgets]
    exact ⟨dropped, drops_insert hkey hsheds⟩

theorem foldl_drops {α : Type*} {step : PreRecordBuffers → α → PreRecordBuffers}
    (hstep : ∀ b input, ∃ dropped, Drops dropped b (step b input))
    (b : PreRecordBuffers) (inputs : List α) :
    ∃ dropped, Drops dropped b (inputs.foldl step b) := by
  refine @foldl_invariant _ _ step (fun state => ∃ dropped, Drops dropped b state)
    (fun state input hstate => ?_) _ ⟨[], .refl _⟩ inputs
  obtain ⟨first, hfirst⟩ := hstate
  obtain ⟨second, hsecond⟩ := hstep state input
  exact ⟨first ++ second, hfirst.trans hsecond⟩

theorem updateStreams_drops {update : Budgets → StreamHistory → Budgets × StreamHistory}
    (h : Thrifty update) (b : PreRecordBuffers) (selected : StreamKey → Bool) :
    ∃ dropped, Drops dropped b (b.updateStreams selected update) :=
  foldl_drops (fun b key => updateStream_drops h b key) _ _

theorem updateStream_getElem? (b : PreRecordBuffers) (key other : StreamKey)
    (update : Budgets → StreamHistory → Budgets × StreamHistory) :
    (b.updateStream key update).streams[other]? =
      if key = other then b.streams[key]?.map fun hs =>
        (update b.budgets hs).2
      else b.streams[other]? := by
  cases hkey : b.streams[key]? with
  | none =>
    rw [updateStream_none hkey]
    split
    next heq => rw [← heq, hkey]; rfl
    next => rfl
  | some hs =>
    rw [updateStream_some hkey, ExtTreeMap.getElem?_insert]
    by_cases heq : key = other
    · subst heq
      simp
    · rw [if_neg heq, if_neg (fun hcompare => heq (LawfulEqCmp.eq_of_compare hcompare))]

instance : TransCmp compareStamps :=
  inferInstanceAs (TransCmp (compareLex (compareOn Prod.fst) (compareOn Prod.snd)))

theorem stampBefore_trans {first second third : Nat × StreamKey}
    (h : stampBefore first second = true) (h' : stampBefore second third = true) :
    stampBefore first third = true := by
  unfold stampBefore at *
  rw [Ordering.isLT_iff_eq_lt] at *
  exact TransCmp.lt_trans h h'

theorem stampBefore_irrefl (stamp : Nat × StreamKey) : stampBefore stamp stamp = false := by
  have hself : compareStamps stamp stamp = .eq := ReflCmp.compare_self
  rw [stampBefore, hself]
  rfl

theorem stampBefore_of_not_before {first second third : Nat × StreamKey}
    (h : stampBefore first second = true) (h' : stampBefore third second = false) :
    stampBefore first third = true := by
  unfold stampBefore at *
  have hle : (compareStamps second third).isLE = true := by
    rw [@OrientedCmp.eq_swap _ compareStamps]
    cases hcompare : compareStamps third second <;> simp_all
  rw [Ordering.isLT_iff_eq_lt] at h ⊢
  exact TransCmp.lt_of_lt_of_isLE h hle

theorem minStamp_eq_none {stamps : List (Nat × StreamKey)} (h : minStamp stamps = none) :
    stamps = [] := by
  cases stamps with
  | nil => rfl
  | cons stamp stamps =>
    unfold minStamp at h
    cases hrest : minStamp stamps with
    | none => simp [hrest] at h
    | some best => cases hbefore : stampBefore best stamp <;> simp [hrest, hbefore] at h

theorem minStamp_spec {stamps : List (Nat × StreamKey)} {best : Nat × StreamKey}
    (h : minStamp stamps = some best) :
    best ∈ stamps ∧ ∀ stamp ∈ stamps, stampBefore stamp best = false := by
  induction stamps generalizing best with
  | nil => simp [minStamp] at h
  | cons stamp stamps ih =>
    unfold minStamp at h
    cases hrest : minStamp stamps with
    | none =>
      rw [hrest] at h
      cases Option.some.inj h
      rw [minStamp_eq_none hrest]
      exact ⟨by simp, by simp [stampBefore_irrefl]⟩
    | some other =>
      obtain ⟨hmem, hmin⟩ := ih hrest
      cases hbefore : stampBefore other stamp with
      | true =>
        simp only [hrest, hbefore, if_true] at h
        cases Option.some.inj h
        refine ⟨List.mem_cons_of_mem _ hmem, fun candidate hcandidate => ?_⟩
        rcases List.mem_cons.mp hcandidate with rfl | hlater
        · by_contra hcontra
          have hcycle := stampBefore_trans hbefore (by simpa using hcontra)
          rw [stampBefore_irrefl] at hcycle
          contradiction
        · exact hmin candidate hlater
      | false =>
        simp only [hrest, hbefore, Bool.false_eq_true, if_false] at h
        cases Option.some.inj h
        refine ⟨by simp, fun candidate hcandidate => ?_⟩
        rcases List.mem_cons.mp hcandidate with rfl | hlater
        · exact stampBefore_irrefl _
        by_contra hcontra
        have hearlier := stampBefore_of_not_before (by simpa using hcontra) hbefore
        rw [hmin candidate hlater] at hearlier
        contradiction

theorem mem_oldestGops {stamp : Nat × StreamKey} :
    stamp ∈ b.oldestGops ↔ ∃ hs, b.streams[stamp.2]? = some hs ∧ ∃ gop gops, hs.gops = gop :: gops ∧
      gop.start = stamp.1 := by
  simp only [oldestGops, List.mem_filterMap, Option.map_eq_some_iff, Prod.exists]
  constructor
  · rintro ⟨key, hs, hmem, gop, hgop, rfl⟩
    obtain ⟨gops, hgops⟩ := List.head?_eq_some_iff.mp hgop
    exact ⟨hs, ExtTreeMap.mem_toList_iff_getElem?_eq_some.mp hmem, gop, gops, hgops, rfl⟩
  · rintro ⟨hs, hkey, gop, gops, hgops, hstart⟩
    exact ⟨stamp.2, hs, ExtTreeMap.mem_toList_iff_getElem?_eq_some.mpr hkey, gop,
      by simp [hgops], by simp [hstart]⟩

/-- Every stream moved by evictions only. -/
def EvictsAll (before after : PreRecordBuffers) : Prop :=
  ∀ key : StreamKey, Option.Rel (fun old new => ∃ popped, StreamHistory.Evicts popped old new)
    before.streams[key]? after.streams[key]?

theorem EvictsAll.refl (b : PreRecordBuffers) : EvictsAll b b := by
  intro key
  cases b.streams[key]? with
  | none => exact .none
  | some hs => exact .some ⟨[], .refl hs⟩

theorem EvictsAll.trans {middle : PreRecordBuffers} (hfirst : EvictsAll before middle)
    (hsecond : EvictsAll middle after) : EvictsAll before after := by
  refine fun key => optionRel_trans ?_ (hfirst key) (hsecond key)
  rintro old between new ⟨first, hpop⟩ ⟨second, hpop'⟩
  exact ⟨first ++ second, hpop.trans hpop'⟩

theorem EvictsAll.of_some (h : EvictsAll before after) {old : StreamHistory}
    (hold : before.streams[key]? = some old) :
    ∃ new popped, after.streams[key]? = some new ∧ StreamHistory.Evicts popped old new := by
  obtain ⟨new, hnew, popped, hpop⟩ := optionRel_some (h key) hold
  exact ⟨new, popped, hnew, hpop⟩

theorem evictStream_spec {oldest : StreamKey} {gop : Gop} {gops : List Gop}
    (hkey : b.streams[oldest]? = some hs) (hgops : hs.gops = gop :: gops) :
    ∃ after, b.updateStream oldest (fun budgets hs =>
        let (budgets, hs, _) :=
          StreamHistory.evictOldest budgets (hs.withReason .globalPressure)
        (budgets, hs)) = after ∧
      EvictsAll b after ∧ (∃ dropped, Drops dropped b after) ∧
      total (fun _ hs => hs.gops.length) after.streams + 1 =
        total (fun _ hs => hs.gops.length) b.streams := by
  have hreason := StreamHistory.Evicts.reason hs .globalPressure
  obtain ⟨evicted, hevict, hpop, hrest⟩ := StreamHistory.evictOldest_cons
    (show (hs.withReason .globalPressure).gops = gop :: gops from hgops) b.budgets
  have hall := hreason.trans hpop
  refine ⟨_, rfl, ?_, ?_, ?_⟩
  · rw [updateStream_some hkey, hevict]
    intro key
    dsimp only
    rw [ExtTreeMap.getElem?_insert]
    split
    next heq =>
      rw [← LawfulEqCmp.eq_of_compare heq, hkey]
      exact .some ⟨_, hall⟩
    next => exact EvictsAll.refl b key
  · rw [updateStream_some hkey, hevict]
    exact ⟨_, drops_insert hkey hall.sheds⟩
  · rw [updateStream_some hkey, hevict, total_insert, total_eq_add_erase _ hkey, hgops, hrest,
      List.length_cons]
    omega

theorem makeGlobalRoomLoop_moves (key : StreamKey) (f : RecordingFrame) (fuel : Nat)
    (b : PreRecordBuffers) :
    EvictsAll b (makeGlobalRoomLoop key f fuel b).1 ∧
      (∃ dropped, Drops dropped b (makeGlobalRoomLoop key f fuel b).1) ∧
      ((makeGlobalRoomLoop key f fuel b).2 = true →
        (makeGlobalRoomLoop key f fuel b).1.budgets.global.fits f.byteLen = true) := by
  induction fuel generalizing b with
  | zero => exact ⟨.refl _, ⟨[], .refl _⟩, by simp [makeGlobalRoomLoop]⟩
  | succ fuel ih =>
    have hstay : EvictsAll b b ∧ (∃ dropped, Drops dropped b b) ∧
        (false = true → b.budgets.global.fits f.byteLen = true) :=
      ⟨.refl _, ⟨[], .refl _⟩, by simp⟩
    unfold makeGlobalRoomLoop
    dsimp only
    split
    next hfits => exact ⟨.refl _, ⟨[], .refl _⟩, fun _ => hfits⟩
    next =>
      cases holdest : b.oldestGop with
      | none => exact hstay
      | some stamp =>
        obtain ⟨candidate, hcandidate, gop, gops, hgops, -⟩ :=
          mem_oldestGops.mp (minStamp_spec holdest).1
        dsimp only
        split
        next => exact hstay
        next =>
          obtain ⟨middle, hmiddle, hevicts, hdrops, -⟩ := evictStream_spec hcandidate hgops
          rw [hmiddle]
          split
          next => exact ⟨hevicts, hdrops, by simp⟩
          next =>
            obtain ⟨hmore, ⟨second, hsecond⟩, hroom⟩ := ih middle
            obtain ⟨first, hfirst⟩ := hdrops
            exact ⟨hevicts.trans hmore, ⟨first ++ second, hfirst.trans hsecond⟩, hroom⟩

private theorem empty_of_awaiting {before after : StreamHistory} {popped : List Gop}
    (h : StreamHistory.Evicts popped before after)
    (hopen : before.awaitingKeyframe = true → before.gops = [])
    (hawaiting : after.awaitingKeyframe = true) : after.gops = [] := by
  rcases h.awaiting with hsame | hempty
  · have hgone := h.gops
    rw [hopen (by rw [← hsame]; exact hawaiting)] at hgone
    exact (List.append_eq_nil_iff.mp hgone.symm).2
  · exact hempty.2

/-- When no room can be made for a frame, its own stream has no group left. Until
then it would be a candidate itself: its groups start before the frame. -/
theorem makeGlobalRoomLoop_refused {f : RecordingFrame} {fuel : Nat} {own : StreamHistory}
    (hfuel : total (fun _ hs => hs.gops.length) b.streams < fuel)
    (hkey : b.streams[key]? = some hs)
    (hstart : ∀ gop ∈ hs.gops, gop.start ≤ f.receivedAt)
    (hopen : f.isVideoKeyframe = false → hs.awaitingKeyframe = true → hs.gops = [])
    (hroom : (makeGlobalRoomLoop key f fuel b).2 = false)
    (hown : (makeGlobalRoomLoop key f fuel b).1.streams[key]? = some own) :
    own.gops = [] := by
  induction fuel generalizing b hs with
  | zero => omega
  | succ fuel ih =>
    unfold makeGlobalRoomLoop at hroom hown
    dsimp only at hroom hown
    split at hroom
    next => contradiction
    next hfull =>
      rw [if_neg hfull] at hown
      cases holdest : b.oldestGop with
      | none =>
        rw [holdest] at hown
        cases hgops : own.gops with
        | nil => rfl
        | cons gop gops =>
          have hmem : (gop.start, key) ∈ b.oldestGops :=
            mem_oldestGops.mpr ⟨own, hown, gop, gops, hgops, rfl⟩
          rw [minStamp_eq_none holdest] at hmem
          contradiction
      | some stamp =>
        obtain ⟨start, oldest⟩ := stamp
        obtain ⟨hmem, hmin⟩ := minStamp_spec holdest
        obtain ⟨candidate, hcandidate, gop, gops, hgops, -⟩ := mem_oldestGops.mp hmem
        rw [holdest] at hroom hown
        dsimp only at hroom hown
        split at hroom
        next hyounger =>
          obtain ⟨-, hbefore⟩ := Bool.and_eq_true_iff.mp hyounger
          rw [if_pos hyounger, hkey] at hown
          rw [← Option.some.inj hown]
          cases hfront : hs.gops with
          | nil => rfl
          | cons front rest =>
            have hcontra := hmin (front.start, key)
              (mem_oldestGops.mpr ⟨hs, hkey, front, rest, hfront, rfl⟩)
            rcases Nat.lt_or_eq_of_le (hstart front (by simp [hfront])) with hlt | heq
            · have hfirst : stampBefore (front.start, key) (f.receivedAt, key) = true := by
                simp [stampBefore, compareStamps, compareLex, compareOn, Nat.compare_eq_lt.mpr hlt]
              rw [stampBefore_trans hfirst hbefore] at hcontra
              contradiction
            · rw [heq, hbefore] at hcontra
              contradiction
        next holder =>
          obtain ⟨middle, hmiddle, hevicts, -, hfewer⟩ := evictStream_spec hcandidate hgops
          obtain ⟨moved, popped, hmoved, hpop⟩ := hevicts.of_some hkey
          rw [if_neg holder] at hown
          rw [hmiddle] at hroom hown
          split at hroom
          next hlost =>
            rw [if_pos hlost, hmoved] at hown
            cases Option.some.inj hown
            obtain ⟨hdelta, hawaiting⟩ := Bool.and_eq_true_iff.mp hlost
            rw [hmoved] at hawaiting
            exact empty_of_awaiting hpop (hopen (by simpa using hdelta)) (by simpa using hawaiting)
          next hkept =>
            rw [if_neg hkept] at hown
            refine ih (by omega) hmoved ?_ ?_ hroom hown
            · intro gop hgop
              exact hstart gop (by rw [hpop.gops]; exact List.mem_append_right _ hgop)
            · exact fun hdelta hawaiting => empty_of_awaiting hpop (hopen hdelta) hawaiting

theorem makeGlobalRoom_moves (b : PreRecordBuffers) (key : StreamKey) (f : RecordingFrame) :
    EvictsAll b (b.makeGlobalRoom key f).1 ∧
      (∃ dropped, Drops dropped b (b.makeGlobalRoom key f).1) ∧
      ((b.makeGlobalRoom key f).2 = true →
      (b.makeGlobalRoom key f).1.budgets.global.fits f.byteLen = true) :=
  makeGlobalRoomLoop_moves key f _ b

theorem makeGlobalRoom_refused {f : RecordingFrame} {own : StreamHistory}
    (hkey : b.streams[key]? = some hs)
    (hstart : ∀ gop ∈ hs.gops, gop.start ≤ f.receivedAt)
    (hopen : f.isVideoKeyframe = false → hs.awaitingKeyframe = true → hs.gops = [])
    (hroom : (b.makeGlobalRoom key f).2 = false)
    (hown : (b.makeGlobalRoom key f).1.streams[key]? = some own) : own.gops = [] :=
  makeGlobalRoomLoop_refused (Nat.lt_succ_self _) hkey hstart hopen hroom hown

end PreRecordBuffers

end KeepPeek.Storage
