import KeepPeek.Lib.Run
import KeepPeek.Storage.Eviction
import Mathlib.Data.Multiset.Filter

/-! The budgets of the pre-record history are exact: every counter is the sum over
the reservations charged to it that are still alive, wherever they are held. -/
namespace KeepPeek.Storage

open Lib Std

theorem Usize.wrappingAdd_of_lt {left right : Nat} (h : left + right < usizeEnd) :
    Usize.wrappingAdd left right = left + right :=
  if_pos h

theorem Usize.wrappingSub_of_le {left right : Nat} (h : right ≤ left) :
    Usize.wrappingSub left right = left - right :=
  if_pos h

def reservedBytes (held : Multiset BufferedFrame) : Nat :=
  (held.map fun frame => frame.reservation.bytes).sum

@[simp] theorem reservedBytes_cons (f : BufferedFrame) (held : Multiset BufferedFrame) :
    reservedBytes (f ::ₘ held) = f.reservation.bytes + reservedBytes held := by
  simp [reservedBytes]

/-- The counters of a budget are what the live reservations add up to. -/
structure Budget.Exact (budget : Budget) (held : Multiset BufferedFrame) : Prop where
  bytes : budget.bytes = reservedBytes held
  frames : budget.frames = held.card
  bytes_le : budget.bytes ≤ budget.maxBytes
  frames_le : budget.frames ≤ budget.maxFrames
  bytes_lt : budget.bytes < usizeEnd
  maxFrames_lt : budget.maxFrames < usizeEnd
  underflowed : budget.underflowed = false

namespace Budget.Exact

variable {budget : Budget} {held : Multiset BufferedFrame}

theorem new {maxBytes maxFrames : Nat} (h : maxFrames < usizeEnd) :
    (Budget.new maxBytes maxFrames).Exact 0 :=
  ⟨rfl, rfl, Nat.zero_le _, Nat.zero_le _, show 0 < usizeEnd by decide, h, rfl⟩

theorem release {f : BufferedFrame} (h : budget.Exact (f ::ₘ held)) :
    (budget.release f.reservation.bytes).Exact held := by
  have hbytes := h.bytes
  have hframes := h.frames
  rw [reservedBytes_cons] at hbytes
  rw [Multiset.card_cons] at hframes
  have hle : f.reservation.bytes ≤ budget.bytes := by omega
  have hone : 1 ≤ budget.frames := by omega
  have hfewer := h.bytes_le
  have hfewer' := h.frames_le
  have hbound := h.bytes_lt
  constructor <;>
    simp only [Budget.release, Usize.wrappingSub_of_le hle, Usize.wrappingSub_of_le hone]
  · omega
  · omega
  · omega
  · omega
  · omega
  · exact h.maxFrames_lt
  · simp [h.underflowed, Nat.not_lt.mpr hle, Nat.not_lt.mpr hone]

theorem charge {f : BufferedFrame} (h : budget.Exact held)
    (hfits : budget.fits f.reservation.bytes = true) :
    (budget.charge f.reservation.bytes).Exact (f ::ₘ held) := by
  simp only [Budget.fits, Bool.and_eq_true, decide_eq_true_eq] at hfits
  obtain ⟨⟨hlt, hle⟩, hroom⟩ := hfits
  have hmax := h.maxFrames_lt
  have hbytes := h.bytes
  have hframes := h.frames
  constructor <;>
    simp only [Budget.charge, Usize.wrappingAdd_of_lt hlt,
      Usize.wrappingAdd_of_lt (show budget.frames + 1 < usizeEnd by omega)]
  · rw [reservedBytes_cons]
    omega
  · rw [Multiset.card_cons]
    omega
  · exact hle
  · exact hroom
  · exact hlt
  · exact hmax
  · exact h.underflowed

/-- The rollback of a charge that the other budget refused. -/
theorem charge_release {bytes : Nat} (h : budget.Exact held) (hfits : budget.fits bytes = true) :
    (budget.charge bytes).release bytes = budget := by
  simp only [Budget.fits, Bool.and_eq_true, decide_eq_true_eq] at hfits
  obtain ⟨⟨hlt, -⟩, hroom⟩ := hfits
  have hmax := h.maxFrames_lt
  have hone : budget.frames + 1 < usizeEnd := by omega
  have hsome : ¬ budget.bytes + bytes < bytes := by omega
  simp [Budget.release, Budget.charge, Usize.wrappingAdd_of_lt hlt, Usize.wrappingAdd_of_lt hone,
    Usize.wrappingSub_of_le (Nat.le_add_left bytes budget.bytes),
    Usize.wrappingSub_of_le (Nat.le_add_left 1 budget.frames), hsome]

theorem fits_mono {after : Budget} {kept : Multiset BufferedFrame} {bytes : Nat}
    (h : budget.Exact held) (hafter : after.Exact kept) (hle : kept ≤ held)
    (hbytes : after.maxBytes = budget.maxBytes) (hframes : after.maxFrames = budget.maxFrames)
    (hfits : budget.fits bytes = true) : after.fits bytes = true := by
  have hfewer : after.bytes ≤ budget.bytes := by
    rw [h.bytes, hafter.bytes]
    obtain ⟨rest, rfl⟩ := Multiset.le_iff_exists_add.mp hle
    simp [reservedBytes]
  have hfewer' : after.frames ≤ budget.frames := by
    rw [h.frames, hafter.frames]
    exact Multiset.card_le_card hle
  simp only [Budget.fits, Bool.and_eq_true, decide_eq_true_eq, hbytes, hframes] at hfits ⊢
  omega

end Budget.Exact

def chargedTo (streamBudget : Nat) (held : Multiset BufferedFrame) : Multiset BufferedFrame :=
  held.filter fun frame => frame.reservation.streamBudget = streamBudget

theorem chargedTo_cons_self (f : BufferedFrame) (held : Multiset BufferedFrame) :
    chargedTo f.reservation.streamBudget (f ::ₘ held) =
      f ::ₘ chargedTo f.reservation.streamBudget held := by
  simp [chargedTo]

theorem chargedTo_cons_ne {streamBudget : Nat} {f : BufferedFrame}
    (h : f.reservation.streamBudget ≠ streamBudget) (held : Multiset BufferedFrame) :
    chargedTo streamBudget (f ::ₘ held) = chargedTo streamBudget held := by
  simp [chargedTo, h]

/-- All budgets are exact for the live reservations `held`, within the limits the
buffers were made with. -/
structure Budgets.Exact (streamBytes globalBytes : Nat) (budgets : Budgets)
    (held : Multiset BufferedFrame) : Prop where
  global : budgets.global.Exact held
  stream : ∀ id, (budgets.stream id).Exact (chargedTo id held)
  created : ∀ frame ∈ held, frame.reservation.streamBudget < budgets.next
  lengths : ∀ frame ∈ held, frame.reservation.bytes = frame.frame.byteLen
  globalMax : budgets.global.maxBytes = globalBytes ∧ budgets.global.maxFrames = maxGlobalFrames
  streamMax : ∀ id, (budgets.stream id).maxBytes ≤ streamBytes ∧
    (budgets.stream id).maxFrames ≤ maxStreamFrames

namespace Budgets.Exact

variable {sb gb : Nat} {bs : Budgets} {held : Multiset BufferedFrame}

theorem new (sb gb : Nat) :
    (Budgets.new gb).Exact sb gb 0 where
  global := .new (by decide)
  stream _ := .new (by decide)
  created := by simp
  lengths := by simp
  globalMax := ⟨rfl, rfl⟩
  streamMax _ := ⟨Nat.zero_le _, Nat.zero_le _⟩

theorem release {f : BufferedFrame}
    (h : bs.Exact sb gb (f ::ₘ held)) :
    (bs.release f.reservation).Exact sb gb held where
  global := h.global.release
  stream id := by
    have hid := h.stream id
    by_cases heq : f.reservation.streamBudget = id
    · subst heq
      rw [chargedTo_cons_self] at hid
      rw [release_stream_self]
      exact hid.release
    · rw [chargedTo_cons_ne heq] at hid
      rwa [release_stream_ne heq]
  created other hother := h.created other (Multiset.mem_cons_of_mem hother)
  lengths other hother := h.lengths other (Multiset.mem_cons_of_mem hother)
  globalMax := h.globalMax
  streamMax id := by
    by_cases heq : f.reservation.streamBudget = id
    · subst heq
      rw [release_stream_self]
      exact h.streamMax f.reservation.streamBudget
    · rw [release_stream_ne heq]
      exact h.streamMax id

theorem dropFrames {dropped : List BufferedFrame} (h : bs.Exact sb gb (dropped + held)) :
    (bs.dropFrames dropped).Exact sb gb held := by
  induction dropped generalizing bs with
  | nil => simpa using h
  | cons frame dropped ih =>
    rw [← Multiset.cons_coe, Multiset.cons_add] at h
    exact ih h.release

theorem charge {f : BufferedFrame} (h : bs.Exact sb gb held)
    (hstream : (bs.stream f.reservation.streamBudget).fits f.reservation.bytes = true)
    (hglobal : bs.global.fits f.reservation.bytes = true)
    (hcreated : f.reservation.streamBudget < bs.next)
    (hlength : f.reservation.bytes = f.frame.byteLen) :
    (bs.charge f.reservation).Exact sb gb (f ::ₘ held) where
  global := h.global.charge hglobal
  stream id := by
    by_cases heq : f.reservation.streamBudget = id
    · subst heq
      rw [chargedTo_cons_self, charge_stream_self]
      exact (h.stream _).charge hstream
    · rw [chargedTo_cons_ne heq, charge_stream_ne heq]
      exact h.stream id
  created := by
    intro other hother
    rcases Multiset.mem_cons.mp hother with rfl | hmem
    · exact hcreated
    · exact h.created other hmem
  lengths := by
    intro other hother
    rcases Multiset.mem_cons.mp hother with rfl | hmem
    · exact hlength
    · exact h.lengths other hmem
  globalMax := h.globalMax
  streamMax id := by
    by_cases heq : f.reservation.streamBudget = id
    · subst heq
      rw [charge_stream_self]
      exact h.streamMax f.reservation.streamBudget
    · rw [charge_stream_ne heq]
      exact h.streamMax id

theorem create (h : bs.Exact sb gb held) :
    (bs.create sb maxStreamFrames).1.Exact sb gb held where
  global := h.global
  stream id := by
    by_cases heq : id = bs.next
    · subst heq
      have hnone : chargedTo bs.next held = 0 := by
        refine Multiset.filter_eq_nil.mpr fun frame hframe hcharged => ?_
        have := h.created frame hframe
        omega
      rw [hnone, create_stream_self]
      exact .new (by decide)
    · rw [create_stream_ne heq]
      exact h.stream id
  created frame hframe := Nat.lt_succ_of_lt (h.created frame hframe)
  lengths := h.lengths
  globalMax := h.globalMax
  streamMax id := by
    by_cases heq : id = bs.next
    · subst heq
      rw [create_stream_self]
      exact ⟨Nat.le_refl _, Nat.le_refl _⟩
    · rw [create_stream_ne heq]
      exact h.streamMax id

end Budgets.Exact

namespace StreamHistory

variable {before after : StreamHistory}

def held (history : StreamHistory) : Multiset BufferedFrame :=
  history.contents + history.released

/-- What a history does not hold any more was dropped. -/
structure Sheds (dropped : List BufferedFrame) (before after : StreamHistory) : Prop where
  held : before.held = dropped + after.held
  budget : after.budget = before.budget

theorem Sheds.trans {first second : List BufferedFrame} {middle : StreamHistory}
    (hfirst : Sheds first before middle) (hsecond : Sheds second middle after) :
    Sheds (first ++ second) before after :=
  ⟨by rw [hfirst.held, hsecond.held, ← Multiset.coe_add, add_assoc],
    hsecond.budget.trans hfirst.budget⟩

theorem Sheds.of_eq (hgops : after.gops = before.gops)
    (hreleased : after.released = before.released) (hbudget : after.budget = before.budget) :
    Sheds [] before after :=
  ⟨by simp [StreamHistory.held, contents, hgops, hreleased], hbudget⟩

theorem Evicts.sheds {popped : List Gop} (h : Evicts popped before after) :
    Sheds (before.freed popped) before after := by
  refine ⟨?_, h.budget⟩
  unfold StreamHistory.held contents freed
  rw [h.gops, h.released, List.flatMap_append]
  cases before.continuous
  · simp [← Multiset.coe_add, add_assoc]
  · simp only [← Multiset.coe_add, if_true, Multiset.coe_nil, zero_add]
    abel

theorem contents_split_last {hs : StreamHistory} {gop : Gop} (h : hs.gops.getLast? = some gop) :
    hs.contents = hs.gops.dropLast.flatMap Gop.frames ++ gop.frames := by
  obtain ⟨hne, hlast⟩ := List.getLast?_eq_some_iff.mp h
  unfold contents
  rw [hlast]
  simp

theorem Discards.sheds {dropped : List BufferedFrame} (h : Discards dropped before after) :
    Sheds dropped before after := by
  refine ⟨?_, h.budget⟩
  have hgops := h.gops
  have hreleased := h.released
  have hdropped := h.dropped
  unfold StreamHistory.held
  cases hcontinuous : before.continuous with
  | true =>
    simp only [hcontinuous, if_true, Bool.true_or] at hgops hreleased hdropped
    rw [hdropped, hreleased, contents, contents, hgops]
    simp [← Multiset.coe_add, add_comm]
  | false =>
    cases hawaiting : before.awaitingKeyframe with
    | true =>
      simp only [hcontinuous, hawaiting, if_true, Bool.or_true, if_false, Bool.false_eq_true,
        List.append_nil] at hgops hreleased hdropped
      simp [hdropped, hreleased, contents, hgops]
    | false =>
      simp only [hcontinuous, hawaiting, Bool.or_false, if_false, Bool.false_eq_true,
        List.append_nil] at hgops hreleased hdropped
      rw [hreleased, hdropped]
      cases hlast : before.gops.getLast? with
      | none =>
        have hnil := List.getLast?_eq_none_iff.mp hlast
        simp [contents, hgops, hnil]
      | some gop =>
        rw [contents_split_last hlast, contents, hgops]
        simp only [Option.elim_some, ← Multiset.coe_add]
        abel

theorem restart_sheds (bs : Budgets) (hs : StreamHistory) (keyframe : Bool) :
    ∃ dropped, (restart bs hs keyframe).1 = bs.dropFrames dropped ∧
      Sheds dropped hs (restart bs hs keyframe).2 := by
  unfold restart
  split
  · exact ⟨hs.contents, rfl, by simp [StreamHistory.held, contents], rfl⟩
  · exact ⟨[], rfl, .of_eq rfl rfl rfl⟩

theorem admitOrdered_sheds (bs : Budgets) (hs : StreamHistory) (f : RecordingFrame)
    (globalLimit : Nat) :
    ∃ dropped, (admitOrdered bs hs f globalLimit).1 = bs.dropFrames dropped ∧
      Sheds dropped hs (admitOrdered bs hs f globalLimit).2.1 := by
  rcases admitOrdered_cases bs hs f globalLimit with
    ⟨-, -, reason, heq⟩ | ⟨-, reason, dropped, after, heq, hdiscards⟩ |
    ⟨-, start, popped, after, admitted, hstart, heq, hevicts, -, -⟩
  · rw [heq]
    exact ⟨[], rfl, .of_eq rfl rfl rfl⟩
  · rw [heq]
    have hsame : Sheds [] hs
        ((hs.closeBefore f.isVideoKeyframe).withReason reason) := .of_eq rfl rfl rfl
    exact ⟨dropped, rfl, hsame.trans hdiscards.sheds⟩
  · rw [heq]
    have hsame : Sheds [] hs (hs.closeBefore f.isVideoKeyframe) := .of_eq rfl rfl rfl
    obtain ⟨dropped, hbudgets, hrestart⟩ := restart_sheds bs
      (hs.closeBefore f.isVideoKeyframe) f.isVideoKeyframe
    rw [← hstart] at hbudgets hrestart
    refine ⟨dropped ++ start.2.freed popped, ?_, hsame.trans (hrestart.trans hevicts.sheds)⟩
    rw [Budgets.dropFrames_append, ← hbudgets]

theorem admitFrame_sheds (bs : Budgets) (hs : StreamHistory) (f : RecordingFrame)
    (now globalLimit : Nat) :
    ∃ dropped, (admitFrame bs hs f now globalLimit).1 = bs.dropFrames dropped ∧
      Sheds dropped hs (admitFrame bs hs f now globalLimit).2.1 := by
  obtain ⟨popped, middle, hevicts, -, hcases⟩ := admitFrame_cases bs hs f now globalLimit
  rcases hcases with ⟨-, reason, dropped, after, heq, hdiscards⟩ | ⟨-, heq⟩
  · rw [heq]
    have hsame : Sheds [] middle (middle.withReason reason) := .of_eq rfl rfl rfl
    refine ⟨hs.freed popped ++ dropped, (Budgets.dropFrames_append _ _ _).symm, ?_⟩
    exact hevicts.sheds.trans (hsame.trans hdiscards.sheds)
  · rw [heq]
    have hsame : Sheds [] middle (middle.stamped f) := .of_eq rfl rfl rfl
    obtain ⟨dropped, hbudgets, hsheds⟩ := admitOrdered_sheds
      (bs.dropFrames (hs.freed popped)) (middle.stamped f) f globalLimit
    refine ⟨hs.freed popped ++ dropped, ?_, hevicts.sheds.trans (hsame.trans hsheds)⟩
    rw [hbudgets, Budgets.dropFrames_append]

theorem clear_sheds (bs : Budgets) (hs : StreamHistory) :
    ∃ dropped, (clear bs hs).1 = bs.dropFrames dropped ∧ Sheds dropped hs (clear bs hs).2 :=
  ⟨hs.contents ++ hs.released, rfl,
    by simp [StreamHistory.held, clear, contents, ← Multiset.coe_add], rfl⟩

/-- The history takes the frame over, or drops it when it has no group to put it in. -/
theorem retain_sheds (bs : Budgets) (hs : StreamHistory) (f : BufferedFrame) :
    ∃ dropped, (retain bs hs f).1 = bs.dropFrames dropped ∧ f ::ₘ hs.held =
      dropped + (retain bs hs f).2.held ∧ (retain bs hs f).2.budget = hs.budget := by
  unfold retain
  split
  · refine ⟨[], rfl, ?_, rfl⟩
    simp [StreamHistory.held, contents, ← Multiset.coe_add, ← Multiset.singleton_add]
    abel
  · cases hlast : hs.gops.getLast? with
    | none =>
      refine ⟨[f], rfl, ?_, rfl⟩
      simp [← Multiset.singleton_add]
    | some gop =>
      refine ⟨[], rfl, ?_, rfl⟩
      unfold StreamHistory.held
      rw [contents_split_last hlast]
      simp [contents, ← Multiset.coe_add, ← Multiset.singleton_add]
      abel

end StreamHistory

end KeepPeek.Storage
