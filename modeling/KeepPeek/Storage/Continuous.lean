import KeepPeek.Storage.Decodable

/-! What a push leaves of the history it goes to. Groups that leave a continuous
history are released, so no frame of such a history is lost; another history may
lose groups, but is then empty or marked discontinuous. -/
namespace KeepPeek.Storage

namespace StreamHistory

/-- The oldest frames `dropped` have left the history, released if it is continuous. -/
structure Shifts (dropped : List BufferedFrame) (before after : StreamHistory) : Prop where
  contents : before.contents = dropped ++ after.contents
  released : after.released = before.released ++ if before.continuous then dropped else []
  continuous : after.continuous = before.continuous

/-- Only a history that is not continuous keeps groups across a discarded one. -/
def Tame (history : StreamHistory) : Prop :=
  history.continuous = true → history.discontinuous = true → history.gops = []

variable {before middle after hs own : StreamHistory} {first second dropped : List BufferedFrame}
  {popped : List Gop} {f : RecordingFrame} {log : List Offer} {bs : Budgets}
  {now globalLimit : Nat}

theorem Shifts.of_eq (hgops : after.gops = before.gops)
    (hreleased : after.released = before.released)
    (hcontinuous : after.continuous = before.continuous) : Shifts [] before after :=
  ⟨by simp [StreamHistory.contents, hgops], by simp [hreleased], hcontinuous⟩

theorem Shifts.trans (hfirst : Shifts first before middle) (hsecond : Shifts second middle after) :
    Shifts (first ++ second) before after where
  contents := by rw [hfirst.contents, hsecond.contents, List.append_assoc]
  released := by
    rw [hsecond.released, hfirst.released, hfirst.continuous]
    cases before.continuous <;> simp
  continuous := hsecond.continuous.trans hfirst.continuous

theorem Evicts.shifts (h : Evicts popped before after) :
    Shifts (popped.flatMap Gop.frames) before after :=
  ⟨h.contents_eq, h.released, h.continuous⟩

theorem Evicts.tame (h : Evicts popped before after) (htame : before.Tame) : after.Tame := by
  intro hcontinuous hdiscontinuous
  rw [h.continuous] at hcontinuous
  rw [h.discontinuous] at hdiscontinuous
  have hgops := h.gops
  rw [htame hcontinuous hdiscontinuous] at hgops
  exact (List.append_eq_nil_iff.mp hgops.symm).2

theorem Discards.shifts (h : Discards dropped before after)
    (hcontinuous : before.continuous = true) :
    Shifts before.contents before after ∧ after.gops = [] := by
  have hgops : after.gops = [] := by simp [h.gops, hcontinuous]
  refine ⟨⟨?_, ?_, h.continuous⟩, hgops⟩
  · simp [contents_eq_nil hgops]
  · rw [h.released, hcontinuous]

theorem restart_shifts (bs : Budgets) (htame : before.Tame) (keyframe : Bool) :
    ∃ dropped, Shifts dropped before (restart bs before keyframe).2 ∧
      (keyframe = true → before.discontinuous = true →
        (restart bs before keyframe).2.gops = []) := by
  unfold restart
  split
  next hrestart =>
    obtain ⟨-, hdiscontinuous⟩ := Bool.and_eq_true_iff.mp hrestart
    refine ⟨before.contents, ⟨?_, ?_, rfl⟩, fun _ _ => rfl⟩
    · simp [contents]
    · cases hcontinuous : before.continuous with
      | false => simp
      | true => simp [contents_eq_nil (htame hcontinuous hdiscontinuous)]
  next hcontinue =>
    refine ⟨[], .of_eq rfl rfl rfl, fun hkey hdiscontinuous => ?_⟩
    simp [hkey, hdiscontinuous] at hcontinue

theorem retain_fields (bs : Budgets) (hs : StreamHistory) (buffered : BufferedFrame) :
    (retain bs hs buffered).2.released = hs.released ∧ (retain bs hs buffered).2.continuous =
      hs.continuous ∧ (retain bs hs buffered).2.discontinuous = hs.discontinuous := by
  unfold retain
  split
  · exact ⟨rfl, rfl, rfl⟩
  · split <;> exact ⟨rfl, rfl, rfl⟩

structure Refuses (before after : StreamHistory) : Prop where
  continuous : after.continuous = before.continuous
  empty_or_marked : after.gops = [] ∨ after.discontinuous = true
  released : before.continuous = false → after.released = before.released
  spilled : before.continuous = true →
    after.gops = [] ∧ after.released = before.released ++ before.contents
  shrinks : before.contents = [] → after.contents = []

theorem Refuses.of_shifts (h : Shifts dropped before after) (hnil : after.gops = []) :
    Refuses before after where
  continuous := h.continuous
  empty_or_marked := .inl hnil
  released hlossy := by simp [h.released, hlossy]
  spilled hcontinuous := by
    have hcontents := h.contents
    rw [contents_eq_nil hnil, List.append_nil] at hcontents
    exact ⟨hnil, by simp [h.released, hcontinuous, hcontents]⟩
  shrinks _ := contents_eq_nil hnil

theorem Refuses.of_discards (hbefore : Shifts first before middle)
    (h : Discards dropped middle after) : Refuses before after := by
  refine ⟨h.continuous.trans hbefore.continuous, .inr h.discontinuous, ?_, ?_, ?_⟩
  · intro hlossy
    rw [h.released, hbefore.continuous, hlossy, hbefore.released, hlossy]
    simp
  · intro hcontinuous
    obtain ⟨hshifts, hnil⟩ := h.shifts (hbefore.continuous.trans hcontinuous)
    exact (Refuses.of_shifts (hbefore.trans hshifts) hnil).spilled hcontinuous
  · intro hnil
    have hmiddle := hbefore.contents
    rw [hnil] at hmiddle
    obtain ⟨lost, hlost⟩ := h.gops_older
    have hcontents : middle.contents = after.contents ++ lost.flatMap Gop.frames := by
      unfold contents
      rw [← hlost, List.flatMap_append]
    rw [(List.append_eq_nil_iff.mp hmiddle.symm).2] at hcontents
    exact (List.append_eq_nil_iff.mp hcontents.symm).1

theorem admitOrdered_outcome (h : before.Coherent log) (htame : before.Tame) (bs : Budgets)
    (f : RecordingFrame) (globalLimit : Nat) {budgets' : Budgets} {admitted : Bool}
    (heq : admitOrdered bs before f globalLimit = (budgets', after, admitted)) :
    (admitted = false → Refuses before after) ∧
      (admitted = true → ∃ dropped, Shifts dropped before after ∧
        (before.discontinuous = true → after.gops = [])) := by
  rcases admitOrdered_cases bs before f globalLimit with
    ⟨hawaiting, -, reason, hcase⟩ | ⟨-, reason, dropped, after', hcase, hdiscards⟩ |
    ⟨hexpected, start, popped, after', admitted', hstart, hcase, hevicts, -, hrefused⟩
  · rw [hcase] at heq
    cases heq
    refine ⟨fun _ => ?_, by simp⟩
    -- Nothing is stored while a keyframe is awaited, unless the history is marked.
    by_cases hnil : before.gops = []
    · exact .of_shifts (Shifts.of_eq rfl rfl rfl) hnil
    · have hmarked := h.stale hnil hawaiting
      refine ⟨rfl, .inr hmarked, fun _ => rfl, fun hcontinuous => ?_, fun hempty => hempty⟩
      exact absurd (htame hcontinuous hmarked) hnil
  · rw [hcase] at heq
    cases heq
    have hclosed : Shifts [] before
        ((before.closeBefore f.isVideoKeyframe).withReason reason) := .of_eq rfl rfl rfl
    exact ⟨fun _ => .of_discards hclosed hdiscards, by simp⟩
  · rw [hcase] at heq
    cases heq
    have hclosed : Shifts [] before (before.closeBefore f.isVideoKeyframe) :=
      .of_eq rfl rfl rfl
    obtain ⟨dropped, hrestart, hfresh⟩ :=
      @restart_shifts (before.closeBefore f.isVideoKeyframe) bs htame f.isVideoKeyframe
    rw [← hstart] at hrestart hfresh
    have hall := (hclosed.trans hrestart).trans hevicts.shifts
    refine ⟨fun hno => .of_shifts hall (hrefused hno).1, fun _ => ⟨_, hall, ?_⟩⟩
    intro hmarked
    have hgops := hevicts.gops
    rw [hfresh (hexpected (h.closed hmarked)) hmarked] at hgops
    exact (List.append_eq_nil_iff.mp hgops.symm).2

theorem admitFrame_outcome (h : before.Coherent log) (htame : before.Tame) {budgets' : Budgets}
    {admitted : Bool}
    (heq : admitFrame bs before f now globalLimit = (budgets', after, admitted)) :
    (admitted = false → Refuses before after) ∧
      (admitted = true → ∃ dropped, Shifts dropped before after ∧
        (before.discontinuous = true → after.gops = [])) := by
  obtain ⟨popped, middle, hevicts, -, hcases⟩ :=
    admitFrame_cases bs before f now globalLimit
  rcases hcases with ⟨-, reason, dropped, after', hcase, hdiscards⟩ | ⟨horder, hcase⟩
  · rw [hcase] at heq
    cases heq
    have hreason : Shifts [] middle (middle.withReason reason) := .of_eq rfl rfl rfl
    exact ⟨fun _ => .of_discards (hevicts.shifts.trans hreason) hdiscards, by simp⟩
  · rw [hcase] at heq
    have hstamped : Shifts [] middle (middle.stamped f) := .of_eq rfl rfl rfl
    have hbefore := hevicts.shifts.trans hstamped
    obtain ⟨hrefused, hadmitted⟩ := admitOrdered_outcome
      ((h.evicts hevicts).stamped horder) (hevicts.tame htame) _ f globalLimit heq
    refine ⟨fun hno => ?_, fun hyes => ?_⟩
    · have hmiddle := hrefused hno
      refine ⟨hmiddle.continuous.trans hbefore.continuous, hmiddle.empty_or_marked, ?_, ?_, ?_⟩
      · intro hlossy
        rw [hmiddle.released (hbefore.continuous.trans hlossy), hbefore.released, hlossy]
        simp
      · intro hcontinuous
        obtain ⟨hnil, hreleased⟩ := hmiddle.spilled (hbefore.continuous.trans hcontinuous)
        refine ⟨hnil, ?_⟩
        rw [hreleased, hbefore.released, hbefore.contents, hcontinuous]
        simp
      · intro hnil
        have hcontents := hbefore.contents
        rw [hnil] at hcontents
        exact hmiddle.shrinks (List.append_eq_nil_iff.mp hcontents.symm).2
    · obtain ⟨dropped, hshifts, hfresh⟩ := hadmitted hyes
      refine ⟨_, hbefore.trans hshifts, fun hmarked => hfresh ?_⟩
      exact hevicts.discontinuous.trans hmarked

theorem Pushes.refuses (h : Pushes bs hs f now globalLimit own false)
    (hcoherent : hs.Coherent log) (htame : hs.Tame) : Refuses hs own := by
  cases h with
  | refused hadmit => exact (admitFrame_outcome hcoherent htame hadmit).1 rfl
  | crowded hadmit hevicts hempty hawaiting =>
    obtain ⟨dropped, hshifts, -⟩ := (admitFrame_outcome hcoherent htame hadmit).2 rfl
    exact .of_shifts (hshifts.trans hevicts.shifts) hempty

/-- What an accepted frame leaves behind: it ends the history, after what was kept. -/
structure Accepts (frame : RecordingFrame) (before after : StreamHistory) : Prop where
  contents : ∃ dropped kept reservation, before.contents = dropped ++ kept ∧
    after.contents = kept ++ [⟨frame, reservation⟩] ∧
    after.released = before.released ++ (if before.continuous then dropped else []) ∧
    (before.discontinuous = true → kept = [])
  continuous : after.continuous = before.continuous
  unmarked : after.discontinuous = false

theorem Pushes.accepts (h : Pushes bs hs f now globalLimit own true)
    (hcoherent : hs.Coherent log) (htame : hs.Tame) : Accepts f hs own := by
  obtain ⟨budgets', after, admitted, heq, -, hadmits⟩ :=
    admitFrame_coherent hcoherent bs f now globalLimit
  cases h with
  | @stored _ charged _ room popped reservation hadmit hevicts hexpected =>
    rw [heq] at hadmit
    cases hadmit
    obtain ⟨dropped, hshifts, hfresh⟩ := (admitFrame_outcome hcoherent htame heq).2 rfl
    have hall := hshifts.trans hevicts.shifts
    have hroom := (hadmits rfl).1.evicts hevicts
    obtain ⟨hown, hcontents⟩ := retain_coherent hroom hexpected charged reservation
    have hsame := retain_fields charged room ⟨f, reservation⟩
    refine ⟨⟨_, room.contents, reservation, hall.contents, hcontents, ?_, ?_⟩, ?_, ?_⟩
    · rw [hsame.1]
      exact hall.released
    · intro hmarked
      have hgops := hevicts.gops
      rw [hfresh hmarked] at hgops
      exact contents_eq_nil (List.append_eq_nil_iff.mp hgops.symm).2
    · rw [hsame.2.1]
      exact hall.continuous
    · rw [hsame.2.2]
      exact hroom.continuous

end StreamHistory

end KeepPeek.Storage
