import Mathlib.Data.Int.Order.Basic
import Mathlib.Data.List.Count
import Mathlib.Order.Lattice

/-! Counters over fixed windows: a window starts with what it counts first and is started
anew by the first use after its end. One counter may be used with several lengths; the
bound below is for one of them, provided that no other is shorter. -/
namespace KeepPeek.Lib.FixedWindow

structure Window where
  started : Int
  count : Nat
deriving DecidableEq, Repr

/-- One more use of the counter; `cap` is where counting saturates. -/
def Window.use (window : Window) (cap length : Nat) (now : Int) : Window :=
  if window.started + length ≤ now then ⟨now, 1⟩
  else ⟨window.started, min (window.count + 1) cap⟩

def Window.refuses (window : Window) (maximum length : Nat) (now : Int) : Bool :=
  decide (now < window.started + length) && decide (maximum ≤ window.count)

def within (first last : Int) (log : List Int) : Nat :=
  log.countP fun time => decide (first ≤ time) && decide (time < last)

theorem within_append (first last : Int) (log : List Int) (time : Int) :
    within first last (log ++ [time]) =
      within first last log + if first ≤ time ∧ time < last then 1 else 0 := by
  unfold within
  rw [List.countP_append, List.countP_singleton]
  simp

theorem within_mono {first last wideFirst wideLast : Int} {log : List Int}
    (inside : ∀ time ∈ log, first ≤ time → time < last → wideFirst ≤ time ∧ time < wideLast) :
    within first last log ≤ within wideFirst wideLast log := by
  apply List.countP_mono_left
  intro time mem
  simp only [Bool.and_eq_true, decide_eq_true_eq]
  rintro ⟨lower, upper⟩
  exact inside time mem lower upper

theorem within_split (first middle last : Int) (log : List Int) :
    within first last log ≤ within first middle log + within middle last log := by
  induction log with
  | nil => simp [within]
  | cons time log ih =>
    simp only [within, List.countP_cons, Bool.and_eq_true, decide_eq_true_eq] at ih ⊢
    split_ifs <;> omega

theorem within_eq_zero {first last : Int} {log : List Int}
    (outside : ∀ time ∈ log, first ≤ time → last ≤ time) : within first last log = 0 := by
  apply List.countP_eq_zero.mpr
  intro time mem
  simp only [Bool.and_eq_true, decide_eq_true_eq, not_and, not_lt]
  exact outside time mem

/-- What a counter knows about the log of one of its users: nothing logged is past the
window's end, the window counts what was logged in it, and the length before the window
holds no more than the maximum. -/
structure Bounded (maximum length : Nat) (window : Window) (log : List Int) : Prop where
  before_end : ∀ time ∈ log, time < window.started + length
  counted : within window.started (window.started + length) log ≤ min window.count maximum
  previous : within (window.started - length + 1) window.started log ≤ maximum
  bounded : ∀ first, within first (first + length) log ≤ 2 * maximum

variable {maximum length cap other : Nat} {window : Window} {log : List Int} {now : Int}

theorem bounded_nil (maximum length : Nat) (window : Window) :
    Bounded maximum length window [] where
  before_end _ mem := by cases mem
  counted := Nat.zero_le _
  previous := Nat.zero_le _
  bounded _ := Nat.zero_le _

section

variable (bounded : Bounded maximum length window log)
include bounded

theorem Bounded.restart (past : window.started + length ≤ now) (count : Nat) :
    Bounded maximum length ⟨now, count⟩ log where
  before_end time mem := by
    have := bounded.before_end time mem
    simp only
    omega
  counted := by
    rw [within_eq_zero]
    · exact Nat.zero_le _
    · intro time mem lower
      have := bounded.before_end time mem
      simp only at lower
      omega
  previous := by
    apply le_trans _ (le_trans bounded.counted (Nat.min_le_right _ _))
    apply within_mono
    intro time mem lower _
    have := bounded.before_end time mem
    simp only at lower
    exact ⟨by omega, this⟩
  bounded := bounded.bounded

theorem Bounded.use (longer : length ≤ other) (room : maximum ≤ cap) :
    Bounded maximum length (window.use cap other now) log := by
  unfold Window.use
  split
  · next past => exact bounded.restart (by omega) 1
  refine ⟨bounded.before_end, ?_, bounded.previous, bounded.bounded⟩
  have := bounded.counted
  simp only
  omega

theorem Bounded.append (started : window.started ≤ now) (running : now < window.started + length)
    (room : window.count < maximum) (count : Nat) (counts : window.count + 1 ≤ count) :
    Bounded maximum length ⟨window.started, count⟩ (log ++ [now]) := by
  have counted := bounded.counted
  have previous := bounded.previous
  constructor
  · intro time mem
    rcases List.mem_append.mp mem with mem | mem
    · exact bounded.before_end time mem
    · rw [List.mem_singleton.mp mem]
      exact running
  · rw [within_append]
    simp only [started, running, and_self, if_true]
    omega
  · rw [within_append, if_neg (by simp only; omega)]
    exact previous
  · intro first
    rw [within_append]
    split
    · next inside =>
      -- The interval holds the new time, so it begins after the length before the window.
      have split := within_split first window.started (first + length) log
      have older : within first window.started log ≤
          within (window.started - length + 1) window.started log :=
        within_mono fun time _ lower upper => ⟨by omega, upper⟩
      have newer : within window.started (first + length) log ≤
          within window.started (window.started + length) log :=
        within_mono fun time mem lower _ => ⟨lower, bounded.before_end time mem⟩
      omega
    · exact bounded.bounded first

theorem Bounded.admit (started : window.started ≤ now)
    (allowed : window.refuses maximum length now = false) (positive : 0 < maximum)
    (lasting : 0 < length) (room : maximum ≤ cap) :
    Bounded maximum length (window.use cap length now) (log ++ [now]) := by
  unfold Window.use
  split
  · next past =>
    have fresh := bounded.restart past 0
    exact fresh.append (le_refl _) (by simp only; omega) positive 1 (le_refl _)
  · next running =>
    simp only [Window.refuses, Bool.and_eq_false_iff, decide_eq_false_iff_not] at allowed
    have free : window.count < maximum := by omega
    exact bounded.append started (by omega) free _ (by omega)

end

end KeepPeek.Lib.FixedWindow
