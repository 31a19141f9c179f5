import Mathlib.Tactic.Basic

/-! Calls that may fail and leave a state behind in either case, and the rules by
which a postcondition of each part gives one of the whole. -/
namespace KeepPeek.Lib

variable {ε σ α β : Type*}
variable {result : Except ε α × σ}

def andThen (result : Except ε α × σ) (next : α → σ → Except ε β × σ) : Except ε β × σ :=
  match result with
  | (.ok value, state) => next value state
  | (.error error, state) => (.error error, state)

@[simp] theorem andThen_ok (value : α) (state : σ) (next : α → σ → Except ε β × σ) :
    andThen (.ok value, state) next = next value state := rfl

theorem andThen_eq_ok {next : α → σ → Except ε β × σ} {value : β} {state : σ}
    (h : andThen result next = (.ok value, state)) :
    ∃ first between, result = (.ok first, between) ∧ next first between = (.ok value, state) := by
  rcases result with ⟨answer, between⟩
  cases answer with
  | error error => cases h
  | ok first => exact ⟨first, between, rfl, h⟩

def within {τ : Type*} (embed : σ → τ) (result : Except ε α × σ) : Except ε α × τ :=
  (result.1, embed result.2)

theorem within_eq_ok {τ : Type*} {embed : σ → τ} {value : α} {state : τ}
    (h : within embed result = (.ok value, state)) :
    ∃ part, result = (.ok value, part) ∧ embed part = state := by
  rcases result with ⟨answer, part⟩
  cases h
  exact ⟨part, rfl, rfl⟩

/-- What holds after a call that succeeded, and what after one that failed. -/
def Outcome (good : α → σ → Prop) (bad : ε → σ → Prop) : Except ε α × σ → Prop
  | (.ok value, state) => good value state
  | (.error error, state) => bad error state

variable {good good' : α → σ → Prop} {bad bad' : ε → σ → Prop}

theorem Outcome.imp (h : Outcome good bad result)
    (onGood : ∀ value state, good value state → good' value state)
    (onBad : ∀ error state, bad error state → bad' error state) : Outcome good' bad' result := by
  rcases result with ⟨answer, state⟩
  cases answer with
  | error error => exact onBad error state h
  | ok value => exact onGood value state h

theorem Outcome.andThen {next : α → σ → Except ε β × σ} {last : β → σ → Prop}
    (first : Outcome good bad result)
    (rest : ∀ value state, good value state → Outcome last bad (next value state)) :
    Outcome last bad (andThen result next) := by
  rcases result with ⟨answer, state⟩
  cases answer with
  | error error => exact first
  | ok value => exact rest value state first

theorem Outcome.within {τ : Type*} {embed : σ → τ} {good : α → τ → Prop} {bad : ε → τ → Prop}
    (h : Outcome (fun value part => good value (embed part)) (fun error part =>
      bad error (embed part)) result) :
    Outcome good bad (within embed result) := by
  rcases result with ⟨answer, part⟩
  cases answer with
  | error error => exact h
  | ok value => exact h

end KeepPeek.Lib
