import Mathlib.Data.List.Induction

/-! Runs of a deterministic step function over a list of inputs, and the rules
that carry a property of one step to a whole run. -/
namespace KeepPeek.Lib

variable {σ α : Type*} {step : σ → α → σ} {Inv : σ → Prop} {Safe : σ → α → Prop}

/-- Every input of the run meets `Safe` in the state it is applied to. -/
def AllSteps (step : σ → α → σ) (Safe : σ → α → Prop) : σ → List α → Prop
  | _, [] => True
  | state, input :: inputs => Safe state input ∧ AllSteps step Safe (step state input) inputs

instance AllSteps.decidable [∀ state input, Decidable (Safe state input)] :
    ∀ (state : σ) (inputs : List α), Decidable (AllSteps step Safe state inputs)
  | _, [] => .isTrue trivial
  | state, input :: inputs =>
    have := AllSteps.decidable (step state input) inputs
    inferInstanceAs (Decidable (Safe state input ∧ AllSteps step Safe (step state input) inputs))

theorem foldl_invariant (preserved : ∀ state input, Inv state → Inv (step state input))
    {state : σ} (initial : Inv state) (inputs : List α) : Inv (inputs.foldl step state) := by
  induction inputs generalizing state with
  | nil => exact initial
  | cons input inputs ih => exact ih (preserved state input initial)

theorem foldl_invariant_mem {state : σ} (initial : Inv state) (inputs : List α)
    (preserved : ∀ state, ∀ input ∈ inputs, Inv state → Inv (step state input)) :
    Inv (inputs.foldl step state) := by
  induction inputs generalizing state with
  | nil => exact initial
  | cons input inputs ih =>
    apply ih (preserved state input List.mem_cons_self initial)
    intro state next hnext
    exact preserved state next (List.mem_cons_of_mem _ hnext)

theorem mem_of_foldl_choose {choose : Option α → α → Option α}
    (chooses : ∀ best item, choose best item = some item ∨ choose best item = best)
    {items : List α} {chosen : α} (h : items.foldl choose none = some chosen) :
    chosen ∈ items := by
  refine @foldl_invariant_mem (Option α) α choose (fun best => ∀ found, best = some found →
    found ∈ items) none nofun items ?_ chosen h
  intro best item mem before found foundEq
  rcases chooses best item with taken | kept
  · rw [taken] at foundEq
    cases foundEq
    exact mem
  · exact before found (kept ▸ foundEq)

theorem AllSteps.foldl_invariant
    (preserved : ∀ state input, Inv state → Safe state input → Inv (step state input))
    {state : σ} (initial : Inv state) {inputs : List α} (safe : AllSteps step Safe state inputs) :
    Inv (inputs.foldl step state) := by
  induction inputs generalizing state with
  | nil => exact initial
  | cons input inputs ih => exact ih (preserved state input initial safe.1) safe.2

/-- What holds of every safe step from an invariant state holds of every step of a
safe run. -/
theorem AllSteps.of_invariant {Good : σ → α → Prop}
    (preserved : ∀ state input, Inv state → Safe state input → Inv (step state input))
    (good : ∀ state input, Inv state → Safe state input → Good state input)
    {state : σ} (initial : Inv state) {inputs : List α} (safe : AllSteps step Safe state inputs) :
    AllSteps step Good state inputs := by
  induction inputs generalizing state with
  | nil => trivial
  | cons input inputs ih =>
    exact ⟨good state input initial safe.1, ih (preserved state input initial safe.1) safe.2⟩

theorem AllSteps.of_forall {Good : α → Prop} {inputs : List α} (h : ∀ input ∈ inputs, Good input)
    (state : σ) : AllSteps step (fun _ input => Good input) state inputs := by
  induction inputs generalizing state with
  | nil => trivial
  | cons input inputs ih =>
    refine ⟨h input List.mem_cons_self, ih ?_ _⟩
    intro next hnext
    exact h next (List.mem_cons_of_mem _ hnext)

theorem AllSteps.and {Other : σ → α → Prop} {state : σ} {inputs : List α}
    (safe : AllSteps step Safe state inputs) (other : AllSteps step Other state inputs) :
    AllSteps step (fun state input => Safe state input ∧ Other state input) state inputs := by
  induction inputs generalizing state with
  | nil => trivial
  | cons input inputs ih => exact ⟨⟨safe.1, other.1⟩, ih safe.2 other.2⟩

/-- What is held at the end of a run was taken by one of its inputs, and guarded ever since. -/
theorem exists_taken {τ : Type*} {Held : σ → Prop} {Takes : σ → α → τ → Prop}
    {Guarded : τ → σ → Prop}
    (taken : ∀ state input, ¬Held state → Held (step state input) →
      ∃ token, Takes state input token ∧ Guarded token (step state input))
    (kept : ∀ token state input, Guarded token state → Held (step state input) →
      Guarded token (step state input))
    {state : σ} (initial : ¬Held state) (inputs : List α) (held : Held (inputs.foldl step state)) :
    ∃ earlier input later token, inputs = earlier ++ input :: later ∧
      Takes (earlier.foldl step state) input token ∧
      ∀ since, since <+: later →
        Guarded token ((earlier ++ input :: since).foldl step state) := by
  induction inputs using List.reverseRecOn with
  | nil => exact absurd held initial
  | append_singleton inputs last ih =>
    rw [List.foldl_append] at held
    by_cases before : Held (inputs.foldl step state)
    · rcases ih before with ⟨earlier, input, later, token, rfl, takes, since_taken⟩
      refine ⟨earlier, input, later ++ [last], token, by simp, takes, ?_⟩
      intro since part
      rcases List.prefix_concat_iff.mp part with rfl | part
      · have whole : earlier ++ input :: (later ++ [last]) =
            (earlier ++ input :: later) ++ [last] := by simp
        rw [whole, List.foldl_append]
        exact kept token _ last (since_taken later (List.prefix_refl later)) held
      · exact since_taken since part
    · rcases taken _ last before held with ⟨token, takes, now⟩
      refine ⟨inputs, last, [], token, rfl, takes, ?_⟩
      intro since part
      rw [List.prefix_nil.mp part, List.foldl_append]
      exact now

/-- `Good` relates a state to the inputs that led to it. When one step keeps it
exactly if it is safe, a run keeps it exactly if all its steps are: `Good` once
lost never comes back. `Valid` is what is assumed of the input sequence. -/
theorem good_foldl_iff_allSteps {Valid : List α → Prop} {Inv Good : σ → List α → Prop}
    (closed : ∀ past input, Valid (past ++ [input]) → Valid past)
    (preserved : ∀ state past input, Valid (past ++ [input]) → Inv state past →
      Inv (step state input) (past ++ [input]))
    (exact_step : ∀ state past input, Valid (past ++ [input]) → Inv state past →
      (Good (step state input) (past ++ [input]) ↔ Good state past ∧ Safe state input))
    {state : σ} {past : List α} (initial : Inv state past) {inputs : List α}
    (valid : Valid (past ++ inputs)) :
    Good (inputs.foldl step state) (past ++ inputs) ↔
      Good state past ∧ AllSteps step Safe state inputs := by
  induction inputs generalizing state past with
  | nil => simp [AllSteps]
  | cons input inputs ih =>
    have hsplit : past ++ input :: inputs = past ++ [input] ++ inputs := by simp
    rw [hsplit] at valid ⊢
    -- The first step is valid because validity is closed under dropping inputs.
    have hfirst : Valid (past ++ [input]) := by
      clear ih hsplit
      induction inputs using List.reverseRecOn with
      | nil => simpa using valid
      | append_singleton inputs last ihlast =>
        rw [← List.append_assoc] at valid
        exact ihlast (closed _ last valid)
    have htail := ih (preserved state past input hfirst initial) valid
    rw [exact_step state past input hfirst initial] at htail
    rw [List.foldl_cons, htail]
    simp [AllSteps, and_assoc]

end KeepPeek.Lib
