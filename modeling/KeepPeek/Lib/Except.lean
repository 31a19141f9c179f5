import Mathlib.Data.List.Forall2

/-! Loops over a list that may stop with an error: what a run that reached the end
says about each of its turns. -/
namespace KeepPeek.Lib

variable {ε σ α β : Type*}

theorem foldlM_cons_eq_ok {step : σ → α → Except ε σ} {state after : σ} {input : α}
    {inputs : List α} (h : (input :: inputs).foldlM step state = .ok after) :
    ∃ next, step state input = .ok next ∧ inputs.foldlM step next = .ok after := by
  rw [List.foldlM_cons] at h
  cases hstep : step state input with
  | error message =>
    rw [hstep] at h
    cases h
  | ok next =>
    rw [hstep] at h
    exact ⟨next, rfl, h⟩

/-- A check that refuses a key it has seen finds the keys of a list distinct. -/
theorem foldlM_nodup {step : σ → α → Except ε σ} (key : α → β) (seen : σ → List β)
    (added : ∀ state input next, step state input = .ok next →
      key input ∉ seen state ∧ seen next = key input :: seen state)
    {inputs : List α} {state after : σ} (h : inputs.foldlM step state = .ok after) :
    (inputs.map key).Nodup ∧ ∀ input ∈ inputs, key input ∉ seen state := by
  induction inputs generalizing state with
  | nil => exact ⟨List.nodup_nil, by simp⟩
  | cons input inputs ih =>
    obtain ⟨next, checked, remaining⟩ := foldlM_cons_eq_ok h
    obtain ⟨fresh, grown⟩ := added state input next checked
    have tail := ih remaining
    simp only [grown, List.mem_cons, not_or] at tail
    constructor
    · rw [List.map_cons, List.nodup_cons, List.mem_map]
      exact ⟨fun ⟨other, mem, same⟩ => (tail.2 other mem).1 same, tail.1⟩
    · intro other mem
      rcases List.mem_cons.mp mem with rfl | later
      · exact fresh
      · exact (tail.2 other later).2

theorem foldlM_cons_of_ok {step : σ → α → Except ε σ} {state next : σ} {input : α}
    (h : step state input = .ok next) (inputs : List α) :
    (input :: inputs).foldlM step state = inputs.foldlM step next := by
  rw [List.foldlM_cons, h]
  rfl

theorem bind_eq_ok.{u, v} {ε : Type u} {α β : Type v} {result : Except ε α} {next : α → Except ε β}
    {output : β} (h : (result >>= next) = .ok output) :
    ∃ value, result = .ok value ∧ next value = .ok output := by
  cases result with
  | error message => cases h
  | ok value => exact ⟨value, rfl, h⟩

theorem mapM_eq_ok {f : α → Except ε β} {inputs : List α} {outputs : List β}
    (h : inputs.mapM f = .ok outputs) :
    List.Forall₂ (fun input output => f input = .ok output) inputs outputs := by
  induction inputs generalizing outputs with
  | nil =>
    cases h
    exact .nil
  | cons input inputs ih =>
    rw [List.mapM_cons] at h
    cases hfirst : f input with
    | error message =>
      rw [hfirst] at h
      cases h
    | ok output =>
      rw [hfirst] at h
      cases hrest : inputs.mapM f with
      | error message =>
        rw [hrest] at h
        cases h
      | ok rest =>
        rw [hrest] at h
        cases h
        exact .cons hfirst (ih hrest)

theorem mem_iff_of_mapM {f : α → Except ε β} {inputs : List α} {outputs : List β}
    (h : inputs.mapM f = .ok outputs) {output : β} :
    output ∈ outputs ↔ ∃ input ∈ inputs, f input = .ok output := by
  have each := mapM_eq_ok h
  clear h
  induction each with
  | nil => simp
  | cons made _ ih => simp [ih, made, eq_comm]

theorem exists_mapM_eq_ok {f : α → Except ε β} {inputs : List α}
    (h : ∀ input ∈ inputs, ∃ output, f input = .ok output) :
    ∃ outputs, inputs.mapM f = .ok outputs := by
  induction inputs with
  | nil => exact ⟨[], rfl⟩
  | cons input inputs ih =>
    obtain ⟨output, made⟩ := h input List.mem_cons_self
    obtain ⟨outputs, rest⟩ := ih fun later mem => h later (List.mem_cons_of_mem _ mem)
    exact ⟨output :: outputs, by rw [List.mapM_cons, made, rest]; rfl⟩

theorem map_eq_ok {f : α → β} {result : Except ε α} {output : β}
    (h : result.map f = .ok output) : ∃ value, result = .ok value ∧ f value = output := by
  cases result with
  | error message => cases h
  | ok value =>
    cases h
    exact ⟨value, rfl, rfl⟩

theorem exists_of_mem_mapM {f : α → Option β} {inputs : List α} {outputs : List β} {output : β}
    (h : inputs.mapM f = some outputs) (mem : output ∈ outputs) :
    ∃ input ∈ inputs, f input = some output := by
  induction inputs generalizing outputs with
  | nil =>
    cases h
    cases mem
  | cons input inputs ih =>
    rw [List.mapM_cons] at h
    obtain ⟨first, hfirst, h⟩ := Option.bind_eq_some_iff.mp h
    obtain ⟨rest, hrest, h⟩ := Option.bind_eq_some_iff.mp h
    cases h
    rcases List.mem_cons.mp mem with rfl | mem
    · exact ⟨input, List.mem_cons_self, hfirst⟩
    · obtain ⟨found, foundMem, made⟩ := ih hrest mem
      exact ⟨found, List.mem_cons_of_mem _ foundMem, made⟩

theorem guard_bind_eq_some {α : Type} {p : Prop} [Decidable p] {next : Unit → Option α}
    {value : α} :
    (guard p >>= next) = some value ↔ p ∧ next () = some value := by
  by_cases h : p
  · simp [guard, h]
  · simp [guard, h]

section Avoids

universe u v

variable {ε : Type u} {σ α β : Type v} {fault : ε}

/-- A result is not this fault. -/
def Avoids (fault : ε) (result : Except ε α) : Prop := result ≠ .error fault

theorem avoids_bind {result : Except ε α} {next : α → Except ε β} : Avoids fault (result >>= next) ↔
    Avoids fault result ∧ ∀ value, result = .ok value → Avoids fault (next value) := by
  cases result <;> simp [Avoids, bind, Except.bind]

theorem avoids_then {check : Except ε PUnit} {next : PUnit → Except ε β} :
    Avoids fault (check >>= next) ↔ Avoids fault check ∧
      (check = .ok ⟨⟩ → Avoids fault (next ⟨⟩)) :=
  avoids_bind.trans (and_congr_right fun _ => ⟨fun each => each ⟨⟩, fun next _ => next⟩)

theorem avoids_pure (value : α) : Avoids fault (pure value) := nofun

theorem avoids_foldlM {step : σ → α → Except ε σ} {inputs : List α} {state : σ} :
    Avoids fault (inputs.foldlM step state) ↔ ∀ before input after between,
      inputs = before ++ input :: after → before.foldlM step state = .ok between →
        Avoids fault (step between input) := by
  induction inputs generalizing state with
  | nil => simp [avoids_pure]
  | cons first inputs ih =>
    rw [List.foldlM_cons, avoids_bind]
    constructor
    · rintro ⟨here, rest⟩ before input after between split done
      cases before with
      | nil =>
        cases split
        cases done
        exact here
      | cons head before =>
        cases split
        obtain ⟨next, made, done⟩ := foldlM_cons_eq_ok done
        exact ih.mp (rest next made) before input after between rfl done
    · intro each
      refine ⟨each [] first inputs state rfl rfl, fun next made => ih.mpr ?_⟩
      rintro before input after between rfl done
      exact each (first :: before) input after between rfl (by rwa [foldlM_cons_of_ok made])

end Avoids

end KeepPeek.Lib
