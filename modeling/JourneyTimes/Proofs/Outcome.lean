import Mathlib.Data.List.Forall2

/-!
# Computations that succeed

A computation in several steps succeeds exactly if each step does.
-/

namespace JourneyTimes

variable {β γ δ ε : Type}

@[simp]
theorem ok_bind (value : β) (next : β → Except ε γ) : (Except.ok value >>= next) = next value :=
  rfl

theorem bind_eq_ok {first : Except ε β} {next : β → Except ε γ} {result : γ} :
    (first >>= next) = .ok result ↔ ∃ value, first = .ok value ∧ next value = .ok result := by
  cases first with
  | error error => simp [bind, Except.bind]
  | ok value => simp [bind, Except.bind]

theorem eq_ok_of_toOption {compute : Except ε β} {value : β}
    (found : compute.toOption = some value) : compute = .ok value := by
  cases compute with
  | error error => cases found
  | ok result => exact congrArg Except.ok (Option.some.inj found)

/-- A computation that does not fail has a result. -/
theorem exists_of_toBool {compute : Except ε β} (succeeds : compute.toBool = true) :
    ∃ value, compute = .ok value := by
  cases compute with
  | error error => cases succeeds
  | ok value => exact ⟨value, rfl⟩

/-- A computation from the result of which something can be read succeeds. -/
theorem exists_of_bind_toOption {compute : Except ε β} {read : β → Option γ} {shown : γ}
    (found : compute.toOption.bind read = some shown) :
    ∃ value, compute = .ok value ∧ read value = some shown := by
  cases compute with
  | error error => cases found
  | ok value => exact ⟨value, rfl, found⟩

/-- What holds along two lists and along a second and a third one. -/
theorem forall₂_comp {left : β → γ → Prop} {right : γ → δ → Prop}
    {both : β → δ → Prop} (joined : ∀ first second third, left first second →
      right second third → both first third) {firsts : List β} {seconds : List γ}
    {thirds : List δ} (lefts : List.Forall₂ left firsts seconds)
    (rights : List.Forall₂ right seconds thirds) : List.Forall₂ both firsts thirds := by
  induction lefts generalizing thirds with
  | nil =>
      cases rights
      exact .nil
  | cons first _ ih =>
      cases rights with
      | cons second rest => exact .cons (joined _ _ _ first second) (ih rest)

/-- A batch of computations that all succeed gives what each of them gives. -/
theorem forall₂_of_mapM_eq_ok {compute : β → Except ε γ} {inputs : List β}
    {results : List γ} (done : inputs.mapM compute = .ok results) :
    List.Forall₂ (fun input result => compute input = .ok result) inputs results := by
  induction inputs generalizing results with
  | nil =>
      cases done
      exact .nil
  | cons input inputs ih =>
      rw [List.mapM_cons, bind_eq_ok] at done
      rcases done with ⟨result, first, done⟩
      rcases bind_eq_ok.mp done with ⟨others, rest, done⟩
      cases done
      exact .cons first (ih rest)

/-- What is on the second of two lists goes with something on the first. -/
theorem exists_of_forall₂ {related : β → γ → Prop} {lefts : List β}
    {rights : List γ} (each : List.Forall₂ related lefts rights) {right : γ}
    (member : right ∈ rights) : ∃ left ∈ lefts, related left right := by
  rcases List.mem_iff_getElem.mp member with ⟨index, inside, rfl⟩
  have within : index < lefts.length := each.length_eq ▸ inside
  exact ⟨_, List.getElem_mem within, each.get within inside⟩

/-- Every result of a batch is that of some input. -/
theorem exists_of_mapM_eq_ok {compute : β → Except ε γ} {inputs : List β}
    {results : List γ} (done : inputs.mapM compute = .ok results) {result : γ}
    (member : result ∈ results) : ∃ input ∈ inputs, compute input = .ok result :=
  exists_of_forall₂ (forall₂_of_mapM_eq_ok done) member

/-- The results of a batch stand where their inputs do. -/
theorem getElem?_of_mapM_eq_ok {compute : β → Except ε γ} {inputs : List β}
    {results : List γ} (done : inputs.mapM compute = .ok results) {position : Nat} {input : β}
    (found : inputs[position]? = some input) :
    ∃ result, compute input = .ok result ∧ results[position]? = some result := by
  rcases List.getElem?_eq_some_iff.mp found with ⟨inside, rfl⟩
  rcases List.forall₂_iff_get.mp (forall₂_of_mapM_eq_ok done) with ⟨lengths, each⟩
  have within : position < results.length := lengths ▸ inside
  exact ⟨_, each position inside within, List.getElem?_eq_getElem within⟩

/-- Checks that all succeed have each succeeded. -/
theorem forall_of_forM_eq_ok {check : β → Except ε PUnit} {inputs : List β}
    (done : inputs.forM check = .ok ()) : ∀ input ∈ inputs, check input = .ok () := by
  induction inputs with
  | nil => exact nofun
  | cons input inputs ih =>
      rcases bind_eq_ok.mp done with ⟨⟨⟩, first, rest⟩
      exact List.forall_mem_cons.mpr ⟨first, ih rest⟩

/-- A batch of computations succeeds if each of them does. -/
theorem mapM_ok {compute : β → Except ε γ} {inputs : List β}
    (each : ∀ input ∈ inputs, ∃ result, compute input = .ok result) :
    ∃ results, inputs.mapM compute = .ok results := by
  induction inputs with
  | nil => exact ⟨[], rfl⟩
  | cons input inputs ih =>
      rcases List.forall_mem_cons.mp each with ⟨⟨result, first⟩, rest⟩
      rcases ih rest with ⟨results, done⟩
      refine ⟨result :: results, ?_⟩
      rw [List.mapM_cons, first, ok_bind, done]
      rfl

/-- A batch of computations fails at the first of them that does. -/
theorem exists_of_mapM_eq_error {compute : β → Except ε γ} {inputs : List β} {error : ε}
    (failed : inputs.mapM compute = .error error) :
    ∃ before input after, inputs = before ++ input :: after ∧
      (∀ earlier ∈ before, ∃ result, compute earlier = .ok result) ∧
      compute input = .error error := by
  induction inputs with
  | nil => cases failed
  | cons input inputs ih =>
      rw [List.mapM_cons] at failed
      cases first : compute input with
      | error _ =>
          rw [first] at failed
          cases failed
          exact ⟨[], input, inputs, rfl, nofun, first⟩
      | ok result =>
          rw [first, ok_bind] at failed
          cases rest : inputs.mapM compute with
          | ok results =>
              rw [rest] at failed
              cases failed
          | error _ =>
              rw [rest] at failed
              cases failed
              rcases ih rest with ⟨before, other, after, rfl, succeeded, stopped⟩
              exact ⟨input :: before, other, after, rfl,
                List.forall_mem_cons.mpr ⟨⟨result, first⟩, succeeded⟩, stopped⟩

end JourneyTimes
