import Mathlib.Data.List.Forall2

/-!
# Computations that may fail

When a sequence of fallible steps succeeds: every step has succeeded. When it fails: some step has
failed, and it fails as the first of these. So of all errors that there are, the first is reported.
-/
namespace RestWiring

variable {ε α β : Type}

theorem bind_success_iff {step : Except ε α} {next : α → Except ε β} {value : β} :
    (step >>= next) = .ok value ↔ ∃ a, step = .ok a ∧ next a = .ok value := by
  cases step with
  | error e => simp [bind, Except.bind]
  | ok a => simp [bind, Except.bind]

theorem bind_error_iff {step : Except ε α} {next : α → Except ε β} {e : ε} :
    (step >>= next) = .error e ↔ step = .error e ∨ ∃ a, step = .ok a ∧ next a = .error e := by
  cases step with
  | error e' => simp [bind, Except.bind]
  | ok a => simp [bind, Except.bind]

theorem toOption_eq_some_iff {step : Except ε α} {value : α} :
    step.toOption = some value ↔ step = .ok value := by
  cases step <;> simp [Except.toOption]

theorem mapError_success_iff {ε' : Type} {f : ε → ε'} {step : Except ε α} {value : α} :
    step.mapError f = .ok value ↔ step = .ok value := by
  cases step <;> simp [Except.mapError]

/-- A list of fallible computations succeeds with the list of their results. -/
theorem mapM_success_iff {f : α → Except ε β} {inputs : List α} {results : List β} :
    inputs.mapM f = .ok results ↔ List.Forall₂ (fun a b => f a = .ok b) inputs results := by
  induction inputs generalizing results with
  | nil =>
    rw [List.mapM_nil, List.forall₂_nil_left_iff]
    exact ⟨fun equal => (Except.ok.inj equal).symm, fun equal => equal ▸ rfl⟩
  | cons a rest ih =>
    rw [List.mapM_cons, bind_success_iff, List.forall₂_cons_left_iff]
    constructor
    · rintro ⟨b, first, others⟩
      obtain ⟨bs, rest_success, equal⟩ := bind_success_iff.mp others
      exact ⟨b, bs, first, ih.mp rest_success, (Except.ok.inj equal).symm⟩
    · rintro ⟨b, bs, first, related, rfl⟩
      exact ⟨b, first, bind_success_iff.mpr ⟨bs, ih.mpr related, rfl⟩⟩

theorem mapM_succeeds {f : α → Except ε β} {inputs : List α}
    (each : ∀ a ∈ inputs, ∃ b, f a = .ok b) :
    ∃ results, inputs.mapM f = .ok results := by
  induction inputs with
  | nil => exact ⟨[], rfl⟩
  | cons a rest ih =>
    obtain ⟨b, first⟩ := each a List.mem_cons_self
    obtain ⟨bs, others⟩ := ih fun a member => each a (List.mem_cons_of_mem _ member)
    exact ⟨b :: bs, mapM_success_iff.mpr (.cons first (mapM_success_iff.mp others))⟩

/-- A list of fallible computations fails as the first of them that fails. -/
theorem mapM_error_iff {f : α → Except ε β} {inputs : List α} {e : ε} :
    inputs.mapM f = .error e ↔
      ∃ i a, inputs[i]? = some a ∧ f a = .error e ∧
        ∀ (j : Nat) x, j < i → inputs[j]? = some x → ∃ b, f x = .ok b := by
  induction inputs with
  | nil =>
    rw [List.mapM_nil]
    exact ⟨nofun, by rintro ⟨i, a, ⟨⟩, -⟩⟩
  | cons a rest ih =>
    rw [List.mapM_cons]
    cases first : f a with
    | error e' =>
      constructor
      · intro failed
        cases failed
        exact ⟨0, a, rfl, first, nofun⟩
      · rintro ⟨_ | i, a', found, failed, earlier⟩
        · cases found
          cases first.symm.trans failed
          rfl
        · obtain ⟨b, success⟩ := earlier 0 a (Nat.succ_pos i) rfl
          cases first.symm.trans success
    | ok b =>
      have others : (Except.ok b >>= fun b => rest.mapM f >>= fun bs => pure (b :: bs)) = .error e ↔
          rest.mapM f = .error e := by
        cases rest.mapM f <;> simp [bind, Except.bind, pure, Except.pure]
      rw [others, ih]
      constructor
      · rintro ⟨i, a', found, failed, earlier⟩
        refine ⟨i + 1, a', found, failed, fun j x less here => ?_⟩
        cases j with
        | zero =>
          cases here
          exact ⟨b, first⟩
        | succ j => exact earlier j x (Nat.lt_of_succ_lt_succ less) here
      · rintro ⟨_ | i, a', found, failed, earlier⟩
        · cases found
          cases first.symm.trans failed
        · exact ⟨i, a', found, failed, fun j x less => earlier (j + 1) x (Nat.succ_lt_succ less)⟩

/-- Whether a step fails with the first of some errors, and succeeds if there are none. -/
def Raises (errors : List ε) (step : Except ε α) : Prop :=
  match errors with
  | [] => ∃ a, step = .ok a
  | e :: _ => step = .error e

namespace Raises

variable {errors errors' : List ε} {step : Except ε α}

theorem ok (a : α) : Raises (ε := ε) [] (.ok a) := ⟨a, rfl⟩

/-- The errors of the first of two steps come first. -/
theorem bind {next : α → Except ε β} (first : Raises errors step)
    (second : ∀ a, step = .ok a → Raises errors' (next a)) :
    Raises (errors ++ errors') (step >>= next) := by
  cases errors with
  | nil =>
    obtain ⟨a, rfl⟩ := first
    exact second a rfl
  | cons e rest =>
    obtain rfl : step = .error e := first
    exact rfl

theorem map {f : α → β} (raises : Raises errors step) : Raises errors (f <$> step) := by
  cases errors with
  | nil =>
    obtain ⟨a, rfl⟩ := raises
    exact ⟨f a, rfl⟩
  | cons e rest =>
    obtain rfl : step = .error e := raises
    exact rfl

theorem error_iff (raises : Raises errors step) {e : ε} :
    step = .error e ↔ errors.head? = some e := by
  cases errors with
  | nil =>
    obtain ⟨a, rfl⟩ := raises
    simp
  | cons e rest =>
    obtain rfl : step = .error e := raises
    simp

theorem fails_iff (raises : Raises errors step) : (∃ e, step = .error e) ↔ errors ≠ [] := by
  cases errors with
  | nil =>
    obtain ⟨a, rfl⟩ := raises
    simp
  | cons e rest =>
    obtain rfl : step = .error e := raises
    simp

end Raises

theorem mapM_eq_some_iff {f : α → Option β} {inputs : List α} {results : List β} :
    inputs.mapM f = some results ↔ List.Forall₂ (fun a b => f a = some b) inputs results := by
  induction inputs generalizing results with
  | nil =>
    rw [List.mapM_nil, List.forall₂_nil_left_iff]
    exact ⟨fun equal => (Option.some.inj equal).symm, fun equal => equal ▸ rfl⟩
  | cons a rest ih =>
    rw [List.mapM_cons, List.forall₂_cons_left_iff]
    constructor
    · intro success
      obtain ⟨b, first, others⟩ := Option.bind_eq_some_iff.mp success
      obtain ⟨bs, rest_success, equal⟩ := Option.bind_eq_some_iff.mp others
      exact ⟨b, bs, first, ih.mp rest_success, (Option.some.inj equal).symm⟩
    · rintro ⟨b, bs, first, related, rfl⟩
      exact Option.bind_eq_some_iff.mpr
        ⟨b, first, Option.bind_eq_some_iff.mpr ⟨bs, ih.mpr related, rfl⟩⟩

theorem mapM_eq_some {f : α → Option β} {inputs : List α} (each : ∀ a ∈ inputs, ∃ b, f a = some b) :
    ∃ results, inputs.mapM f = some results := by
  induction inputs with
  | nil => exact ⟨[], rfl⟩
  | cons a rest ih =>
    obtain ⟨b, first⟩ := each a List.mem_cons_self
    obtain ⟨bs, others⟩ := ih fun a member => each a (List.mem_cons_of_mem _ member)
    exact ⟨b :: bs, mapM_eq_some_iff.mpr (.cons first (mapM_eq_some_iff.mp others))⟩

theorem exists_of_mem_left {R : α → β → Prop} {as : List α} {bs : List β}
    (related : List.Forall₂ R as bs) {a : α}
    (member : a ∈ as) : ∃ b ∈ bs, R a b := by
  induction related with
  | nil => cases member
  | @cons a' b' _ _ first _ ih =>
    rcases List.mem_cons.mp member with rfl | later
    · exact ⟨b', List.mem_cons_self, first⟩
    · obtain ⟨b, inside, holds⟩ := ih later
      exact ⟨b, List.mem_cons_of_mem _ inside, holds⟩

theorem exists_of_mem_right {R : α → β → Prop} {as : List α} {bs : List β}
    (related : List.Forall₂ R as bs) {b : β}
    (member : b ∈ bs) : ∃ a ∈ as, R a b := by
  obtain ⟨a, inside, holds⟩ := exists_of_mem_left related.flip member
  exact ⟨a, inside, holds⟩

end RestWiring
