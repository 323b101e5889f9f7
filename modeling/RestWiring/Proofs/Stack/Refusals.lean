import RestWiring.Proofs.Deployment.Integrity
import RestWiring.Proofs.Deployment.Tolerance

/-!
# Refused calls

A registry refuses a call because an injected failure strikes it, because the construct that it is to
create is there, or because one that it needs is not. A refused call leaves its line in the log and, if
a failure that passes has struck it, one strike fewer; constructs and the applied manifest stay as they
are. So a history of calls leaves behind what its successful calls alone would have left.
-/
namespace RestWiring

/-- The constructs without which a call has no effect, in the order in which they are looked up. -/
def Call.needs : Call → List ConstructKey
  | .withRole kind name _ => [(kind, name)]
  | .trigger function spec => [(spec.source.construct, spec.name), (.function, function)]
  | .notify function topic _ => [(.topic, topic), (.function, function)]
  | .grantPublish topic function => [(.function, function), (.topic, topic)]
  | .create .. | .getOrCreate .. | .compile | .deploy | .diff _ | .tearDown => []

/-- Whether a failure can still strike a call that names a construct. -/
def InjectedFailure.strikes (f : InjectedFailure) (name : String) : Bool :=
  f.construct = name && f.remaining ≠ some 0

namespace Registry

variable {r : Registry} {call : Call} {e : ExecutorError} {cs : Constructs}
  {deployed : Option Manifest} {name : String} {failures failures' : List InjectedFailure}

/-! ## Why a call is refused -/

/-- Why a registry refuses a call. An injected failure comes before every other reason, and of the
failures that can strike, the first. -/
inductive Refuses (r : Registry) (call : Call) : ExecutorError → Prop
  | struck {f : InjectedFailure}
      (first : r.failures.find? (·.strikes call.logged.name) = some f) :
      Refuses r call (.backend call.logged.name "injected failure" f.remaining.isSome)
  | present {kind : ConstructKind} {name : String} {spec : Json} (spared : r.Spares name)
      (creates : call = .create kind name spec) (there : r.constructs.contains (kind, name) = true) :
      Refuses r call (.alreadyExists kind name)
  | absent {key : ConstructKey} (spared : r.Spares call.logged.name)
      (first : call.needs.find? (!r.constructs.contains ·) = some key) :
      Refuses r call (.notFound key.1 key.2)

/-- Using up a failure takes the first that strikes. -/
theorem useFailure_map_fst (name : String) (failures : List InjectedFailure) :
    (useFailure name failures).map (·.1) =
      (failures.find? (·.strikes name)).map (·.remaining.isSome) := by
  induction failures with
  | nil => rfl
  | cons f rest ih =>
    by_cases exhausted : f.construct = name → f.remaining = some 0
    · have harmless : f.strikes name = false := by
        simpa [InjectedFailure.strikes] using exhausted
      rw [useFailure_cons_of_exhausted exhausted, Option.map_map,
        List.find?_cons_of_neg (by simp [harmless]), ← ih]
      rfl
    · obtain ⟨named, live⟩ := Classical.not_imp.mp exhausted
      have first : (f :: rest).find? (·.strikes name) = some f :=
        List.find?_cons_of_pos (by simp [InjectedFailure.strikes, named, live])
      rw [first, useFailure, if_pos named]
      split
      · rename_i lasting
        simp [lasting]
      · rename_i n left
        simp [left]
      · rename_i spent
        exact absurd spent live

/-- Looking constructs up one after another fails at the first that is not there. -/
theorem require_bind_error_iff {α : Type} {kind : ConstructKind} {name : String}
    {keys : List ConstructKey} {next : ConstructRecord → Except ExecutorError α}
    (rest : ∀ record, next record = .error e ↔
      ∃ key, keys.find? (!cs.contains ·) = some key ∧ e = .notFound key.1 key.2) :
    (require cs kind name >>= next) = .error e ↔
      ∃ key, ((kind, name) :: keys).find? (!cs.contains ·) = some key ∧
        e = .notFound key.1 key.2 := by
  rcases Job.require_cases cs kind name with ⟨record, found, required⟩ | ⟨absent, required⟩
  · have there : cs.contains (kind, name) = true := SortedMap.contains_iff.mpr ⟨record, found⟩
    rw [required, List.find?_cons_of_neg (by simp [there])]
    exact rest record
  · rw [required, List.find?_cons_of_pos (by simp [absent])]
    simp [bind, Except.bind, eq_comm]

/-- Without an injected failure a call fails if its construct is there or one that it needs is not. -/
theorem effect_error_iff :
    effect call cs deployed = .error e ↔
      (∃ kind name spec, call = .create kind name spec ∧ cs.contains (kind, name) = true ∧
        e = .alreadyExists kind name) ∨
      ∃ key, call.needs.find? (!cs.contains ·) = some key ∧ e = .notFound key.1 key.2 := by
  have done {α : Type} (a : α) : Except.ok a = .error e ↔
      ∃ key, List.find? (fun key => !cs.contains key) [] = some key ∧ e = .notFound key.1 key.2 := by
    simp
  cases call with
  | create kind name spec =>
    rw [effect]
    split
    · rename_i there
      constructor
      · intro failed
        cases failed
        exact .inl ⟨kind, name, spec, rfl, there, rfl⟩
      · rintro (⟨_, _, _, ⟨⟩, -, rfl⟩ | ⟨_, ⟨⟩, -⟩)
        rfl
    · rename_i absent
      constructor
      · rintro ⟨⟩
      · rintro (⟨_, _, _, ⟨⟩, there, -⟩ | ⟨_, ⟨⟩, -⟩)
        exact absurd there absent
  | getOrCreate topic config =>
    rw [effect]
    split <;> simp [Call.needs]
  | withRole kind name role =>
    simp only [effect, Call.needs, require_bind_error_iff fun _ => done _]
    simp
  | trigger function spec =>
    simp only [effect, Call.needs,
      require_bind_error_iff fun _ => require_bind_error_iff fun _ => done _]
    simp
  | notify function topic params =>
    simp only [effect, Call.needs,
      require_bind_error_iff fun _ => require_bind_error_iff fun _ => done _]
    simp
  | grantPublish topic function =>
    simp only [effect, Call.needs,
      require_bind_error_iff fun _ => require_bind_error_iff fun _ => done _]
    simp
  | compile | deploy | diff | tearDown => simp [effect, Call.needs]

/-- A registry refuses exactly the calls that it has a reason to refuse, and says which. -/
theorem perform_error_iff : (r.perform call).1 = .error e ↔ Refuses r call e := by
  have strike := useFailure_map_fst call.logged.name r.failures
  cases struck : useFailure call.logged.name r.failures with
  | some used =>
    obtain ⟨retryable, failures⟩ := used
    rw [struck, Option.map_some, eq_comm, Option.map_eq_some_iff] at strike
    obtain ⟨f, first, passes⟩ := strike
    change f.remaining.isSome = retryable at passes
    subst passes
    rw [perform_struck struck]
    constructor
    · rintro ⟨⟩
      exact .struck first
    · intro refuses
      cases refuses with
      | struck first' =>
        cases first.symm.trans first'
        rfl
      | present spared creates =>
        subst creates
        cases spared.symm.trans struck
      | absent spared => cases spared.symm.trans struck
  | none =>
    rw [struck, Option.map_none, eq_comm, Option.map_eq_none_iff] at strike
    have failed : (r.perform call).1 = .error e ↔ effect call r.constructs r.deployed = .error e := by
      rw [perform_fst struck]
      cases effect call r.constructs r.deployed <;> simp [Except.map]
    rw [failed, effect_error_iff]
    constructor
    · rintro (⟨kind, name, spec, rfl, there, rfl⟩ | ⟨key, first, rfl⟩)
      · exact .present struck rfl there
      · exact .absent struck first
    · intro refuses
      cases refuses with
      | struck first => cases strike.symm.trans first
      | present _ creates there => exact .inl ⟨_, _, _, creates, there, rfl⟩
      | absent _ first => exact .inr ⟨_, first, rfl⟩

/-! ## What a call leaves behind -/

/-- Whether failures are left as they are, but for one at most that has one strike fewer. -/
inductive Spent : List InjectedFailure → List InjectedFailure → Prop
  | nothing (failures : List InjectedFailure) : Spent failures failures
  | strike (before : List InjectedFailure) (f : InjectedFailure) (after : List InjectedFailure)
      {n : Nat} (left : f.remaining = some (n + 1)) :
      Spent (before ++ f :: after) (before ++ { f with remaining := some n } :: after)

theorem Spent.of_useFailure {retryable : Bool}
    (struck : useFailure name failures = some (retryable, failures')) : Spent failures failures' := by
  obtain ⟨before, f, after, rfl, -, ⟨-, -, rfl⟩ | ⟨n, left, -, rfl⟩⟩ := useFailure_cases struck
  · exact .nothing _
  · exact .strike before f after left

theorem spent_of_perform (r : Registry) (call : Call) :
    Spent r.failures (r.perform call).2.failures := by
  cases struck : useFailure call.logged.name r.failures with
  | some used =>
    rw [perform_struck struck]
    exact .of_useFailure struck
  | none =>
    cases effect : effect call r.constructs r.deployed with
    | ok done =>
      rw [perform_succeeds struck effect]
      exact .nothing _
    | error e =>
      rw [perform_fails struck effect]
      exact .nothing _

/-- What a call comes to: one that is refused is logged and may have used up a strike, one that goes
through is logged and has its effect. -/
theorem perform_cases (r : Registry) (call : Call) :
    (∃ e failures, r.perform call =
      (.error e, { r with calls := r.calls ++ [call.logged], failures }) ∧
        Refuses r call e ∧ Spent r.failures failures) ∨
    ∃ answer constructs deployed, r.perform call =
      (.ok answer, { r with calls := r.calls ++ [call.logged], constructs, deployed }) ∧
        effect call r.constructs r.deployed = .ok (answer, constructs, deployed) := by
  rcases perform_inv r call with ⟨e, failures, performed⟩ | served
  · have spent := spent_of_perform r call
    rw [performed] at spent
    exact .inl ⟨e, failures, performed, perform_error_iff.mp (congrArg Prod.fst performed), spent⟩
  · exact .inr served

end Registry

/-- Whether a call only looks at the stack. -/
def Call.Inspects : Call → Prop
  | .compile | .diff _ => True
  | _ => False

namespace Registry

variable {r s : Registry} {call : Call}

/-- A call that only looks at the stack leaves it as it is. -/
theorem effect_of_inspects {answer : Answer} {cs cs' : Constructs}
    {deployed deployed' : Option Manifest} (inspects : call.Inspects)
    (success : effect call cs deployed = .ok (answer, cs', deployed')) :
    cs' = cs ∧ deployed' = deployed := by
  cases call with
  | compile | diff =>
    cases success
    exact ⟨rfl, rfl⟩
  | _ => exact inspects.elim

/-- A call that is refused is refused for a reason, and changes nothing but the log, which gains its
line, and one failure at most, which loses a strike. A call that only looks at the stack changes
nothing but the log when it goes through. -/
theorem perform_atomic (r : Registry) (call : Call) :
    (∀ e r', r.perform call = (.error e, r') →
      Refuses r call e ∧ Spent r.failures r'.failures ∧
        r' = { r with calls := r.calls ++ [call.logged], failures := r'.failures }) ∧
    ∀ answer r', r.perform call = (.ok answer, r') → call.Inspects →
      r' = { r with calls := r.calls ++ [call.logged] } := by
  rcases perform_cases r call with
    ⟨e, failures, refused, reason, spent⟩ | ⟨answer, cs, deployed, served, effect⟩
  · constructor
    · intro e' r' performed
      cases refused.symm.trans performed
      exact ⟨reason, spent, rfl⟩
    · intro answer r' performed
      cases refused.symm.trans performed
  · constructor
    · intro e r' performed
      cases served.symm.trans performed
    · intro answer' r' performed inspects
      cases served.symm.trans performed
      obtain ⟨rfl, rfl⟩ := effect_of_inspects inspects effect
      rfl

/-- An exhausted failure is passed over and the next one loses a strike. -/
theorem perform_atomic_struck :
    let r : Registry := { failures := [⟨"stack", some 0⟩, ⟨"stack", some 2⟩] }
    let r' : Registry :=
      { calls := [⟨.deploy, none, "stack"⟩], failures := [⟨"stack", some 0⟩, ⟨"stack", some 1⟩] }
    (r.perform .deploy = (.error (.backend "stack" "injected failure" true), r') ∧
      Refuses r .deploy (.backend "stack" "injected failure" true) ∧ Spent r.failures r'.failures) ∧
    ∃ answer s, ({} : Registry).perform .compile = (.ok answer, s) ∧
      s = { calls := [⟨.compile, none, "stack"⟩] } := by
  have refused := (perform_atomic { failures := [⟨"stack", some 0⟩, ⟨"stack", some 2⟩] } .deploy).1 _ _ rfl
  exact ⟨⟨rfl, refused.1, refused.2.1⟩, _, _, rfl, (perform_atomic {} .compile).2 _ _ rfl trivial⟩

/-! ## A history of calls -/

/-- Makes calls one after another. -/
def performAll (r : Registry) (calls : List Call) : Registry :=
  calls.foldl (fun r call => (r.perform call).2) r

theorem performAll_cons (r : Registry) (call : Call) (rest : List Call) :
    r.performAll (call :: rest) = (r.perform call).2.performAll rest :=
  rfl

/-- The calls among some, made one after another, that go through. -/
def accepted (r : Registry) : List Call → List Call
  | [] => []
  | call :: rest =>
    match r.perform call with
    | (.ok _, r') => call :: r'.accepted rest
    | (.error _, r') => r'.accepted rest

/-- All calls are logged, whichever way they go. -/
theorem performAll_calls (r : Registry) (calls : List Call) :
    (r.performAll calls).calls = r.calls ++ calls.map (·.logged) := by
  induction calls generalizing r with
  | nil => simp [performAll]
  | cons call rest ih =>
    have logged : (r.perform call).2.calls = r.calls ++ [call.logged] := by
      rcases perform_cases r call with ⟨_, _, performed, -⟩ | ⟨_, _, _, performed, -⟩ <;> rw [performed]
    rw [performAll_cons, ih, logged, List.map_cons, List.append_assoc, List.singleton_append]

/-- The calls of a history that go through leave on their own what the whole history leaves. -/
theorem performAll_accepted {calls : List Call} (quiet : s.Quiet)
    (constructs : s.constructs = r.constructs) (deployed : s.deployed = r.deployed) :
    (s.performAll (r.accepted calls)).constructs = (r.performAll calls).constructs ∧
      (s.performAll (r.accepted calls)).deployed = (r.performAll calls).deployed := by
  induction calls generalizing r s with
  | nil => exact ⟨constructs, deployed⟩
  | cons call rest ih =>
    rcases perform_cases r call with
      ⟨e, failures, refused, -⟩ | ⟨answer, cs, manifest, served, effect⟩
    · rw [accepted, performAll_cons, refused]
      exact ih quiet constructs deployed
    · rw [← constructs, ← deployed] at effect
      rw [accepted, performAll_cons, served]
      dsimp only
      rw [performAll_cons, perform_succeeds (quiet.spares _) effect]
      exact ih quiet rfl rfl

end Registry

end RestWiring
