import RestWiring.Proofs.SortedMap
import RestWiring.Stack.Registry

/-!
# The effects of calls

A call acts on a registry step by step, and a step that fails keeps what the steps before it have done.
Every call looks for what it needs before it changes anything, so a call that fails has changed nothing,
and what a call does can be told at once: `effect` says what becomes of the constructs and of the applied
manifest.
-/
namespace RestWiring.Registry

/-! ## Steps -/

section

variable {α β : Type} {action : Action α} {next : α → Action β} {r r' : Registry}

/-- A step comes after another one if that does not fail. -/
theorem bind_on (action : Action α) (next : α → Action β) (r : Registry) :
    (action >>= next).on r =
      match (action.on r).1 with
      | .ok a => (next a).on (action.on r).2
      | .error e => (.error e, (action.on r).2) := by
  change Action.on (fun _ => ExceptT.bindCont next (action.on r).1 (action.on r).2) r = _
  cases (action.on r).1 <;> rfl

/-- Looking for a construct changes nothing. -/
theorem ensure_on (kind : ConstructKind) (name : String) (r : Registry) :
    (ensure kind name).on r =
      (if r.constructs.contains (kind, name) then .ok () else .error (.notFound kind name), r) := by
  change Action.on (if r.constructs.contains (kind, name) then _ else _) r = _
  split <;> rfl

theorem amend_on (kind : ConstructKind) (name : String) (f : ConstructRecord → ConstructRecord)
    (r : Registry) :
    (amend kind name f).on r =
      match r.constructs.find? (kind, name) with
      | some c => (.ok (), { r with constructs := store r.constructs (f c) })
      | none => (.error (.notFound kind name), r) := by
  change Action.on (match r.constructs.find? (kind, name) with | some c => _ | none => _) r = _
  cases r.constructs.find? (kind, name) <;> rfl

end

/-! ## Calls -/

def require (cs : Constructs) (kind : ConstructKind) (name : String) : Except ExecutorError ConstructRecord :=
  match cs.find? (kind, name) with
  | some record => .ok record
  | none => .error (.notFound kind name)

/-- What a call does to the constructs and to the applied manifest, failures aside. -/
def effect (call : Call) (cs : Constructs) (deployed : Option Manifest) :
    Except ExecutorError (Answer × Constructs × Option Manifest) :=
  match call with
  | .create kind name spec =>
    if cs.contains (kind, name) then .error (.alreadyExists kind name)
    else .ok (.registered .created, store cs { kind, name, spec }, deployed)
  | .getOrCreate topic config =>
    if cs.contains (.topic, topic) then .ok (.registered .existing, cs, deployed)
    else
      .ok (.registered .created, store cs { kind := .topic, name := topic, spec := config.toJson.sorted }, deployed)
  | .withRole kind name role => do
    let record ← require cs kind name
    .ok (.done, store cs { record with role := some role }, deployed)
  | .trigger function spec => do
    let _ ← require cs spec.source.construct spec.name
    let record ← require cs .function function
    .ok (.done, store cs { record with triggers := appendNew record.triggers spec }, deployed)
  | .notify function topic params => do
    let _ ← require cs .topic topic
    let record ← require cs .function function
    .ok (.done, store cs { record with notifications := appendNew record.notifications (topic, params) }, deployed)
  | .grantPublish topic function => do
    let _ ← require cs .function function
    let record ← require cs .topic topic
    .ok (.done, store cs { record with publishers := SortedSet.add record.publishers function }, deployed)
  | .compile => .ok (.manifest (manifest cs), cs, deployed)
  | .deploy => .ok (.manifest (manifest cs), cs, some (manifest cs))
  | .diff update => .ok (.diff (Manifest.diff (manifest cs) update), cs, deployed)
  | .tearDown => .ok (.done, ∅, none)

/-- The registry that a call leaves which has this effect. -/
def settle (r : Registry) :
    Except ExecutorError (Answer × Constructs × Option Manifest) → Except ExecutorError Answer × Registry
  | .ok (answer, constructs, deployed) => (.ok answer, { r with constructs, deployed })
  | .error e => (.error e, r)

/-- A call that changes one construct fails if the construct is not there. -/
theorem amend_done_on (kind : ConstructKind) (name : String) (f : ConstructRecord → ConstructRecord)
    (r : Registry) :
    Action.on (do amend kind name f; return .done) r =
      r.settle (do
        let record ← require r.constructs kind name
        .ok (.done, store r.constructs (f record), r.deployed)) := by
  rw [bind_on, amend_on, require]
  cases r.constructs.find? (kind, name) <;> rfl

/-- What is looked for first decides first. -/
theorem ensure_then_on {next : Action Answer} {r : Registry}
    {result : Except ExecutorError (Answer × Constructs × Option Manifest)}
    (rest : next.on r = r.settle result) (kind : ConstructKind) (name : String) :
    Action.on (do ensure kind name; next) r =
      r.settle (do
        let _ ← require r.constructs kind name
        result) := by
  rw [bind_on, ensure_on, require]
  cases found : r.constructs.find? (kind, name) with
  | some record =>
    rw [if_pos (SortedMap.contains_iff.mpr ⟨record, found⟩)]
    exact rest
  | none =>
    rw [if_neg (by simp [SortedMap.contains_eq_false_iff.mpr found])]
    rfl

/-- A call has its effect, or fails and leaves the registry as it was. -/
theorem act_on (call : Call) (r : Registry) :
    (act call).on r = r.settle (effect call r.constructs r.deployed) := by
  cases call with
  | create kind name spec =>
    change Action.on (if r.constructs.contains (kind, name) then _ else _) r = _
    rw [effect]
    split <;> rfl
  | getOrCreate topic config =>
    change Action.on (if r.constructs.contains (.topic, topic) then _ else _) r = _
    rw [effect]
    split <;> rfl
  | withRole kind name role => exact amend_done_on ..
  | trigger | notify | grantPublish => exact ensure_then_on (amend_done_on ..) ..
  | compile | deploy | diff | tearDown => rfl

/-- A call that fails where it acts has changed nothing. -/
theorem act_atomic {call : Call} {r r' : Registry} {e : ExecutorError}
    (failure : (act call).on r = (.error e, r')) : r' = r := by
  rw [act_on] at failure
  cases acted : effect call r.constructs r.deployed with
  | ok done =>
    rw [acted] at failure
    cases failure
  | error e =>
    rw [acted] at failure
    cases failure
    rfl

theorem injected_on (name : String) (r : Registry) :
    (injected name).on r =
      match useFailure name r.failures with
      | none => (.ok (), r)
      | some (retryable, failures) =>
        (.error (.backend name "injected failure" retryable), { r with failures }) := by
  change Action.on (match useFailure name r.failures with | none => _ | some (_, _) => _) r = _
  cases useFailure name r.failures <;> rfl

/-- A call is logged, then an injected failure strikes it or it has its effect. -/
theorem perform_eq (r : Registry) (call : Call) :
    r.perform call =
      let r := { r with calls := r.calls ++ [call.logged] }
      match useFailure call.logged.name r.failures with
      | none => r.settle (effect call r.constructs r.deployed)
      | some (retryable, failures) =>
        (.error (.backend call.logged.name "injected failure" retryable), { r with failures }) := by
  have recorded : (record call.logged).on r =
      (injected call.logged.name).on { r with calls := r.calls ++ [call.logged] } := rfl
  rw [perform, bind_on, recorded, injected_on]
  dsimp only
  cases useFailure call.logged.name r.failures with
  | some used => rfl
  | none => exact act_on ..

section

variable {r : Registry} {call : Call}

theorem perform_struck {retryable : Bool} {failures : List InjectedFailure}
    (struck : useFailure call.logged.name r.failures = some (retryable, failures)) :
    r.perform call = (.error (.backend call.logged.name "injected failure" retryable),
      { r with calls := r.calls ++ [call.logged], failures }) := by
  simp only [perform_eq, struck]

theorem perform_succeeds {answer : Answer} {constructs : Constructs} {deployed : Option Manifest}
    (spared : useFailure call.logged.name r.failures = none)
    (succeeds : effect call r.constructs r.deployed = .ok (answer, constructs, deployed)) :
    r.perform call = (.ok answer,
      { r with calls := r.calls ++ [call.logged], constructs, deployed }) := by
  simp only [perform_eq, spared, succeeds, settle]

theorem perform_fails {e : ExecutorError} (spared : useFailure call.logged.name r.failures = none)
    (fails : effect call r.constructs r.deployed = .error e) :
    r.perform call = (.error e, { r with calls := r.calls ++ [call.logged] }) := by
  simp only [perform_eq, spared, fails, settle]

/-- What a call answers is told by its effect. -/
theorem perform_fst (spared : useFailure call.logged.name r.failures = none) :
    (r.perform call).1 = (effect call r.constructs r.deployed).map Prod.fst := by
  cases effect : effect call r.constructs r.deployed with
  | ok done => rw [perform_succeeds spared effect]; rfl
  | error e => rw [perform_fails spared effect]; rfl

/-- A call fails, which only the log and the failures tell of, or it has its effect. -/
theorem perform_inv (r : Registry) (call : Call) :
    (∃ e failures, r.perform call =
      (.error e, { r with calls := r.calls ++ [call.logged], failures })) ∨
    ∃ answer constructs deployed, r.perform call =
      (.ok answer, { r with calls := r.calls ++ [call.logged], constructs, deployed }) ∧
        effect call r.constructs r.deployed = .ok (answer, constructs, deployed) := by
  cases struck : useFailure call.logged.name r.failures with
  | some used => exact .inl ⟨_, _, perform_struck struck⟩
  | none =>
    cases effect : effect call r.constructs r.deployed with
    | ok done => exact .inr ⟨_, _, _, perform_succeeds struck effect, rfl⟩
    | error e => exact .inl ⟨e, r.failures, perform_fails struck effect⟩

end

end RestWiring.Registry
