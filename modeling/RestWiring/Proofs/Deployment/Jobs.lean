import RestWiring.Deployment.Cascade
import RestWiring.Proofs.Fallible
import RestWiring.Proofs.SortedMap
import RestWiring.Proofs.Stack.Effects

/-!
# What jobs do to a backend

A job creates a construct or wires constructs that are there. What the backend holds after some
jobs, starting from nothing, can be told from the set of these jobs: which constructs there are, who
may publish, what is reported and what is subscribed to.
-/
namespace RestWiring

abbrev ConstructKey := ConstructKind × String

theorem SinkKind.construct_ne_function (kind : SinkKind) : kind.construct ≠ .function := by
  cases kind <;> decide

theorem SinkKind.construct_injective {kind kind' : SinkKind}
    (same : kind.construct = kind'.construct) : kind = kind' := by
  cases kind <;> cases kind' <;> simp [SinkKind.construct] at same ⊢

namespace Job

variable {job : Job} {cs : Constructs} {r : Registry}

/-- The construct that is there once a job is done. -/
def provides : Job → Option ConstructKey
  | .sink s => some (s.kind.construct, s.spec.name)
  | .function f => some (.function, f.uid)
  | .step (.ensureChannel channel) => some (.topic, channel)
  | .step _ => none

/-- The constructs that must be there for a job to succeed. -/
def needs : Job → List ConstructKey
  | .step (.grantPublish channel uid) => [(.function, uid), (.topic, channel)]
  | .step (.notify uid channel _) => [(.topic, channel), (.function, uid)]
  | .step (.subscribe uid trigger) => [(trigger.source.construct, trigger.name), (.function, uid)]
  | _ => []

/-- The constructs after a job is done. -/
def apply (job : Job) (cs : Constructs) : Constructs :=
  match Registry.effect job.call cs none with
  | .ok (_, cs, _) => cs
  | .error _ => cs

theorem apply_create {kind : ConstructKind} {name : String} {spec : Json}
    (called : job.call = .create kind name spec) (cs : Constructs) :
    job.apply cs =
      if cs.contains (kind, name) then cs else cs.insert (kind, name) { kind, name, spec } := by
  by_cases present : cs.contains (kind, name) = true <;>
    simp [apply, called, Registry.effect, Registry.store, present]

theorem call_sink (s : SinkPlan) :
    ∃ spec, (Job.sink s).call = .create s.kind.construct s.spec.name spec := by
  obtain ⟨kind, spec⟩ := s
  cases kind <;> exact ⟨_, rfl⟩

/-- A job that provides a construct creates it unless it is there. -/
theorem apply_provides {key : ConstructKey} (provided : job.provides = some key) (cs : Constructs) :
    ∃ spec, job.apply cs =
      if cs.contains key then cs
      else cs.insert key { kind := key.1, name := key.2, spec } := by
  cases job with
  | sink s =>
    cases provided
    obtain ⟨spec, called⟩ := call_sink s
    exact ⟨spec, apply_create called cs⟩
  | function f =>
    cases provided
    exact ⟨f.toJson.sorted, apply_create rfl cs⟩
  | step s =>
    cases s with
    | ensureChannel channel =>
      cases provided
      refine ⟨(TopicConfig.toJson {}).sorted, ?_⟩
      by_cases present : cs.contains (.topic, channel) = true <;>
        simp [apply, call, Registry.effect, Registry.store, present]
    | grantPublish | notify | subscribe => cases provided

theorem needs_eq_nil {key : ConstructKey} (provided : job.provides = some key) :
    job.needs = [] := by
  cases job with
  | sink | function => rfl
  | step s =>
    cases s with
    | ensureChannel => rfl
    | grantPublish | notify | subscribe => cases provided

theorem require_of_present {kind : ConstructKind} {name : String} {record : ConstructRecord}
    (found : cs.find? (kind, name) = some record) : Registry.require cs kind name = .ok record := by
  rw [Registry.require, found]

theorem apply_grantPublish {channel uid : String} {topic : ConstructRecord}
    (present : cs.contains (.function, uid) = true)
    (found : cs.find? (.topic, channel) = some topic) :
    (Job.step (.grantPublish channel uid)).apply cs =
      Registry.store cs { topic with publishers := SortedSet.add topic.publishers uid } := by
  obtain ⟨function, function_found⟩ := SortedMap.contains_iff.mp present
  simp only [apply, call, Registry.effect, require_of_present function_found,
    require_of_present found, bind, Except.bind]

theorem apply_notify {channel uid : String} {params : NotifyParams} {function : ConstructRecord}
    (present : cs.contains (.topic, channel) = true)
    (found : cs.find? (.function, uid) = some function) :
    (Job.step (.notify uid channel params)).apply cs =
      Registry.store cs
        { function with
          notifications := Registry.appendNew function.notifications (channel, params) } := by
  obtain ⟨topic, topic_found⟩ := SortedMap.contains_iff.mp present
  simp only [apply, call, Registry.effect, require_of_present topic_found, require_of_present found,
    bind, Except.bind]

theorem apply_subscribe {uid : String} {trigger : TriggerSpec} {function : ConstructRecord}
    (present : cs.contains (trigger.source.construct, trigger.name) = true)
    (found : cs.find? (.function, uid) = some function) :
    (Job.step (.subscribe uid trigger)).apply cs =
      Registry.store cs
        { function with triggers := Registry.appendNew function.triggers trigger } := by
  obtain ⟨source, source_found⟩ := SortedMap.contains_iff.mp present
  simp only [apply, call, Registry.effect, require_of_present source_found,
    require_of_present found, bind, Except.bind]

theorem require_cases (cs : Constructs) (kind : ConstructKind) (name : String) :
    (∃ record, cs.find? (kind, name) = some record ∧ Registry.require cs kind name = .ok record) ∨
      cs.contains (kind, name) = false ∧
        Registry.require cs kind name = .error (.notFound kind name) := by
  unfold Registry.require
  cases found : cs.find? (kind, name) with
  | none => exact .inr ⟨SortedMap.contains_eq_false_iff.mpr found, rfl⟩
  | some record => exact .inl ⟨record, rfl, rfl⟩

/-- What the call of a job does when no failure strikes: it has its effect, or it finds its
construct already there, or it misses a construct that the job needs. -/
theorem effect_cases (job : Job) (cs : Constructs) (deployed : Option Manifest) :
    ((∀ key ∈ job.needs, cs.contains key = true) ∧
      ((∃ answer, Registry.effect job.call cs deployed = .ok (answer, job.apply cs, deployed)) ∨
        ∃ kind name, Registry.effect job.call cs deployed = .error (.alreadyExists kind name) ∧
          job.apply cs = cs ∧
          ∀ s, job ≠ .step s)) ∨
    ∃ kind name, Registry.effect job.call cs deployed = .error (.notFound kind name) ∧
      (kind, name) ∈ job.needs ∧ cs.contains (kind, name) = false := by
  have create {kind : ConstructKind} {name : String} {spec : Json}
      (called : job.call = .create kind name spec) (registers : ∀ s, job ≠ .step s) :
      (∃ answer, Registry.effect job.call cs deployed = .ok (answer, job.apply cs, deployed)) ∨
      ∃ kind name, Registry.effect job.call cs deployed = .error (.alreadyExists kind name) ∧
        job.apply cs = cs ∧
        ∀ s, job ≠ .step s := by
    by_cases present : cs.contains (kind, name) = true
    · exact .inr ⟨kind, name, by simp [called, Registry.effect, present],
        by simp [apply_create called, present], registers⟩
    · refine .inl ⟨.registered .created, ?_⟩
      simp [called, Registry.effect, Registry.store, apply_create called, present]
  cases job with
  | sink s =>
    obtain ⟨spec, called⟩ := call_sink s
    exact .inl ⟨by simp [needs], create called (by simp)⟩
  | function f => exact .inl ⟨by simp [needs], create rfl (by simp)⟩
  | step s =>
    cases s with
    | ensureChannel channel =>
      refine .inl ⟨by simp [needs], .inl ?_⟩
      by_cases present : cs.contains (.topic, channel) = true
      · exact ⟨.registered .existing, by simp [apply, call, Registry.effect, present]⟩
      · exact ⟨.registered .created, by simp [apply, call, Registry.effect, present]⟩
    | grantPublish channel uid =>
      rcases require_cases cs .function uid with ⟨function, found, first⟩ | ⟨absent, first⟩
      · rcases require_cases cs .topic channel with ⟨topic, found', second⟩ | ⟨absent, second⟩
        · refine .inl ⟨by simp [needs, SortedMap.contains_iff, found, found'], .inl ⟨.done, ?_⟩⟩
          simp [apply, call, Registry.effect, first, second, bind, Except.bind]
        · refine .inr ⟨.topic, channel, ?_, by simp [needs], absent⟩
          simp [call, Registry.effect, first, second, bind, Except.bind]
      · refine .inr ⟨.function, uid, ?_, by simp [needs], absent⟩
        simp [call, Registry.effect, first, bind, Except.bind]
    | notify uid channel params =>
      rcases require_cases cs .topic channel with ⟨topic, found, first⟩ | ⟨absent, first⟩
      · rcases require_cases cs .function uid with ⟨function, found', second⟩ | ⟨absent, second⟩
        · refine .inl ⟨by simp [needs, SortedMap.contains_iff, found, found'], .inl ⟨.done, ?_⟩⟩
          simp [apply, call, Registry.effect, first, second, bind, Except.bind]
        · refine .inr ⟨.function, uid, ?_, by simp [needs], absent⟩
          simp [call, Registry.effect, first, second, bind, Except.bind]
      · refine .inr ⟨.topic, channel, ?_, by simp [needs], absent⟩
        simp [call, Registry.effect, first, bind, Except.bind]
    | subscribe uid trigger =>
      rcases require_cases cs trigger.source.construct trigger.name with
        ⟨source, found, first⟩ | ⟨absent, first⟩
      · rcases require_cases cs .function uid with ⟨function, found', second⟩ | ⟨absent, second⟩
        · refine .inl ⟨by simp [needs, SortedMap.contains_iff, found, found'], .inl ⟨.done, ?_⟩⟩
          simp [apply, call, Registry.effect, first, second, bind, Except.bind]
        · refine .inr ⟨.function, uid, ?_, by simp [needs], absent⟩
          simp [call, Registry.effect, first, second, bind, Except.bind]
      · refine .inr ⟨_, _, ?_, List.mem_cons_self, absent⟩
        simp [call, Registry.effect, first, bind, Except.bind]

/-- An attempt at a job is logged. An injected failure may strike it. -/
theorem perform_of_strike {retryable : Bool} {failures : List InjectedFailure}
    (struck : Registry.useFailure job.call.logged.name r.failures = some (retryable, failures)) :
    job.perform r = (.error (.backend job.call.logged.name "injected failure" retryable),
      { r with calls := r.calls ++ [job.call.logged], failures }) := by
  cases job <;> simp only [perform, Registry.register, Registry.perform_struck struck] <;> rfl

/-- Without an injected failure the job succeeds and is applied, or it misses a construct that it
needs. -/
theorem perform_of_spared (spared : Registry.useFailure job.call.logged.name r.failures = none) :
    ((∀ key ∈ job.needs, r.constructs.contains key = true) ∧ ∃ answer, job.perform r =
      (.ok answer, { r with
        calls := r.calls ++ [job.call.logged]
        constructs := job.apply r.constructs })) ∨
    ∃ kind name, job.perform r = (.error (.notFound kind name),
      { r with calls := r.calls ++ [job.call.logged] }) ∧
      (kind, name) ∈ job.needs ∧ r.constructs.contains (kind, name) = false := by
  rcases effect_cases job r.constructs r.deployed with
    ⟨present, ⟨answer, effect⟩ | ⟨kind, name, effect, same, registers⟩⟩ |
      ⟨kind, name, effect, missing⟩
  · cases job with
    | sink | function =>
      refine .inl ⟨present, .registered .created, ?_⟩
      simp only [perform, Registry.register, Registry.perform_succeeds spared effect,
        Registry.registration]
    | step => exact .inl ⟨present, answer, Registry.perform_succeeds spared effect⟩
  · rw [same]
    cases job with
    | sink | function =>
      refine .inl ⟨present, .registered .existing, ?_⟩
      simp only [perform, Registry.register, Registry.perform_fails spared effect,
        Registry.registration]
    | step s => exact absurd rfl (registers s)
  · refine .inr ⟨kind, name, ?_, missing⟩
    cases job <;> simp only [perform, Registry.register, Registry.perform_fails spared effect] <;> rfl

/-- A job succeeds only where the constructs that it needs are there. -/
theorem perform_success {answer : Answer} {r' : Registry}
    (success : job.perform r = (.ok answer, r')) :
    (∀ key ∈ job.needs, r.constructs.contains key = true) ∧
      r' = { r with
        calls := r.calls ++ [job.call.logged]
        constructs := job.apply r.constructs } := by
  cases struck : Registry.useFailure job.call.logged.name r.failures with
  | some strike =>
    rw [perform_of_strike struck] at success
    cases success
  | none =>
    rcases perform_of_spared struck with ⟨present, answer', performed⟩ | ⟨kind, name, performed, -⟩
    · rw [performed] at success
      cases success
      exact ⟨present, rfl⟩
    · rw [performed] at success
      cases success

theorem perform_failure {e : ExecutorError} {r' : Registry}
    (failure : job.perform r = (.error e, r')) :
    r'.constructs = r.constructs := by
  cases struck : Registry.useFailure job.call.logged.name r.failures with
  | some strike =>
    rw [perform_of_strike struck] at failure
    cases failure
    rfl
  | none =>
    rcases perform_of_spared struck with ⟨-, answer', performed⟩ | ⟨kind, name, performed, -⟩
    · rw [performed] at failure
      cases failure
    · rw [performed] at failure
      cases failure
      rfl

/-- A job succeeds that no injected failure strikes and whose constructs are there. -/
theorem perform_succeeds (spared : Registry.useFailure job.call.logged.name r.failures = none)
    (present : ∀ key ∈ job.needs, r.constructs.contains key = true) :
    ∃ answer, job.perform r =
      (.ok answer, { r with
        calls := r.calls ++ [job.call.logged]
        constructs := job.apply r.constructs }) := by
  rcases perform_of_spared spared with ⟨-, success⟩ | ⟨kind, name, -, needed, absent⟩
  · exact success
  · rw [present _ needed] at absent
    cases absent

end Job

/-! ## What a set of jobs amounts to -/

/-- The constructs that some jobs have made out of nothing: each one that was provided, with the
publishers, the reports and the subscriptions that were wired. -/
structure Realises (done : List Job) (cs : Constructs) : Prop where
  named : ∀ {key record}, cs.find? key = some record → (record.kind, record.name) = key
  contains_iff : ∀ key, cs.contains key = true ↔ ∃ job ∈ done, job.provides = some key
  publishers_iff : ∀ {channel topic}, cs.find? (.topic, channel) = some topic →
    ∀ uid, topic.publishers.contains uid = true ↔ Job.step (.grantPublish channel uid) ∈ done
  notifications_iff : ∀ {uid function}, cs.find? (.function, uid) = some function →
    ∀ channel params, (channel, params) ∈ function.notifications ↔
      Job.step (.notify uid channel params) ∈ done
  triggers_iff : ∀ {uid function}, cs.find? (.function, uid) = some function →
    ∀ trigger, trigger ∈ function.triggers ↔ Job.step (.subscribe uid trigger) ∈ done
  supplied : ∀ job ∈ done, ∀ key ∈ job.needs, cs.contains key = true

theorem Realises.nothing : Realises [] ∅ where
  named := by rintro key record ⟨⟩
  contains_iff := by simp
  publishers_iff := by rintro channel topic ⟨⟩
  notifications_iff := by rintro uid function ⟨⟩
  triggers_iff := by rintro uid function ⟨⟩
  supplied := by simp

theorem mem_appendNew {α : Type} [DecidableEq α] {as : List α} {a b : α} :
    b ∈ Registry.appendNew as a ↔ b = a ∨ b ∈ as := by
  unfold Registry.appendNew
  split
  · rename_i inside
    exact ⟨.inr, fun h => h.elim (fun same => same ▸ inside) id⟩
  · simp [or_comm]

namespace Realises

variable {done : List Job} {cs : Constructs} {job : Job}

/-- Storing a record again under its key, with changes beside its kind and name. -/
theorem find?_store (realises : Realises done cs) {key key' : ConstructKey}
    {record changed : ConstructRecord}
    (found : cs.find? key = some record) (kind : changed.kind = record.kind)
    (name : changed.name = record.name) :
    (Registry.store cs changed).find? key' =
      if key' = key then some changed else cs.find? key' := by
  rw [Registry.store, kind, name, realises.named found, SortedMap.find?_insert]

theorem contains_store (realises : Realises done cs) {key key' : ConstructKey}
    {record changed : ConstructRecord}
    (found : cs.find? key = some record) (kind : changed.kind = record.kind)
    (name : changed.name = record.name) :
    (Registry.store cs changed).contains key' = true ↔ cs.contains key' = true := by
  rw [SortedMap.contains_iff, SortedMap.contains_iff, realises.find?_store found kind name]
  split
  · rename_i same
    simp [same, found]
  · rfl

/-- Whatever has been wired needs its construct, so a construct that is not there is not wired. -/
theorem not_mem_of_absent (realises : Realises done cs) {key : ConstructKey}
    (absent : cs.contains key = false)
    (needed : key ∈ job.needs) : job ∉ done := by
  intro member
  rw [realises.supplied job member key needed] at absent
  cases absent

theorem provide (realises : Realises done cs) {key : ConstructKey}
    (provided : job.provides = some key) :
    Realises (done ++ [job]) (job.apply cs) := by
  obtain ⟨spec, applied⟩ := Job.apply_provides provided cs
  have notWiring {s : WiringStep} (needy : (Job.step s).needs ≠ []) :
      Job.step s ∈ done ++ [job] ↔ Job.step s ∈ done := by
    simp only [List.mem_append, List.mem_singleton]
    refine ⟨fun h => h.elim id fun same => ?_, .inl⟩
    exact absurd (Job.needs_eq_nil provided) (same ▸ needy)
  have supplied : ∀ j ∈ done ++ [job], ∀ k ∈ j.needs, cs.contains k = true := by
    intro j member k needed
    rcases List.mem_append.mp member with member | member
    · exact realises.supplied j member k needed
    · rw [List.mem_singleton.mp member, Job.needs_eq_nil provided] at needed
      cases needed
  have provides_iff (k : ConstructKey) :
      (∃ j ∈ done ++ [job], j.provides = some k) ↔ k = key ∨ cs.contains k = true := by
    rw [realises.contains_iff]
    simp only [List.mem_append, List.mem_singleton, or_and_right, exists_or, exists_eq_left,
      provided,
      Option.some.injEq]
    rw [or_comm, eq_comm]
  rw [applied]
  split
  · rename_i present
    refine ⟨realises.named, fun k => ?_, ?_, ?_, ?_, supplied⟩
    · rw [provides_iff]
      exact ⟨.inr, fun h => h.elim (fun same => same ▸ present) id⟩
    · intro channel topic found uid
      rw [notWiring (by simp [Job.needs]), realises.publishers_iff found]
    · intro uid function found channel params
      rw [notWiring (by simp [Job.needs]), realises.notifications_iff found]
    · intro uid function found trigger
      rw [notWiring (by simp [Job.needs]), realises.triggers_iff found]
  · rename_i absent
    have absent : cs.contains key = false := by simpa using absent
    refine ⟨?_, fun k => ?_, ?_, ?_, ?_, fun j member k needed => ?_⟩
    · intro k record found
      rw [SortedMap.find?_insert] at found
      split at found
      · rename_i same
        cases found
        exact same.symm
      · exact realises.named found
    · rw [provides_iff, SortedMap.contains_insert]
    · intro channel topic found uid
      rw [notWiring (by simp [Job.needs])]
      rw [SortedMap.find?_insert] at found
      split at found
      · rename_i same
        cases found
        have unwired : Job.step (.grantPublish channel uid) ∉ done :=
          realises.not_mem_of_absent absent (by simp [Job.needs, same])
        simp [unwired]
      · exact realises.publishers_iff found uid
    · intro uid function found channel params
      rw [notWiring (by simp [Job.needs])]
      rw [SortedMap.find?_insert] at found
      split at found
      · rename_i same
        cases found
        have unwired : Job.step (.notify uid channel params) ∉ done :=
          realises.not_mem_of_absent absent (by simp [Job.needs, same])
        simp [unwired]
      · exact realises.notifications_iff found channel params
    · intro uid function found trigger
      rw [notWiring (by simp [Job.needs])]
      rw [SortedMap.find?_insert] at found
      split at found
      · rename_i same
        cases found
        have unwired : Job.step (.subscribe uid trigger) ∉ done :=
          realises.not_mem_of_absent absent (by simp [Job.needs, same])
        simp [unwired]
      · exact realises.triggers_iff found trigger
    · exact SortedMap.contains_insert.mpr (.inr (supplied j member k needed))

/-- Wiring changes the record of one construct; what is wired there is wired nowhere else. -/
theorem wire (realises : Realises done cs) {key : ConstructKey} {record changed : ConstructRecord}
    (found : cs.find? key = some record) (applied : job.apply cs = Registry.store cs changed)
    (kind : changed.kind = record.kind) (name : changed.name = record.name)
    (unprovided : job.provides = none) (needed : ∀ k ∈ job.needs, cs.contains k = true)
    (publishers : ∀ channel uid, if (.topic, channel) = key then
        (changed.publishers.contains uid = true ↔
          record.publishers.contains uid = true ∨ job = .step (.grantPublish channel uid))
      else job ≠ .step (.grantPublish channel uid))
    (notifications : ∀ uid channel params, if (.function, uid) = key then
        ((channel, params) ∈ changed.notifications ↔
          (channel, params) ∈ record.notifications ∨ job = .step (.notify uid channel params))
      else job ≠ .step (.notify uid channel params))
    (triggers : ∀ uid trigger, if (.function, uid) = key then
        (trigger ∈ changed.triggers ↔ trigger ∈ record.triggers ∨
          job = .step (.subscribe uid trigger))
      else job ≠ .step (.subscribe uid trigger)) :
    Realises (done ++ [job]) (job.apply cs) := by
  have contains_iff (k : ConstructKey) :
      (job.apply cs).contains k = true ↔ cs.contains k = true := by
    rw [applied, realises.contains_store found kind name]
  have find (k : ConstructKey) :
      (job.apply cs).find? k = if k = key then some changed else cs.find? k := by
    rw [applied, realises.find?_store found kind name]
  have mem_iff {j : Job} : j ∈ done ++ [job] ↔ j ∈ done ∨ job = j := by
    simp only [List.mem_append, List.mem_singleton]
    rw [eq_comm]
  refine ⟨fun {k r} stored => ?_, fun k => ?_, ?_, ?_, ?_, fun j member k needs => ?_⟩
  · rw [find] at stored
    split at stored
    · rename_i same
      cases stored
      rw [kind, name, realises.named found, same]
    · exact realises.named stored
  · rw [contains_iff, realises.contains_iff]
    simp only [mem_iff, or_and_right, exists_or, exists_eq_left', unprovided]
    simp
  · intro channel topic stored uid
    have wired := publishers channel uid
    rw [mem_iff]
    rw [find] at stored
    split at stored
    · rename_i same
      cases stored
      rw [if_pos same] at wired
      rw [wired, realises.publishers_iff (same ▸ found)]
    · rename_i different
      rw [if_neg different] at wired
      rw [realises.publishers_iff stored, or_iff_left wired]
  · intro uid function stored channel params
    have wired := notifications uid channel params
    rw [mem_iff]
    rw [find] at stored
    split at stored
    · rename_i same
      cases stored
      rw [if_pos same] at wired
      rw [wired, realises.notifications_iff (same ▸ found)]
    · rename_i different
      rw [if_neg different] at wired
      rw [realises.notifications_iff stored, or_iff_left wired]
  · intro uid function stored trigger
    have wired := triggers uid trigger
    rw [mem_iff]
    rw [find] at stored
    split at stored
    · rename_i same
      cases stored
      rw [if_pos same] at wired
      rw [wired, realises.triggers_iff (same ▸ found)]
    · rename_i different
      rw [if_neg different] at wired
      rw [realises.triggers_iff stored, or_iff_left wired]
  · rw [contains_iff]
    rcases mem_iff.mp member with earlier | rfl
    · exact realises.supplied j earlier k needs
    · exact needed k needs

/-- One more job is done whose constructs are there. -/
theorem apply (realises : Realises done cs) (needed : ∀ key ∈ job.needs, cs.contains key = true) :
    Realises (done ++ [job]) (job.apply cs) := by
  cases job with
  | sink s => exact realises.provide rfl
  | function f => exact realises.provide rfl
  | step s =>
    cases s with
    | ensureChannel channel => exact realises.provide rfl
    | grantPublish channel uid =>
      have function := needed (.function, uid) (by simp [Job.needs])
      obtain ⟨topic, found⟩ :=
        SortedMap.contains_iff.mp (needed (.topic, channel) (by simp [Job.needs]))
      refine realises.wire found (Job.apply_grantPublish function found) rfl rfl rfl needed ?_ ?_ ?_
      · intro channel' uid'
        split
        · rename_i same
          cases same
          rw [SortedSet.contains_add, or_comm]
          exact or_congr_right ⟨by rintro rfl; rfl, by rintro ⟨⟩; rfl⟩
        · rename_i different
          rintro ⟨⟩
          exact different rfl
      · simp
      · simp
    | notify uid channel params =>
      have topic := needed (.topic, channel) (by simp [Job.needs])
      obtain ⟨function, found⟩ :=
        SortedMap.contains_iff.mp (needed (.function, uid) (by simp [Job.needs]))
      refine realises.wire found (Job.apply_notify topic found) rfl rfl rfl needed ?_ ?_ ?_
      · simp
      · intro uid' channel' params'
        split
        · rename_i same
          cases same
          rw [mem_appendNew, or_comm]
          exact or_congr_right ⟨by rintro ⟨⟩; rfl, by rintro ⟨⟩; rfl⟩
        · rename_i different
          rintro ⟨⟩
          exact different rfl
      · intro uid' trigger
        split <;> simp
    | subscribe uid trigger =>
      have source := needed (trigger.source.construct, trigger.name) (by simp [Job.needs])
      obtain ⟨function, found⟩ :=
        SortedMap.contains_iff.mp (needed (.function, uid) (by simp [Job.needs]))
      refine realises.wire found (Job.apply_subscribe source found) rfl rfl rfl needed ?_ ?_ ?_
      · simp
      · intro uid' channel' params'
        split <;> simp
      · intro uid' trigger'
        split
        · rename_i same
          cases same
          rw [mem_appendNew, or_comm]
          exact or_congr_right ⟨by rintro ⟨⟩; rfl, by rintro ⟨⟩; rfl⟩
        · rename_i different
          rintro ⟨⟩
          exact different rfl

end Realises

/-- The constructs after some jobs, one after another. -/
def replay (base : Constructs) (jobs : List Job) : Constructs :=
  jobs.foldl (fun cs job => job.apply cs) base

theorem replay_snoc (base : Constructs) (jobs : List Job) (job : Job) :
    replay base (jobs ++ [job]) = job.apply (replay base jobs) := by
  simp [replay]

/-- Whether every job comes after the jobs that provide what it needs. -/
inductive Replayable (base : Constructs) : List Job → Prop
  | nil : Replayable base []
  | snoc {jobs : List Job} {job : Job} (earlier : Replayable base jobs)
      (present : ∀ key ∈ job.needs, (replay base jobs).contains key = true) :
      Replayable base (jobs ++ [job])

theorem Replayable.realises {jobs : List Job} (replayable : Replayable ∅ jobs) :
    Realises jobs (replay ∅ jobs) := by
  induction replayable with
  | nil => exact .nothing
  | snoc _ present ih =>
    rw [replay_snoc]
    exact ih.apply present

end RestWiring
