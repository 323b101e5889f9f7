import RestWiring.Proofs.Deployment.Records
import RestWiring.Proofs.Deployment.Turns

/-!
# What tasks tell

A turn of a task tells at most one event: how its component fares, or what the backend has done. What an
answer of the backend gives rise to is told before the task does anything else, so that what is told
balances what has been due. A job is told to have created a construct exactly if the construct comes to
be there.
-/
namespace RestWiring

/-! ## Events -/

namespace DeploymentEvent

/-- The component whose start or end an event tells. -/
def index? : DeploymentEvent → Option Nat
  | .subgraphStarted index | .subgraphCompleted index | .subgraphFailed index _
  | .subgraphCancelled index => some index
  | .deploymentStarted .. | .constructRegistered .. | .edgeWired .. | .deploymentCompleted _ => none

/-- Whether an event tells what the backend has done. -/
def Detail : DeploymentEvent → Prop
  | .constructRegistered .. | .edgeWired .. => True
  | .deploymentStarted .. | .subgraphStarted _ | .subgraphCompleted _ | .subgraphFailed ..
  | .subgraphCancelled _ | .deploymentCompleted _ => False

/-- Whether an event may be told between the start and the end of a deployment of so many components. -/
def Within (n : Nat) : DeploymentEvent → Prop
  | .constructRegistered .. | .edgeWired .. => True
  | .subgraphStarted index | .subgraphCompleted index | .subgraphFailed index _
  | .subgraphCancelled index => index < n
  | .deploymentStarted .. | .deploymentCompleted _ => False

variable {e : DeploymentEvent} {index n : Nat}

@[simp] theorem index?_ofStatus (index : Nat) (status : SubgraphStatus) :
    (ofStatus index status).index? = some index := by
  cases status <;> rfl

theorem Detail.index? (detail : e.Detail) : e.index? = none := by
  cases e <;> first | rfl | exact detail.elim

theorem Detail.within (detail : e.Detail) (n : Nat) : e.Within n := by
  cases e <;> trivial

theorem within_of_index? (told : e.index? = some index) (inside : index < n) : e.Within n := by
  cases e <;> simp only [DeploymentEvent.index?, reduceCtorEq, Option.some.injEq] at told
  all_goals
    subst told
    exact inside

/-- What tells of components tells nothing of the backend. -/
theorem Detail.count_eq_zero {told : List DeploymentEvent} (detail : e.Detail)
    (lives : ∀ e' ∈ told, e'.index? ≠ none) : told.count e = 0 := by
  apply List.count_eq_zero_of_not_mem
  intro member
  exact lives e member detail.index?

end DeploymentEvent

open DeploymentEvent (Detail)

namespace Job

variable {job : Job} {answer : Answer} {e : DeploymentEvent} {r r' : Registry} {key : ConstructKey}

theorem detail_of_event? (event : job.event? answer = some e) : e.Detail := by
  unfold event? at event
  split at event <;> cases event <;> trivial

/-- The ends of the edge that a job wires. -/
def edge? : Job → Option (String × String)
  | .step (.subscribe uid trigger) =>
    some ((trigger.args.find? SubgraphPlan.sourceAttribute).getD "", uid)
  | .sink _ | .function _ | .step (.ensureChannel _) | .step (.grantPublish ..) | .step (.notify ..) =>
    none

theorem count_edgeWired (job : Job) (answer : Answer) (start target : String) :
    (job.event? answer).toList.count (.edgeWired start target) =
      job.edge?.toList.count (start, target) := by
  cases job with
  | sink | function => cases answer <;> simp [event?, edge?]
  | step s =>
    cases s with
    | ensureChannel | grantPublish | notify => cases answer <;> simp [event?, edge?]
    | subscribe uid trigger => simp [event?, edge?, List.count_singleton]

/-- A job that provides a construct tells whether it was there. -/
theorem event?_of_provides (performed : job.perform r = (.ok answer, r'))
    (provided : job.provides = some key) :
    job.event? answer = some (.constructRegistered key.1 key.2
      (if r.constructs.contains key then .existing else .created)) := by
  have spared : Registry.useFailure job.call.logged.name r.failures = none := by
    cases struck : Registry.useFailure job.call.logged.name r.failures with
    | none => rfl
    | some strike =>
      rw [perform_of_strike struck] at performed
      cases performed
  have answered := Registry.perform_fst spared
  have created {kind : ConstructKind} {name : String} {spec : Json}
      (called : job.call = .create kind name spec) (registers : job.perform r = r.register job.call) :
      answer = .registered (if r.constructs.contains (kind, name) then .existing else .created) := by
    have told : Registry.registration (r.perform job.call).1 = .ok answer :=
      congrArg Prod.fst (registers.symm.trans performed)
    rw [answered, called] at told
    by_cases there : r.constructs.contains (kind, name) = true <;>
      simpa [Registry.effect, there, Registry.registration, Except.map, eq_comm] using told
  cases job with
  | sink s =>
    cases provided
    obtain ⟨spec, called⟩ := call_sink s
    rw [created called rfl]
    rfl
  | function f =>
    cases provided
    rw [created rfl rfl]
    rfl
  | step s =>
    cases s with
    | ensureChannel channel =>
      cases provided
      have told : (r.perform (.getOrCreate channel {})).1 = .ok answer := congrArg Prod.fst performed
      have same : answer =
          .registered (if r.constructs.contains (.topic, channel) then .existing else .created) := by
        have effects := answered.symm.trans told
        by_cases there : r.constructs.contains (.topic, channel) = true <;>
          simpa [call, Registry.effect, there, Except.map, eq_comm] using effects
      rw [same]
      rfl
    | grantPublish | notify | subscribe => cases provided

theorem contains_apply {cs : Constructs} (named : Named cs)
    (needed : ∀ key ∈ job.needs, cs.contains key = true) (key : ConstructKey) :
    (job.apply cs).contains key = true ↔ cs.contains key = true ∨ job.provides = some key := by
  cases provided : job.provides with
  | some k =>
    obtain ⟨spec, applied⟩ := apply_provides provided cs
    rw [applied, Option.some.injEq]
    split
    · rename_i there
      constructor
      · exact .inl
      · rintro (here | rfl)
        · exact here
        · exact there
    · rw [SortedMap.contains_insert, or_comm, @eq_comm _ k]
  | none =>
    have nothing : job.creation? key = none := by
      cases job with
      | sink | function => cases provided
      | step s =>
        cases s with
        | ensureChannel => cases provided
        | grantPublish | notify | subscribe => rfl
    simp [SortedMap.contains_iff, find?_apply named job needed key, nothing]

/-- A job tells that it has created a construct exactly if the construct comes to be there. -/
theorem count_created (performed : job.perform r = (.ok answer, r')) (named : Named r.constructs)
    (key : ConstructKey) :
    (job.event? answer).toList.count (.constructRegistered key.1 key.2 .created) +
        (r.constructs.contains key).toNat = (r'.constructs.contains key).toNat := by
  obtain ⟨needed, after⟩ := perform_success performed
  have contains : r'.constructs.contains key = true ↔
      r.constructs.contains key = true ∨ job.provides = some key := by
    rw [after]
    exact contains_apply named needed key
  cases provided : job.provides with
  | none =>
    have same : r.constructs.contains key = r'.constructs.contains key := by
      rw [Bool.eq_iff_iff, contains, provided]
      simp
    have untold : (job.event? answer).toList.count (.constructRegistered key.1 key.2 .created) = 0 := by
      cases job with
      | sink | function => cases provided
      | step s =>
        cases s with
        | ensureChannel => cases provided
        | grantPublish | notify => cases answer <;> rfl
        | subscribe => simp [event?]
    rw [untold, same, Nat.zero_add]
  | some k =>
    rw [event?_of_provides performed provided]
    by_cases same : k = key
    · subst same
      have there : r'.constructs.contains k = true := contains.mpr (.inr provided)
      cases before : r.constructs.contains k <;> simp [there]
    · have after : r.constructs.contains key = r'.constructs.contains key := by
        rw [Bool.eq_iff_iff, contains, provided]
        simp [same]
      have other : (k.1, k.2) ≠ (key.1, key.2) := same
      have untold : [DeploymentEvent.constructRegistered k.1 k.2
          (if r.constructs.contains k then .existing else .created)].count
            (.constructRegistered key.1 key.2 .created) = 0 := by
        rw [List.count_eq_zero]
        simp only [List.mem_singleton, DeploymentEvent.constructRegistered.injEq]
        intro equal
        exact other (Prod.ext equal.1.symm equal.2.1.symm)
      rw [Option.toList_some, untold, after, Nat.zero_add]

end Job

/-! ## What a step tells -/

variable {settings : DeploymentSettings} {index : Nat} {stages : List (List Job)}
  {activity activity' : Activity} {w w' : World} {made : Option Contact}
  {begun told due : List DeploymentEvent}

namespace Activity

/-- What a component is about to tell. -/
def pending : Activity → List DeploymentEvent
  | .announcing event _ => [event]
  | .fresh | .working _ | .closing _ | .over _ => []

/-- What has been told of a component so far, given what its start tells. -/
def life (index : Nat) (begun : List DeploymentEvent) : Activity → List DeploymentEvent
  | .fresh => []
  | .working _ | .announcing .. | .closing _ | .over none => begun
  | .over (some status) => begun ++ [.ofStatus index status]

@[simp] theorem pending_working (work : Work) : (working work).pending = [] := rfl

@[simp] theorem pending_announcing (e : DeploymentEvent) (work : Work) :
    (announcing e work).pending = [e] := rfl

@[simp] theorem life_working (index : Nat) (begun : List DeploymentEvent) (work : Work) :
    (working work).life index begun = begun := rfl

@[simp] theorem life_announcing (index : Nat) (begun : List DeploymentEvent) (e : DeploymentEvent)
    (work : Work) : (announcing e work).life index begun = begun := rfl

/-- Going on with work tells nothing, whether or not a failure ends it. -/
theorem ofWork_untold (index : Nat) (begun : List DeploymentEvent) (work : Work) :
    (ofWork work).pending = [] ∧ (ofWork work).life index begun = begun := by
  unfold ofWork
  split <;> exact ⟨rfl, rfl⟩

theorem fail_untold (index : Nat) (begun : List DeploymentEvent) (place : Nat) (job : Job)
    (e : OrchestrationError) (work : Work) :
    (fail place job e work).pending = [] ∧ (fail place job e work).life index begun = begun := by
  unfold fail
  split
  · exact ofWork_untold ..
  · exact ⟨rfl, rfl⟩

theorem settle_untold (index : Nat) (begun : List DeploymentEvent) (event : Option DeploymentEvent)
    (work : Work) :
    (settle event work).pending = event.toList ∧ (settle event work).life index begun = begun := by
  cases event with
  | none => exact ofWork_untold ..
  | some e => exact ⟨rfl, rfl⟩

/-- What an answer of the backend gives rise to. -/
inductive Answers (w w' : World) : Option Contact → List DeploymentEvent → Prop
  | done {job : Job} {answer : Answer} (performed : job.perform w.registry = (.ok answer, w'.registry)) :
      Answers w w' (some (.succeeded job)) (job.event? answer).toList
  | nothing {made : Option Contact} (undone : made.bind Contact.success? = none)
      (same : w'.registry.constructs = w.registry.constructs) : Answers w w' made []

/-- What a step tells, and what it gives rise to: what is told of the backend has been due before, and
what is told of the component is what the step has come to. -/
structure Tells (index : Nat) (begun : List DeploymentEvent) (activity : Activity) (w : World)
    (made : Option Contact) (activity' : Activity) (w' : World) (told due : List DeploymentEvent) :
    Prop where
  events : w'.events = w.events ++ told
  answers : Answers w w' made due
  balance : ∀ e : DeploymentEvent, e.Detail →
    told.count e + activity'.pending.count e = activity.pending.count e + due.count e
  lives : activity'.life index begun =
    activity.life index begun ++ told.filter (·.index? = some index)
  own : ∀ e ∈ told, e.Detail ∨ e.index? = some index

theorem Answers.wired (answers : Answers w w' made due) (start target : String) :
    due.count (.edgeWired start target) =
      (made.toList.filterMap fun contact => contact.success?.bind Job.edge?).count (start, target) := by
  cases answers with
  | @done job answer performed =>
    rw [Job.count_edgeWired]
    cases edge : job.edge? <;> simp [Contact.success?, edge]
  | nothing undone =>
    cases made with
    | none => rfl
    | some contact =>
      have undone : contact.success? = none := undone
      simp [undone]

theorem Answers.created (answers : Answers w w' made due) (named : Named w.registry.constructs) :
    Named w'.registry.constructs ∧
      ∀ key, due.count (.constructRegistered key.1 key.2 .created) +
        (w.registry.constructs.contains key).toNat = (w'.registry.constructs.contains key).toNat := by
  cases answers with
  | done performed =>
    refine ⟨?_, Job.count_created performed named⟩
    obtain ⟨needed, after⟩ := Job.perform_success performed
    rw [after]
    exact Job.apply_named named needed
  | nothing _ same =>
    rw [same]
    exact ⟨named, fun key => Nat.zero_add _⟩

/-- A step that tells nothing and does no job. -/
theorem Tells.silent (undone : made.bind Contact.success? = none)
    (same : w'.registry.constructs = w.registry.constructs) (events : w'.events = w.events)
    (idle : activity'.pending = activity.pending)
    (lives : activity'.life index begun = activity.life index begun) :
    Tells index begun activity w made activity' w' [] [] where
  events := by rw [events, List.append_nil]
  answers := .nothing undone same
  balance := by simp [idle]
  lives := by simp [lives]
  own := nofun

/-- A step that tells of its component. -/
theorem Tells.ofLife (event : DeploymentEvent) (own : event.index? = some index)
    (idle : activity'.pending = activity.pending)
    (lives : activity'.life index begun = activity.life index begun ++ [event]) :
    Tells index begun activity w none activity' (w.record settings event) [event] [] where
  events := rfl
  answers := .nothing rfl rfl
  balance := by
    intro e detail
    have untold : [event].count e = 0 := detail.count_eq_zero (by simp [own])
    rw [untold, idle, Nat.zero_add, List.count_nil, Nat.add_zero]
  lives := by simp [lives, own]
  own := by
    intro e member
    rw [List.mem_singleton.mp member]
    exact .inr own

/-- Every step tells what it must, unless its task breaks down where it reports its start. -/
theorem Step.tells (steady : settings.breaksDown ≠ some index)
    (planned : activity = .fresh → begun = [.subgraphStarted index])
    (detailed : ∀ e ∈ activity.pending, e.Detail)
    (step : Step settings index stages activity w made activity' w') :
    ∃ told due, Tells index begun activity w made activity' w' told due := by
  cases step with
  | breakDown broken => exact absurd broken steady
  | start => exact ⟨_, _, .ofLife (.subgraphStarted index) rfl rfl (planned rfl)⟩
  | @withhold work _ place attempt job =>
    obtain ⟨idle, lives⟩ := fail_untold index begun place job .cancelled work
    exact ⟨_, _, .silent rfl rfl rfl idle lives⟩
  | issue => exact ⟨_, _, .silent rfl rfl rfl rfl rfl⟩
  | @succeed work _ place attempt job answer registry listed performed =>
    obtain ⟨idle, lives⟩ := settle_untold index begun (job.event? answer)
      { work with current := work.current.eraseIdx place }
    refine ⟨[], (job.event? answer).toList, ?_⟩
    exact {
      events := (List.append_nil _).symm
      answers := .done performed
      balance := by simp [idle]
      lives := by simp [lives]
      own := nofun }
  | again _ performed => exact ⟨_, _, .silent rfl (Job.perform_failure performed) rfl rfl rfl⟩
  | @giveUp work _ place attempt job e _ _ performed =>
    obtain ⟨idle, lives⟩ := fail_untold index begun place job (.executor job.operation e) work
    exact ⟨_, _, .silent rfl (Job.perform_failure performed) rfl idle lives⟩
  | @announce work _ event =>
    have detail : event.Detail := detailed event List.mem_cons_self
    obtain ⟨idle, lives⟩ := ofWork_untold index begun work
    refine ⟨[event], [], ?_⟩
    exact {
      events := rfl
      answers := .nothing rfl rfl
      balance := by simp [idle]
      lives := by simp [lives, detail.index?]
      own := by simpa using .inl detail }
  | enter | finish => exact ⟨_, _, .silent rfl rfl rfl rfl rfl⟩
  | @close _ status =>
    exact ⟨_, _, .ofLife _ (DeploymentEvent.index?_ofStatus index status) rfl rfl⟩

/-- Components are about to tell only of the backend. -/
theorem Step.detailed (detailed : ∀ e ∈ activity.pending, e.Detail)
    (step : Step settings index stages activity w made activity' w') :
    ∀ e ∈ activity'.pending, e.Detail := by
  have nothing {activity : Activity} (idle : activity.pending = []) :
      ∀ e ∈ activity.pending, e.Detail := by simp [idle]
  cases step with
  | withhold | giveUp => exact nothing (fail_untold 0 [] ..).1
  | @succeed work _ place _ job answer =>
    intro e member
    rw [(settle_untold 0 [] ..).1, Option.mem_toList] at member
    exact Job.detail_of_event? member
  | announce => exact nothing (ofWork_untold 0 [] _).1
  | breakDown | start | issue | again | enter | finish | close => exact nothing rfl

end Activity

end RestWiring
