import RestWiring.Proofs.Deployment.Chronicle
import RestWiring.Proofs.Orchestration.Layout

/-!
# Events tell the story of the report

The events of a deployment begin and end with the deployment. In between they tell of every component how
it fares, as the report does, of every edge that is wired, and of every construct that is created, once
each, whatever turns the components take and however they end.
-/
namespace RestWiring

open DeploymentEvent (Detail)

/-! ## What a story is about -/

/-- Whether an event is told once if something is so, and never if it is not. -/
def Once (events : List DeploymentEvent) (e : DeploymentEvent) (so : Prop) : Prop :=
  events.count e ≤ 1 ∧ (e ∈ events ↔ so)

/-- What is told of a component on which a report says this. -/
inductive Lifecycle (dryRun : Bool) : SubgraphReport → List DeploymentEvent → Prop
  | planned {index : Nat} {plan : SubgraphPlan} (dry : dryRun = true) :
      Lifecycle dryRun ⟨index, some plan, .planned⟩ []
  | unplanned {index : Nat} {e : OrchestrationError} :
      Lifecycle dryRun ⟨index, none, .failed e⟩ [.subgraphFailed index e]
  | deployed {index : Nat} {plan : SubgraphPlan} (real : dryRun = false) :
      Lifecycle dryRun ⟨index, some plan, .deployed⟩ [.subgraphStarted index, .subgraphCompleted index]
  | failed {index : Nat} {plan : SubgraphPlan} {e : OrchestrationError} (real : dryRun = false) :
      Lifecycle dryRun ⟨index, some plan, .failed e⟩ [.subgraphStarted index, .subgraphFailed index e]
  | cancelled {index : Nat} {plan : SubgraphPlan} (real : dryRun = false) :
      Lifecycle dryRun ⟨index, some plan, .cancelled⟩ [.subgraphStarted index, .subgraphCancelled index]

/-- The identities of the functions at the ends of an edge. -/
def OrchestrationGraph.uids? (g : OrchestrationGraph) (e : String × String) :
    Option (String × String) :=
  (g.node? e.1).bind fun start => (g.node? e.2).map fun target => (start.uid, target.uid)

/-- Whether events tell the story of a report on a graph. -/
structure DeploymentReport.ToldBy (g : OrchestrationGraph) (channel : String)
    (report : DeploymentReport) (events : List DeploymentEvent) : Prop where
  framed : ∃ story, events =
      .deploymentStarted g.components.length report.dryRun :: story ++
        [.deploymentCompleted report.unfinished.length] ∧
    ∀ e ∈ story, e.Within g.components.length
  entries : report.subgraphs.map (fun r => (r.index, r.plan)) =
    (g.planned channel).map fun p => (p.1, p.2.2.toOption)
  lives : ∀ r ∈ report.subgraphs,
    Lifecycle report.dryRun r (events.filter (·.index? = some r.index))
  wired : g.DistinctUids → (∀ r ∈ report.subgraphs, r.status = .deployed) →
    ∃ ends : List (String × String), g.triggeringEdges.map (fun e => g.uids? e.1) = ends.map some ∧
      ends.Nodup ∧ ∀ start target, Once events (.edgeWired start target) ((start, target) ∈ ends)

/-- Whether events tell what constructs have been created. -/
def Creations (before after : Constructs) (events : List DeploymentEvent) : Prop :=
  ∀ kind name, Once events (.constructRegistered kind name .created)
    (before.contains (kind, name) = false ∧ after.contains (kind, name) = true)

/-- Whether a deployment that has begun in a world has told the story of its report, and of what has been
created if nobody else calls the backend. -/
def StoryTold (g : OrchestrationGraph) (channel : String) (w : World) (alone : Prop)
    (outcome : DeploymentReport × World) : Prop :=
  ∃ events, outcome.2.events = w.events ++ events ∧ outcome.1.ToldBy g channel events ∧
    (alone → Creations w.registry.constructs outcome.2.registry.constructs events)

variable {settings : DeploymentSettings} {channel deploymentId : String} {g c : OrchestrationGraph}
  {p : SubgraphPlan} {place : Nat} {w : World} {r : Runner} {mine : List Contact} {s : Recorded}
  {incidents : List Incident} {outcome : DeploymentReport × World} {d : Deployment}

/-! ## Lists that are put together of parts -/

section Lists

variable {α β : Type} {key : α → Nat} {as : List α} {is : List Nat}

/-- Items are those of each key, key by key. -/
theorem flatMap_filter_perm (nodup : is.Nodup) (inside : ∀ a ∈ as, key a ∈ is) :
    (is.flatMap fun i => as.filter (key · = i)).Perm as := by
  induction is generalizing as with
  | nil =>
    cases as with
    | nil => exact .nil
    | cons a as => cases inside a List.mem_cons_self
  | cons i is ih =>
    obtain ⟨new, nodup⟩ := List.nodup_cons.mp nodup
    let left := as.filter fun a => !decide (key a = i)
    have others : (is.flatMap fun j => as.filter (key · = j)) =
        is.flatMap fun j => left.filter (key · = j) := by
      refine List.flatMap_congr fun j member => ?_
      rw [List.filter_filter]
      refine List.filter_congr fun a _ => ?_
      have different : j ≠ i := fun same => new (same ▸ member)
      by_cases same : key a = j
      · simp [same, different]
      · simp [same]
    rw [List.flatMap_cons, others]
    have rest : (is.flatMap fun j => left.filter (key · = j)).Perm left := by
      refine ih nodup fun a member => ?_
      obtain ⟨listed, different⟩ := List.mem_filter.mp member
      exact (List.mem_cons.mp (inside a listed)).resolve_left (by simpa using different)
    exact (rest.append_left _).trans (List.filter_append_perm _ as)

/-- What is made of one item alone. -/
theorem flatMap_of_apart {f : α → List β} {i : Nat} {a : α} (found : as[i]? = some a)
    (apart : ∀ (j : Nat) b, as[j]? = some b → j ≠ i → f b = []) : as.flatMap f = f a := by
  induction as generalizing i with
  | nil => cases found
  | cons b as ih =>
    cases i with
    | zero =>
      cases found
      have nothing : as.flatMap f = [] := by
        apply List.flatMap_eq_nil_iff.mpr
        intro b member
        obtain ⟨j, there⟩ := List.getElem?_of_mem member
        exact apart (j + 1) b there (Nat.succ_ne_zero j)
      rw [List.flatMap_cons, nothing, List.append_nil]
    | succ i =>
      rw [List.flatMap_cons, apart 0 b rfl (Nat.succ_ne_zero i).symm, List.nil_append]
      exact ih found fun j b there different =>
        apart (j + 1) b there fun same => different (Nat.succ.inj same)

end Lists

/-! ## The end of a deployment -/

/-- What is told at the end of a task that broke down. -/
def EndedTask.late (t : EndedTask) : List DeploymentEvent :=
  if t.status.isNone then [.subgraphFailed t.index .task] else []

theorem conclude_events (settings : DeploymentSettings) (ended : List EndedTask) (w : World) :
    (conclude settings ended w).2.events = w.events ++ ended.flatMap EndedTask.late := by
  induction ended generalizing w with
  | nil => simp [conclude]
  | cons t rest ih =>
    obtain ⟨index, plan, status⟩ := t
    cases status with
    | some status => simpa [conclude, EndedTask.late] using ih w
    | none => simp [conclude, EndedTask.late, ih, World.record]

theorem Runner.ended?_eq_some {t : EndedTask} (ended : r.ended? = some t) :
    r.activity = .over t.status ∧ t.index = r.index ∧ t.plan = r.plan := by
  unfold ended? at ended
  split at ended
  · rename_i status closed
    cases ended
    exact ⟨closed, rfl, rfl⟩
  · cases ended

/-- What is told and reported when all tasks are over. -/
theorem Deployment.outcome?_told (ended : d.outcome? settings deploymentId channel = some outcome) :
    ∃ tasks : List EndedTask, d.runners.map Runner.ended? = tasks.map some ∧
      outcome.1.dryRun = false ∧ outcome.1.subgraphs = tasks.map EndedTask.report ∧
      outcome.2.events = d.world.events ++ tasks.flatMap EndedTask.late ++
        [.deploymentCompleted outcome.1.unfinished.length] ∧
      outcome.2.registry = d.world.registry := by
  obtain ⟨tasks, ends, equal⟩ := Option.bind_eq_some_iff.mp ended
  cases equal
  obtain ⟨reports, registry⟩ := conclude_spec settings tasks d.world
  have each : d.runners.map Runner.ended? = tasks.map some := by
    rw [← List.forall₂_eq_eq_eq, List.forall₂_map_left_iff, List.forall₂_map_right_iff]
    exact mapM_eq_some_iff.mp ends
  refine ⟨tasks, each, rfl, reports, ?_, registry⟩
  rw [← conclude_events settings tasks d.world]
  rfl

theorem Deployment.length_of_assigned
    (assigned : d.runners.map Runner.assignment = (g.planned channel).map assignmentOf) :
    d.runners.length = g.components.length := by
  simpa using congrArg List.length assigned

/-- What is told of a component that is over is what is reported. -/
theorem Proceeds.lifecycle (proceeds : Proceeds place r mine) {t : EndedTask}
    (ended : r.ended? = some t) : Lifecycle false t.report (r.life ++ t.late) := by
  obtain ⟨numbered, unplanned, -, settles, -⟩ := proceeds
  obtain ⟨closed, index, plan⟩ := Runner.ended?_eq_some ended
  obtain ⟨_, _, stages, activity⟩ := r
  obtain ⟨i, p?, status⟩ := t
  dsimp only at closed index plan unplanned settles
  subst closed index plan
  cases p? with
  | none =>
    obtain ⟨e, closing | closed⟩ := unplanned rfl
    · cases closing
    · cases closed
      exact .unplanned
  | some p =>
    cases status with
    | none => exact .failed rfl
    | some status =>
      cases status with
      | planned => exact absurd rfl settles
      | deployed => exact .deployed rfl
      | failed e => exact .failed rfl
      | cancelled => exact .cancelled rfl

/-! ## What lies between the start and the end -/

/-- A story between the start and the end of a deployment. -/
def framed (n : Nat) (dryRun : Bool) (story : List DeploymentEvent) (unfinished : Nat) :
    List DeploymentEvent :=
  .deploymentStarted n dryRun :: story ++ [.deploymentCompleted unfinished]

section Framed

variable {n unfinished : Nat} {dryRun : Bool} {story : List DeploymentEvent}

theorem filter_framed (i : Nat) :
    (framed n dryRun story unfinished).filter (·.index? = some i) =
      story.filter (·.index? = some i) := by
  have start : ¬ (DeploymentEvent.deploymentStarted n dryRun).index? = some i := nofun
  have finish : ¬ (DeploymentEvent.deploymentCompleted unfinished).index? = some i := nofun
  simp [framed, start, finish]

theorem count_framed {e : DeploymentEvent} (detail : e.Detail) :
    (framed n dryRun story unfinished).count e = story.count e := by
  have start : DeploymentEvent.deploymentStarted n dryRun ≠ e := by
    rintro rfl
    exact detail
  have finish : e ∉ [DeploymentEvent.deploymentCompleted unfinished] := by
    rw [List.mem_singleton]
    rintro rfl
    exact detail
  rw [framed, List.cons_append, List.count_cons_of_ne start, List.count_append,
    List.count_eq_zero_of_not_mem finish, Nat.add_zero]

end Framed

/-! ## What the components of a deployment add to its story -/

section Placed

variable {α : Type} {items : List α} {index : α → Nat} {tells : α → List DeploymentEvent}
  (placed : ∀ {i : Nat} {a : α}, items[i]? = some a → index a = i)
  (own : ∀ a, ∀ e ∈ tells a, e.index? = some (index a))
include own

theorem count_flatMap_own {e : DeploymentEvent} (detail : e.Detail) :
    (items.flatMap tells).count e = 0 := by
  refine detail.count_eq_zero fun e' member => ?_
  obtain ⟨a, -, told⟩ := List.mem_flatMap.mp member
  simp [own a e' told]

include placed

theorem within_of_mem_flatMap {e : DeploymentEvent} (member : e ∈ items.flatMap tells) :
    e.Within items.length := by
  obtain ⟨a, listed, told⟩ := List.mem_flatMap.mp member
  obtain ⟨i, found⟩ := List.getElem?_of_mem listed
  refine DeploymentEvent.within_of_index? (own a e told) ?_
  rw [placed found]
  exact (List.getElem?_eq_some_iff.mp found).1

/-- Of each component is told what it tells itself. -/
theorem filter_flatMap_placed {i : Nat} {a : α} (found : items[i]? = some a) :
    (items.flatMap tells).filter (·.index? = some i) = tells a := by
  rw [List.filter_flatMap, flatMap_of_apart found]
  · apply List.filter_eq_self.mpr
    intro e member
    rw [own a e member, placed found]
    exact decide_eq_true rfl
  · intro j b found' different
    apply List.filter_eq_nil_iff.mpr
    intro e member here
    rw [own b e member, placed found'] at here
    exact different (Option.some.inj (of_decide_eq_true here))

end Placed

theorem EndedTask.index?_of_mem_late (t : EndedTask) : ∀ e ∈ t.late, e.index? = some t.index := by
  unfold late
  split <;> simp [DeploymentEvent.index?]

/-! ## Edges -/

namespace OrchestrationGraph

theorem flatten_stages (c : OrchestrationGraph) (p : SubgraphPlan) :
    (stages c p).flatten = p.sinks.map Job.sink ++
      (c.nodes.values.map fun n => Job.function n.deployment) ++ p.steps.map Job.step := by
  rw [stages, List.flatten_filter_not_isEmpty, List.flatten_append, List.flatten_cons,
    ← List.flatMap_def, ← List.flatMap_def, ← List.map_eq_flatMap, ← List.map_eq_flatMap]

/-- The edges that a component wires are its triggering edges. -/
theorem stages_edges (member : c ∈ g.components)
    (success : SubgraphPlan.build place c channel = .ok p) :
    (stages c p).flatten.filterMap Job.edge? = c.triggeringEdges.filterMap fun e => g.uids? e.1 := by
  have steps : (stages c p).flatten.filterMap Job.edge? =
      p.steps.filterMap fun step => (Job.step step).edge? := by
    rw [flatten_stages, List.filterMap_append, List.filterMap_append]
    simp [List.filterMap_map, Function.comp_def, Job.edge?]
  have subscriptions : (p.steps.filterMap fun step => (Job.step step).edge?) =
      p.subscriptions.map fun s => ((s.2.args.find? SubgraphPlan.sourceAttribute).getD "", s.1) := by
    rw [SubgraphPlan.subscriptions, List.map_filterMap]
    refine List.filterMap_congr fun step _ => ?_
    cases step <;> rfl
  have laid := (laidOut_of_build member success).subscribed
  rw [steps, subscriptions]
  generalize c.triggeringEdges = edges at laid ⊢
  generalize p.subscriptions = subs at laid
  induction laid with
  | nil => rfl
  | @cons e s edges subs subscribed _ ih =>
    obtain ⟨target, second, function⟩ := subscribed.function
    obtain ⟨start, first, args⟩ := subscribed.args
    have source : s.2.args.find? SubgraphPlan.sourceAttribute = some start.uid :=
      SortedMap.mem_entries.mp (by rw [args]; exact List.mem_singleton_self _)
    have ends : g.uids? e.1 = some (start.uid, s.1) := by
      rw [uids?, first, second, function]
      rfl
    rw [List.map_cons, List.filterMap_cons, ends, source, ih]
    rfl

/-- The edges of a graph have functions at their ends. -/
theorem map_uids (formed : g.WellFormed) :
    g.triggeringEdges.map (fun e => g.uids? e.1) =
      (g.triggeringEdges.filterMap fun e => g.uids? e.1).map some := by
  rw [List.map_filterMap_some_eq_filter_map_isSome, eq_comm, List.filter_eq_self]
  intro uids listed
  obtain ⟨e, member, rfl⟩ := List.mem_map.mp listed
  have found := SortedMap.mem_entries.mp (List.mem_filter.mp member).1
  have ends := formed.ends (SortedMap.contains_iff.mpr ⟨_, found⟩)
  obtain ⟨start, here⟩ := SortedMap.contains_iff.mp ends.1
  obtain ⟨target, there⟩ := SortedMap.contains_iff.mp ends.2
  have first : g.node? e.1.1 = some start := here
  have second : g.node? e.1.2 = some target := there
  rw [uids?, first, second]
  rfl

/-- No two edges have functions of the same identities at their ends. -/
theorem uids_nodup (distinct : g.DistinctUids) :
    (g.triggeringEdges.filterMap fun e => g.uids? e.1).Nodup := by
  have keys : (g.triggeringEdges.map Prod.fst).Nodup :=
    g.edges.keys_nodup.sublist (List.filter_sublist.map Prod.fst)
  have ends := keys.filterMap (f := g.uids?) fun a b uids first second => by
    obtain ⟨n, found, rest⟩ := Option.bind_eq_some_iff.mp first
    obtain ⟨m, found', rfl⟩ := Option.map_eq_some_iff.mp rest
    obtain ⟨n', found₂, rest'⟩ := Option.bind_eq_some_iff.mp second
    obtain ⟨m', found₂', same⟩ := Option.map_eq_some_iff.mp rest'
    obtain ⟨start, target⟩ := Prod.mk.inj same
    exact Prod.ext (distinct found found₂ start.symm) (distinct found' found₂' target.symm)
  rwa [List.filterMap_map] at ends

end OrchestrationGraph

theorem OrchestrationGraph.triggeringEdges_perm (formed : g.WellFormed) :
    (g.components.flatMap (·.triggeringEdges)).Perm g.triggeringEdges := by
  have edges := (OrchestrationGraph.components_edges_perm formed).filter (·.2.triggers)
  rwa [List.filter_flatMap] at edges

/-- When all components are deployed, the edges that have been wired are those that trigger. -/
theorem Recorded.wired_perm (formed : g.WellFormed) (proceeds : s.Throughout Proceeds)
    (assigned : s.deployment.runners.map Runner.assignment = (g.planned channel).map assignmentOf)
    (placed : ∀ entry ∈ s.log, entry.1 < s.deployment.runners.length)
    (all : ∀ {place : Nat} {r : Runner}, s.deployment.runners[place]? = some r →
      r.activity = .over (some .deployed)) :
    s.wired.Perm (g.triggeringEdges.filterMap fun e => g.uids? e.1) := by
  have count := Deployment.length_of_assigned assigned
  have shared : ((List.range g.components.length).flatMap fun i =>
      s.log.filter (·.1 = i)).Perm s.log := by
    refine flatMap_filter_perm List.nodup_range fun entry member => ?_
    rw [List.mem_range, ← count]
    exact placed entry member
  refine ((shared.filterMap _).symm.trans ?_).trans
    ((OrchestrationGraph.triggeringEdges_perm formed).filterMap _)
  -- Component by component, the jobs done are those of its stages, in some order.
  rw [List.filterMap_flatMap, List.filterMap_flatMap, ← g.planned_indices channel,
    ← g.planned_components channel, List.flatMap_map, List.flatMap_map]
  refine List.Perm.flatMap_left _ fun part listed => ?_
  obtain ⟨i, c, result⟩ := part
  obtain ⟨r, found, assignment⟩ := Deployment.exists_runner_of_part assigned
    (OrchestrationGraph.getElem?_planned listed)
  have proceeds := proceeds i r found
  have closed := all found
  have follows : Linearises r.stages (doneBy s.log i) := by
    rcases proceeds.follows with broken | follows
    · cases closed.symm.trans broken
    · rw [closed] at follows
      exact follows
  have done : (s.log.filter (·.1 = i)).filterMap (fun entry => entry.2.success?.bind Job.edge?) =
      (doneBy s.log i).filterMap Job.edge? := by
    simp [doneBy, contactsOf, List.filterMap_map, List.filterMap_filterMap]
  cases result with
  | error e =>
    obtain ⟨e, closing | failed⟩ := proceeds.unplanned (congrArg (·.2.1) assignment)
    · cases closed.symm.trans closing
    · cases closed.symm.trans failed
  | ok p =>
    obtain ⟨member, success⟩ := OrchestrationGraph.mem_planned listed
    have staged : r.stages = stages c p := congrArg (·.2.2) assignment
    dsimp only
    rw [done, ← OrchestrationGraph.stages_edges member success.symm, ← staged]
    exact follows.perm.filterMap _

/-! ## The story as a whole -/

section Once

variable {events : List DeploymentEvent} {e : DeploymentEvent}

/-- What is told as often as something is listed that is not listed twice. -/
theorem once_of_nodup {α : Type} [BEq α] [LawfulBEq α] {as : List α} {a : α} (nodup : as.Nodup)
    (same : events.count e = as.count a) : Once events e (a ∈ as) := by
  constructor
  · rw [same]
    exact List.nodup_iff_count_le_one.mp nodup a
  · rw [← List.count_pos_iff, same, List.count_pos_iff]

/-- What is told as often as something comes to be so. -/
theorem once_of_balance {before after : Bool}
    (balance : events.count e + before.toNat = after.toNat) :
    Once events e (before = false ∧ after = true) := by
  constructor
  · have bound := after.toNat_le
    omega
  · rw [← List.count_pos_iff]
    cases before <;> cases after <;>
      simp only [Bool.toNat_true, Bool.toNat_false, reduceCtorEq, and_true, and_false, iff_true,
        iff_false] at balance ⊢ <;> omega

end Once

/-! ## What is told when all tasks are over -/

section Ended

variable {tasks : List EndedTask}

/-- Every task that is over is that of a component. -/
theorem exists_runner_of_task (each : d.runners.map Runner.ended? = tasks.map some) {t : EndedTask}
    (found : tasks[place]? = some t) : ∃ r, d.runners[place]? = some r ∧ r.ended? = some t := by
  have same := congrArg (·[place]?) each
  simp only [List.getElem?_map, found, Option.map_some] at same
  exact Option.map_eq_some_iff.mp same

theorem exists_task_of_runner (each : d.runners.map Runner.ended? = tasks.map some)
    (member : r ∈ d.runners) : ∃ t ∈ tasks, r.ended? = some t := by
  obtain ⟨t, listed, ended⟩ := List.mem_map.mp (each ▸ List.mem_map_of_mem member)
  exact ⟨t, listed, ended.symm⟩

namespace Recorded

theorem index_of_task (proceeds : s.Throughout Proceeds)
    (each : s.deployment.runners.map Runner.ended? = tasks.map some) {t : EndedTask}
    (found : tasks[place]? = some t) : t.index = place := by
  obtain ⟨r, here, ended⟩ := exists_runner_of_task each found
  exact (Runner.ended?_eq_some ended).2.1.trans (proceeds place r here).numbered

/-- Nothing is left to be told. -/
theorem pending_of_ended (each : s.deployment.runners.map Runner.ended? = tasks.map some)
    (e : DeploymentEvent) : s.pending e = 0 := by
  refine pending_eq_zero (fun r member => ?_) e
  obtain ⟨t, -, ended⟩ := exists_task_of_runner each member
  rw [(Runner.ended?_eq_some ended).1]
  rfl

namespace Chronicle

variable {alone : Prop} {story : List DeploymentEvent} (chronicle : s.Chronicle w alone story)
  (each : s.deployment.runners.map Runner.ended? = tasks.map some)
include chronicle each

theorem lives_told (proceeds : s.Throughout Proceeds) {t : EndedTask} (member : t ∈ tasks) :
    Lifecycle false t.report
      ((story ++ tasks.flatMap EndedTask.late).filter (·.index? = some t.report.index)) := by
  have placed {i : Nat} {t : EndedTask} (found : tasks[i]? = some t) : t.index = i :=
    index_of_task proceeds each found
  obtain ⟨place, found⟩ := List.getElem?_of_mem member
  obtain ⟨r, here, ended⟩ := exists_runner_of_task each found
  have index : t.report.index = place := placed found
  rw [index, List.filter_append, ← chronicle.lives here,
    filter_flatMap_placed placed EndedTask.index?_of_mem_late found]
  exact (proceeds place r here).lifecycle ended

/-- If all components have been deployed, all edges have been told of. -/
theorem wired_told (formed : g.WellFormed) (proceeds : s.Throughout Proceeds)
    (assigned : s.deployment.runners.map Runner.assignment = (g.planned channel).map assignmentOf)
    (placed : ∀ entry ∈ s.log, entry.1 < s.deployment.runners.length)
    (deployed : ∀ t ∈ tasks, t.report.status = .deployed) (start target : String) :
    story.count (.edgeWired start target) =
      (g.triggeringEdges.filterMap fun e => g.uids? e.1).count (start, target) := by
  have all {place : Nat} {r : Runner} (here : s.deployment.runners[place]? = some r) :
      r.activity = .over (some .deployed) := by
    obtain ⟨t, member, ended⟩ := exists_task_of_runner each (List.mem_of_getElem? here)
    have status : t.status.getD (.failed .task) = .deployed := deployed t member
    rw [(Runner.ended?_eq_some ended).1]
    cases finished : t.status with
    | none => simp [finished] at status
    | some status' => simpa [finished] using status
  have balance := chronicle.wired start target
  rwa [pending_of_ended each, Nat.add_zero,
    (wired_perm formed proceeds assigned placed all).count_eq] at balance

/-- What has been created has been told of. -/
theorem created_told (own : alone) (key : ConstructKey) :
    story.count (.constructRegistered key.1 key.2 .created) +
      (w.registry.constructs.contains key).toNat = (s.constructs.contains key).toNat := by
  have balance := (chronicle.created own).2 key
  rwa [pending_of_ended each, Nat.add_zero] at balance

end Chronicle

/-- A deployment that has told a story ends with the story of its report. -/
theorem Chronicle.storyTold {alone : Prop} {story : List DeploymentEvent}
    (chronicle : s.Chronicle w alone story) (formed : g.WellFormed)
    (proceeds : s.Throughout Proceeds)
    (assigned : s.deployment.runners.map Runner.assignment = (g.planned channel).map assignmentOf)
    (placed : ∀ entry ∈ s.log, entry.1 < s.deployment.runners.length)
    (ended : s.deployment.outcome? settings deploymentId channel = some outcome) :
    StoryTold g channel w alone outcome := by
  obtain ⟨tasks, each, real, reports, told, registry⟩ := Deployment.outcome?_told ended
  have size := Deployment.length_of_assigned assigned
  have length : tasks.length = g.components.length := by
    rw [← size]
    simpa using (congrArg List.length each).symm
  have counted {e : DeploymentEvent} (detail : e.Detail) :
      (framed g.components.length false (story ++ tasks.flatMap EndedTask.late)
        outcome.1.unfinished.length).count e = story.count e := by
    rw [count_framed detail, List.count_append,
      count_flatMap_own EndedTask.index?_of_mem_late detail, Nat.add_zero]
  refine ⟨framed g.components.length false (story ++ tasks.flatMap EndedTask.late)
    outcome.1.unfinished.length, ?_, ?_, fun own kind name => ?_⟩
  · rw [told, chronicle.events, size]
    simp [framed]
  · exact {
      framed := by
        refine ⟨_, by rw [real]; rfl, fun e member => ?_⟩
        rcases List.mem_append.mp member with earlier | late
        · exact size ▸ chronicle.within e earlier
        · exact length ▸
            within_of_mem_flatMap (index_of_task proceeds each) EndedTask.index?_of_mem_late late
      entries := by
        rw [Deployment.outcome?_places assigned ended]
        refine List.map_congr_left fun part _ => ?_
        obtain ⟨index, component, result⟩ := part
        cases result <;> rfl
      lives := by
        intro report listed
        rw [reports] at listed
        obtain ⟨t, member, rfl⟩ := List.mem_map.mp listed
        rw [real, filter_framed]
        exact chronicle.lives_told each proceeds member
      wired := by
        intro distinct deployed
        have nodup := OrchestrationGraph.uids_nodup distinct
        refine ⟨_, OrchestrationGraph.map_uids formed, nodup, fun start target =>
          once_of_nodup nodup ((counted (e := .edgeWired start target) trivial).trans ?_)⟩
        refine chronicle.wired_told each formed proceeds assigned placed (fun t member => ?_) start target
        exact deployed t.report (reports ▸ List.mem_map_of_mem member) }
  · have balance := chronicle.created_told each own (kind, name)
    rw [← counted (e := .constructRegistered kind name .created) trivial] at balance
    rw [registry]
    exact once_of_balance balance

end Recorded

end Ended

/-! ## Dry runs -/

/-- What is told of a component before its task starts. -/
def refusal : Nat × OrchestrationGraph × Except OrchestrationError SubgraphPlan →
    List DeploymentEvent
  | (index, _, .error e) => [.subgraphFailed index e]
  | (_, _, .ok _) => []

theorem index?_of_mem_refusal
    (part : Nat × OrchestrationGraph × Except OrchestrationError SubgraphPlan) :
    ∀ e ∈ refusal part, e.index? = some part.1 := by
  obtain ⟨index, component, result⟩ := part
  cases result <;> simp [refusal, DeploymentEvent.index?]

/-- Dry runs tell nothing of the backend. -/
theorem count_framed_refusal {n unfinished : Nat} {e : DeploymentEvent}
    (planned : List (Nat × OrchestrationGraph × Except OrchestrationError SubgraphPlan))
    (detail : e.Detail) : (framed n true (planned.flatMap refusal) unfinished).count e = 0 := by
  rw [count_framed detail, count_flatMap_own index?_of_mem_refusal detail]

theorem prospects_events (settings : DeploymentSettings)
    (planned : List (Nat × OrchestrationGraph × Except OrchestrationError SubgraphPlan)) (w : World) :
    (prospects settings true planned w).2.2.events = w.events ++ planned.flatMap refusal := by
  induction planned generalizing w with
  | nil => simp [prospects]
  | cons part rest ih =>
    obtain ⟨index, component, result⟩ := part
    cases result with
    | error e => simp [prospects, refusal, ih, World.record]
    | ok plan => simp [prospects, refusal, ih]

theorem deploy_dryRun_events (settings : DeploymentSettings) (deploymentId channel : String)
    (g : OrchestrationGraph) (w : World) :
    (deploy settings deploymentId true channel g w).2.1.events = w.events ++
      framed g.components.length true ((g.planned channel).flatMap refusal)
        (deploy settings deploymentId true channel g w).1.unfinished.length := by
  obtain ⟨-, tasks, -⟩ := @prospects_dryRun settings (g.planned channel)
    (w.record settings (.deploymentStarted (g.planned channel).length true))
  unfold deploy
  simp only [tasks, List.foldl_nil, Schedule.run_idle, List.foldr_nil, conclude]
  -- The report is told at the end, whatever it says.
  generalize DeploymentReport.unfinished _ = unfinished
  simp only [World.record, framed, prospects_events, OrchestrationGraph.length_planned,
    List.append_assoc, List.cons_append, List.nil_append]

theorem deploy_dryRun_toldBy (settings : DeploymentSettings) (deploymentId channel : String)
    (formed : g.WellFormed) (w : World) :
    (deploy settings deploymentId true channel g w).1.ToldBy g channel
      (framed g.components.length true ((g.planned channel).flatMap refusal)
        (deploy settings deploymentId true channel g w).1.unfinished.length) := by
  have reports := (deploy_dryRun settings deploymentId channel g w).1
  have placed {i : Nat} {part : Nat × OrchestrationGraph × Except OrchestrationError SubgraphPlan}
      (found : (g.planned channel)[i]? = some part) : part.1 = i :=
    OrchestrationGraph.index_of_getElem?_planned found
  have dry : (deploy settings deploymentId true channel g w).1.dryRun = true := rfl
  exact {
    framed := ⟨_, rfl, fun e member => OrchestrationGraph.length_planned g channel ▸
      within_of_mem_flatMap placed index?_of_mem_refusal member⟩
    entries := by
      rw [reports, List.map_map]
      refine List.map_congr_left fun part _ => ?_
      obtain ⟨index, component, result⟩ := part
      cases result <;> rfl
    lives := by
      intro report listed
      rw [reports] at listed
      obtain ⟨part, member, rfl⟩ := List.mem_map.mp listed
      have found := OrchestrationGraph.getElem?_planned member
      rw [dry, dryReport_index, filter_framed,
        filter_flatMap_placed placed index?_of_mem_refusal found]
      obtain ⟨index, component, result⟩ := part
      cases result with
      | error e => exact .unplanned
      | ok plan => exact .planned rfl
    wired := by
      intro _ deployed
      -- A dry run deploys nothing, so that there is nothing to wire.
      have nothing : g.planned channel = [] := by
        refine List.eq_nil_iff_forall_not_mem.mpr fun part member => ?_
        have status := deployed (dryReport part) (reports ▸ List.mem_map_of_mem member)
        obtain ⟨index, component, result⟩ := part
        cases result <;> cases status
      have empty : g.components = [] := by
        rw [← List.length_eq_zero_iff, ← g.length_planned channel, nothing, List.length_nil]
      have edges : g.triggeringEdges = [] := by
        have perm := OrchestrationGraph.triggeringEdges_perm formed
        rw [empty, List.flatMap_nil] at perm
        exact perm.nil_eq.symm
      refine ⟨[], by rw [edges]; rfl, List.nodup_nil, fun start target => ?_⟩
      exact once_of_nodup List.nodup_nil (count_framed_refusal _ trivial) }

/-- A dry run tells of the components that cannot be planned, and creates nothing. -/
theorem deploy_dryRun_storyTold (settings : DeploymentSettings) (deploymentId channel : String)
    (formed : g.WellFormed) (w : World) :
    StoryTold g channel w True
      ((deploy settings deploymentId true channel g w).1,
        (deploy settings deploymentId true channel g w).2.1) := by
  refine ⟨_, deploy_dryRun_events settings deploymentId channel g w,
    deploy_dryRun_toldBy settings deploymentId channel formed w, fun _ kind name => ?_⟩
  rw [(deploy_dryRun settings deploymentId channel g w).2]
  refine once_of_balance ?_
  rw [count_framed_refusal _ (e := .constructRegistered kind name .created) trivial, Nat.zero_add]

/-! ## Deployments -/

theorem Recorded.storyTold (built : g.Built) (backend : w.registry.Built)
    (steady : settings.breaksDown = none)
    (admitted : (Recorded.begin settings channel g w).AdmitsAll settings incidents)
    (befallen : (Recorded.begin settings channel g w).befallAll? settings incidents = some s)
    (ended : s.deployment.outcome? settings deploymentId channel = some outcome) :
    StoryTold g channel w (∀ x ∈ incidents, ¬ x.Foreign) outcome := by
  obtain ⟨proceeds, story, chronicle⟩ :=
    Chronicle.exists_of_befallAll? steady backend.named id admitted befallen
  exact chronicle.storyTold built.wellFormed proceeds (befallAll?_assigned befallen)
    (befallAll?_placed befallen) ended

/-- The events tell the story of the report, if those who are told of them do not fail. This is so for
dry runs, for the program's own schedule, and whatever else may come upon a deployment: its components
take any turns, it is cancelled, tasks break down while they work, the backend refuses calls or is called
by others. The first event tells how many components there are, the last how many of them failed or were
cancelled. Of each component is told what its report says, and no more. If the functions have identities of
their own and all components are deployed, every edge that triggers has been told of once. The constructs
that have been created, if nobody else calls the backend, are those that it has and did not have; of each
it is told once that it has been created. -/
theorem events_tell_reports (built : g.Built) (backend : w.registry.Built)
    (steady : settings.breaksDown = none) (deploymentId channel : String) :
    (∀ dryRun, StoryTold g channel w True
      ((deploy settings deploymentId dryRun channel g w).1,
        (deploy settings deploymentId dryRun channel g w).2.1)) ∧
    ∀ incidents s outcome, (Recorded.begin settings channel g w).AdmitsAll settings incidents →
      (Recorded.begin settings channel g w).befallAll? settings incidents = some s →
      s.deployment.outcome? settings deploymentId channel = some outcome →
      StoryTold g channel w (∀ x ∈ incidents, ¬ x.Foreign) outcome := by
  refine ⟨fun dryRun => ?_, fun incidents s outcome admitted befallen ended =>
    Recorded.storyTold built backend steady admitted befallen ended⟩
  cases dryRun with
  | true => exact deploy_dryRun_storyTold settings deploymentId channel built.wellFormed w
  | false =>
    obtain ⟨turns, s, befallen, ended⟩ :=
      Recorded.deploy_turns settings deploymentId channel g w
    obtain ⟨events, told, report, creations⟩ := Recorded.storyTold built backend steady
      (Recorded.admitsAll_happenings _ _) befallen ended
    refine ⟨events, told, report, fun _ => creations fun x member => ?_⟩
    rw [List.map_map] at member
    obtain ⟨turn, -, rfl⟩ := List.mem_map.mp member
    exact id

/-- Of a component with a function that the backend refuses, the events tell how it fails. -/
theorem events_tell_reports_relays :
    ∃ g events, OrchestrationGraph.relays = some g ∧
      (deploy {} "first" false "done" g
        { registry := Registry.inject {} "indexer" none }).2.1.events = events ∧
      events.filter (·.index? = some 1) =
        [.subgraphStarted 1, .subgraphFailed 1 (.executor "register function"
          (.backend "indexer" "injected failure" false))] := by
  obtain ⟨g, plan, relays, built, -⟩ := OrchestrationGraph.exists_relays
  have second : (OrchestrationGraph.relays.map fun g =>
      (deploy {} "first" false "done" g
        { registry := Registry.inject {} "indexer" none }).1.subgraphs[1]?.map fun report =>
          (report.index, report.plan.isSome, report.status)) =
      some (some (1, true, .failed (.executor "register function"
        (.backend "indexer" "injected failure" false)))) := by decide +kernel
  rw [relays, Option.map_some, Option.some_inj] at second
  obtain ⟨report, reported, equal⟩ := Option.map_eq_some_iff.mp second
  obtain ⟨told, -⟩ := @events_tell_reports {} g { registry := Registry.inject {} "indexer" none }
    built (.inject .empty "indexer" none) rfl "first" "done"
  obtain ⟨events, all, story, -⟩ := told false
  refine ⟨g, events, relays, all, ?_⟩
  have life := story.lives report (List.mem_of_getElem? reported)
  obtain ⟨index, plan, status⟩ := report
  obtain ⟨rfl, planned, rfl⟩ : index = 1 ∧ plan.isSome = true ∧ status = _ := by
    simpa only [Prod.mk.injEq] using equal
  dsimp only at life
  generalize events.filter (·.index? = some 1) = lifecycle at life ⊢
  cases life with
  | failed => rfl
  | unplanned => cases planned

end RestWiring
