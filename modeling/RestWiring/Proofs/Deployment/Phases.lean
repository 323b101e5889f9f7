import RestWiring.Proofs.Deployment.PlannedJobs

/-!
# Phases

A component is deployed in three phases: its sinks side by side, then its functions one by one, then its
wiring steps one by one, of which the first sets up the channel. The jobs that a component has done
tell which of its jobs may come next.
-/
namespace RestWiring

variable {c : OrchestrationGraph} {p : SubgraphPlan} {channel : String} {index : Nat}
  {stages later : List (List Job)} {stage done jobs : List Job} {job : Job} {work : Work}

/-- The jobs that register the functions of a component, in order. -/
def functionJobs (c : OrchestrationGraph) : List Job :=
  c.nodes.values.map fun n => .function n.deployment

/-- Whether a job comes next in its phase, when these jobs are done and no other ones. -/
inductive Due (c : OrchestrationGraph) (p : SubgraphPlan) : List Job → Job → Prop
  | sink {done rest : List Job} {s : SinkPlan} (some : (done ++ rest).Perm (p.sinks.map .sink))
      (left : .sink s ∈ rest) : Due c p done (.sink s)
  | function {sinks earlier later : List Job} {f : FunctionDeployment}
      (all : sinks.Perm (p.sinks.map .sink))
      (next : functionJobs c = earlier ++ .function f :: later) :
      Due c p (sinks ++ earlier) (.function f)
  | step {sinks : List Job} {earlier later : List WiringStep} {s : WiringStep}
      (all : sinks.Perm (p.sinks.map .sink)) (next : p.steps = earlier ++ s :: later) :
      Due c p (sinks ++ functionJobs c ++ earlier.map .step) (.step s)

/-- Functions and steps come after all sinks. -/
theorem Due.sinks (due : Due c p done job) (beyond : ∀ s, job ≠ .sink s) :
    ∀ s ∈ p.sinks, .sink s ∈ done := by
  intro s member
  have inside {sinks : List Job} (all : sinks.Perm (p.sinks.map .sink)) : Job.sink s ∈ sinks :=
    all.symm.subset (List.mem_map_of_mem member)
  cases due with
  | sink => exact absurd rfl (beyond _)
  | function all => exact List.mem_append_left _ (inside all)
  | step all => exact List.mem_append_left _ (List.mem_append_left _ (inside all))

/-- Steps come after all functions. -/
theorem Due.functions {s : WiringStep} (due : Due c p done (.step s)) :
    ∀ n ∈ c.nodes.values, .function n.deployment ∈ done := by
  intro n member
  cases due with
  | step all next =>
    exact List.mem_append_left _ (List.mem_append_right _ (List.mem_map.mpr ⟨n, member, rfl⟩))

/-- Every other step comes after the one that sets up the channel. -/
theorem Due.ensured {s : WiringStep} (due : Due c p done (.step s))
    (success : SubgraphPlan.build index c channel = .ok p) :
    s = .ensureChannel channel ∨ .step (.ensureChannel channel) ∈ done := by
  obtain ⟨edges, -, -, rfl⟩ := SubgraphPlan.build_success_iff.mp success
  cases due with
  | @step sinks earlier later _ all next =>
    have split : SubgraphPlan.wiring channel edges = earlier ++ s :: later := next
    rcases SubgraphPlan.wiring_cases channel edges with empty | ⟨steps, equal⟩
    · rw [empty] at split
      simp at split
    · rw [equal] at split
      cases earlier with
      | nil =>
        cases split
        exact .inl rfl
      | cons first earlier =>
        cases split
        exact .inr (List.mem_append_right _ List.mem_cons_self)

/-! ## Stages and phases -/

namespace Linearises

theorem append_iff : Linearises (stages ++ later) done ↔
    ∃ first second, done = first ++ second ∧ Linearises stages first ∧ Linearises later second := by
  constructor
  · intro linear
    induction stages generalizing done with
    | nil => exact ⟨[], done, rfl, .nil, linear⟩
    | cons stage stages ih =>
      obtain ⟨now, rest, rfl, permuted, behind⟩ := cons_iff.mp linear
      obtain ⟨first, second, rfl, earlier, last⟩ := ih behind
      exact ⟨now ++ first, second, (List.append_assoc ..).symm, .cons permuted earlier, last⟩
  · rintro ⟨first, second, rfl, earlier, last⟩
    exact earlier.append last

/-- Jobs that have stages to themselves are done in order. -/
theorem eq_of_alone (linear : Linearises (jobs.map fun job => [job]) done) : done = jobs := by
  induction jobs generalizing done with
  | nil =>
    cases linear
    rfl
  | cons job jobs ih =>
    obtain ⟨now, rest, rfl, permuted, behind⟩ := cons_iff.mp linear
    rw [List.perm_singleton.mp permuted, ih behind]
    rfl

end Linearises

/-- The stage of the sinks, unless there are none. -/
def sinkStage (p : SubgraphPlan) : List (List Job) := [p.sinks.map Job.sink].filter (!·.isEmpty)

theorem stages_eq (c : OrchestrationGraph) (p : SubgraphPlan) :
    RestWiring.stages c p = sinkStage p ++ ((functionJobs c).map (fun job => [job]) ++
      (p.steps.map Job.step).map fun job => [job]) := by
  have alone (jobs : List Job) :
      (jobs.map fun job => [job]).filter (!·.isEmpty) = jobs.map fun job => [job] := by
    refine List.filter_eq_self.mpr fun stage member => ?_
    obtain ⟨job, -, rfl⟩ := List.mem_map.mp member
    rfl
  rw [← alone (functionJobs c), ← alone (p.steps.map Job.step), sinkStage, ← List.filter_append,
    ← List.filter_append, RestWiring.stages]
  simp [functionJobs, Function.comp_def]

theorem sinkStage_perm (linear : Linearises (sinkStage p) done) : done.Perm (p.sinks.map .sink) := by
  have perm := linear.perm
  rwa [sinkStage, List.flatten_filter_not_isEmpty, List.flatten_singleton] at perm

/-- Only sinks share a stage. -/
theorem stages_alone (listed : stage ∈ RestWiring.stages c p) :
    stage.length = 1 ∨ ∀ job ∈ stage, ∃ s, job = .sink s := by
  rw [stages_eq, ← List.map_append] at listed
  rcases List.mem_append.mp listed with sinks | others
  · have equal := List.mem_singleton.mp (List.mem_filter.mp sinks).1
    refine .inr fun job inside => ?_
    rw [equal] at inside
    obtain ⟨s, -, rfl⟩ := List.mem_map.mp inside
    exact ⟨s, rfl⟩
  · obtain ⟨job, -, rfl⟩ := List.mem_map.mp others
    exact .inl rfl

theorem sinkStage_split {past others : List (List Job)} (split : sinkStage p = past ++ stage :: others) :
    past = [] ∧ stage = p.sinks.map .sink := by
  have listed : stage ∈ sinkStage p := by simp [split]
  have few : (sinkStage p).length ≤ 1 := List.length_filter_le _ _
  rw [split, List.length_append, List.length_cons] at few
  exact ⟨List.length_eq_zero_iff.mp (by omega),
    List.mem_singleton.mp (List.mem_filter.mp listed).1⟩

/-- A job that work has listed comes next in its phase. -/
theorem Work.Follows.due {progress : JobProgress} (follows : work.Follows (RestWiring.stages c p) done)
    (listed : (job, progress) ∈ work.current) : Due c p done job := by
  obtain ⟨past, before, stage, now, split, linear, permuted, rfl⟩ := follows
  have left : job ∈ work.current.map (·.1) := List.mem_map_of_mem listed
  have member : job ∈ stage := permuted.subset (List.mem_append_right _ left)
  -- A job that has its stage to itself is the first of the stage.
  have alone {j : Job} (single : [j] = stage) : now = [] ∧ job = j := by
    rw [← single] at permuted member
    have length := permuted.length_eq
    rw [List.length_append, List.length_singleton] at length
    have some_left := List.length_pos_of_mem left
    exact ⟨List.length_eq_zero_iff.mp (by omega), List.mem_singleton.mp member⟩
  rw [stages_eq] at split
  cases past with
  | nil =>
    rw [← (List.cons.inj split).1] at member
    cases member
  | cons first past =>
    obtain ⟨empty, staged⟩ := List.cons.inj split
    rw [← empty] at linear
    have linear := linear.tail
    rcases split_append staged with ⟨others, sinks⟩ | ⟨past, rfl, unsunk⟩
    · obtain ⟨rfl, rfl⟩ := sinkStage_split sinks
      cases linear
      obtain ⟨s, -, rfl⟩ := List.mem_map.mp member
      exact .sink permuted left
    obtain ⟨sinks, behind, rfl, registered, linear⟩ := Linearises.append_iff.mp linear
    have all := sinkStage_perm registered
    rcases split_append unsunk with ⟨others, functions⟩ | ⟨past, rfl, wired⟩
    · obtain ⟨earlier, rest, jobs, rfl, single⟩ := List.map_eq_append_iff.mp functions
      obtain ⟨j, later, rfl, single, -⟩ := List.map_eq_cons_iff.mp single
      obtain ⟨rfl, rfl⟩ := alone single
      have function : job ∈ functionJobs c := by simp [jobs]
      obtain ⟨n, -, rfl⟩ := List.mem_map.mp function
      rw [linear.eq_of_alone, List.append_nil]
      exact .function all jobs
    · obtain ⟨functions, steps, rfl, done, linear⟩ := Linearises.append_iff.mp linear
      obtain ⟨earlier, rest, jobs, rfl, single⟩ := List.map_eq_append_iff.mp wired
      obtain ⟨j, later, rfl, single, -⟩ := List.map_eq_cons_iff.mp single
      obtain ⟨rfl, rfl⟩ := alone single
      obtain ⟨before, rest, steps, rfl, single⟩ := List.map_eq_append_iff.mp jobs
      obtain ⟨s, after, rfl, rfl, -⟩ := List.map_eq_cons_iff.mp single
      rw [done.eq_of_alone, linear.eq_of_alone, List.append_nil, ← List.append_assoc]
      exact .step all steps

end RestWiring
