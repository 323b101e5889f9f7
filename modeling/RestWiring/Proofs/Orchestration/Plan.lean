import RestWiring.Proofs.Fallible
import RestWiring.Proofs.Orchestration.Graph
import RestWiring.Proofs.Orchestration.Loops

/-!
# What plans are made of

A component is planned when its edges can be wired and none of its nodes is on a loop. A plan has
one entry for each component, in order.
-/
namespace RestWiring

open Relation

namespace SubgraphPlan

variable {index : Nat} {g : OrchestrationGraph} {channel : String} {p : SubgraphPlan}
  {entries : List ((String × String) × EdgeParams)} {edges : List Triggering}

theorem uidOf_success_iff {start target name uid : String} :
    uidOf g start target name = .ok uid ↔ ∃ n, g.node? name = some n ∧ n.uid = uid := by
  unfold uidOf
  cases g.node? name <;> simp

/-- What a triggering edge is wired as. -/
def Wires (g : OrchestrationGraph) (entry : (String × String) × EdgeParams) (t : Triggering) :
    Prop :=
  ∃ f h, g.node? entry.1.1 = some f ∧ g.node? entry.1.2 = some h ∧ t = ⟨f.uid, h.uid, entry.2.on⟩

/-- The edges that trigger are wired in order, in directed graphs and on at least one outcome. -/
theorem triggering_success (success : triggering index g entries = .ok edges) :
    List.Forall₂ (Wires g) (entries.filter (·.2.triggers)) edges ∧
      ∀ e ∈ entries, e.2.triggers = true → g.directed = true ∧ e.2.on ≠ [] := by
  induction entries generalizing edges with
  | nil =>
    cases success
    exact ⟨.nil, by simp⟩
  | cons entry rest ih =>
    obtain ⟨⟨start, target⟩, params⟩ := entry
    obtain ⟨startUid, first, success⟩ := bind_success_iff.mp success
    obtain ⟨targetUid, second, success⟩ := bind_success_iff.mp success
    obtain ⟨f, start_found, rfl⟩ := uidOf_success_iff.mp first
    obtain ⟨h, target_found, rfl⟩ := uidOf_success_iff.mp second
    simp only [List.mem_cons, forall_eq_or_imp]
    split at success
    · rename_i passive
      obtain ⟨wired, conditions⟩ := ih success
      simp only [Bool.not_eq_true'] at passive
      exact ⟨by simpa [passive] using wired, by simp [passive], conditions⟩
    · rename_i triggers
      simp only [Bool.not_eq_true', Bool.not_eq_false] at triggers
      split at success
      · cases success
      · rename_i directed
        split at success
        · cases success
        · rename_i outcomes
          obtain ⟨others, wired_others, equal⟩ := bind_success_iff.mp success
          cases equal
          obtain ⟨wired, conditions⟩ := ih wired_others
          refine ⟨?_, fun _ => ⟨by simpa using directed, by simpa using outcomes⟩, conditions⟩
          rw [List.filter_cons_of_pos (by exact triggers)]
          exact .cons ⟨f, h, start_found, target_found, rfl⟩ wired

/-- The wired edges are exactly the edges that trigger, by the identities of their ends. -/
theorem mem_triggering (success : triggering index g g.edges.entries = .ok edges) {t : Triggering} :
    t ∈ edges ↔ ∃ e params, g.edges.find? e = some params ∧ params.triggers = true ∧
      Wires g (e, params) t := by
  obtain ⟨wired, -⟩ := triggering_success success
  constructor
  · intro member
    obtain ⟨⟨e, params⟩, listed, wires⟩ := exists_of_mem_right wired member
    obtain ⟨inside, triggers⟩ := List.mem_filter.mp listed
    exact ⟨e, params, SortedMap.mem_entries.mp inside, triggers, wires⟩
  · rintro ⟨e, params, found, triggers, f, h, start_found, target_found, rfl⟩
    have listed : (e, params) ∈ g.edges.entries.filter (·.2.triggers) :=
      List.mem_filter.mpr ⟨SortedMap.mem_entries.mpr found, triggers⟩
    obtain ⟨t, member, f', h', start_found', target_found', rfl⟩ := exists_of_mem_left wired listed
    rw [start_found] at start_found'
    rw [target_found] at target_found'
    cases start_found'
    cases target_found'
    exact member

theorem triggering_succeeds
    (ends : ∀ e ∈ entries, (∃ f, g.node? e.1.1 = some f) ∧ ∃ h, g.node? e.1.2 = some h)
    (wirable : ∀ e ∈ entries, e.2.triggers = true → g.directed = true ∧ e.2.on ≠ []) :
    ∃ edges, triggering index g entries = .ok edges := by
  induction entries with
  | nil => exact ⟨[], rfl⟩
  | cons entry rest ih =>
    obtain ⟨⟨start, target⟩, params⟩ := entry
    simp only [List.mem_cons, forall_eq_or_imp] at ends wirable
    obtain ⟨⟨⟨f, start_found⟩, h, target_found⟩, ends⟩ := ends
    obtain ⟨first, wirable⟩ := wirable
    obtain ⟨others, success⟩ := ih ends wirable
    simp only [triggering, uidOf, start_found, target_found, success, bind, Except.bind]
    split
    · exact ⟨others, rfl⟩
    · rename_i triggers
      obtain ⟨directed, outcomes⟩ := first (by simpa using triggers)
      rw [if_neg (by simp [directed]), if_neg (by simpa using outcomes)]
      exact ⟨_, rfl⟩

/-- The plan of a component whose triggering edges are given. -/
def ofEdges (index : Nat) (g : OrchestrationGraph) (channel : String) (edges : List Triggering) :
    SubgraphPlan where
  index
  nodes := g.names
  sinks := sinksOf (g.nodes.values.flatMap (·.deployment.sinks)) ∅
  functions := g.nodes.values.map (·.uid)
  steps := wiring channel edges

theorem build_success_iff :
    build index g channel = .ok p ↔
      ∃ edges, triggering index g g.edges.entries = .ok edges ∧ triggerLoop? g = none ∧
        p = ofEdges index g channel edges := by
  unfold build
  rw [bind_success_iff]
  constructor
  · rintro ⟨edges, wired, success⟩
    split at success
    · cases success
    · rename_i acyclic
      cases success
      exact ⟨edges, wired, acyclic, rfl⟩
  · rintro ⟨edges, wired, acyclic, rfl⟩
    exact ⟨edges, wired, by rw [acyclic]; rfl⟩

/-- A component can be planned when its edges lead between its nodes, can be wired and have no
loop. -/
theorem build_succeeds
    (ends : ∀ e, g.edges.contains e = true → g.contains e.1 = true ∧ g.contains e.2 = true)
    (wirable : ∀ e params, g.edges.find? e = some params → params.triggers = true →
      g.directed = true ∧ params.on ≠ [])
    (acyclic : ∀ name, ¬ TransGen g.Triggers name name) (index : Nat) (channel : String) :
    ∃ p, build index g channel = .ok p := by
  have wired : ∃ edges, triggering index g g.edges.entries = .ok edges := by
    refine triggering_succeeds (fun e member => ?_) fun e member =>
      wirable _ _ (SortedMap.mem_entries.mp member)
    obtain ⟨first, second⟩ :=
      ends e.1 (SortedMap.contains_iff.mpr ⟨e.2, SortedMap.mem_entries.mp member⟩)
    exact ⟨SortedMap.contains_iff.mp first, SortedMap.contains_iff.mp second⟩
  obtain ⟨edges, wired⟩ := wired
  refine ⟨_, build_success_iff.mpr ⟨edges, wired, ?_, rfl⟩⟩
  cases found : triggerLoop? g with
  | none => rfl
  | some name => exact absurd (triggerLoop?_sound found) (acyclic name)

/-- The edges of a component that is planned form no loop. -/
theorem build_acyclic (formed : g.WellFormed) (success : build index g channel = .ok p)
    (name : String) : ¬ TransGen g.Triggers name name := by
  obtain ⟨edges, -, result, -⟩ := build_success_iff.mp success
  refine triggerLoop?_complete ?_ result name
  rintro start target ⟨params, found, -⟩
  exact (formed.ends (SortedMap.contains_iff.mpr ⟨params, found⟩)).2

end SubgraphPlan

namespace OrchestrationGraph

variable {g : OrchestrationGraph} {channel : String} {plan : DeploymentPlan}

theorem induced_of_mem_components {component : OrchestrationGraph}
    (member : component ∈ g.components) :
    ∃ names, component = g.induced names := by
  obtain ⟨names, -, rfl⟩ := List.mem_map.mp member
  exact ⟨names, rfl⟩

/-- What is planned are the components, each under its place. -/
theorem mem_planned {index : Nat} {component : OrchestrationGraph}
    {result : Except OrchestrationError SubgraphPlan}
    (member : (index, component, result) ∈ g.planned channel) :
    component ∈ g.components ∧ result = SubgraphPlan.build index component channel := by
  obtain ⟨⟨part, place⟩, listed, equal⟩ := List.mem_map.mp member
  cases equal
  exact ⟨List.fst_mem_of_mem_zipIdx listed, rfl⟩

theorem getElem?_planned {p : Nat × OrchestrationGraph × Except OrchestrationError SubgraphPlan}
    (listed : p ∈ g.planned channel) : (g.planned channel)[p.1]? = some p := by
  obtain ⟨⟨component, index⟩, member, rfl⟩ := List.mem_map.mp listed
  have found := List.mk_mem_zipIdx_iff_getElem?.mp member
  simp [planned, found]

/-- Components are listed at their own indices. -/
theorem index_of_getElem?_planned {index : Nat}
    {p : Nat × OrchestrationGraph × Except OrchestrationError SubgraphPlan}
    (found : (g.planned channel)[index]? = some p) : p.1 = index := by
  rw [planned, List.getElem?_map] at found
  obtain ⟨⟨component, place⟩, numbered, rfl⟩ := Option.map_eq_some_iff.mp found
  rw [List.getElem?_zipIdx] at numbered
  obtain ⟨_, -, equal⟩ := Option.map_eq_some_iff.mp numbered
  cases equal
  exact Nat.zero_add index

theorem planned_functional {index : Nat} {c c' : OrchestrationGraph}
    {r r' : Except OrchestrationError SubgraphPlan} (first : (index, c, r) ∈ g.planned channel)
    (second : (index, c', r') ∈ g.planned channel) : c = c' ∧ r = r' := by
  have found := getElem?_planned first
  have found' := getElem?_planned second
  cases found.symm.trans found'
  exact ⟨rfl, rfl⟩

theorem plan_success_iff :
    g.plan channel = .ok plan ↔
      plan.channel = channel ∧
      List.Forall₂ (fun p s => p.2.2 = .ok s) (g.planned channel) plan.subgraphs := by
  unfold OrchestrationGraph.plan
  rw [bind_success_iff]
  constructor
  · rintro ⟨subgraphs, success, equal⟩
    cases equal
    exact ⟨rfl, mapM_success_iff.mp success⟩
  · obtain ⟨planChannel, subgraphs⟩ := plan
    rintro ⟨rfl, related⟩
    exact ⟨subgraphs, mapM_success_iff.mpr related, rfl⟩

theorem plan_succeeds (each : ∀ p ∈ g.planned channel, ∃ s, p.2.2 = .ok s) :
    ∃ plan, g.plan channel = .ok plan := by
  obtain ⟨subgraphs, success⟩ := mapM_succeeds each
  exact ⟨⟨channel, subgraphs⟩, bind_success_iff.mpr ⟨subgraphs, success, rfl⟩⟩

/-- The plan of a component comes of its triggering edges. -/
theorem exists_edges_of_planned {index : Nat} {component : OrchestrationGraph} {p : SubgraphPlan}
    (listed : (index, component, .ok p) ∈ g.planned channel) :
    ∃ edges, SubgraphPlan.triggering index component component.edges.entries = .ok edges ∧
      p = .ofEdges index component channel edges := by
  obtain ⟨edges, wired, -, equal⟩ :=
    SubgraphPlan.build_success_iff.mp (mem_planned listed).2.symm
  exact ⟨edges, wired, equal⟩

/-- What is said of every component that is built can be said of its plan. -/
theorem map_built {α : Type} (planned : g.plan channel = .ok plan)
    {f : Nat × OrchestrationGraph × Except OrchestrationError SubgraphPlan → α}
    {h : SubgraphPlan → α}
    (same : ∀ component p, SubgraphPlan.build p.index component channel = .ok p →
      f (p.index, component, .ok p) = h p) :
    (g.planned channel).map f = plan.subgraphs.map h := by
  obtain ⟨-, related⟩ := plan_success_iff.mp planned
  have built : ∀ p ∈ g.planned channel, p.2.2 = SubgraphPlan.build p.1 p.2.1 channel :=
    fun p member => (mem_planned member).2
  clear planned
  generalize g.planned channel = parts at related built ⊢
  generalize plan.subgraphs = subgraphs at related ⊢
  induction related with
  | nil => rfl
  | @cons part p _ _ success _ ih =>
    obtain ⟨index, component, result⟩ := part
    have success' := (built _ List.mem_cons_self).symm.trans success
    have place : index = p.index := by
      obtain ⟨edges, -, -, rfl⟩ := SubgraphPlan.build_success_iff.mp success'
      rfl
    cases success
    cases place
    rw [List.map_cons, List.map_cons, ih fun part member =>
      built part (List.mem_cons_of_mem _ member), same component p success']

/-- What is said of every planned component can be said of its plan. -/
theorem map_planned {α : Type} (planned : g.plan channel = .ok plan)
    {f : Nat × OrchestrationGraph × Except OrchestrationError SubgraphPlan → α}
    {h : SubgraphPlan → α} (same : ∀ component p, f (p.index, component, .ok p) = h p) :
    (g.planned channel).map f = plan.subgraphs.map h :=
  map_built planned fun component p _ => same component p

/-- The plans of a deployment are those of the planned components. -/
theorem mem_subgraphs (planned : g.plan channel = .ok plan) {p : SubgraphPlan} :
    p ∈ plan.subgraphs ↔ ∃ index component, (index, component, .ok p) ∈ g.planned channel := by
  obtain ⟨-, related⟩ := plan_success_iff.mp planned
  constructor
  · intro member
    obtain ⟨⟨index, component, result⟩, listed, success⟩ := exists_of_mem_right related member
    cases success
    exact ⟨index, component, listed⟩
  · rintro ⟨index, component, listed⟩
    obtain ⟨p', member, success⟩ := exists_of_mem_left related listed
    cases success
    exact member

/-- Components are numbered from zero. -/
theorem planned_indices (g : OrchestrationGraph) (channel : String) :
    (g.planned channel).map (·.1) = List.range g.components.length := by
  simp [planned, Function.comp_def, List.range_eq_range']

theorem planned_components (g : OrchestrationGraph) (channel : String) :
    (g.planned channel).map (·.2.1) = g.components := by
  simp [planned, Function.comp_def]

@[simp] theorem length_planned (g : OrchestrationGraph) (channel : String) :
    (g.planned channel).length = g.components.length := by
  simp [planned]

end OrchestrationGraph

end RestWiring
