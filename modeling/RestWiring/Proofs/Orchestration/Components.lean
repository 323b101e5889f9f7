import Mathlib.Data.List.Perm.Subperm
import Mathlib.Logic.Relation
import RestWiring.Orchestration.Components
import RestWiring.Proofs.Orchestration.Graph

/-!
# Components of a graph

A walk that starts at a node finds exactly the nodes that are connected with it, and so the
components of a graph are the classes of connected nodes: every node is in one, and every edge
within one.
-/
namespace RestWiring.OrchestrationGraph

open Relation

variable {g : OrchestrationGraph} {a b seed : String} {queue names : List String}
  {before visited found : SortedSet String}

/-- Whether an edge joins two nodes, in either direction. -/
def Adjacent (g : OrchestrationGraph) (a b : String) : Prop := b ∈ g.around a

/-- Whether two nodes are joined by edges, directions ignored. -/
def Connected (g : OrchestrationGraph) : String → String → Prop := ReflTransGen g.Adjacent

theorem WellFormed.adjacent_iff (formed : g.WellFormed) :
    g.Adjacent a b ↔
      g.edges.contains (g.edgeKey a b) = true ∨ g.edges.contains (g.edgeKey b a) = true := by
  rw [Adjacent, around, List.mem_append, formed.successors_iff, formed.predecessors_iff]

theorem WellFormed.adjacent_symm (formed : g.WellFormed) (adjacent : g.Adjacent a b) :
    g.Adjacent b a := by
  rw [formed.adjacent_iff] at adjacent ⊢
  exact adjacent.symm

theorem WellFormed.adjacent_contains (formed : g.WellFormed) (adjacent : g.Adjacent a b) :
    g.contains b = true := by
  rcases formed.adjacent_iff.mp adjacent with present | present
  · have ends := formed.ends present
    rcases edgeKey_cases g a b with key | key <;> rw [key] at ends
    · exact ends.2
    · exact ends.1
  · have ends := formed.ends present
    rcases edgeKey_cases g b a with key | key <;> rw [key] at ends
    · exact ends.1
    · exact ends.2

theorem WellFormed.connected_symm (formed : g.WellFormed) (connected : g.Connected a b) :
    g.Connected b a := by
  have : Std.Symm g.Adjacent := ⟨fun _ _ => formed.adjacent_symm⟩
  exact ReflTransGen.stdSymm.symm _ _ connected

theorem WellFormed.connected_contains (formed : g.WellFormed) (connected : g.Connected a b)
    (inside : g.contains a = true) : g.contains b = true := by
  induction connected with
  | refl => exact inside
  | tail _ last _ => exact formed.adjacent_contains last

/-! ## Walks -/

theorem enqueue_spec (names queue : List String) (visited : SortedSet String) :
    (∀ x, x ∈ (enqueue names queue visited).1 ↔
      x ∈ queue ∨ (x ∈ names ∧ visited.contains x = false)) ∧
      ∀ x, (enqueue names queue visited).2.contains x = true ↔
        visited.contains x = true ∨ x ∈ names := by
  induction names generalizing queue visited with
  | nil => simp [enqueue]
  | cons name names ih =>
    rw [enqueue]
    split
    · rename_i known
      obtain ⟨queued, seen⟩ := ih queue visited
      refine ⟨fun x => ?_, fun x => ?_⟩
      · rw [queued]
        by_cases same : x = name
        · simp [same, known]
        · simp [same]
      · rw [seen]
        by_cases same : x = name
        · simp [same, known]
        · simp [same]
    · rename_i unknown
      obtain ⟨queued, seen⟩ := ih (queue ++ [name]) (SortedSet.add visited name)
      have added (x : String) : SortedMap.contains (SortedSet.add visited name) x = false ↔
          x ≠ name ∧ visited.contains x = false := by
        rw [← Bool.not_eq_true, SortedSet.contains_add, not_or, Bool.not_eq_true]
      refine ⟨fun x => ?_, fun x => ?_⟩
      · rw [queued, added]
        by_cases same : x = name
        · simp [same, unknown]
        · simp [same]
      · rw [seen, SortedSet.contains_add]
        by_cases same : x = name <;> simp [same]

theorem enqueue_nodup (nodup : queue.Nodup) (known : ∀ x ∈ queue, visited.contains x = true) :
    (enqueue names queue visited).1.Nodup := by
  induction names generalizing queue visited with
  | nil => exact nodup
  | cons name names ih =>
    rw [enqueue]
    split
    · exact ih nodup known
    · rename_i unknown
      refine ih ?_ fun x member => ?_
      · rw [List.nodup_append]
        refine ⟨nodup, by simp, fun x member y last same => ?_⟩
        rw [List.mem_singleton.mp last] at same
        exact unknown (same ▸ known x member)
      · rw [SortedSet.contains_add]
        rcases List.mem_append.mp member with earlier | last
        · exact .inr (known x earlier)
        · exact .inl (List.mem_singleton.mp last)

/-- The state of a walk from a seed: what is queued or found is connected with the seed, and what is
next to something found has been visited. -/
structure Walking (g : OrchestrationGraph) (seed : String) (before : SortedSet String)
    (queue : List String)
    (visited found : SortedSet String) : Prop where
  visited_iff : ∀ x, visited.contains x = true ↔
    before.contains x = true ∨ found.contains x = true ∨ x ∈ queue
  apart : ∀ x ∈ queue, found.contains x = false
  nodup : queue.Nodup
  connected : ∀ x, found.contains x = true ∨ x ∈ queue → g.Connected seed x
  closed : ∀ x y, found.contains x = true → g.Adjacent x y → visited.contains y = true
  seeded : found.contains seed = true ∨ seed ∈ queue

theorem Walking.start (visited : SortedSet String) (seed : String) :
    Walking g seed visited [seed] (SortedSet.add visited seed) ∅ := by
  refine ⟨fun x => ?_, by simp, by simp, fun x member => ?_, by simp, by simp⟩
  · rw [SortedSet.contains_add]
    simp [or_comm]
  · have same : x = seed := by simpa using member
    rw [same]
    exact .refl

theorem Walking.step {name : String}
    (walking : Walking g seed before (name :: queue) visited found) :
    Walking g seed before (enqueue (g.around name) queue visited).1
      (enqueue (g.around name) queue visited).2
      (SortedSet.add found name) := by
  obtain ⟨queued, seen⟩ := enqueue_spec (g.around name) queue visited
  obtain ⟨fresh, nodup⟩ := List.nodup_cons.mp walking.nodup
  have visited_iff := walking.visited_iff
  have reached : g.Connected seed name := walking.connected name (.inr List.mem_cons_self)
  have unfound {x : String} (unseen : visited.contains x = false) :
      found.contains x = false ∧ x ≠ name := by
    have nowhere := mt (visited_iff x).mpr (by simp [unseen])
    simp only [List.mem_cons, not_or, Bool.not_eq_true] at nowhere
    exact ⟨nowhere.2.1, nowhere.2.2.1⟩
  simp only [List.mem_cons] at visited_iff
  refine ⟨fun x => ?_, fun x member => ?_, ?_, fun x member => ?_,
    fun x y inside adjacent => ?_, ?_⟩
  · rw [seen, queued, SortedSet.contains_add, visited_iff]
    cases visits : SortedMap.contains visited x <;> grind
  · rw [← Bool.not_eq_true, SortedSet.contains_add, not_or, Bool.not_eq_true]
    rcases (queued x).mp member with earlier | ⟨-, unseen⟩
    · exact ⟨fun same => fresh (same ▸ earlier), walking.apart x (List.mem_cons_of_mem _ earlier)⟩
    · exact (unfound unseen).symm
  · exact enqueue_nodup nodup fun x member => (visited_iff x).mpr (.inr (.inr (.inr member)))
  · rw [SortedSet.contains_add, queued] at member
    rcases member with (rfl | earlier) | earlier | ⟨near, -⟩
    · exact reached
    · exact walking.connected x (.inl earlier)
    · exact walking.connected x (.inr (List.mem_cons_of_mem _ earlier))
    · exact reached.tail near
  · rw [seen]
    rcases SortedSet.contains_add.mp inside with rfl | earlier
    · exact .inr adjacent
    · exact .inl (walking.closed x y earlier adjacent)
  · rw [SortedSet.contains_add]
    rcases walking.seeded with earlier | queued'
    · exact .inl (.inr earlier)
    · rcases List.mem_cons.mp queued' with same | later
      · exact .inl (.inl same)
      · exact .inr ((queued seed).mpr (.inl later))

/-- A walk with nothing left to visit has found all that is connected with its seed. -/
theorem Walking.finished (walking : Walking g seed before [] visited found)
    (apart : ∀ x, before.contains x = true → ¬ g.Connected seed x) :
    (∀ x, found.contains x = true ↔ g.Connected seed x) ∧
      ∀ x, visited.contains x = true ↔ before.contains x = true ∨ g.Connected seed x := by
  have reached : ∀ x, found.contains x = true ↔ g.Connected seed x := by
    refine fun x => ⟨fun inside => walking.connected x (.inl inside), fun connected => ?_⟩
    induction connected with
    | refl => simpa using walking.seeded
    | tail path last ih =>
      rename_i y z
      rcases (walking.visited_iff z).mp (walking.closed y z ih last) with earlier | inside | queued
      · exact absurd (path.tail last) (apart z earlier)
      · exact inside
      · cases queued
  refine ⟨reached, fun x => ?_⟩
  rw [walking.visited_iff, reached]
  simp

/-- The nodes that a walk has yet to find. -/
def unfound (g : OrchestrationGraph) (found : SortedSet String) : List String :=
  g.names.filter fun name => !SortedMap.contains found name

theorem length_unfound_le (g : OrchestrationGraph) : (g.unfound ∅).length ≤ g.nodes.size :=
  calc (g.unfound ∅).length ≤ g.names.length := List.length_filter_le _ _
    _ = g.nodes.size := by simp [names, SortedMap.keys, SortedMap.size]

theorem length_unfound_add {name : String} (inside : g.contains name = true)
    (new : found.contains name = false) :
    (g.unfound (SortedSet.add found name)).length < (g.unfound found).length := by
  have fewer : g.unfound (SortedSet.add found name) = (g.unfound found).filter (· ≠ name) := by
    unfold unfound
    rw [List.filter_filter]
    refine List.filter_congr fun x _ => ?_
    rw [Bool.eq_iff_iff]
    simp [← Bool.not_eq_true, SortedSet.contains_add]
  rw [fewer, List.length_filter_lt_length_iff_exists]
  exact ⟨name, List.mem_filter.mpr ⟨SortedMap.mem_keys_iff_contains.mpr inside, by simp [new]⟩,
    by simp⟩

/-- A walk that is given enough steps finds what is connected with its seed, provided that nothing
of it has been visited before. -/
theorem Walking.walk (walking : Walking g seed before queue visited found) (formed : g.WellFormed)
    (inside : g.contains seed = true) (apart : ∀ x, before.contains x = true → ¬ g.Connected seed x)
    {fuel : Nat} (enough : (g.unfound found).length ≤ fuel) :
    (∀ x, (g.walk fuel queue visited found).2.contains x = true ↔ g.Connected seed x) ∧
      ∀ x, (g.walk fuel queue visited found).1.contains x = true ↔
        before.contains x = true ∨ g.Connected seed x := by
  induction fuel generalizing queue visited found with
  | zero =>
    cases queue with
    | nil => exact walking.finished apart
    | cons name queue =>
      have present :=
        formed.connected_contains (walking.connected name (.inr List.mem_cons_self)) inside
      have fewer := length_unfound_add present (walking.apart name List.mem_cons_self)
      omega
  | succ fuel ih =>
    cases queue with
    | nil => exact walking.finished apart
    | cons name queue =>
      have present :=
        formed.connected_contains (walking.connected name (.inr List.mem_cons_self)) inside
      have fewer := length_unfound_add present (walking.apart name List.mem_cons_self)
      exact ih walking.step (by omega)

/-! ## The partition -/

/-- Whether whatever is connected with a visited node has been visited. -/
def Saturated (g : OrchestrationGraph) (visited : SortedSet String) : Prop :=
  ∀ x y, visited.contains x = true → g.Connected x y → visited.contains y = true

/-- The walk from a seed that has not been visited finds its component, and marks it as visited. -/
theorem walk_spec (formed : g.WellFormed) (saturated : g.Saturated visited)
    (inside : g.contains seed = true) (new : visited.contains seed = false) :
    (∀ x, (g.walk g.nodes.size [seed] (SortedSet.add visited seed) ∅).2.contains x = true ↔
      g.Connected seed x) ∧
      ∀ x, (g.walk g.nodes.size [seed] (SortedSet.add visited seed) ∅).1.contains x = true ↔
        visited.contains x = true ∨ g.Connected seed x := by
  refine (Walking.start visited seed).walk formed inside (fun x seen connected => ?_)
    g.length_unfound_le
  rw [saturated x seed seen (formed.connected_symm connected)] at new
  cases new

theorem Saturated.visit {visited' : SortedSet String} (saturated : g.Saturated visited)
    (visits : ∀ x, visited'.contains x = true ↔ visited.contains x = true ∨ g.Connected seed x) :
    g.Saturated visited' := by
  intro x y seen connected
  rw [visits] at seen ⊢
  rcases seen with earlier | reached
  · exact .inl (saturated x y earlier connected)
  · exact .inr (reached.trans connected)

/-- Each set of names holds what is connected with one of the seeds, and every seed is in one of
them unless it has been visited. -/
theorem componentsFrom_spec (formed : g.WellFormed) {seeds : List String}
    (saturated : g.Saturated visited) (inside : ∀ seed ∈ seeds, g.contains seed = true) :
    (∀ names ∈ g.componentsFrom seeds visited, ∃ seed ∈ seeds,
      ∀ x, names.contains x = true ↔ g.Connected seed x) ∧
      ∀ seed ∈ seeds, visited.contains seed = true ∨
        ∃ names ∈ g.componentsFrom seeds visited, names.contains seed = true := by
  induction seeds generalizing visited with
  | nil => simp [componentsFrom]
  | cons seed seeds ih =>
    have here := inside seed List.mem_cons_self
    have others (x : String) (member : x ∈ seeds) := inside x (List.mem_cons_of_mem _ member)
    rw [componentsFrom]
    split
    · rename_i known
      obtain ⟨classes, covered⟩ := ih saturated others
      refine ⟨fun names member => ?_, fun x member => ?_⟩
      · obtain ⟨x, listed, spec⟩ := classes names member
        exact ⟨x, List.mem_cons_of_mem _ listed, spec⟩
      · rcases List.mem_cons.mp member with rfl | member
        · exact .inl known
        · exact covered x member
    · rename_i unknown
      obtain ⟨finds, visits⟩ := walk_spec formed saturated here (by simpa using unknown)
      obtain ⟨classes, covered⟩ := ih (saturated.visit visits) others
      have own := (finds seed).mpr .refl
      refine ⟨fun names member => ?_, fun x member => ?_⟩
      · rcases List.mem_cons.mp member with rfl | member
        · exact ⟨seed, List.mem_cons_self, finds⟩
        · obtain ⟨x, listed, spec⟩ := classes names member
          exact ⟨x, List.mem_cons_of_mem _ listed, spec⟩
      · rcases List.mem_cons.mp member with rfl | member
        · exact .inr ⟨_, List.mem_cons_self, own⟩
        · rcases covered x member with seen | ⟨names, listed, found⟩
          · rcases (visits x).mp seen with earlier | connected
            · exact .inl earlier
            · exact .inr ⟨_, List.mem_cons_self, (finds x).mpr connected⟩
          · exact .inr ⟨names, List.mem_cons_of_mem _ listed, found⟩

theorem mem_seeds {name : String} : name ∈ g.seeds ↔ g.contains name = true := by
  have listed : name ∈ g.names ↔ g.contains name = true := SortedMap.mem_keys_iff_contains
  have root : name ∈ g.roots → name ∈ g.names := fun member => (List.mem_filter.mp member).1
  rw [seeds, List.mem_append, List.mem_filter, ← listed]
  by_cases member : name ∈ g.roots
  · simp [member, root member]
  · simp [member]

/-- The walks from all seeds find the classes of connected nodes, and every node is in one. -/
theorem components_spec (formed : g.WellFormed) :
    (∀ names ∈ g.componentsFrom g.seeds ∅, ∃ seed ∈ g.seeds,
      ∀ x, names.contains x = true ↔ g.Connected seed x) ∧
      ∀ seed ∈ g.seeds, ∃ names ∈ g.componentsFrom g.seeds ∅, names.contains seed = true := by
  have nothing : g.Saturated ∅ := by rintro x y ⟨⟩
  obtain ⟨classes, covered⟩ :=
    componentsFrom_spec formed nothing fun seed member => mem_seeds.mp member
  exact ⟨classes, fun seed member => (covered seed member).resolve_left (by simp)⟩

/-- Every component has the nodes that are connected with one of them. -/
theorem exists_seed_of_mem_components (formed : g.WellFormed) {component : OrchestrationGraph}
    (member : component ∈ g.components) :
    ∃ names seed, component = g.induced names ∧ g.contains seed = true ∧
      ∀ x, names.contains x = true ↔ g.Connected seed x := by
  obtain ⟨names, listed, rfl⟩ := List.mem_map.mp member
  obtain ⟨seed, seeded, spec⟩ := (components_spec formed).1 names listed
  exact ⟨names, seed, rfl, mem_seeds.mp seeded, spec⟩

/-- Every node is in a component, with everything that is connected with it. -/
theorem exists_component (formed : g.WellFormed) (inside : g.contains a = true) :
    ∃ names, g.induced names ∈ g.components ∧ ∀ x, names.contains x = true ↔ g.Connected a x := by
  obtain ⟨classes, covered⟩ := components_spec formed
  obtain ⟨names, listed, found⟩ := covered a (mem_seeds.mpr inside)
  obtain ⟨seed, -, spec⟩ := classes names listed
  have back := formed.connected_symm ((spec a).mp found)
  refine ⟨names, List.mem_map_of_mem listed, fun x => ?_⟩
  rw [spec]
  exact ⟨back.trans, (formed.connected_symm back).trans⟩

/-- Every edge is in the component of its ends. -/
theorem exists_component_of_edge (formed : g.WellFormed) {e : String × String} {params : EdgeParams}
    (found : g.edges.find? e = some params) :
    ∃ component ∈ g.components, component.edges.find? e = some params := by
  have present : g.edges.contains e = true := SortedMap.contains_iff.mpr ⟨params, found⟩
  obtain ⟨names, member, spec⟩ := exists_component formed (formed.ends present).1
  refine ⟨_, member, induced_edge_iff.mpr ⟨found, (spec _).mpr .refl, (spec _).mpr (.single ?_)⟩⟩
  exact formed.adjacent_iff.mpr (.inl (by rw [formed.edgeKey_self present]; exact present))

theorem exists_component_of_node (formed : g.WellFormed) {n : OrchestrationNode}
    (found : g.nodes.find? a = some n) :
    ∃ component ∈ g.components, component.nodes.find? a = some n := by
  obtain ⟨names, member, spec⟩ := exists_component formed (SortedMap.contains_iff.mpr ⟨n, found⟩)
  refine ⟨_, member, ?_⟩
  rw [induced_nodes, SortedMap.find?_filter_eq_some]
  exact ⟨found, (spec a).mpr .refl⟩

theorem induced_node?_iff {names : SortedSet String} {name : String} {n : OrchestrationNode} :
    (g.induced names).node? name = some n ↔
      g.node? name = some n ∧ SortedMap.contains names name = true := by
  rw [node?, induced_nodes, SortedMap.find?_filter_eq_some, node?]

/-- Components have the nodes of the graph, every one of them. -/
theorem exists_component_node?_iff (formed : g.WellFormed) {name : String} {n : OrchestrationNode} :
    (∃ component ∈ g.components, component.node? name = some n) ↔ g.node? name = some n := by
  constructor
  · rintro ⟨component, member, found⟩
    obtain ⟨names, -, rfl⟩ := List.mem_map.mp member
    exact (induced_node?_iff.mp found).1
  · exact exists_component_of_node formed

end RestWiring.OrchestrationGraph
