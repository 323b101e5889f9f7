import RestWiring.Proofs.Orchestration.Partition
import RestWiring.Proofs.Orchestration.Representation

/-!
# Traversals

A traversal yields the components of a graph one by one and ends. The components are the classes of
nodes that are connected when the directions of edges are ignored; those that have a root come first,
in the order of their first roots, and the others follow in the order of their first names.
-/
namespace RestWiring.OrchestrationGraph

open Relation

variable {g : OrchestrationGraph} {a b name seed : String} {seeds queue : List String}
  {names names' before visited found : SortedSet String}

/-! ## Steps of a traversal -/

/-- A list of components that a walk from every other seed finds is no longer than the list of seeds. -/
theorem length_componentsFrom_le (g : OrchestrationGraph) (seeds : List String)
    (visited : SortedSet String) : (g.componentsFrom seeds visited).length ≤ seeds.length := by
  induction seeds generalizing visited with
  | nil => exact Nat.le_refl 0
  | cons seed seeds ih =>
    rw [componentsFrom]
    split
    · exact Nat.le_succ_of_le (ih visited)
    · exact Nat.succ_le_succ (ih _)

namespace Traversal

variable {t : Traversal}

/-- The components that a traversal has yet to yield. -/
def upcoming (t : Traversal) : List OrchestrationGraph :=
  (t.graph.componentsFrom t.ahead t.visited).map t.graph.induced

theorem upcoming_traversal (g : OrchestrationGraph) : g.traversal.upcoming = g.components := rfl

theorem length_upcoming_le (t : Traversal) : t.upcoming.length ≤ t.ahead.length := by
  rw [upcoming, List.length_map]
  exact length_componentsFrom_le ..

theorem advance_spec (t : Traversal) (ahead : List String) :
    (t.advance ahead).1 = ({ t with ahead } : Traversal).upcoming.head? ∧
      (t.advance ahead).2.upcoming = ({ t with ahead } : Traversal).upcoming.tail ∧
      (t.advance ahead).2.graph = t.graph ∧ (t.advance ahead).2.seeds = t.seeds := by
  induction ahead with
  | nil => exact ⟨rfl, rfl, rfl, rfl⟩
  | cons seed ahead ih =>
    rw [advance]
    split
    · rename_i known
      have skipped : ({ t with ahead := seed :: ahead } : Traversal).upcoming =
          ({ t with ahead } : Traversal).upcoming := by
        rw [upcoming, upcoming, componentsFrom, if_pos known]
      rw [skipped]
      exact ih
    · rename_i unknown
      simp only [upcoming, componentsFrom, if_neg unknown, List.map_cons, List.head?_cons,
        List.tail_cons, and_self]

/-- A step of a traversal yields the first of the components to come. -/
theorem next_spec (t : Traversal) :
    t.next.1 = t.upcoming.head? ∧ t.next.2.upcoming = t.upcoming.tail ∧
      t.next.2.graph = t.graph ∧ t.next.2.seeds = t.seeds :=
  t.advance_spec t.ahead

theorem take_spec (count : Nat) (t : Traversal) :
    (t.take count).1 = t.upcoming.take count ∧
      (t.take count).2.upcoming = t.upcoming.drop count := by
  induction count generalizing t with
  | zero => exact ⟨rfl, rfl⟩
  | succ count ih =>
    obtain ⟨first, others, -, -⟩ := t.next_spec
    rw [take]
    split
    · rename_i later stepped
      rw [stepped] at first others
      have nothing : t.upcoming = [] := List.head?_eq_none_iff.mp first.symm
      rw [others, nothing]
      exact ⟨rfl, rfl⟩
    · rename_i part later stepped
      rw [stepped] at first others
      obtain ⟨parts, coming⟩ : ∃ parts, t.upcoming = part :: parts :=
        List.head?_eq_some_iff.mp first.symm
      rw [coming, List.tail_cons] at others
      obtain ⟨taken, left⟩ := ih later
      rw [others] at taken left
      rw [coming]
      exact ⟨congrArg (part :: ·) taken, left⟩

/-- Each component takes up a seed, so none is left when as many have been taken as there were
seeds. -/
theorem rest_spec (t : Traversal) : t.rest.1 = t.upcoming ∧ t.rest.2.upcoming = [] := by
  obtain ⟨taken, left⟩ := take_spec t.ahead.length t
  rw [List.take_of_length_le t.length_upcoming_le] at taken
  rw [List.drop_of_length_le t.length_upcoming_le] at left
  exact ⟨taken, left⟩

/-- What can be asked of a traversal. -/
inductive Call where
  | next
  | restart

def call (t : Traversal) : Call → Traversal
  | .next => t.next.2
  | .restart => t.restart

/-- The traversal after some calls. -/
def after (t : Traversal) (calls : List Call) : Traversal := calls.foldl call t

theorem call_frame (t : Traversal) (c : Call) : (t.call c).graph = t.graph ∧ (t.call c).seeds = t.seeds := by
  cases c with
  | next => exact t.next_spec.2.2
  | restart => exact ⟨rfl, rfl⟩

/-- Starting over forgets all calls. -/
theorem restart_after (t : Traversal) (calls : List Call) : (t.after calls).restart = t.restart := by
  induction calls generalizing t with
  | nil => rfl
  | cons c calls ih =>
    obtain ⟨graph, seeds⟩ := t.call_frame c
    refine (ih (t.call c)).trans ?_
    rw [restart, restart, graph, seeds]

end Traversal

/-! ## Walks end -/

/-- A walk that can visit every node is done: with more steps it would find nothing else. -/
theorem Walking.walk_eq (walking : Walking g seed before queue visited found) (formed : g.WellFormed)
    (inside : g.contains seed = true) {fuel fuel' : Nat} (enough : (g.unfound found).length ≤ fuel)
    (more : fuel ≤ fuel') : g.walk fuel' queue visited found = g.walk fuel queue visited found := by
  induction fuel generalizing queue visited found fuel' with
  | zero =>
    cases queue with
    | nil => cases fuel' <;> rfl
    | cons name queue =>
      have present :=
        formed.connected_contains (walking.connected name (.inr List.mem_cons_self)) inside
      have fewer := length_unfound_add present (walking.apart name List.mem_cons_self)
      omega
  | succ fuel ih =>
    obtain ⟨fuel', rfl⟩ : ∃ n, fuel' = n + 1 := ⟨fuel' - 1, by omega⟩
    cases queue with
    | nil => rfl
    | cons name queue =>
      have present :=
        formed.connected_contains (walking.connected name (.inr List.mem_cons_self)) inside
      have fewer := length_unfound_add present (walking.apart name List.mem_cons_self)
      exact ih walking.step (by omega) (by omega)

/-- The walk from a seed is done when it has had a step for every node. -/
theorem walk_eq (formed : g.WellFormed) (inside : g.contains seed = true) {fuel : Nat}
    (enough : g.nodes.size ≤ fuel) :
    g.walk fuel [seed] (SortedSet.add visited seed) ∅ =
      g.walk g.nodes.size [seed] (SortedSet.add visited seed) ∅ :=
  (Walking.start visited seed).walk_eq formed inside g.length_unfound_le enough

/-! ## The order of components -/

section Order

variable {R : String → String → Prop}

/-- Whether one set of names comes before another: one of its seeds comes before all its other seeds
and before all seeds of the other set. -/
def SeededBefore (R : String → String → Prop) (seeds : List String)
    (names names' : SortedSet String) : Prop :=
  ∃ leader, names.contains leader = true ∧
    (∀ s ∈ seeds, names.contains s = true → s = leader ∨ R leader s) ∧
    ∀ s ∈ seeds, names'.contains s = true → R leader s

theorem SeededBefore.cons (earlier : SeededBefore R seeds names names')
    (outside : names.contains seed = false) (outside' : names'.contains seed = false) :
    SeededBefore R (seed :: seeds) names names' := by
  obtain ⟨leader, own, first, later⟩ := earlier
  refine ⟨leader, own, fun s member inside => ?_, fun s member inside => ?_⟩
  · rcases List.mem_cons.mp member with rfl | member
    · rw [outside] at inside
      cases inside
    · exact first s member inside
  · rcases List.mem_cons.mp member with rfl | member
    · rw [outside'] at inside
      cases inside
    · exact later s member inside

/-- Walks from seeds in order find sets of names in the order of their first seeds. -/
theorem componentsFrom_ordered (formed : g.WellFormed) (saturated : g.Saturated visited)
    (inside : ∀ seed ∈ seeds, g.contains seed = true) (ordered : seeds.Pairwise R) :
    (g.componentsFrom seeds visited).Pairwise (SeededBefore R seeds) := by
  induction seeds generalizing visited with
  | nil => exact .nil
  | cons seed seeds ih =>
    have here := inside seed List.mem_cons_self
    have others (x : String) (member : x ∈ seeds) := inside x (List.mem_cons_of_mem _ member)
    obtain ⟨leads, ordered⟩ := List.pairwise_cons.mp ordered
    rw [componentsFrom]
    split
    · rename_i known
      obtain ⟨-, unvisited⟩ := componentsFrom_apart formed saturated others
      exact (ih saturated others ordered).imp_of_mem fun listed listed' earlier =>
        earlier.cons (unvisited _ listed seed known) (unvisited _ listed' seed known)
    · rename_i unknown
      obtain ⟨finds, visits⟩ := walk_spec formed saturated here (by simpa using unknown)
      have saturated' := saturated.visit visits
      obtain ⟨-, unvisited⟩ := componentsFrom_apart formed saturated' others
      have seen := (visits seed).mpr (.inr .refl)
      refine List.pairwise_cons.mpr ⟨fun names' listed => ?_,
        (ih saturated' others ordered).imp_of_mem fun listed listed' earlier =>
          earlier.cons (unvisited _ listed seed seen) (unvisited _ listed' seed seen)⟩
      refine ⟨seed, (finds seed).mpr .refl, fun s member _ => ?_, fun s member found => ?_⟩
      · exact (List.mem_cons.mp member).imp_right (leads s)
      · rcases List.mem_cons.mp member with rfl | member
        · rw [unvisited names' listed s seen] at found
          cases found
        · exact leads s member

end Order

theorem mem_names : name ∈ g.names ↔ g.contains name = true := SortedMap.mem_keys_iff_contains

theorem names_pairwise (g : OrchestrationGraph) : g.names.Pairwise (· < ·) :=
  g.nodes.keys_pairwise.imp fun before => by simpa [Key.before] using before

/-- Whether a seed comes before another: roots come before other nodes, in the order of names. -/
def SeedBefore (g : OrchestrationGraph) (a b : String) : Prop :=
  (a ∈ g.roots ∧ (b ∈ g.roots → a < b)) ∨ (a ∉ g.roots ∧ b ∉ g.roots ∧ a < b)

theorem SeedBefore.of_not_mem_roots (earlier : g.SeedBefore a b) (rootless : a ∉ g.roots) :
    b ∉ g.roots ∧ a < b := by
  rcases earlier with ⟨root, -⟩ | ⟨-, rootless', less⟩
  · exact absurd root rootless
  · exact ⟨rootless', less⟩

theorem seeds_pairwise (g : OrchestrationGraph) : g.seeds.Pairwise g.SeedBefore := by
  refine List.pairwise_append.mpr ⟨?_, ?_, fun a root b other => ?_⟩
  · refine (g.names_pairwise.filter _).imp_of_mem fun root root' less => ?_
    exact .inl ⟨root, fun _ => less⟩
  · refine (g.names_pairwise.filter _).imp_of_mem fun other other' less => ?_
    exact .inr ⟨by simpa using (List.mem_filter.mp other).2,
      by simpa using (List.mem_filter.mp other').2, less⟩
  · exact .inl ⟨root, fun root' => absurd root' (by simpa using (List.mem_filter.mp other).2)⟩

/-- A root is a node that no edge ends at. -/
theorem WellFormed.mem_roots (formed : g.WellFormed) :
    name ∈ g.roots ↔
      g.contains name = true ∧ ∀ a, g.edges.contains (g.edgeKey a name) = false := by
  rw [roots, List.mem_filter, mem_names, List.isEmpty_iff, List.eq_nil_iff_forall_not_mem]
  simp only [formed.predecessors_iff, Bool.not_eq_true]

/-- The roots of a component are the roots of the graph that are in it. -/
theorem WellFormed.mem_roots_induced (formed : g.WellFormed)
    (spec : ∀ x, names.contains x = true ↔ g.Connected seed x) :
    name ∈ (g.induced names).roots ↔ name ∈ g.roots ∧ names.contains name = true := by
  have keyed (a b : String) : (g.induced names).edgeKey a b = g.edgeKey a b := by simp [edgeKey]
  rw [(formed.induced names).mem_roots, formed.mem_roots, contains_induced]
  constructor
  · rintro ⟨⟨present, inside⟩, unreached⟩
    refine ⟨⟨present, fun a => ?_⟩, inside⟩
    by_contra edge
    rw [Bool.not_eq_false] at edge
    -- An edge from outside would connect its start with the component.
    have near : names.contains a = true :=
      (spec a).mpr (((spec name).mp inside).tail (formed.adjacent_iff.mpr (.inr edge)))
    obtain ⟨params, found⟩ := SortedMap.contains_iff.mp edge
    have kept : (g.induced names).edges.contains (g.edgeKey a name) = true := by
      refine SortedMap.contains_iff.mpr ⟨params, induced_edge_iff.mpr ⟨found, ?_⟩⟩
      rcases edgeKey_cases g a name with key | key <;> rw [key]
      · exact ⟨near, inside⟩
      · exact ⟨inside, near⟩
    rw [← keyed, unreached a] at kept
    cases kept
  · rintro ⟨⟨present, unreached⟩, inside⟩
    refine ⟨⟨present, inside⟩, fun a => ?_⟩
    by_contra edge
    rw [Bool.not_eq_false, keyed] at edge
    obtain ⟨params, found⟩ := SortedMap.contains_iff.mp edge
    have kept := SortedMap.contains_iff.mpr ⟨params, (induced_edge_iff.mp found).1⟩
    rw [unreached a] at kept
    cases kept

/-- Whether one component comes before another: those with a root come first, in the order of their
first roots, and the others follow in the order of their first names. -/
def Precedes (c c' : OrchestrationGraph) : Prop :=
  (∃ root ∈ c.roots, ∀ root' ∈ c'.roots, root < root') ∨
    (c.roots = [] ∧ c'.roots = [] ∧ ∃ name ∈ c.names, ∀ name' ∈ c'.names, name < name')

theorem components_ordered (formed : g.WellFormed) : g.components.Pairwise Precedes := by
  have nothing : g.Saturated ∅ := by rintro x y ⟨⟩
  have ordered := componentsFrom_ordered formed nothing (fun seed member => mem_seeds.mp member)
    g.seeds_pairwise
  obtain ⟨classes, -⟩ := components_spec formed
  rw [components, List.pairwise_map]
  refine ordered.imp_of_mem fun {names names'} listed listed' earlier => ?_
  obtain ⟨seed, seeded, spec⟩ := classes names listed
  obtain ⟨seed', -, spec'⟩ := classes names' listed'
  obtain ⟨leader, own, first, later⟩ := earlier
  by_cases root : leader ∈ g.roots
  · refine .inl ⟨leader, (formed.mem_roots_induced spec).mpr ⟨root, own⟩, fun root' member => ?_⟩
    obtain ⟨isRoot, inside⟩ := (formed.mem_roots_induced spec').mp member
    rcases later root' (List.mem_append_left _ isRoot) inside with ⟨-, less⟩ | ⟨rootless, -⟩
    · exact less isRoot
    · exact absurd root rootless
  · -- Where the first seed is no root, all seeds that come after it are none either.
    refine .inr ⟨?_, ?_, leader, ?_, fun name' member => ?_⟩
    · refine List.eq_nil_iff_forall_not_mem.mpr fun x member => ?_
      obtain ⟨isRoot, inside⟩ := (formed.mem_roots_induced spec).mp member
      rcases first x (List.mem_append_left _ isRoot) inside with rfl | earlier
      · exact root isRoot
      · exact (earlier.of_not_mem_roots root).1 isRoot
    · refine List.eq_nil_iff_forall_not_mem.mpr fun x member => ?_
      obtain ⟨isRoot, inside⟩ := (formed.mem_roots_induced spec').mp member
      exact ((later x (List.mem_append_left _ isRoot) inside).of_not_mem_roots root).1 isRoot
    · have present := formed.connected_contains ((spec leader).mp own) (mem_seeds.mp seeded)
      exact mem_names.mpr (contains_induced.mpr ⟨present, own⟩)
    · obtain ⟨present, inside⟩ := contains_induced.mp (mem_names.mp member)
      exact ((later name' (mem_seeds.mpr present) inside).of_not_mem_roots root).2

/-! ## The partition -/

/-- Nodes are connected when edges join them, whichever way the edges point. -/
theorem WellFormed.connected_iff (formed : g.WellFormed) :
    g.Connected a b ↔ EqvGen (fun a b => g.edges.contains (a, b) = true) a b := by
  constructor
  · intro connected
    induction connected with
    | refl => exact .refl a
    | @tail x y path last ih =>
      refine ih.trans _ _ _ ?_
      rcases formed.adjacent_iff.mp last with edge | edge
      · rcases edgeKey_cases g x y with key | key <;> rw [key] at edge
        · exact .rel _ _ edge
        · exact .symm _ _ (.rel _ _ edge)
      · rcases edgeKey_cases g y x with key | key <;> rw [key] at edge
        · exact .symm _ _ (.rel _ _ edge)
        · exact .rel _ _ edge
  · intro joined
    induction joined with
    | rel x y edge =>
      exact .single (formed.adjacent_iff.mpr (.inl (by rw [formed.edgeKey_self edge]; exact edge)))
    | refl x => exact .refl
    | symm x y _ ih => exact formed.connected_symm ih
    | trans x y z _ _ ih ih' => exact ih.trans ih'

/-- Parts that share out a graph into what is connected, in order. -/
structure Partition (g : OrchestrationGraph) (parts : List OrchestrationGraph) : Prop where
  built : ∀ part ∈ parts, part.Built
  directed : ∀ part ∈ parts, part.directed = g.directed
  nonempty : ∀ part ∈ parts, part.names ≠ []
  nodes : ∀ name node, g.node? name = some node ↔ ∃ part ∈ parts, part.node? name = some node
  nodes_apart : parts.Pairwise fun c c' => ∀ name ∈ c.names, name ∉ c'.names
  together : ∀ a ∈ g.names, ∀ b ∈ g.names,
    (∃ part ∈ parts, a ∈ part.names ∧ b ∈ part.names) ↔
      EqvGen (fun a b => g.edges.contains (a, b) = true) a b
  edges : ∀ e params, g.edges.find? e = some params ↔
    ∃ part ∈ parts, part.edges.find? e = some params
  edges_apart : parts.Pairwise fun c c' => ∀ e, c.edges.contains e = true →
    c'.edges.contains e = false
  ordered : parts.Pairwise Precedes

theorem components_pairwise_apart (formed : g.WellFormed) :
    g.components.Pairwise fun c c' => ∀ name ∈ c.names, name ∉ c'.names := by
  have nothing : g.Saturated ∅ := by rintro x y ⟨⟩
  obtain ⟨apart, -⟩ := componentsFrom_apart formed nothing fun seed member => mem_seeds.mp member
  rw [components, List.pairwise_map]
  refine apart.imp fun {names names'} apart name member member' => ?_
  have inside := (contains_induced.mp (mem_names.mp member)).2
  have inside' := (contains_induced.mp (mem_names.mp member')).2
  rw [apart name inside] at inside'
  cases inside'

theorem Built.partition (built : g.Built) : g.Partition g.components := by
  have formed := built.wellFormed
  have part_built : ∀ part ∈ g.components, part.Built := by
    intro part member
    obtain ⟨names, rfl⟩ := induced_of_mem_components member
    exact built.induced names
  have apart := components_pairwise_apart formed
  refine ⟨part_built, fun part member => ?_, fun part member => ?_, fun name node => ?_, apart,
    fun a first b second => ?_, fun e params => ?_, ?_, components_ordered formed⟩
  · obtain ⟨names, rfl⟩ := induced_of_mem_components member
    exact induced_directed
  · obtain ⟨names, seed, rfl, inside, spec⟩ := exists_seed_of_mem_components formed member
    exact List.ne_nil_of_mem
      (mem_names.mpr (contains_induced.mpr ⟨inside, (spec seed).mpr .refl⟩))
  · exact (exists_component_node?_iff formed).symm
  · rw [← formed.connected_iff]
    constructor
    · rintro ⟨part, member, inside, inside'⟩
      obtain ⟨names, seed, rfl, -, spec⟩ := exists_seed_of_mem_components formed member
      have reached := (spec a).mp (contains_induced.mp (mem_names.mp inside)).2
      have reached' := (spec b).mp (contains_induced.mp (mem_names.mp inside')).2
      exact (formed.connected_symm reached).trans reached'
    · intro connected
      obtain ⟨names, member, spec⟩ := exists_component formed (mem_names.mp first)
      exact ⟨_, member, mem_names.mpr (contains_induced.mpr ⟨mem_names.mp first, (spec a).mpr .refl⟩),
        mem_names.mpr (contains_induced.mpr ⟨mem_names.mp second, (spec b).mpr connected⟩)⟩
  · refine ⟨exists_component_of_edge formed, ?_⟩
    rintro ⟨part, member, found⟩
    obtain ⟨names, rfl⟩ := induced_of_mem_components member
    exact (induced_edge_iff.mp found).1
  · refine apart.imp_of_mem fun {c c'} member member' apart e edge => ?_
    by_contra edge'
    rw [Bool.not_eq_false] at edge'
    have start := ((part_built c member).wellFormed.ends edge).1
    have start' := ((part_built c' member').wellFormed.ends edge').1
    exact apart e.1 (mem_names.mpr start) (mem_names.mpr start')

/-- A traversal yields the parts that share out the graph into what is connected, in order, and then
nothing; every walk that it takes ends; whatever has been asked of it, it can be started over, and it
can be stopped and resumed after any number of parts. -/
theorem traversal_yields_partition (built : g.Built) :
    g.Partition g.traversal.rest.1 ∧ g.traversal.rest.2.next.1 = none ∧
    (∀ seed visited fuel, g.contains seed = true → g.nodes.size ≤ fuel →
      g.walk fuel [seed] (SortedSet.add visited seed) ∅ =
        g.walk g.nodes.size [seed] (SortedSet.add visited seed) ∅) ∧
    (∀ calls, (g.traversal.after calls).restart = g.traversal) ∧
    ∀ count, (g.traversal.take count).1 = g.traversal.rest.1.take count ∧
      (g.traversal.take count).2.rest.1 = g.traversal.rest.1.drop count := by
  obtain ⟨all, spent⟩ := g.traversal.rest_spec
  rw [all, Traversal.upcoming_traversal]
  refine ⟨built.partition, ?_, fun seed visited fuel inside enough => ?_, fun calls => ?_,
    fun count => ?_⟩
  · rw [(Traversal.next_spec _).1, spent, List.head?_nil]
  · exact walk_eq built.wellFormed inside enough
  · exact Traversal.restart_after _ calls
  · obtain ⟨taken, left⟩ := Traversal.take_spec count g.traversal
    rw [Traversal.upcoming_traversal] at taken left
    exact ⟨taken, (Traversal.rest_spec _).1.trans left⟩

/-- A loop without a root, and a pair of nodes with one. -/
def looped : OrchestrationGraph :=
  after true [.insert (blank "a"), .insert (blank "b"), .insert (blank "c"), .insert (blank "d"),
    .addEdge "a" "b" {}, .addEdge "b" "a" {}, .addEdge "d" "c" {}, .addEdge "c" "c" {}]

theorem traversal_yields_partition_looped :
    looped.Partition looped.traversal.rest.1 ∧
      looped.traversal.rest.1.map (·.names) = [["c", "d"], ["a", "b"]] :=
  ⟨(traversal_yields_partition (built_after _ _)).1, by decide +kernel⟩

end RestWiring.OrchestrationGraph
