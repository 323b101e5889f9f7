import Mathlib.Data.List.Induction
import RestWiring.Proofs.Orchestration.Graph

/-!
# How graphs are represented

A graph keeps every edge three times: under its key, and at each end as a neighbour in one direction.
Whatever calls are made on a graph, whether they fail or not, the three stay in step. Nodes and edges
therefore say all there is to say about a graph: the calls that it was built by leave no trace.
-/
namespace RestWiring.OrchestrationGraph

variable {g g' : OrchestrationGraph} {a b start target : String} {params : EdgeParams}

/-! ## Calls -/

/-- A call that is to change a graph, or that goes on with a part of it. -/
inductive Edit where
  | insert (node : OrchestrationNode)
  | remove (name : String)
  | addEdge (start target : String) (params : EdgeParams)
  | updateEdge (start target : String) (params : EdgeParams)
  | removeEdge (start target : String)
  | restrict (names : SortedSet String)

namespace Edit

/-- Makes a call, and says whether it goes through. -/
def run : Edit → StateM OrchestrationGraph Bool
  | insert node => Change.insert node
  | remove name => return (← Change.remove name).isSome
  | addEdge start target params => return (← (Change.addEdge start target params).run).isOk
  | updateEdge start target params => return (← (Change.updateEdge start target params).run).isOk
  | removeEdge start target => return (← Change.removeEdge start target).isSome
  | restrict names => do
    modify fun g => g.induced names
    return true

/-- The graph that a call makes; `none` if the call fails. -/
def result? (g : OrchestrationGraph) : Edit → Option OrchestrationGraph
  | insert node => g.insert? node
  | remove name => (g.remove? name).map (·.2)
  | addEdge start target params => (g.addEdge start target params).toOption
  | updateEdge start target params => (g.updateEdge start target params).toOption
  | removeEdge start target => (g.removeEdge? start target).map (·.2)
  | restrict names => some (g.induced names)

/-- Whether a call has nothing to act on: a name is taken or missing, or there is no such edge. -/
def Refused (g : OrchestrationGraph) : Edit → Prop
  | insert node => g.contains node.name = true
  | remove name => g.contains name = false
  | addEdge start target _ | updateEdge start target _ =>
    g.contains start = false ∨ g.contains target = false
  | removeEdge start target =>
    g.edges.contains (start, target) = false ∧
      (g.directed = false → g.edges.contains (target, start) = false)
  | restrict _ => False

/-- The call with the ends of its edge exchanged. -/
def swapped : Edit → Edit
  | addEdge start target params => addEdge target start params
  | updateEdge start target params => updateEdge target start params
  | removeEdge start target => removeEdge target start
  | e => e

end Edit

/-- What a call leaves of a graph, whether it goes through or not. -/
def edit (g : OrchestrationGraph) (e : Edit) : OrchestrationGraph := (Change.on e.run g).2

/-- The graph after some calls on an empty one. -/
def after (directed : Bool) (history : List Edit) : OrchestrationGraph :=
  history.foldl edit (empty directed)

/-- A call that goes through leaves the graph that it makes, one that fails the graph as it was. -/
theorem Edit.on_run (g : OrchestrationGraph) (e : Edit) :
    Change.on e.run g =
      match e.result? g with
      | some g' => (true, g')
      | none => (false, g) := by
  cases e with
  | insert node =>
    rw [run, Change.on_insert, Edit.result?, insert?_eq]
    split <;> rfl
  | remove name =>
    change ((Change.on (Change.remove name) g).1.isSome, (Change.on (Change.remove name) g).2) = _
    rw [Change.on_remove, Edit.result?, remove?_eq]
    cases g.nodes.find? name <;> rfl
  | addEdge start target params =>
    let change := (Change.addEdge start target params).run
    change ((Change.on change g).1.isOk, (Change.on change g).2) = _
    rw [Change.on_addEdge, Edit.result?, addEdge_eq]
    cases g.checkEnds start target <;> rfl
  | updateEdge start target params =>
    let change := (Change.updateEdge start target params).run
    change ((Change.on change g).1.isOk, (Change.on change g).2) = _
    rw [Change.on_updateEdge, Edit.result?, updateEdge_eq]
    cases g.checkEnds start target with
    | error e => rfl
    | ok => cases g.edge? start target <;> rfl
  | removeEdge start target =>
    let change := Change.removeEdge start target
    change ((Change.on change g).1.isSome, (Change.on change g).2) = _
    rw [Change.on_removeEdge, Edit.result?, removeEdge?_eq]
    cases g.edge? start target <;> rfl
  | restrict names => rfl

theorem Built.result? (built : g.Built) {e : Edit} (success : e.result? g = some g') : g'.Built := by
  cases e with
  | insert node => exact built.insert success
  | remove name =>
    obtain ⟨⟨node, rest⟩, removed, rfl⟩ := Option.map_eq_some_iff.mp success
    exact built.remove removed
  | addEdge start target params =>
    cases added : g.addEdge start target params with
    | error e => simp [Edit.result?, added, Except.toOption] at success
    | ok rest =>
      simp only [Edit.result?, added, Except.toOption, Option.some.injEq] at success
      exact success ▸ built.addEdge added
  | updateEdge start target params =>
    cases updated : g.updateEdge start target params with
    | error e => simp [Edit.result?, updated, Except.toOption] at success
    | ok rest =>
      simp only [Edit.result?, updated, Except.toOption, Option.some.injEq] at success
      exact success ▸ built.updateEdge updated
  | removeEdge start target =>
    obtain ⟨⟨params, rest⟩, removed, rfl⟩ := Option.map_eq_some_iff.mp success
    exact built.removeEdge removed
  | restrict names =>
    cases success
    exact built.induced names

theorem Built.edit (built : g.Built) (e : Edit) : (g.edit e).Built := by
  rw [OrchestrationGraph.edit, e.on_run]
  cases result : e.result? g with
  | none => exact built
  | some g' => exact built.result? result

theorem after_concat (directed : Bool) (history : List Edit) (e : Edit) :
    after directed (history ++ [e]) = (after directed history).edit e := by
  rw [after, List.foldl_append, List.foldl_cons, List.foldl_nil, after]

theorem built_after (directed : Bool) (history : List Edit) : (after directed history).Built := by
  induction history using List.reverseRecOn with
  | nil => exact .empty directed
  | append_singleton history e ih =>
    rw [after_concat]
    exact ih.edit e

/-! ## When calls fail -/

theorem toOption_checkEnds (g : OrchestrationGraph) (start target : String) :
    (g.checkEnds start target).toOption =
      if g.contains start && g.contains target then some () else none := by
  unfold checkEnds
  cases g.contains start <;> cases g.contains target <;> rfl

/-- A step that succeeds with the ends of an edge fails with one that is missing. -/
theorem toOption_checkEnds_bind {next : Unit → Except OrchestrationError OrchestrationGraph} :
    (g.checkEnds start target >>= next).toOption =
      if g.contains start && g.contains target then (next ()).toOption else none := by
  have checked := toOption_checkEnds g start target
  cases ends : g.checkEnds start target with
  | error e =>
    rw [ends] at checked
    split at checked
    · cases checked
    · rename_i missing
      rw [if_neg missing]
      rfl
  | ok u =>
    rw [ends] at checked
    split at checked
    · rename_i present
      rw [if_pos present]
      rfl
    · cases checked

theorem WellFormed.edge?_eq_none_iff (formed : g.WellFormed) :
    g.edge? start target = none ↔
      g.edges.contains (start, target) = false ∧
        (g.directed = false → g.edges.contains (target, start) = false) := by
  rw [edge?, ← SortedMap.contains_eq_false_iff]
  cases directed : g.directed with
  | true => simp [edgeKey_of_directed directed]
  | false =>
    have own {a b : String} (present : g.edges.contains (a, b) = true) : g.edgeKey a b = (a, b) :=
      formed.edgeKey_self (e := (a, b)) present
    constructor
    · intro absent
      have unkept : g.edges.contains (start, target) = false := by
        by_contra present
        rw [Bool.not_eq_false] at present
        rw [own present, present] at absent
        cases absent
      have unkept' : g.edges.contains (target, start) = false := by
        by_contra present
        rw [Bool.not_eq_false] at present
        rw [edgeKey_swap directed, own present, present] at absent
        cases absent
      exact ⟨unkept, fun _ => unkept'⟩
    · rintro ⟨absent, absent'⟩
      rcases edgeKey_cases g start target with key | key
      · rw [key, absent]
      · rw [key, absent' rfl]

/-- Calls fail when they are refused and never else. -/
theorem WellFormed.result?_eq_none_iff (formed : g.WellFormed) (e : Edit) :
    e.result? g = none ↔ e.Refused g := by
  cases e with
  | insert node =>
    by_cases taken : g.contains node.name = true <;>
      simp [Edit.result?, Edit.Refused, insert?_eq, taken]
  | remove name =>
    rw [Edit.Refused, contains, SortedMap.contains_eq_false_iff]
    cases found : g.nodes.find? name <;> simp [Edit.result?, remove?_eq, found]
  | addEdge start target params =>
    rw [Edit.result?, addEdge_eq, toOption_checkEnds_bind, Edit.Refused]
    split
    · rename_i present
      exact iff_of_false (Option.some_ne_none _) (by simp_all)
    · simp_all [imp_iff_not_or]
  | updateEdge start target params =>
    rw [Edit.result?, updateEdge_eq, toOption_checkEnds_bind, Edit.Refused]
    split
    · rename_i present
      refine iff_of_false (fun failed => ?_) (by simp_all)
      split at failed <;> cases failed
    · simp_all [imp_iff_not_or]
  | removeEdge start target =>
    rw [Edit.Refused, ← formed.edge?_eq_none_iff]
    cases found : g.edge? start target <;> simp [Edit.result?, removeEdge?_eq, found]
  | restrict names => simp [Edit.result?, Edit.Refused]

/-! ## Nodes and edges say it all -/

/-- Neighbours of the same nodes that are the same neighbours. -/
theorem Adjacency.ext {first second : Adjacency}
    (keys : ∀ name, first.contains name = true ↔ second.contains name = true)
    (same : ∀ a b, b ∈ neighbours first a ↔ b ∈ neighbours second a) : first = second := by
  refine SortedMap.ext_find? fun name => ?_
  have listed := keys name
  rw [SortedMap.contains_iff, SortedMap.contains_iff] at listed
  have near := same name
  simp only [mem_neighbours] at near
  cases found : first.find? name with
  | none =>
    cases found' : second.find? name with
    | none => rfl
    | some t => simp [found, found'] at listed
  | some s =>
    cases found' : second.find? name with
    | none => simp [found, found'] at listed
    | some t =>
      refine congrArg some (SortedSet.ext_contains fun b => ?_)
      simpa [found, found'] using near b

/-- Graphs with the same nodes and edges are the same. -/
theorem WellFormed.ext (formed : g.WellFormed) (formed' : g'.WellFormed)
    (nodes : g.nodes = g'.nodes) (edges : g.edges = g'.edges)
    (directed : g.directed = g'.directed) : g = g' := by
  have contained (name : String) : g.contains name = g'.contains name := by
    rw [contains, contains, nodes]
  have keyed (a b : String) : g.edgeKey a b = g'.edgeKey a b := by
    rw [edgeKey, edgeKey, directed]
  have successors : g.successors = g'.successors := by
    refine Adjacency.ext (fun name => ?_) fun a b => ?_
    · rw [formed.successors_keys, formed'.successors_keys, contained]
    · rw [formed.successors_iff, formed'.successors_iff, edges, keyed]
  have predecessors : g.predecessors = g'.predecessors := by
    refine Adjacency.ext (fun name => ?_) fun b a => ?_
    · rw [formed.predecessors_keys, formed'.predecessors_keys, contained]
    · rw [formed.predecessors_iff, formed'.predecessors_iff, edges, keyed]
  cases g
  cases g'
  cases nodes
  cases edges
  cases directed
  cases successors
  cases predecessors
  rfl

/-- In an undirected graph a node that comes next also comes just before. -/
theorem WellFormed.successors_eq_predecessors (formed : g.WellFormed)
    (undirected : g.directed = false) : g.successors = g.predecessors := by
  refine Adjacency.ext (fun name => ?_) fun a b => ?_
  · rw [formed.successors_keys, formed.predecessors_keys]
  · rw [formed.successors_iff, formed.predecessors_iff, edgeKey_swap undirected]

/-! ## Undirected graphs -/

theorem WellFormed.put_swap (formed : g.WellFormed) (undirected : g.directed = false)
    (first : g.contains start = true) (second : g.contains target = true) :
    link { g with edges := g.edges.insert (g.edgeKey target start) params } target start =
      link { g with edges := g.edges.insert (g.edgeKey start target) params } start target := by
  refine (formed.put second first).ext (formed.put first second) ?_ ?_ ?_
  · rw [link_nodes, link_nodes]
  · rw [link_edges, link_edges, edgeKey_swap undirected]
  · rw [link_directed, link_directed]

theorem edge?_swap (undirected : g.directed = false) : g.edge? target start = g.edge? start target := by
  rw [edge?, edge?, edgeKey_swap undirected]

theorem WellFormed.removeEdge?_swap (formed : g.WellFormed) (undirected : g.directed = false) :
    g.removeEdge? target start = g.removeEdge? start target := by
  cases found : g.edge? start target with
  | none => simp only [removeEdge?_eq, edge?_swap undirected, found]
  | some params =>
    have here : g.removeEdge? start target = some (params,
        unlink { g with edges := g.edges.erase (g.edgeKey start target) } start target) := by
      rw [removeEdge?_eq, found]
    have there : g.removeEdge? target start = some (params,
        unlink { g with edges := g.edges.erase (g.edgeKey target start) } target start) := by
      rw [removeEdge?_eq, edge?_swap undirected, found]
    rw [here, there]
    refine congrArg (fun rest => some (params, rest))
      ((formed.removeEdge? there).ext (formed.removeEdge? here) ?_ ?_ ?_)
    · rw [unlink_nodes, unlink_nodes]
    · rw [unlink_edges, unlink_edges, edgeKey_swap undirected]
    · rw [unlink_directed, unlink_directed]

/-- In an undirected graph it does not matter in which order the ends of an edge are given. -/
theorem WellFormed.result?_swapped (formed : g.WellFormed) (undirected : g.directed = false)
    (e : Edit) : e.swapped.result? g = e.result? g := by
  cases e with
  | insert | remove | restrict => rfl
  | addEdge start target params =>
    rw [Edit.swapped, Edit.result?, Edit.result?, addEdge_eq, addEdge_eq, toOption_checkEnds_bind,
      toOption_checkEnds_bind, Bool.and_comm]
    split
    · rename_i present
      rw [Bool.and_eq_true] at present
      exact congrArg some (formed.put_swap undirected present.1 present.2)
    · rfl
  | updateEdge start target params =>
    rw [Edit.swapped, Edit.result?, Edit.result?, updateEdge_eq, updateEdge_eq,
      toOption_checkEnds_bind, toOption_checkEnds_bind, Bool.and_comm, edge?_swap undirected]
    split
    · rename_i present
      rw [Bool.and_eq_true] at present
      split
      · rw [edgeKey_swap undirected]
      · exact congrArg some (formed.put_swap undirected present.1 present.2)
    · rfl
  | removeEdge start target =>
    rw [Edit.swapped, Edit.result?, Edit.result?, formed.removeEdge?_swap undirected]

/-! ## The representation of graphs -/

/-- What a graph keeps of its nodes and edges. -/
structure Represented (g : OrchestrationGraph) : Prop where
  named : ∀ {name node}, g.node? name = some node → node.name = name
  successors_keys : g.successors.keys = g.names
  predecessors_keys : g.predecessors.keys = g.names
  ends : ∀ {a b}, g.edges.contains (a, b) = true → a ∈ g.names ∧ b ∈ g.names
  along : g.directed = true → ∀ a b,
    (b ∈ neighbours g.successors a ↔ g.edges.contains (a, b) = true) ∧
      (g.edges.contains (a, b) = true ↔ a ∈ neighbours g.predecessors b)
  ordered : g.directed = false → ∀ {a b}, g.edges.contains (a, b) = true → a ≤ b
  between : g.directed = false → ∀ a b,
    b ∈ neighbours g.successors a ↔
      g.edges.contains (if b < a then (b, a) else (a, b)) = true
  symmetric : g.directed = false → g.successors = g.predecessors

theorem edgeKey_of_undirected (undirected : g.directed = false) :
    g.edgeKey a b = if b < a then (b, a) else (a, b) := by
  simp [edgeKey, undirected, Key.before]

theorem WellFormed.represented (formed : g.WellFormed) : g.Represented where
  named := formed.named
  successors_keys := SortedMap.keys_congr formed.successors_keys
  predecessors_keys := SortedMap.keys_congr formed.predecessors_keys
  ends := fun present =>
    (formed.ends present).imp SortedMap.mem_keys_iff_contains.mpr SortedMap.mem_keys_iff_contains.mpr
  along := fun directed a b => by
    rw [formed.successors_iff, formed.predecessors_iff, edgeKey_of_directed directed]
    exact ⟨.rfl, .rfl⟩
  ordered := fun undirected a b present => by
    have ordered := formed.ordered undirected present
    exact String.not_lt.mp (of_decide_eq_false ordered)
  between := fun undirected a b => by
    rw [formed.successors_iff, edgeKey_of_undirected undirected]
  symmetric := formed.successors_eq_predecessors

theorem result?_directed {e : Edit} (success : e.result? g = some g') : g'.directed = g.directed := by
  cases e with
  | insert node =>
    rw [Edit.result?, insert?_eq] at success
    split at success <;> cases success
    rfl
  | remove name =>
    obtain ⟨⟨node, rest⟩, removed, rfl⟩ := Option.map_eq_some_iff.mp success
    rw [remove?_eq] at removed
    split at removed <;> cases removed
    rfl
  | addEdge start target params =>
    rw [Edit.result?, addEdge_eq, toOption_checkEnds_bind] at success
    split at success <;> cases success
    rw [link_directed]
  | updateEdge start target params =>
    rw [Edit.result?, updateEdge_eq, toOption_checkEnds_bind] at success
    split at success
    · split at success <;> cases success
      · rfl
      · rw [link_directed]
    · cases success
  | removeEdge start target =>
    obtain ⟨⟨params, rest⟩, removed, rfl⟩ := Option.map_eq_some_iff.mp success
    rw [removeEdge?_eq] at removed
    split at removed <;> cases removed
    rw [unlink_directed]
  | restrict names =>
    cases success
    rw [induced_directed]

/-- No call turns a directed graph into an undirected one, or the other way round. -/
theorem after_directed (directed : Bool) (history : List Edit) :
    (after directed history).directed = directed := by
  induction history using List.reverseRecOn with
  | nil => rfl
  | append_singleton history e ih =>
    rw [after_concat, edit, e.on_run]
    cases result : e.result? (after directed history) with
    | none => exact ih
    | some g => exact (result?_directed result).trans ih

/-- Whatever calls are made on a graph, the neighbours, the edges and the nodes that it keeps stay in
step, in the graph and in every part of it, so that graphs with the same nodes and edges are the same
graph whatever they were built by. The calls that fail are those that have nothing to act on, and they
leave the graph as it was; the ends of an undirected edge may be given in either order. -/
theorem edits_keep_representation (directed : Bool) (history : List Edit) :
    (after directed history).Represented ∧ (after directed history).directed = directed ∧
    (∀ names, ((after directed history).induced names).Represented) ∧
    (∀ directed' history',
      (after directed history).nodes = (after directed' history').nodes →
      (after directed history).edges = (after directed' history').edges →
      (after directed history).directed = (after directed' history').directed →
      after directed history = after directed' history') ∧
    (∀ e : Edit,
      ((Change.on e.run (after directed history)).1 = false ↔ e.Refused (after directed history)) ∧
      ((Change.on e.run (after directed history)).1 = false →
        after directed (history ++ [e]) = after directed history)) ∧
    (directed = false → ∀ e : Edit,
      Change.on e.swapped.run (after directed history) = Change.on e.run (after directed history) ∧
      after directed (history ++ [e.swapped]) = after directed (history ++ [e])) := by
  have formed := (built_after directed history).wellFormed
  have refused (e : Edit) :
      (Change.on e.run (after directed history)).1 = false ↔ e.result? (after directed history) = none := by
    rw [e.on_run]
    cases e.result? (after directed history) <;> simp
  refine ⟨formed.represented, after_directed directed history,
    fun names => (formed.induced names).represented, fun directed' history' => ?_,
    fun e => ⟨(refused e).trans (formed.result?_eq_none_iff e), fun failed => ?_⟩,
    fun undirected e => ?_⟩
  · exact formed.ext (built_after directed' history').wellFormed
  · rw [after_concat, edit, e.on_run, (refused e).mp failed]
  · have same := formed.result?_swapped ((after_directed directed history).trans undirected) e
    rw [after_concat, after_concat, edit, edit, e.swapped.on_run, e.on_run, same]
    exact ⟨rfl, rfl⟩

/-- A node without code under a name. -/
def blank (name : String) : OrchestrationNode where
  name
  deployment :=
    { uid := name, code := "", runtime := "", requirements := [], handler := "", codeLocation := "",
      params := {}, sinks := [] }

/-- Two neighbours on two ways: on the second one the ends are swapped and a call is refused. -/
theorem edits_keep_representation_neighbours :
    after false [.insert (blank "a"), .insert (blank "b"), .addEdge "a" "b" {}] =
      after false [.insert (blank "b"), .addEdge "a" "b" {}, .insert (blank "a"),
        .updateEdge "b" "a" {}] :=
  (edits_keep_representation false
    [.insert (blank "a"), .insert (blank "b"), .addEdge "a" "b" {}]).2.2.2.1 false _
    rfl rfl rfl

end RestWiring.OrchestrationGraph
