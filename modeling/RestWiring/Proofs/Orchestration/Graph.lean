import RestWiring.Orchestration.Graph
import RestWiring.Proofs.Fallible
import RestWiring.Proofs.SortedMap

/-!
# Well-formed orchestration graphs

Every graph that is built by the operations on graphs stores nodes under their own names, has edges
between nodes only, and keeps both directions of neighbours in step with its edges.
-/
namespace RestWiring.OrchestrationGraph

variable {g g' : OrchestrationGraph} {a b start target name : String} {params : EdgeParams}

/-! ## Neighbours -/

section Neighbours

variable {adjacency : Adjacency}

theorem mem_neighbours :
    b ∈ neighbours adjacency a ↔
      ∃ s, adjacency.find? a = some s ∧ SortedMap.contains s b = true := by
  unfold neighbours
  cases adjacency.find? a with
  | none => simp
  | some s => simp [SortedSet.mem_members]

theorem neighbours_nodup (adjacency : Adjacency) (name : String) :
    (neighbours adjacency name).Nodup := by
  unfold neighbours
  cases adjacency.find? name with
  | none => exact .nil
  | some s => exact SortedMap.keys_nodup s

theorem mem_neighbours_add :
    b ∈ neighbours (adjacency.alter start ∅ (SortedSet.add · target)) a ↔
      (a = start ∧ b = target) ∨ b ∈ neighbours adjacency a := by
  by_cases same : a = start
  · subst same
    simp only [mem_neighbours, SortedMap.find?_alter_self, Option.some.injEq, exists_eq_left',
      SortedSet.contains_add,
      true_and]
    cases adjacency.find? a <;> simp
  · simp [mem_neighbours, SortedMap.find?_alter_of_ne _ _ _ same, same]

/-- Listing a node does not give it neighbours. -/
theorem mem_neighbours_list :
    b ∈ neighbours (adjacency.alter name ∅ id) a ↔ b ∈ neighbours adjacency a := by
  by_cases same : a = name
  · subst same
    simp only [mem_neighbours, SortedMap.find?_alter_self, Option.some.injEq, exists_eq_left', id]
    cases adjacency.find? a <;> simp
  · simp [mem_neighbours, SortedMap.find?_alter_of_ne _ _ _ same]

theorem mem_neighbours_drop :
    b ∈ neighbours (adjacency.modify start (SortedMap.erase · target)) a ↔
      b ∈ neighbours adjacency a ∧ ¬(a = start ∧ b = target) := by
  by_cases same : a = start
  · subst same
    simp only [mem_neighbours, SortedMap.find?_modify_self]
    cases adjacency.find? a <;> simp [SortedMap.contains_erase, and_comm]
  · simp [mem_neighbours, SortedMap.find?_modify_of_ne _ _ same, same]

theorem mem_neighbours_erase :
    b ∈ neighbours ((adjacency.erase name).map (SortedMap.erase · name)) a ↔
      b ∈ neighbours adjacency a ∧ a ≠ name ∧ b ≠ name := by
  simp only [mem_neighbours, SortedMap.find?_map, Option.map_eq_some_iff,
    SortedMap.find?_erase_eq_some]
  constructor
  · rintro ⟨_, ⟨s, ⟨apart, found⟩, rfl⟩, inside⟩
    obtain ⟨apart', inside⟩ := SortedMap.contains_erase.mp inside
    exact ⟨⟨s, found, inside⟩, apart, apart'⟩
  · rintro ⟨⟨s, found, inside⟩, apart, apart'⟩
    exact ⟨_, ⟨s, ⟨apart, found⟩, rfl⟩, SortedMap.contains_erase.mpr ⟨apart', inside⟩⟩

end Neighbours

/-! ## Keys of edges -/

theorem edgeKey_of_directed (directed : g.directed = true) : g.edgeKey a b = (a, b) := by
  simp [edgeKey, directed]

theorem edgeKey_cases (g : OrchestrationGraph) (a b : String) :
    g.edgeKey a b = (a, b) ∨ g.edgeKey a b = (b, a) := by
  unfold edgeKey
  split
  · exact .inr rfl
  · exact .inl rfl

theorem edgeKey_ordered (undirected : g.directed = false) :
    Key.before (g.edgeKey a b).2 (g.edgeKey a b).1 = false := by
  unfold edgeKey
  split
  · rename_i swapped
    simp only [undirected, Bool.not_false, Bool.true_and] at swapped
    by_contra before
    have loop := Key.trans swapped (by simpa using before)
    rw [Key.irrefl] at loop
    cases loop
  · rename_i kept
    simpa [undirected] using kept

theorem edgeKey_of_ordered (ordered : g.directed = false → Key.before b a = false) :
    g.edgeKey a b = (a, b) := by
  cases directed : g.directed with
  | true => exact edgeKey_of_directed directed
  | false => simp [edgeKey, directed, ordered directed]

theorem edgeKey_swap (undirected : g.directed = false) : g.edgeKey a b = g.edgeKey b a := by
  have ordered := edgeKey_ordered (a := a) (b := b) undirected
  have ordered' := edgeKey_ordered (a := b) (b := a) undirected
  rcases edgeKey_cases g a b with first | first <;>
    rcases edgeKey_cases g b a with second | second <;>
    rw [first] at ordered ⊢ <;> rw [second] at ordered' ⊢
  · have same : a = b := Key.total ordered' ordered
    rw [same]
  · have same : a = b := Key.total ordered ordered'
    rw [same]

/-- Two pairs of ends are those of one edge when they are the same pair, in an undirected graph also
when they are swapped. -/
theorem edgeKey_eq_iff :
    g.edgeKey a b = g.edgeKey start target ↔
      (a = start ∧ b = target) ∨ (g.directed = false ∧ a = target ∧ b = start) := by
  cases directed : g.directed with
  | true => simp [edgeKey_of_directed directed]
  | false =>
    constructor
    · intro same
      rcases edgeKey_cases g a b with first | first <;>
        rcases edgeKey_cases g start target with second | second <;>
        rw [first, second] at same <;> cases same <;> simp
    · rintro (⟨rfl, rfl⟩ | ⟨-, rfl, rfl⟩)
      · rfl
      · exact edgeKey_swap directed

/-! ## Linking and unlinking -/

@[simp] theorem link_nodes : (g.link start target).nodes = g.nodes := by
  unfold link
  split <;> rfl

@[simp] theorem link_edges : (g.link start target).edges = g.edges := by
  unfold link
  split <;> rfl

@[simp] theorem link_directed : (g.link start target).directed = g.directed := by
  unfold link
  split <;> rfl

@[simp] theorem link_edgeKey : (g.link start target).edgeKey a b = g.edgeKey a b := by
  simp [edgeKey]

@[simp] theorem unlink_nodes : (g.unlink start target).nodes = g.nodes := by
  unfold unlink
  split <;> rfl

@[simp] theorem unlink_edges : (g.unlink start target).edges = g.edges := by
  unfold unlink
  split <;> rfl

@[simp] theorem unlink_directed : (g.unlink start target).directed = g.directed := by
  unfold unlink
  split <;> rfl

@[simp] theorem unlink_edgeKey : (g.unlink start target).edgeKey a b = g.edgeKey a b := by
  simp [edgeKey]

theorem mem_link_successors :
    b ∈ neighbours (g.link start target).successors a ↔
      g.edgeKey a b = g.edgeKey start target ∨ b ∈ neighbours g.successors a := by
  rw [edgeKey_eq_iff, link]
  split
  · rename_i directed
    simp [linkOnce, mem_neighbours_add, directed]
  · rename_i undirected
    simp only [linkOnce, mem_neighbours_add, Bool.not_eq_true] at undirected ⊢
    simp only [undirected, true_and]
    tauto

theorem mem_link_predecessors :
    a ∈ neighbours (g.link start target).predecessors b ↔
      g.edgeKey a b = g.edgeKey start target ∨ a ∈ neighbours g.predecessors b := by
  rw [edgeKey_eq_iff, link]
  split
  · rename_i directed
    simp only [linkOnce, mem_neighbours_add, directed]
    tauto
  · rename_i undirected
    simp only [linkOnce, mem_neighbours_add, Bool.not_eq_true] at undirected ⊢
    simp only [undirected, true_and]
    tauto

theorem mem_unlink_successors :
    b ∈ neighbours (g.unlink start target).successors a ↔
      b ∈ neighbours g.successors a ∧ g.edgeKey a b ≠ g.edgeKey start target := by
  rw [ne_eq, edgeKey_eq_iff, unlink]
  split
  · rename_i directed
    simp [unlinkOnce, mem_neighbours_drop, directed]
  · rename_i undirected
    simp only [unlinkOnce, mem_neighbours_drop, Bool.not_eq_true] at undirected ⊢
    simp only [undirected, true_and]
    tauto

theorem mem_unlink_predecessors :
    a ∈ neighbours (g.unlink start target).predecessors b ↔
      a ∈ neighbours g.predecessors b ∧ g.edgeKey a b ≠ g.edgeKey start target := by
  rw [ne_eq, edgeKey_eq_iff, unlink]
  split
  · rename_i directed
    simp only [unlinkOnce, mem_neighbours_drop, directed]
    tauto
  · rename_i undirected
    simp only [unlinkOnce, mem_neighbours_drop, Bool.not_eq_true] at undirected ⊢
    simp only [undirected, true_and]
    tauto

/-- Linking lists no node that is not an end. -/
theorem contains_link_successors (inside : g.successors.contains start = true)
    (inside' : g.successors.contains target = true) :
    (g.link start target).successors.contains name = true ↔ g.successors.contains name = true := by
  unfold link
  split <;> simp only [linkOnce, SortedMap.contains_alter]
  · exact ⟨fun h => h.elim (fun same => same ▸ inside) id, .inr⟩
  · refine ⟨fun h => ?_, fun h => .inr (.inr h)⟩
    rcases h with rfl | rfl | h
    · exact inside'
    · exact inside
    · exact h

theorem contains_link_predecessors (inside : g.predecessors.contains start = true)
    (inside' : g.predecessors.contains target = true) :
    (g.link start target).predecessors.contains name = true ↔
      g.predecessors.contains name = true := by
  unfold link
  split <;> simp only [linkOnce, SortedMap.contains_alter]
  · exact ⟨fun h => h.elim (fun same => same ▸ inside') id, .inr⟩
  · refine ⟨fun h => ?_, fun h => .inr (.inr h)⟩
    rcases h with rfl | rfl | h
    · exact inside
    · exact inside'
    · exact h

@[simp] theorem contains_unlink_successors :
    (g.unlink start target).successors.contains name = g.successors.contains name := by
  unfold unlink
  split <;> simp [unlinkOnce, SortedMap.contains_modify]

@[simp] theorem contains_unlink_predecessors :
    (g.unlink start target).predecessors.contains name = g.predecessors.contains name := by
  unfold unlink
  split <;> simp [unlinkOnce, SortedMap.contains_modify]

/-! ## Changes

Every change looks for what it needs before it makes anything of the graph, so one that is refused leaves
the graph as it was. -/

namespace Change

theorem on_insert (n : OrchestrationNode) (g : OrchestrationGraph) :
    on (insert n) g =
      if g.contains n.name then (false, g)
      else (true, { g with
        nodes := g.nodes.insert n.name n
        successors := g.successors.alter n.name ∅ id
        predecessors := g.predecessors.alter n.name ∅ id }) := by
  change on (if g.contains n.name then _ else _) g = _
  split <;> rfl

theorem on_remove (name : String) (g : OrchestrationGraph) :
    on (remove name) g =
      match g.nodes.find? name with
      | none => (none, g)
      | some node => (some node, { g with
          nodes := g.nodes.erase name
          edges := g.edges.filter fun e _ => e.1 != name && e.2 != name
          successors := (g.successors.erase name).map (SortedMap.erase · name)
          predecessors := (g.predecessors.erase name).map (SortedMap.erase · name) }) := by
  change on (match g.nodes.find? name with | none => _ | some node => _) g = _
  cases g.nodes.find? name <;> rfl

/-- A change that needs both ends of an edge. -/
theorem on_checkEnds (start target : String) (change : Change Unit) (g : OrchestrationGraph) :
    on (do (← get).checkEnds start target; change : Change Unit).run g =
      match g.checkEnds start target with
      | .error e => (.error e, g)
      | .ok () => on change.run g := by
  change on (ExceptT.bindCont (fun _ => change) (g.checkEnds start target)) g = _
  cases g.checkEnds start target <;> rfl

theorem on_addEdge (start target : String) (params : EdgeParams) (g : OrchestrationGraph) :
    on (addEdge start target params).run g =
      match g.checkEnds start target with
      | .error e => (.error e, g)
      | .ok () =>
        (.ok (), link { g with edges := g.edges.insert (g.edgeKey start target) params } start target) :=
  on_checkEnds ..

theorem on_updateEdge (start target : String) (params : EdgeParams) (g : OrchestrationGraph) :
    on (updateEdge start target params).run g =
      match g.checkEnds start target with
      | .error e => (.error e, g)
      | .ok () =>
        match g.edge? start target with
        | some existing =>
          (.ok (), { g with edges := g.edges.insert (g.edgeKey start target) (existing.merge params) })
        | none =>
          (.ok (), link { g with edges := g.edges.insert (g.edgeKey start target) params } start target) := by
  rw [updateEdge, on_checkEnds]
  cases g.checkEnds start target with
  | error e => rfl
  | ok =>
    change on (ExceptT.run (match g.edge? start target with | some existing => _ | none => _)) g = _
    cases g.edge? start target <;> rfl

theorem on_removeEdge (start target : String) (g : OrchestrationGraph) :
    on (removeEdge start target) g =
      match g.edge? start target with
      | none => (none, g)
      | some params =>
        (some params, unlink { g with edges := g.edges.erase (g.edgeKey start target) } start target) := by
  change on (match g.edge? start target with | none => _ | some params => _) g = _
  cases g.edge? start target <;> rfl

end Change

theorem insert?_eq (g : OrchestrationGraph) (n : OrchestrationNode) :
    g.insert? n =
      if g.contains n.name then none
      else some { g with
        nodes := g.nodes.insert n.name n
        successors := g.successors.alter n.name ∅ id
        predecessors := g.predecessors.alter n.name ∅ id } := by
  rw [insert?, Change.on_insert]
  cases g.contains n.name <;> rfl

theorem remove?_eq (g : OrchestrationGraph) (name : String) :
    g.remove? name =
      match g.nodes.find? name with
      | none => none
      | some node => some (node, { g with
          nodes := g.nodes.erase name
          edges := g.edges.filter fun e _ => e.1 != name && e.2 != name
          successors := (g.successors.erase name).map (SortedMap.erase · name)
          predecessors := (g.predecessors.erase name).map (SortedMap.erase · name) }) := by
  rw [remove?, Change.on_remove]
  cases g.nodes.find? name <;> rfl

theorem addEdge_eq (g : OrchestrationGraph) (start target : String) (params : EdgeParams) :
    g.addEdge start target params = (do
      g.checkEnds start target
      return link { g with edges := g.edges.insert (g.edgeKey start target) params } start target) := by
  rw [addEdge, changed, Change.on_addEdge]
  cases g.checkEnds start target <;> rfl

theorem updateEdge_eq (g : OrchestrationGraph) (start target : String) (params : EdgeParams) :
    g.updateEdge start target params = (do
      g.checkEnds start target
      match g.edge? start target with
      | some existing =>
        return { g with edges := g.edges.insert (g.edgeKey start target) (existing.merge params) }
      | none =>
        return link { g with edges := g.edges.insert (g.edgeKey start target) params } start target) := by
  rw [updateEdge, changed, Change.on_updateEdge]
  cases g.checkEnds start target with
  | error e => rfl
  | ok => cases g.edge? start target <;> rfl

theorem removeEdge?_eq (g : OrchestrationGraph) (start target : String) :
    g.removeEdge? start target =
      match g.edge? start target with
      | none => none
      | some params =>
        some (params, unlink { g with edges := g.edges.erase (g.edgeKey start target) } start target) := by
  rw [removeEdge?, Change.on_removeEdge]
  cases g.edge? start target <;> rfl

/-! ## The invariant -/

/-- Nodes under their own names, edges between nodes, and neighbours as the edges say. -/
structure WellFormed (g : OrchestrationGraph) : Prop where
  named : ∀ {name n}, g.nodes.find? name = some n → n.name = name
  successors_keys : ∀ name, g.successors.contains name = true ↔ g.contains name = true
  predecessors_keys : ∀ name, g.predecessors.contains name = true ↔ g.contains name = true
  ends : ∀ {e}, g.edges.contains e = true → g.contains e.1 = true ∧ g.contains e.2 = true
  ordered : g.directed = false → ∀ {e}, g.edges.contains e = true → Key.before e.2 e.1 = false
  successors_iff : ∀ a b, b ∈ neighbours g.successors a ↔ g.edges.contains (g.edgeKey a b) = true
  predecessors_iff : ∀ a b,
    a ∈ neighbours g.predecessors b ↔ g.edges.contains (g.edgeKey a b) = true

theorem checkEnds_success (success : g.checkEnds start target = .ok ()) :
    g.contains start = true ∧ g.contains target = true := by
  unfold checkEnds at success
  split at success
  · cases success
  · split at success
    · cases success
    · simp_all

/-- The key of an edge is the edge's own pair of names. -/
theorem WellFormed.edgeKey_self (formed : g.WellFormed) {e : String × String}
    (present : g.edges.contains e = true) :
    g.edgeKey e.1 e.2 = e :=
  edgeKey_of_ordered fun undirected => formed.ordered undirected present

theorem WellFormed.empty (directed : Bool) : (empty directed).WellFormed where
  named := by rintro name n ⟨⟩
  successors_keys := fun _ => .rfl
  predecessors_keys := fun _ => .rfl
  ends := by rintro e ⟨⟩
  ordered := by rintro - e ⟨⟩
  successors_iff := by
    intro a b
    simp [neighbours, OrchestrationGraph.empty, edgeKey]
  predecessors_iff := by
    intro a b
    simp [neighbours, OrchestrationGraph.empty, edgeKey]

theorem WellFormed.insert? (formed : g.WellFormed) {n : OrchestrationNode}
    (success : g.insert? n = some g') :
    g'.WellFormed := by
  rw [insert?_eq] at success
  split at success
  · cases success
  · cases success
    refine ⟨?_, ?_, ?_, ?_, formed.ordered, ?_, ?_⟩
    · intro name m found
      rw [SortedMap.find?_insert] at found
      split at found
      · rename_i same
        cases found
        exact same.symm
      · exact formed.named found
    · intro name
      simp only [SortedMap.contains_alter, formed.successors_keys, contains,
        SortedMap.contains_insert]
    · intro name
      simp only [SortedMap.contains_alter, formed.predecessors_keys, contains,
        SortedMap.contains_insert]
    · intro e present
      obtain ⟨first, second⟩ := formed.ends present
      exact ⟨SortedMap.contains_insert.mpr (.inr first),
        SortedMap.contains_insert.mpr (.inr second)⟩
    · intro a b
      rw [mem_neighbours_list]
      exact formed.successors_iff a b
    · intro a b
      rw [mem_neighbours_list]
      exact formed.predecessors_iff a b

theorem WellFormed.remove? (formed : g.WellFormed) {n : OrchestrationNode}
    (success : g.remove? name = some (n, g')) : g'.WellFormed := by
  rw [remove?_eq] at success
  split at success
  · cases success
  · cases success
    have keeps {e : String × String} :
        (g.edges.filter fun e _ => e.1 != name && e.2 != name).contains e = true ↔
        g.edges.contains e = true ∧ e.1 ≠ name ∧ e.2 ≠ name := by
      rw [SortedMap.contains_filter, SortedMap.contains_iff]
      simp
    have key_ends (a b : String) :
        ((g.edgeKey a b).1 ≠ name ∧ (g.edgeKey a b).2 ≠ name) ↔ a ≠ name ∧ b ≠ name := by
      rcases edgeKey_cases g a b with key | key <;> simp [key, and_comm]
    refine ⟨?_, ?_, ?_, ?_, ?_, ?_, ?_⟩
    · intro other m found
      exact formed.named (SortedMap.find?_erase_eq_some.mp found).2
    · intro other
      simp only [SortedMap.contains_map, SortedMap.contains_erase, formed.successors_keys, contains]
    · intro other
      simp only [SortedMap.contains_map, SortedMap.contains_erase, formed.predecessors_keys,
        contains]
    · intro e present
      obtain ⟨present, apart, apart'⟩ := keeps.mp present
      obtain ⟨first, second⟩ := formed.ends present
      exact ⟨SortedMap.contains_erase.mpr ⟨apart, first⟩,
        SortedMap.contains_erase.mpr ⟨apart', second⟩⟩
    · intro undirected e present
      exact formed.ordered undirected (keeps.mp present).1
    · intro a b
      rw [mem_neighbours_erase, formed.successors_iff]
      exact (and_congr_right fun _ => (key_ends a b).symm).trans keeps.symm
    · intro a b
      rw [mem_neighbours_erase, formed.predecessors_iff, and_comm (a := b ≠ name)]
      exact (and_congr_right fun _ => (key_ends a b).symm).trans keeps.symm

/-- Putting an edge between nodes, whether it is new or not. -/
theorem WellFormed.put (formed : g.WellFormed) (first : g.contains start = true)
    (second : g.contains target = true) :
    (link { g with edges := g.edges.insert (g.edgeKey start target) params }
      start target).WellFormed := by
  have successors_keys (name : String) := formed.successors_keys name
  have predecessors_keys (name : String) := formed.predecessors_keys name
  refine ⟨?_, fun name => ?_, fun name => ?_, ?_, ?_, fun a b => ?_, fun a b => ?_⟩
  · intro name n found
    rw [link_nodes] at found
    exact formed.named found
  · rw [contains, link_nodes]
    refine Iff.trans ?_ (successors_keys name)
    exact contains_link_successors ((successors_keys start).mpr first)
      ((successors_keys target).mpr second)
  · rw [contains, link_nodes]
    refine Iff.trans ?_ (predecessors_keys name)
    exact contains_link_predecessors ((predecessors_keys start).mpr first)
      ((predecessors_keys target).mpr second)
  · intro e present
    rw [link_edges, SortedMap.contains_insert] at present
    rw [contains, contains, link_nodes]
    rcases present with rfl | present
    · rcases edgeKey_cases g start target with key | key <;> rw [key]
      · exact ⟨first, second⟩
      · exact ⟨second, first⟩
    · exact formed.ends present
  · intro undirected e present
    rw [link_directed] at undirected
    rw [link_edges, SortedMap.contains_insert] at present
    rcases present with rfl | present
    · exact edgeKey_ordered undirected
    · exact formed.ordered undirected present
  · rw [mem_link_successors, link_edgeKey, link_edges, SortedMap.contains_insert]
    exact or_congr_right (formed.successors_iff a b)
  · rw [mem_link_predecessors, link_edgeKey, link_edges, SortedMap.contains_insert]
    exact or_congr_right (formed.predecessors_iff a b)

theorem WellFormed.addEdge (formed : g.WellFormed)
    (success : g.addEdge start target params = .ok g') :
    g'.WellFormed := by
  rw [addEdge_eq] at success
  obtain ⟨⟨⟩, checked, equal⟩ := bind_success_iff.mp success
  cases equal
  obtain ⟨first, second⟩ := checkEnds_success checked
  exact formed.put first second

theorem WellFormed.updateEdge (formed : g.WellFormed)
    (success : g.updateEdge start target params = .ok g') :
    g'.WellFormed := by
  rw [updateEdge_eq] at success
  obtain ⟨⟨⟩, checked, success⟩ := bind_success_iff.mp success
  obtain ⟨first, second⟩ := checkEnds_success checked
  split at success
  · rename_i existing found
    cases success
    have present : g.edges.contains (g.edgeKey start target) = true :=
      SortedMap.contains_iff.mpr ⟨existing, found⟩
    have keeps {e : String × String} :
        (g.edges.insert (g.edgeKey start target) (existing.merge params)).contains e = true ↔
          g.edges.contains e = true := by
      rw [SortedMap.contains_insert]
      exact ⟨fun h => h.elim (fun same => same ▸ present) id, .inr⟩
    refine ⟨formed.named, formed.successors_keys, formed.predecessors_keys, ?_, ?_,
      fun a b => ?_, fun a b => ?_⟩
    · exact fun h => formed.ends (keeps.mp h)
    · exact fun undirected _ h => formed.ordered undirected (keeps.mp h)
    · exact (formed.successors_iff a b).trans keeps.symm
    · exact (formed.predecessors_iff a b).trans keeps.symm
  · cases success
    exact formed.put first second

theorem WellFormed.removeEdge? (formed : g.WellFormed)
    (success : g.removeEdge? start target = some (params, g')) :
    g'.WellFormed := by
  rw [removeEdge?_eq] at success
  split at success
  · cases success
  · cases success
    have keeps {e : String × String} :
        (g.edges.erase (g.edgeKey start target)).contains e = true ↔
          e ≠ g.edgeKey start target ∧ g.edges.contains e = true :=
      SortedMap.contains_erase
    refine ⟨?_, fun name => ?_, fun name => ?_, ?_, ?_, fun a b => ?_, fun a b => ?_⟩
    · intro name n found
      rw [unlink_nodes] at found
      exact formed.named found
    · rw [contains_unlink_successors, contains, unlink_nodes]
      exact formed.successors_keys name
    · rw [contains_unlink_predecessors, contains, unlink_nodes]
      exact formed.predecessors_keys name
    · intro e present
      rw [unlink_edges, keeps] at present
      rw [contains, contains, unlink_nodes]
      exact formed.ends present.2
    · intro undirected e present
      rw [unlink_directed] at undirected
      rw [unlink_edges, keeps] at present
      exact formed.ordered undirected present.2
    · rw [mem_unlink_successors, unlink_edgeKey, unlink_edges, keeps, and_comm]
      exact and_congr_right fun _ => formed.successors_iff a b
    · rw [mem_unlink_predecessors, unlink_edgeKey, unlink_edges, keeps, and_comm]
      exact and_congr_right fun _ => formed.predecessors_iff a b

/-! ## Induced graphs -/

section Induced

variable {names : SortedSet String}

theorem foldl_link_frame (keys : List (String × String)) (g : OrchestrationGraph) :
    (keys.foldl (fun g e => g.link e.1 e.2) g).nodes = g.nodes ∧
      (keys.foldl (fun g e => g.link e.1 e.2) g).edges = g.edges ∧
      (keys.foldl (fun g e => g.link e.1 e.2) g).directed = g.directed := by
  induction keys generalizing g with
  | nil => exact ⟨rfl, rfl, rfl⟩
  | cons e keys ih =>
    obtain ⟨nodes, edges, directed⟩ := ih (g.link e.1 e.2)
    simp only [link_nodes, link_edges, link_directed] at nodes edges directed
    exact ⟨nodes, edges, directed⟩

@[simp] theorem induced_nodes :
    (g.induced names).nodes = g.nodes.filter fun name _ => SortedMap.contains names name :=
  (foldl_link_frame _ _).1

@[simp] theorem induced_edges :
    (g.induced names).edges =
      g.edges.filter fun e _ => SortedMap.contains names e.1 && SortedMap.contains names e.2 :=
  (foldl_link_frame _ _).2.1

@[simp] theorem induced_directed : (g.induced names).directed = g.directed :=
  (foldl_link_frame _ _).2.2

theorem contains_induced :
    (g.induced names).contains name = true ↔
      g.contains name = true ∧ SortedMap.contains names name = true := by
  simp only [contains, induced_nodes, SortedMap.contains_filter, exists_and_right,
    ← SortedMap.contains_iff]

theorem induced_edge_iff {e : String × String} :
    (g.induced names).edges.find? e = some params ↔
      g.edges.find? e = some params ∧ SortedMap.contains names e.1 = true ∧
        SortedMap.contains names e.2 = true := by
  rw [induced_edges, SortedMap.find?_filter_eq_some]
  simp

theorem foldl_link_successors (keys : List (String × String)) (g : OrchestrationGraph) :
    b ∈ neighbours (keys.foldl (fun g e => g.link e.1 e.2) g).successors a ↔
      (∃ e ∈ keys, g.edgeKey a b = g.edgeKey e.1 e.2) ∨ b ∈ neighbours g.successors a := by
  induction keys generalizing g with
  | nil => simp
  | cons e keys ih =>
    rw [List.foldl_cons, ih, mem_link_successors]
    simp only [link_edgeKey, List.exists_mem_cons_iff]
    rw [or_assoc, or_left_comm]

theorem foldl_link_predecessors (keys : List (String × String)) (g : OrchestrationGraph) :
    a ∈ neighbours (keys.foldl (fun g e => g.link e.1 e.2) g).predecessors b ↔
      (∃ e ∈ keys, g.edgeKey a b = g.edgeKey e.1 e.2) ∨ a ∈ neighbours g.predecessors b := by
  induction keys generalizing g with
  | nil => simp
  | cons e keys ih =>
    rw [List.foldl_cons, ih, mem_link_predecessors]
    simp only [link_edgeKey, List.exists_mem_cons_iff]
    rw [or_assoc, or_left_comm]

/-- Linking nodes that are listed lists no further node. -/
theorem foldl_link_keys {keys : List (String × String)} {g : OrchestrationGraph}
    (successors_keys : ∀ name, g.successors.contains name = true ↔ g.contains name = true)
    (predecessors_keys : ∀ name, g.predecessors.contains name = true ↔ g.contains name = true)
    (ends : ∀ e ∈ keys, g.contains e.1 = true ∧ g.contains e.2 = true) :
    (∀ name, (keys.foldl (fun g e => g.link e.1 e.2) g).successors.contains name = true ↔
      g.contains name = true) ∧
      ∀ name, (keys.foldl (fun g e => g.link e.1 e.2) g).predecessors.contains name = true ↔
        g.contains name = true := by
  induction keys generalizing g with
  | nil => exact ⟨successors_keys, predecessors_keys⟩
  | cons e keys ih =>
    obtain ⟨first, second⟩ := ends e List.mem_cons_self
    have linked {name : String} : (g.link e.1 e.2).contains name = g.contains name := by
      rw [contains, link_nodes, contains]
    have rest := ih (g := g.link e.1 e.2) (fun name => ?_) (fun name => ?_) fun e' member => ?_
    · simpa only [linked, List.foldl_cons] using rest
    · rw [linked, ← successors_keys]
      exact contains_link_successors ((successors_keys _).mpr first)
        ((successors_keys _).mpr second)
    · rw [linked, ← predecessors_keys]
      exact contains_link_predecessors ((predecessors_keys _).mpr first)
        ((predecessors_keys _).mpr second)
    · rw [linked, linked]
      exact ends e' (List.mem_cons_of_mem _ member)

theorem WellFormed.induced (formed : g.WellFormed) (names : SortedSet String) :
    (g.induced names).WellFormed := by
  have present_iff {e : String × String} : (g.induced names).edges.contains e = true ↔
      g.edges.contains e = true ∧ SortedMap.contains names e.1 = true ∧
        SortedMap.contains names e.2 = true := by
    simp only [SortedMap.contains_iff, induced_edge_iff, exists_and_right]
  have ends {e : String × String} (present : (g.induced names).edges.contains e = true) :
      (g.induced names).contains e.1 = true ∧ (g.induced names).contains e.2 = true := by
    obtain ⟨present, inside, inside'⟩ := present_iff.mp present
    obtain ⟨first, second⟩ := formed.ends present
    exact ⟨contains_induced.mpr ⟨first, inside⟩, contains_induced.mpr ⟨second, inside'⟩⟩
  -- Every edge that is kept has been linked, and its key is the key of its own two names.
  have linked (a b : String) :
      (∃ e ∈ (g.induced names).edges.keys, g.edgeKey a b = g.edgeKey e.1 e.2) ↔
      (g.induced names).edges.contains (g.edgeKey a b) = true := by
    simp only [SortedMap.mem_keys_iff_contains]
    constructor
    · rintro ⟨e, present, same⟩
      rw [same, formed.edgeKey_self (present_iff.mp present).1]
      exact present
    · intro present
      exact ⟨_, present, (formed.edgeKey_self (present_iff.mp present).1).symm⟩
  have keyed (a b : String) : (g.induced names).edgeKey a b = g.edgeKey a b := by simp [edgeKey]
  have nothing (nodes : SortedMap String OrchestrationNode) (a b : String) :
      b ∉ neighbours (nodes.map fun _ => (∅ : SortedSet String)) a := by
    simp only [mem_neighbours, SortedMap.find?_map, Option.map_eq_some_iff]
    rintro ⟨_, ⟨_, -, rfl⟩, ⟨⟩⟩
  have listed : (∀ name, (g.induced names).successors.contains name = true ↔
        (g.nodes.filter fun name _ => SortedMap.contains names name).contains name = true) ∧
      ∀ name, (g.induced names).predecessors.contains name = true ↔
        (g.nodes.filter fun name _ => SortedMap.contains names name).contains name = true := by
    refine foldl_link_keys (fun name => ?_) (fun name => ?_) fun e member => ?_
    · rw [SortedMap.contains_map, contains]
    · rw [SortedMap.contains_map, contains]
    · have present :=
        ends (e := e) (by rw [induced_edges]; exact SortedMap.mem_keys_iff_contains.mp member)
      simpa only [contains, induced_nodes] using present
  refine ⟨?_, fun name => ?_, fun name => ?_, ends, ?_, fun a b => ?_, fun a b => ?_⟩
  · intro name n found
    rw [induced_nodes, SortedMap.find?_filter_eq_some] at found
    exact formed.named found.1
  · rw [contains, induced_nodes]
    exact listed.1 name
  · rw [contains, induced_nodes]
    exact listed.2 name
  · intro undirected e present
    rw [induced_directed] at undirected
    exact formed.ordered undirected (present_iff.mp present).1
  · rw [keyed, ← linked, induced_edges]
    refine (foldl_link_successors _ _).trans ?_
    exact or_iff_left (nothing _ a b)
  · rw [keyed, ← linked, induced_edges]
    refine (foldl_link_predecessors _ _).trans ?_
    exact or_iff_left (nothing _ b a)

end Induced

/-- A graph that operations have built. -/
inductive Built : OrchestrationGraph → Prop
  | empty (directed : Bool) : Built (empty directed)
  | insert {g g' : OrchestrationGraph} {n : OrchestrationNode} (before : Built g)
    (success : g.insert? n = some g') :
      Built g'
  | remove {g g' : OrchestrationGraph} {name : String} {n : OrchestrationNode} (before : Built g)
      (success : g.remove? name = some (n, g')) : Built g'
  | addEdge {g g' : OrchestrationGraph} {start target : String} {params : EdgeParams}
    (before : Built g)
      (success : g.addEdge start target params = .ok g') : Built g'
  | updateEdge {g g' : OrchestrationGraph} {start target : String} {params : EdgeParams}
    (before : Built g)
      (success : g.updateEdge start target params = .ok g') : Built g'
  | removeEdge {g g' : OrchestrationGraph} {start target : String} {params : EdgeParams}
    (before : Built g)
      (success : g.removeEdge? start target = some (params, g')) : Built g'
  | induced {g : OrchestrationGraph} (before : Built g) (names : SortedSet String) :
    Built (g.induced names)

/-- The invariant holds of every graph that operations have built. -/
theorem Built.wellFormed (built : Built g) : g.WellFormed := by
  induction built with
  | empty directed => exact .empty directed
  | insert _ success ih => exact ih.insert? success
  | remove _ success ih => exact ih.remove? success
  | addEdge _ success ih => exact ih.addEdge success
  | updateEdge _ success ih => exact ih.updateEdge success
  | removeEdge _ success ih => exact ih.removeEdge? success
  | induced _ names ih => exact ih.induced names

end RestWiring.OrchestrationGraph
