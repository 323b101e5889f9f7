import RestWiring.Orchestration.Derive
import RestWiring.Proofs.Orchestration.Graph
import RestWiring.Proofs.Resolution.Fidelity

/-!
# Derived orchestration graphs

The graph that `orchestrate` derives is directed and has exactly the dependencies as its edges.
Every dependency leads from something to what refers to it, so the edges have no cycle.
-/
namespace RestWiring

open Relation

/-! ## Units and edges -/

section Frames

variable {config : CompilerConfig} {units : List FunctionUnit} {uids : SortedSet String}
  {files files' : FileStore}
  {g g' : OrchestrationGraph}

theorem OrchestrationGraph.insert?_of_new {n : OrchestrationNode} (new : g.contains n.name = false) :
    ∃ next, g.insert? n = some next ∧ next.nodes = g.nodes.insert n.name n ∧
      next.directed = g.directed ∧ next.edges = g.edges := by
  rw [insert?_eq, if_neg (by simp [new])]
  exact ⟨_, rfl, rfl, rfl, rfl⟩

/-- A unit is added under a name and an identity that are new, and then the others are. -/
theorem addUnits_cons {unit : FunctionUnit}
    (success : addUnits config (unit :: units) uids g files = (.ok g', files')) :
    ∃ deployment next written, g.contains unit.qualified = false ∧
      SortedMap.contains uids unit.uid = false ∧
      config.compile files unit = .ok (deployment, written) ∧
      g.insert? ⟨unit.qualified, deployment⟩ = some next ∧
      addUnits config units (SortedSet.add uids unit.uid) next written = (.ok g', files') := by
  rw [addUnits] at success
  split at success
  · cases success
  · rename_i free
    simp only [Bool.or_eq_true, not_or, Bool.not_eq_true] at free
    obtain ⟨new, unused⟩ := free
    split at success
    · cases success
    · rename_i deployment written compiled
      obtain ⟨next, inserted, -⟩ :=
        OrchestrationGraph.insert?_of_new (n := ⟨unit.qualified, deployment⟩) new
      rw [inserted] at success
      exact ⟨deployment, next, written, new, unused, compiled, inserted, success⟩

/-- Adding units adds no edge. -/
theorem addUnits_frame (success : addUnits config units uids g files = (.ok g', files'))
    (built : g.Built) :
    g'.Built ∧ g'.directed = g.directed ∧ g'.edges = g.edges := by
  induction units generalizing uids g files with
  | nil =>
    cases success
    exact ⟨built, rfl, rfl⟩
  | cons unit units ih =>
    obtain ⟨deployment, next, written, new, -, -, inserted, success⟩ := addUnits_cons success
    obtain ⟨built', directed, edges⟩ := ih success (.insert built inserted)
    obtain ⟨_, same, -, directed', edges'⟩ :=
      OrchestrationGraph.insert?_of_new (n := ⟨unit.qualified, deployment⟩) new
    cases inserted.symm.trans same
    exact ⟨built', directed.trans directed', edges.trans edges'⟩

theorem OrchestrationGraph.addEdge_success {start target : String} {params : EdgeParams}
    (directed : g.directed = true) (success : g.addEdge start target params = .ok g') :
    g'.nodes = g.nodes ∧ g'.directed = true ∧ g'.edges = g.edges.insert (start, target) params := by
  rw [addEdge_eq] at success
  obtain ⟨⟨⟩, -, equal⟩ := bind_success_iff.mp success
  cases equal
  simp [directed, edgeKey_of_directed directed]

/-- Adding edges to a directed graph adds exactly these edges with the usual settings. -/
theorem addEdges_success {pairs : List (String × String)} (success : addEdges pairs g = .ok g')
    (built : g.Built) (directed : g.directed = true) :
    g'.Built ∧ g'.directed = true ∧ g'.nodes = g.nodes ∧
      ∀ e, g'.edges.find? e = if e ∈ pairs then some {} else g.edges.find? e := by
  induction pairs generalizing g with
  | nil =>
    cases success
    exact ⟨built, directed, rfl, by simp⟩
  | cons pair pairs ih =>
    obtain ⟨start, target⟩ := pair
    obtain ⟨next, added, success⟩ := bind_success_iff.mp success
    obtain ⟨nodes, directed', edges⟩ := OrchestrationGraph.addEdge_success directed added
    obtain ⟨built', directed'', nodes', found⟩ := ih success (.addEdge built added) directed'
    refine ⟨built', directed'', nodes'.trans nodes, fun e => ?_⟩
    rw [found, edges, SortedMap.find?_insert]
    simp only [List.mem_cons]
    split_ifs <;> simp_all

theorem orchestrate_success {graph : ResolutionGraph}
    (success : (orchestrate config graph files).1 = .ok g) :
    g.Built ∧ g.directed = true ∧
      ∀ e, g.edges.find? e = if e ∈ dependencies graph then some {} else none := by
  unfold orchestrate at success
  split at success
  · cases success
  · rename_i nodes _ added
    obtain ⟨built, directed, edges⟩ := addUnits_frame added (.empty true)
    obtain ⟨built', directed', -, found⟩ := addEdges_success success built directed
    refine ⟨built', directed', fun e => ?_⟩
    rw [found, edges]
    rfl

end Frames

/-! ## Dependencies and references -/

/-- The texts of different references differ. -/
theorem Ref.text_injective : Function.Injective Ref.text := by
  rintro ⟨category, name⟩ ⟨category', name'⟩ same
  have chars :
      category.text.toList ++ ':' :: name.toList =
        category'.text.toList ++ ':' :: name'.toList := by
    simpa [text, Category.qualify] using congrArg String.toList same
  cases category <;> cases category' <;> simp_all [Category.text, String.toList_inj]

theorem ResolutionGraph.mem_resolversOf {params : List Param} {feeding : List Resolver}
    {r : Resolver}
    (member : r ∈ resolversOf params feeding) : r ∈ feeding ∨ ∃ p ∈ params, p.resolver = r := by
  induction params generalizing feeding with
  | nil => exact .inl member
  | cons p params ih =>
    rw [resolversOf] at member
    split at member
    · rcases ih member with inside | ⟨q, used, equal⟩
      · exact .inl inside
      · exact .inr ⟨q, List.mem_cons_of_mem _ used, equal⟩
    · rcases ih member with inside | ⟨q, used, equal⟩
      · rcases List.mem_append.mp inside with inside | inside
        · exact .inl inside
        · exact .inr ⟨p, List.mem_cons_self, (List.mem_singleton.mp inside).symm⟩
      · exact .inr ⟨q, List.mem_cons_of_mem _ used, equal⟩

variable {g : ResolutionGraph} {c : Declarations} {a b : String}

/-- A dependency leads from a declaration to one that refers to it, directly or through a
parameter. -/
theorem dependencies_refer (resolves : g.Resolves c) (member : (a, b) ∈ dependencies g) :
    ∃ r s : Ref, r.text = a ∧ s.text = b ∧ TransGen c.Refers s r := by
  rcases List.mem_append.mp member with reads | feeds
  · obtain ⟨reader, stored, equal⟩ := List.mem_filterMap.mp reads
    obtain ⟨name, found⟩ := SortedMap.mem_values.mp stored
    obtain ⟨decl, declared, describes⟩ := resolves.resolver found
    have source := describes.source
    cases place : reader.source with
    | database connectionString table => simp [Resolver.endpoint?, place] at equal
    | endpoint e select =>
      rw [place] at source
      obtain ⟨kind, named, -⟩ := source
      simp only [Resolver.endpoint?, place, Option.map_some, Option.some.injEq,
        Prod.mk.injEq] at equal
      obtain ⟨rfl, rfl⟩ := equal
      refine ⟨(.endpoint, e.name), (.resolver, reader.name), rfl, rfl, .single ?_⟩
      rw [describes.name]
      exact .source declared kind named
  · obtain ⟨target, inside, fed⟩ := List.mem_flatMap.mp feeds
    obtain ⟨feeding, supplies, equal⟩ := List.mem_map.mp fed
    cases equal
    obtain ⟨name, found⟩ := SortedMap.mem_values.mp (List.mem_filter.mp inside).1
    obtain ⟨decl, declared, describes⟩ := resolves.endpoint found
    obtain ⟨⟨⟩⟩ | ⟨p, used, rfl⟩ := ResolutionGraph.mem_resolversOf supplies
    obtain ⟨paramDecl, param_declared, param_describes⟩ :=
      resolves.param (resolves.holds_param found used)
    have uses : c.Refers (.endpoint, name) (.param, p.name) := by
      have location := describes.location
      unfold Endpoint.params at used
      split at used
      · cases used
      · rename_i place
        rw [place] at location
        obtain ⟨kind, -, -, params⟩ := location
        exact .param declared kind (params ▸ List.mem_map_of_mem used)
    refine ⟨(.resolver, p.resolver.name), (.endpoint, target.name), rfl, rfl, ?_⟩
    rw [describes.name, param_describes.resolver]
    exact .head uses (.single (.supplier param_declared))

/-- Without a cycle of references there is none of dependencies. -/
theorem dependencies_acyclic (resolves : g.Resolves c) (acyclic : ∀ r, ¬ TransGen c.Refers r r) :
    ¬ TransGen (fun a b => (a, b) ∈ dependencies g) a a := by
  have path {a b : String} (steps : TransGen (fun a b => (a, b) ∈ dependencies g) a b) :
      ∃ r s : Ref, r.text = a ∧ s.text = b ∧ TransGen c.Refers s r := by
    induction steps with
    | single first => exact dependencies_refer resolves first
    | tail _ last ih =>
      obtain ⟨r, s, start, middle, refers⟩ := ih
      obtain ⟨s', u, middle', stop, refers'⟩ := dependencies_refer resolves last
      rw [Ref.text_injective (middle.trans middle'.symm)] at refers
      exact ⟨r, u, start, stop, refers'.trans refers⟩
  intro cycle
  obtain ⟨r, s, start, stop, refers⟩ := path cycle
  rw [Ref.text_injective (start.trans stop.symm)] at refers
  exact acyclic s refers

end RestWiring
