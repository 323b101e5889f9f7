import Mathlib.Logic.Relation
import RestWiring.Proofs.Resolution.References
import RestWiring.Resolution.Sweep

/-!
# What nodes hold

Resolved declarations of all categories are taken together as `Node`s, so that what they hold, where
a graph stores them and how they are placed is stated once. Placing a declaration whose references
are all in the graph succeeds, copies the declaration and takes over the stored nodes.
-/
namespace RestWiring

/-- A resolved declaration of any category. -/
inductive Node where
  | endpoint (e : Endpoint)
  | param (p : Param)
  | resolver (r : Resolver)
  | output (o : Output)

namespace Node

/-- The category and the name under which a graph stores a node. -/
def ref : Node → Ref
  | .endpoint e => (.endpoint, e.name)
  | .param p => (.param, p.name)
  | .resolver r => (.resolver, r.name)
  | .output o => (.output, o.name)

/-- The nodes that a node holds itself, in the order of its declaration's references. -/
def contents : Node → List Node
  | .endpoint e =>
    match e.location with
    | .base _ => e.outputs.map .output
    | .relative _ base params => .endpoint base :: (params.map .param ++ e.outputs.map .output)
  | .param p => [.resolver p.resolver]
  | .resolver r =>
    match r.source with
    | .endpoint e _ => [.endpoint e]
    | .database .. => []
  | .output _ => []

theorem param_mem_contents {e : Endpoint} {p : Param} (used : p ∈ e.params) :
    .param p ∈ (endpoint e).contents := by
  cases place : e.location with
  | base url => simp [Endpoint.params, place] at used
  | relative path base params =>
    have inside : p ∈ params := by simpa [Endpoint.params, place] using used
    simp [contents, place, inside]

theorem source_mem_contents {r : Resolver} {e : Endpoint} (reads : r.endpoint? = some e) :
    .endpoint e ∈ (resolver r).contents := by
  cases place : r.source with
  | endpoint e' select =>
    obtain rfl : e' = e := by simpa [Resolver.endpoint?, place] using reads
    simp [contents, place]
  | database connectionString table => simp [Resolver.endpoint?, place] at reads

/-- Whether a node holds another one, at any depth. -/
def Holds : Node → Node → Prop := Relation.TransGen fun outer inner => inner ∈ outer.contents

end Node

/-! ## Nodes of a graph -/

namespace ResolutionGraph

variable {g : ResolutionGraph} {r : Ref} {n : Node}

/-- The node that is stored under a category and a name. -/
def node? (g : ResolutionGraph) : Ref → Option Node
  | (.endpoint, name) => (g.endpoints.find? name).map .endpoint
  | (.param, name) => (g.params.find? name).map .param
  | (.resolver, name) => (g.resolvers.find? name).map .resolver
  | (.output, name) => (g.outputs.find? name).map .output

/-- Adds a node under its category and name. -/
def add (g : ResolutionGraph) : Node → ResolutionGraph
  | .endpoint e => (g.addEndpoint e).2
  | .param p => (g.addParam p).2
  | .resolver r => (g.addResolver r).2
  | .output o => (g.addOutput o).2

theorem place_of_absent {α : Type} {m : SortedMap String α} {name : String} (node : α)
    (absent : m.find? name = none) : place m name node = (node, m.insert name node) := by
  rw [place, absent]

theorem place_of_present {α : Type} {m : SortedMap String α} {name : String} {stored : α} (node : α)
    (present : m.find? name = some stored) : place m name node = (stored, m) := by
  rw [place, present]

theorem place_find?_of_ne {α : Type} {m : SortedMap String α} {name other : String} (node : α)
    (different : other ≠ name) : (place m name node).2.find? other = m.find? other := by
  cases found : m.find? name with
  | none => rw [place_of_absent node found, SortedMap.find?_insert_of_ne _ _ different]
  | some stored => rw [place_of_present node found]

/-- A node that is added under a new name is stored there. -/
theorem node?_add_self (absent : g.node? n.ref = none) : (g.add n).node? n.ref = some n := by
  cases n <;>
    simp only [node?, Node.ref, Option.map_eq_none_iff] at absent <;>
    simp [node?, Node.ref, add, addEndpoint, addParam, addResolver, addOutput,
      place_of_absent _ absent,
      SortedMap.find?_insert_self]

/-- Adding a node leaves every other category and name alone. -/
theorem node?_add_of_ne (different : r ≠ n.ref) : (g.add n).node? r = g.node? r := by
  obtain ⟨category, name⟩ := r
  cases n <;> cases category <;>
    simp_all [node?, Node.ref, add, addEndpoint, addParam, addResolver, addOutput,
      place_find?_of_ne]

theorem node?_add_of_stored {m : Node} (absent : g.node? n.ref = none)
    (stored : g.node? r = some m) :
    (g.add n).node? r = some m := by
  rw [node?_add_of_ne ?_, stored]
  rintro rfl
  rw [absent] at stored
  cases stored

/-- Every node is stored under its own name. -/
def Named (g : ResolutionGraph) : Prop := ∀ {r n}, g.node? r = some n → n.ref = r

/-- What stored nodes hold is stored, too, and is the same there. -/
def SelfContained (g : ResolutionGraph) : Prop :=
  ∀ {r n}, g.node? r = some n → ∀ m ∈ n.contents, g.node? m.ref = some m

theorem Named.add (named : g.Named) (absent : g.node? n.ref = none) : (g.add n).Named := by
  intro r m stored
  by_cases same : r = n.ref
  · rw [same, node?_add_self absent] at stored
    cases stored
    exact same.symm
  · rw [node?_add_of_ne same] at stored
    exact named stored

theorem SelfContained.add (contained : g.SelfContained) (absent : g.node? n.ref = none)
    (held : ∀ m ∈ n.contents, g.node? m.ref = some m) : (g.add n).SelfContained := by
  intro r m stored inner inside
  apply node?_add_of_stored absent
  by_cases same : r = n.ref
  · rw [same, node?_add_self absent] at stored
    cases stored
    exact held inner inside
  · rw [node?_add_of_ne same] at stored
    exact contained stored inner inside

/-- In a self-contained graph the nodes at any depth are the stored ones. -/
theorem SelfContained.holds (contained : g.SelfContained) {m : Node} (stored : g.node? r = some n)
    (within : n.Holds m) : g.node? m.ref = some m := by
  induction within with
  | single first => exact contained stored _ first
  | tail _ last ih => exact contained ih _ last

end ResolutionGraph

/-! ## Placing a declaration -/

/-- Whether an endpoint is reached where its declaration says; references are compared by name. -/
def EndpointShape.Yields : EndpointShape → Location → Prop
  | .base url, .base url' => url' = url
  | .relative below path params, .relative path' e params' =>
    path' = path ∧ e.name = below ∧ params'.map (·.name) = params
  | _, _ => False

def ResolverShape.Yields (select : Option String) : ResolverShape → Source → Prop
  | .endpoint source, .endpoint e select' => e.name = source ∧ select' = select
  | .database connectionString table, .database connectionString' table' =>
    connectionString' = connectionString ∧ table' = table
  | _, _ => False

/-- Whether a node is what a declaration of a given name asks for. -/
def Declared.Yields (name : String) : Declared → Node → Prop
  | .endpoint decl method shape, .endpoint e =>
    e.name = name ∧ e.description = decl.description ∧ e.method = method ∧ e.body = decl.body ∧
      e.outputs.map (·.name) = decl.outputs ∧ shape.Yields e.location
  | .param decl, .param p =>
    p.name = name ∧ p.description = decl.description ∧ p.type = decl.type ∧
      p.resolver.name = decl.resolver
  | .resolver decl shape, .resolver r =>
    r.name = name ∧ r.description = decl.description ∧ r.authentication = decl.authentication ∧
      shape.Yields decl.select r.source
  | .output decl kind, .output o => o = ⟨name, decl.description, kind, decl.target, decl.config⟩
  | _, _ => False

namespace ResolutionGraph

variable {g : ResolutionGraph} {name : String} {d : Declared}

theorem lookup_of_present {α : Type} {m : SortedMap String α} {referrer target : String} {a : α}
    (present : m.find? target = some a) : lookup m referrer target = .ok a := by
  rw [lookup, present]

/-- Looking up names that are all there gives the stored nodes under these names, in order. -/
theorem lookupAll_success {α : Type} {m : SortedMap String α} {nameOf : α → String}
    (named : ∀ {k a}, m.find? k = some a → nameOf a = k) {names : List String}
    (present : ∀ n ∈ names, ∃ a, m.find? n = some a) (referrer : String) :
    ∃ stored, names.mapM (lookup m referrer) = .ok stored ∧ stored.map nameOf = names ∧
      ∀ a ∈ stored, m.find? (nameOf a) = some a := by
  induction names with
  | nil => exact ⟨[], rfl, rfl, by simp⟩
  | cons n rest ih =>
    obtain ⟨a, found⟩ := present n List.mem_cons_self
    obtain ⟨others, success, names_eq, stored⟩ :=
      ih fun n member => present n (List.mem_cons_of_mem _ member)
    refine ⟨a :: others, ?_, ?_, ?_⟩
    · rw [List.mapM_cons, lookup_of_present found, success]
      rfl
    · rw [List.map_cons, named found, names_eq]
    · intro b member
      rcases List.mem_cons.mp member with rfl | later
      · rw [named found]
        exact found
      · exact stored b later

theorem Named.endpoint (named : g.Named) {k : String} {e : Endpoint}
    (found : g.endpoints.find? k = some e) :
    e.name = k := by
  have stored : g.node? (.endpoint, k) = some (.endpoint e) := by simp [node?, found]
  exact congrArg Prod.snd (named stored)

theorem Named.param (named : g.Named) {k : String} {p : Param} (found : g.params.find? k = some p) :
    p.name = k := by
  have stored : g.node? (.param, k) = some (.param p) := by simp [node?, found]
  exact congrArg Prod.snd (named stored)

theorem Named.resolver (named : g.Named) {k : String} {r : Resolver}
    (found : g.resolvers.find? k = some r) :
    r.name = k := by
  have stored : g.node? (.resolver, k) = some (.resolver r) := by simp [node?, found]
  exact congrArg Prod.snd (named stored)

theorem Named.output (named : g.Named) {k : String} {o : Output}
    (found : g.outputs.find? k = some o) :
    o.name = k := by
  have stored : g.node? (.output, k) = some (.output o) := by simp [node?, found]
  exact congrArg Prod.snd (named stored)

theorem place_base_success {decl : EndpointDecl} {method : Method} {url : String} (named : g.Named)
    (outputs : ∀ o ∈ decl.outputs, ∃ output, g.outputs.find? o = some output) :
    ∃ n, g.placeDeclared name (.endpoint decl method (.base url)) = .ok (g.add n) ∧
      n.ref = (.endpoint, name) ∧
      (Declared.endpoint decl method (.base url)).Yields name n ∧
        ∀ m ∈ n.contents, g.node? m.ref = some m := by
  obtain ⟨outputs, found, names, stored⟩ := lookupAll_success named.output outputs name
  refine ⟨.endpoint ⟨name, decl.description, method, decl.body, outputs, .base url⟩,
    ?_, rfl, ?_, ?_⟩
  · rw [placeDeclared, found]
    rfl
  · exact ⟨rfl, rfl, rfl, rfl, names, rfl⟩
  · intro m member
    obtain ⟨o, used, rfl⟩ := List.mem_map.mp member
    simp [node?, Node.ref, stored o used]

theorem place_relative_success {decl : EndpointDecl} {method : Method} {base path : String}
    {params : List String}
    (named : g.Named) (outputs : ∀ o ∈ decl.outputs, ∃ output, g.outputs.find? o = some output)
    (present : ∃ e, g.endpoints.find? base = some e)
    (params_present : ∀ p ∈ params, ∃ param, g.params.find? p = some param) :
    ∃ n, g.placeDeclared name (.endpoint decl method (.relative base path params)) = .ok (g.add n) ∧
      n.ref = (.endpoint, name) ∧
        (Declared.endpoint decl method (.relative base path params)).Yields name n ∧
      ∀ m ∈ n.contents, g.node? m.ref = some m := by
  obtain ⟨outputs, outputs_found, outputs_names, outputs_stored⟩ :=
    lookupAll_success named.output outputs name
  obtain ⟨params', params_found, params_names, params_stored⟩ :=
    lookupAll_success named.param params_present name
  obtain ⟨e, base_found⟩ := present
  refine ⟨.endpoint ⟨name, decl.description, method, decl.body, outputs, .relative path e params'⟩,
    ?_, rfl, ?_, ?_⟩
  · simp only [placeDeclared, outputs_found, lookup_of_present base_found, params_found, bind,
      Except.bind]
    rfl
  · exact ⟨rfl, rfl, rfl, rfl, outputs_names, rfl, named.endpoint base_found, params_names⟩
  · intro m member
    rcases List.mem_cons.mp member with rfl | member
    · simp [node?, Node.ref, named.endpoint base_found, base_found]
    · rcases List.mem_append.mp member with member | member
      · obtain ⟨p, used, rfl⟩ := List.mem_map.mp member
        simp [node?, Node.ref, params_stored p used]
      · obtain ⟨o, used, rfl⟩ := List.mem_map.mp member
        simp [node?, Node.ref, outputs_stored o used]

/-- A declaration whose references are all in the graph is placed without an error. -/
theorem placeDeclared_success (named : g.Named)
    (present : ∀ r ∈ d.references, ∃ n, g.node? r = some n) :
    ∃ n, g.placeDeclared name d = .ok (g.add n) ∧ n.ref = (d.category, name) ∧ d.Yields name n ∧
      ∀ m ∈ n.contents, g.node? m.ref = some m := by
  cases d with
  | endpoint decl method shape =>
    cases shape with
    | base url =>
      refine place_base_success named fun o member => ?_
      simpa [node?] using present (.output, o) (List.mem_map_of_mem member)
    | relative base path params =>
      refine place_relative_success named ?_ ?_ ?_
      · intro o member
        simpa [node?] using present (.output, o) (by simp [Declared.references, member])
      · simpa [node?] using present (.endpoint, base) List.mem_cons_self
      · intro p member
        simpa [node?] using present (.param, p) (by simp [Declared.references, member])
  | param decl =>
    obtain ⟨r, found⟩ : ∃ r, g.resolvers.find? decl.resolver = some r := by
      simpa [node?] using present (.resolver, decl.resolver) (List.mem_singleton_self _)
    refine ⟨.param ⟨name, decl.description, decl.type, r⟩, ?_, rfl,
      ⟨rfl, rfl, rfl, named.resolver found⟩, ?_⟩
    · rw [placeDeclared, lookup_of_present found]
      rfl
    · intro m member
      rw [List.mem_singleton.mp member]
      simp [node?, Node.ref, named.resolver found, found]
  | resolver decl shape =>
    cases shape with
    | endpoint endpoint =>
      obtain ⟨e, found⟩ : ∃ e, g.endpoints.find? endpoint = some e := by
        simpa [node?] using present (.endpoint, endpoint) (List.mem_singleton_self _)
      refine ⟨.resolver ⟨name, decl.description, decl.authentication, .endpoint e decl.select⟩, ?_,
        rfl,
        ⟨rfl, rfl, rfl, named.endpoint found, rfl⟩, ?_⟩
      · rw [placeDeclared, lookup_of_present found]
        rfl
      · intro m member
        rw [List.mem_singleton.mp member]
        simp [node?, Node.ref, named.endpoint found, found]
    | database connectionString table =>
      refine ⟨.resolver ⟨name, decl.description, decl.authentication,
        .database connectionString table⟩, rfl, rfl,
        ⟨rfl, rfl, rfl, rfl, rfl⟩, ?_⟩
      rintro m ⟨⟩
  | output decl kind =>
    refine ⟨.output ⟨name, decl.description, kind, decl.target, decl.config⟩, rfl, rfl, rfl, ?_⟩
    rintro m ⟨⟩

end ResolutionGraph

end RestWiring
