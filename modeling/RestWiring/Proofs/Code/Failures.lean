import RestWiring.Proofs.Code.Checks

/-!
# The order of failures

To compile a node is to go through events: the check of a node comes before all events below it, and
the rendering of its part after them. Compiling fails as the first of these events that fails, whatever
the stencils and the overrides are.
-/
namespace RestWiring

namespace CodeTree

/-- What happens to a node while it is compiled. -/
inductive Event where
  | check (p : Place)
  | render (p : Place)

/-- The node to which it happens. -/
def Event.place : Event → Place
  | .check p | .render p => p

mutual

/-- The events of a tree in their order. -/
def events (above : List CodeTree) : CodeTree → List Event
  | t@(.node _ _ _ cs) => .check ⟨above, t⟩ :: (forestEvents (above ++ [t]) cs ++ [.render ⟨above, t⟩])

def forestEvents (above : List CodeTree) : List CodeTree → List Event
  | [] => []
  | t :: ts => events above t ++ forestEvents above ts

end

def Place.events (p : Place) : List Event := p.tree.events p.above

/-- The nodes of the tree below a place. -/
def Place.below (p : Place) : List Place := p.tree.places p.above

mutual

/-- Every node is checked, and its part is rendered. -/
theorem mem_events (above : List CodeTree) : (t : CodeTree) → (e : Event) →
    (e ∈ events above t ↔ e.place ∈ places above t)
  | .node number name part children, e => by
    rw [events, places, List.mem_cons, List.mem_append, List.mem_singleton, List.mem_cons,
      mem_forestEvents]
    cases e <;> simp [Event.place, or_comm]

theorem mem_forestEvents (above : List CodeTree) : (ts : List CodeTree) → (e : Event) →
    (e ∈ forestEvents above ts ↔ e.place ∈ forestPlaces above ts)
  | [], e => by simp [forestEvents, forestPlaces]
  | t :: ts, e => by
    rw [forestEvents, forestPlaces, List.mem_append, List.mem_append, mem_events, mem_forestEvents]

end

section

variable (stencils : StencilSet) (overrides : SortedMap String Json)

/-- How an event fails. A part is rendered around the texts of its children, so its rendering can only
fail where these have been compiled. -/
def Event.failure? : Event → Option CompilationError
  | .check p => (p.tree.part.fault? p.tree.children.length).map (.invalidConfig p.path)
  | .render p =>
    match p.tree.part.stencilName, p.compileChildren stencils overrides with
    | some name, .ok texts =>
      match stencils.render p.path name p.tree.part.attributes texts overrides with
      | .ok _ => none
      | .error e => some e
    | _, _ => none

theorem check_raises_failure (p : Place) :
    Raises ([Event.check p].filterMap (Event.failure? stencils overrides))
      (p.tree.part.check p.path p.tree.children.length) := by
  unfold CodePart.check
  rw [List.filterMap_cons, Event.failure?]
  cases p.tree.part.fault? p.tree.children.length with
  | none => exact .ok ()
  | some reason => exact rfl

/-- What is left to do for a node when its children have been compiled. -/
theorem render_raises_failure {p : Place} {texts : List String}
    (compiled : p.compileChildren stencils overrides = .ok texts) :
    Raises ([Event.render p].filterMap (Event.failure? stencils overrides))
      (match p.tree.part.stencilName with
      | none => .ok (separator.intercalate texts)
      | some name => stencils.render p.path name p.tree.part.attributes texts overrides) := by
  rw [List.filterMap_cons, Event.failure?, compiled]
  cases p.tree.part.stencilName with
  | none => exact .ok _
  | some name =>
    dsimp only
    cases stencils.render p.path name p.tree.part.attributes texts overrides with
    | ok text => exact .ok text
    | error e => exact rfl

mutual

theorem compileAt_raises_failure (above : List CodeTree) : (t : CodeTree) →
    Raises ((events above t).filterMap (Event.failure? stencils overrides))
      (compileAt stencils overrides (above.map label) t)
  | .node number name part children => by
    let p : Place := ⟨above, .node number name part children⟩
    have inner := compileForest_raises_failure (above ++ [p.tree]) children
    rw [List.map_append] at inner
    rw [events, compileAt, ← List.singleton_append, List.filterMap_append, List.filterMap_append]
    apply (check_raises_failure stencils overrides p).bind
    intro _ _
    apply inner.bind
    intro texts compiled
    exact render_raises_failure stencils overrides (p := p) compiled

theorem compileForest_raises_failure (above : List CodeTree) : (ts : List CodeTree) →
    Raises ((forestEvents above ts).filterMap (Event.failure? stencils overrides))
      (compileForest stencils overrides (above.map label) ts)
  | [] => .ok []
  | t :: ts => by
    rw [forestEvents, List.filterMap_append, compileForest]
    apply (compileAt_raises_failure above t).bind
    intro text _
    exact (compileForest_raises_failure above ts).map

end

theorem render_node? {stencils : StencilSet} {node name : String} {attributes : Json}
    {children : List String} {overrides : SortedMap String Json} {e : CompilationError}
    (failed : stencils.render node name attributes children overrides = .error e) :
    e.node? = some node := by
  unfold StencilSet.render at failed
  split at failed
  · cases failed
    rfl
  · split at failed <;> cases failed
    rfl

/-- An event fails with an error about the node to which it happens. -/
theorem Event.failure?_node? {e : Event} {err : CompilationError}
    (failed : e.failure? stencils overrides = some err) : err.node? = some e.place.path := by
  cases e with
  | check p =>
    rw [failure?, Option.map_eq_some_iff] at failed
    obtain ⟨reason, -, rfl⟩ := failed
    rfl
  | render p =>
    rw [failure?] at failed
    split at failed
    · split at failed <;> cases failed
      rename_i rendered
      exact render_node? rendered
    · cases failed

end

namespace Place

section

variable {p : Place} {stencils : StencilSet} {overrides : SortedMap String Json}

/-- A node fails to compile as the first of its events that fails. -/
theorem compile_error_iff {err : CompilationError} :
    p.compile stencils overrides = .error err ↔
      ∃ before e after, p.events = before ++ e :: after ∧ e.failure? stencils overrides = some err ∧
        ∀ e' ∈ before, e'.failure? stencils overrides = none := by
  rw [compile, (compileAt_raises_failure stencils overrides p.above p.tree).error_iff,
    List.head?_filterMap]
  exact List.findSome?_eq_some_iff

/-- A node fails to compile if some node below it is refused by its check or cannot be rendered. -/
theorem compile_fails_iff :
    (∃ err, p.compile stencils overrides = .error err) ↔
      ∃ q ∈ p.below, (Event.check q).failure? stencils overrides ≠ none ∨
        (Event.render q).failure? stencils overrides ≠ none := by
  rw [compile, (compileAt_raises_failure stencils overrides p.above p.tree).fails_iff, ne_eq,
    List.filterMap_eq_nil_iff]
  push Not
  constructor
  · intro fails
    obtain ⟨e, member, failed⟩ := fails
    refine ⟨e.place, (mem_events p.above p.tree e).mp member, ?_⟩
    cases e with
    | check q => exact .inl failed
    | render q => exact .inr failed
  · intro fails
    obtain ⟨q, below, failed⟩ := fails
    rcases failed with refused | unrendered
    · exact ⟨.check q, (mem_events p.above p.tree (.check q)).mpr below, refused⟩
    · exact ⟨.render q, (mem_events p.above p.tree (.render q)).mpr below, unrendered⟩

end

end Place

end CodeTree

end RestWiring
