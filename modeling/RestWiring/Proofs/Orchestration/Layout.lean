import Mathlib.Data.List.Forall2
import RestWiring.Proofs.Orchestration.Partition
import RestWiring.Proofs.Orchestration.Representation

/-!
# How plans are laid out

The plans of all components together name every node once and subscribe once for every triggering
edge. Each plan first sets up the channel, then lets every function that sets off others publish and
report, in the order of identities, and then subscribes, in the order of the edges. What functions
report is what subscriptions ask for. Sinks are listed in the order in which functions bind them, as
they are bound first.
-/
namespace RestWiring

open SubgraphPlan (Triggering)

/-! ## What a layout is about -/

/-- The edges that trigger, in the order of their ends. -/
def OrchestrationGraph.triggeringEdges (g : OrchestrationGraph) :
    List ((String × String) × EdgeParams) :=
  g.edges.entries.filter (·.2.triggers)

/-- The sinks that functions are bound to, in the order of their nodes. -/
def OrchestrationGraph.bindings (g : OrchestrationGraph) : List SinkBinding :=
  g.nodes.values.flatMap (·.deployment.sinks)

/-- The function that a step subscribes, and to what. -/
def WiringStep.subscription? : WiringStep → Option (String × TriggerSpec)
  | .subscribe function trigger => some (function, trigger)
  | _ => none

def SubgraphPlan.subscriptions (p : SubgraphPlan) : List (String × TriggerSpec) :=
  p.steps.filterMap WiringStep.subscription?

def DeploymentPlan.subscriptions (plan : DeploymentPlan) : List (String × TriggerSpec) :=
  plan.subgraphs.flatMap (·.subscriptions)

/-- Whether a subscription is that of an edge. -/
structure Subscribed (g : OrchestrationGraph) (channel : String)
    (e : (String × String) × EdgeParams) (s : String × TriggerSpec) : Prop where
  function : ∃ n, g.node? e.1.2 = some n ∧ s.1 = n.uid
  args : ∃ n, g.node? e.1.1 = some n ∧ s.2.args.entries = [(SubgraphPlan.sourceAttribute, n.uid)]
  on : s.2.on = e.2.on
  source : s.2.source = .topic
  name : s.2.name = channel

/-- Whether a subscription waits for what a function reports. -/
def Awaits (s : String × TriggerSpec) (source : String) : Prop :=
  s.2.args.find? SubgraphPlan.sourceAttribute = some source

/-- Whether these functions and outcomes, in order, are exactly those that subscriptions wait for. -/
structure Publishers (subscriptions : List (String × TriggerSpec))
    (publishers : List (String × List Outcome)) : Prop where
  ascending : (publishers.map (·.1)).Pairwise (· < ·)
  awaited : ∀ source, source ∈ publishers.map (·.1) ↔ ∃ s ∈ subscriptions, Awaits s source
  sorted : ∀ p ∈ publishers, p.2.Pairwise (·.rank < ·.rank)
  outcomes : ∀ p ∈ publishers, ∀ o, o ∈ p.2 ↔ ∃ s ∈ subscriptions, Awaits s p.1 ∧ o ∈ s.2.on

/-- The steps by which a function comes to report outcomes. -/
def publishing (channel : String) (p : String × List Outcome) : List WiringStep :=
  [.grantPublish channel p.1, .notify p.1 channel ⟨p.2, p.1⟩]

/-- How the plan of a component of a graph is laid out. -/
structure LaidOut (g : OrchestrationGraph) (channel : String) (c : OrchestrationGraph)
    (p : SubgraphPlan) : Prop where
  nodes : p.nodes = c.names
  functions : p.functions.map some = p.nodes.map fun name => (g.node? name).map (·.uid)
  silent : p.steps = [] ↔ c.triggeringEdges = []
  steps : p.steps ≠ [] → ∃ publishers, Publishers p.subscriptions publishers ∧
    p.steps = .ensureChannel channel :: publishers.flatMap (publishing channel) ++
      p.subscriptions.map fun s => .subscribe s.1 s.2
  ordered : c.triggeringEdges.Pairwise fun e e' => Key.before e.1 e'.1 = true
  subscribed : List.Forall₂ (Subscribed g channel) c.triggeringEdges p.subscriptions
  sinks : p.sinks.map (fun s => (s.kind, s.spec.name)) =
    (c.bindings.map fun b => (b.kind, b.target)).eraseDups
  configured : ∀ s ∈ p.sinks, ∃ b,
    c.bindings.find? (fun b => (b.kind, b.target) == (s.kind, s.spec.name)) = some b ∧
      s.spec.config = b.config

variable {g c : OrchestrationGraph} {channel : String} {plan : DeploymentPlan}

theorem OrchestrationGraph.triggeringEdges_ascending (g : OrchestrationGraph) :
    g.triggeringEdges.Pairwise fun e e' => Key.before e.1 e'.1 = true :=
  (List.pairwise_map.mp g.edges.keys_pairwise).filter _

/-! ## Steps -/

namespace SubgraphPlan

variable {edges : List Triggering}

theorem awaits_subscription {source target : String} {e : Triggering} :
    Awaits (target, subscription channel e) source ↔ e.start = source := by
  rw [Awaits, subscription_source, Option.some.injEq]

/-- Functions publish, and report the outcomes, that the subscriptions of the edges wait for. -/
theorem publishers_wiring (channel : String) (edges : List Triggering) :
    Publishers (edges.map fun e => (e.target, subscription channel e))
      ((published edges).entries.map fun e => (e.1, SortedSet.members e.2)) where
  ascending := by
    rw [List.map_map]
    exact (published edges).keys_pairwise.imp fun before => of_decide_eq_true before
  awaited := by
    intro source
    have listed : source ∈ (published edges).keys ↔ ∃ e ∈ edges, e.start = source :=
      SortedMap.mem_keys_iff_contains.trans published_contains
    rw [List.map_map]
    refine listed.trans ?_
    simp only [List.mem_map, exists_exists_and_eq_and, awaits_subscription]
  sorted := by
    intro p member
    obtain ⟨⟨start, on⟩, -, rfl⟩ := List.mem_map.mp member
    exact (SortedMap.keys_pairwise on).imp fun before => of_decide_eq_true before
  outcomes := by
    intro p member o
    obtain ⟨⟨start, on⟩, inside, rfl⟩ := List.mem_map.mp member
    have reported : o ∈ SortedSet.members on ↔ Lists (published edges) start o := by
      rw [SortedSet.mem_members, Lists, SortedMap.mem_entries.mp inside]
      simp
    refine reported.trans (published_lists.trans ?_)
    simp only [List.mem_map, exists_exists_and_eq_and, awaits_subscription]
    rfl

theorem wiring_eq_nil_iff : wiring channel edges = [] ↔ edges = [] := by
  unfold wiring
  split
  · rename_i empty
    exact ⟨fun _ => List.isEmpty_iff.mp empty, fun _ => rfl⟩
  · rename_i nonempty
    exact ⟨nofun, fun empty => absurd (List.isEmpty_iff.mpr empty) nonempty⟩

theorem wiring_eq (nonempty : edges ≠ []) :
    wiring channel edges = .ensureChannel channel ::
      ((published edges).entries.map fun e => (e.1, SortedSet.members e.2)).flatMap
        (publishing channel) ++
      (edges.map fun e => (e.target, subscription channel e)).map fun s => .subscribe s.1 s.2 := by
  rw [wiring, if_neg (by simpa using nonempty), List.flatMap_map, List.map_map]
  rfl

theorem subscriptions_wiring (channel : String) (edges : List Triggering) :
    (wiring channel edges).filterMap WiringStep.subscription? =
      edges.map fun e => (e.target, subscription channel e) := by
  have silent (publishers : List (String × List Outcome)) :
      (publishers.flatMap (publishing channel)).filterMap WiringStep.subscription? = [] := by
    rw [List.filterMap_eq_nil_iff]
    intro step member
    obtain ⟨_, -, inside⟩ := List.mem_flatMap.mp member
    rcases List.mem_pair.mp inside with rfl | rfl <;> rfl
  by_cases empty : edges = []
  · rw [wiring_eq_nil_iff.mpr empty, empty]
    rfl
  · rw [wiring_eq empty, List.filterMap_append, List.filterMap_cons_none (by rfl), silent,
      List.nil_append, List.filterMap_map]
    exact List.filterMap_some

/-! ## Sinks -/

/-- Each kind and name has one sink, in the order in which they are bound first. -/
theorem sinksOf_keys (bindings : List SinkBinding) (seen : SortedSet (SinkKind × String)) :
    (sinksOf bindings seen).map (fun s => (s.kind, s.spec.name)) =
      ((bindings.map fun b => (b.kind, b.target)).filter fun k => !seen.contains k).eraseDups := by
  induction bindings generalizing seen with
  | nil => rfl
  | cons b bindings ih =>
    rw [sinksOf, List.map_cons]
    split
    · rename_i known
      rw [List.filter_cons_of_neg (by simp [known]), ih]
    · rename_i unknown
      -- What follows is without the keys seen before and without this one: those seen by then.
      rw [List.filter_cons_of_pos (by simpa using unknown), List.eraseDups_cons, List.map_cons, ih,
        List.filter_filter]
      refine congrArg₂ _ rfl (congrArg _ (List.filter_congr fun key _ => ?_))
      rw [Bool.eq_iff_iff]
      simp [← Bool.not_eq_true, SortedSet.contains_add, not_or]

/-- A sink is configured as it is bound first. -/
theorem find?_binding_of_mem_sinksOf {bindings : List SinkBinding}
    {seen : SortedSet (SinkKind × String)} {s : SinkPlan} (member : s ∈ sinksOf bindings seen) :
    ∃ b, bindings.find? (fun b => (b.kind, b.target) == (s.kind, s.spec.name)) = some b ∧
      s.spec.config = b.config := by
  induction bindings generalizing seen with
  | nil => cases member
  | cons b bindings ih =>
    -- A sink that is listed later has none of the keys seen so far, so that the search goes on.
    have apart {seen : SortedSet (SinkKind × String)} (member : s ∈ sinksOf bindings seen)
        (known : seen.contains (b.kind, b.target) = true) :
        ((b.kind, b.target) == (s.kind, s.spec.name)) = false := by
      obtain ⟨unseen, -⟩ := mem_sinksOf.mp ⟨s, member, rfl⟩
      by_contra same
      have equal : (b.kind, b.target) = (s.kind, s.spec.name) := by simpa using same
      rw [← equal, known] at unseen
      cases unseen
    rw [sinksOf] at member
    split at member
    · rename_i known
      rw [List.find?_cons_of_neg (by simp [apart member known])]
      exact ih member
    · rcases List.mem_cons.mp member with rfl | member
      · exact ⟨b, List.find?_cons_of_pos (by simp), rfl⟩
      · rw [List.find?_cons_of_neg
          (by simp [apart member (SortedSet.contains_add.mpr (.inl rfl))])]
        exact ih member

end SubgraphPlan

/-! ## Plans -/

namespace OrchestrationGraph

/-- What is wired for the triggering edges of a component are their subscriptions. -/
theorem subscribed_of_triggering (member : c ∈ g.components) {index : Nat} {edges : List Triggering}
    (wired : SubgraphPlan.triggering index c c.edges.entries = .ok edges) :
    List.Forall₂ (Subscribed g channel) c.triggeringEdges
      (edges.map fun e => (e.target, SubgraphPlan.subscription channel e)) := by
  obtain ⟨names, rfl⟩ := induced_of_mem_components member
  rw [List.forall₂_map_right_iff]
  refine (SubgraphPlan.triggering_success wired).1.imp ?_
  rintro e t ⟨n, m, first, second, rfl⟩
  exact ⟨⟨m, (induced_node?_iff.mp second).1, rfl⟩, ⟨n, (induced_node?_iff.mp first).1, rfl⟩, rfl,
    rfl, rfl⟩

theorem laidOut_of_build (member : c ∈ g.components) {index : Nat} {p : SubgraphPlan}
    (success : SubgraphPlan.build index c channel = .ok p) : LaidOut g channel c p := by
  obtain ⟨edges, wired, -, rfl⟩ := SubgraphPlan.build_success_iff.mp success
  have subscribed := @subscribed_of_triggering g c channel member index edges wired
  have subscriptions : (SubgraphPlan.ofEdges index c channel edges).subscriptions =
      edges.map fun e => (e.target, SubgraphPlan.subscription channel e) :=
    SubgraphPlan.subscriptions_wiring channel edges
  have silent : edges = [] ↔ c.triggeringEdges = [] := by
    rw [← List.length_eq_zero_iff, ← List.length_eq_zero_iff, subscribed.length_eq, List.length_map]
  have functions : (c.nodes.values.map (·.uid)).map some =
      c.names.map fun name => (g.node? name).map (·.uid) := by
    obtain ⟨names, rfl⟩ := induced_of_mem_components member
    simp only [SortedMap.values, OrchestrationGraph.names, SortedMap.keys, List.map_map]
    refine List.map_congr_left fun e listed => ?_
    obtain ⟨found, -⟩ := induced_node?_iff.mp (SortedMap.mem_entries.mp listed)
    simp [found]
  exact {
    nodes := rfl
    functions
    silent := SubgraphPlan.wiring_eq_nil_iff.trans silent
    steps := by
      intro nonempty
      rw [subscriptions]
      exact ⟨_, SubgraphPlan.publishers_wiring channel edges,
        SubgraphPlan.wiring_eq (mt SubgraphPlan.wiring_eq_nil_iff.mpr nonempty)⟩
    ordered := c.triggeringEdges_ascending
    subscribed := subscriptions ▸ subscribed
    sinks := by
      refine (SubgraphPlan.sinksOf_keys c.bindings ∅).trans (congrArg _ ?_)
      simp
    configured := fun s => SubgraphPlan.find?_binding_of_mem_sinksOf }

/-- Every component has its plan, in order. -/
theorem plan_laidOut (planned : g.plan channel = .ok plan) :
    List.Forall₂ (LaidOut g channel) g.components plan.subgraphs := by
  obtain ⟨-, related⟩ := plan_success_iff.mp planned
  rw [← g.planned_components channel, List.forall₂_map_left_iff]
  have built := (List.forall₂_and_left _ _).mpr ⟨fun _ member => mem_planned member, related⟩
  refine built.imp fun part p => ?_
  rintro ⟨⟨member, result⟩, success⟩
  exact laidOut_of_build member (result.symm.trans success)

/-- Plans are complete, minimal and well ordered. -/
theorem plan_layout (g : OrchestrationGraph) (channel : String) (plan : DeploymentPlan)
    (built : g.Built) (planned : g.plan channel = .ok plan) :
    plan.channel = channel ∧
      plan.subgraphs.map (·.index) = List.range g.components.length ∧
      (plan.subgraphs.flatMap (·.nodes)).Nodup ∧
      (∀ name, name ∈ plan.subgraphs.flatMap (·.nodes) ↔ g.contains name = true) ∧
      (∃ edges, edges.Perm g.triggeringEdges ∧
        List.Forall₂ (Subscribed g channel) edges plan.subscriptions) ∧
      List.Forall₂ (LaidOut g channel) g.components plan.subgraphs := by
  have laid := plan_laidOut planned
  have nodes := plan_nodes_perm planned built.wellFormed
  have edges := (components_edges_perm built.wellFormed).filter (·.2.triggers)
  rw [List.filter_flatMap] at edges
  refine ⟨(plan_success_iff.mp planned).1, ?_, nodes.nodup_iff.mpr g.nodes.keys_nodup, fun name =>
    nodes.mem_iff.trans SortedMap.mem_keys_iff_contains, ⟨_, edges, ?_⟩, laid⟩
  · rw [← planned_indices g channel]
    exact (map_planned planned fun _ _ => rfl).symm
  · exact List.rel_flatMap laid fun _ _ part => part.subscribed

/-- Two functions wait for different outcomes of one; the third edge does not trigger. -/
def fanOut : OrchestrationGraph :=
  after true [.insert (blank "a"), .insert (blank "b"), .insert (blank "c"),
    .addEdge "a" "b" { on := [.failure] }, .addEdge "a" "c" {}, .addEdge "b" "c" { triggers := false }]

theorem plan_layout_fanOut :
    ∃ plan, fanOut.plan "done" = .ok plan ∧
      List.Forall₂ (LaidOut fanOut "done") fanOut.components plan.subgraphs ∧
      plan.subgraphs.flatMap (·.steps) =
        [.ensureChannel "done", .grantPublish "done" "a",
          .notify "a" "done" ⟨[.success, .failure], "a"⟩,
          .subscribe "b" ⟨[.failure], .topic, "done", .ofList [("source", "a")]⟩,
          .subscribe "c" ⟨[.success], .topic, "done", .ofList [("source", "a")]⟩] := by
  have steps : (fanOut.plan "done").toOption.map (·.subgraphs.flatMap (·.steps)) = some
      [.ensureChannel "done", .grantPublish "done" "a",
        .notify "a" "done" ⟨[.success, .failure], "a"⟩,
        .subscribe "b" ⟨[.failure], .topic, "done", .ofList [("source", "a")]⟩,
        .subscribe "c" ⟨[.success], .topic, "done", .ofList [("source", "a")]⟩] := by
    decide +kernel
  cases planned : fanOut.plan "done" with
  | error e =>
    rw [planned] at steps
    cases steps
  | ok plan =>
    rw [planned] at steps
    obtain ⟨-, -, -, -, -, laid⟩ := plan_layout fanOut "done" plan (built_after _ _) planned
    exact ⟨plan, rfl, laid, Option.some.inj steps⟩

end OrchestrationGraph

end RestWiring
