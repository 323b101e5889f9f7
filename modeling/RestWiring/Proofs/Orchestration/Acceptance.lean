import RestWiring.Proofs.Orchestration.Plan
import RestWiring.Proofs.Orchestration.Representation

/-!
# Which graphs are planned

A graph is planned exactly if its triggering edges can be wired and none of them lies on a loop of
such edges; what edges that do not trigger connect is of no account. A graph that is not planned is
refused for a fault that it has, and the refusal names an edge or a node that has the fault.
-/
namespace RestWiring

open Relation

namespace OrchestrationGraph

/-- Whether the triggering edges can be wired: in a directed graph only, and each on some outcome. -/
structure Wirable (g : OrchestrationGraph) : Prop where
  directed : g.directed = true ∨ ∀ start target, ¬ g.Triggers start target
  outcomes : ∀ e params, g.edges.find? e = some params → params.triggers = true → params.on ≠ []

/-- A fault of a graph, as the plan at an index reports it. -/
inductive Faulty (g : OrchestrationGraph) (index : Nat) : OrchestrationError → Prop where
  | undirected {start target : String} (undirected : g.directed = false)
    (triggers : g.Triggers start target) :
      Faulty g index (.wiringConflict index (.undirectedTrigger start target))
  | silent {start target : String} {params : EdgeParams}
    (found : g.edges.find? (start, target) = some params) (triggers : params.triggers = true)
    (nothing : params.on = []) : Faulty g index (.wiringConflict index (.noOutcome start target))
  | looped {node : String} (loop : TransGen g.Triggers node node) :
      Faulty g index (.wiringConflict index (.loop node))

end OrchestrationGraph

namespace SubgraphPlan

variable {index : Nat} {g : OrchestrationGraph} {channel : String}
  {entries : List ((String × String) × EdgeParams)} {e : OrchestrationError}

theorem uidOf_of_contains (start target : String) {name : String}
    (present : g.contains name = true) :
    ∃ uid, uidOf g start target name = .ok uid := by
  obtain ⟨n, found⟩ := SortedMap.contains_iff.mp present
  exact ⟨n.uid, uidOf_success_iff.mpr ⟨n, found, rfl⟩⟩

/-- When edges of a graph cannot be wired, one of them is to blame, and never a missing end. -/
theorem triggering_failure (formed : g.WellFormed)
    (inside : ∀ entry ∈ entries, g.edges.find? entry.1 = some entry.2)
    (failed : triggering index g entries = .error e) : g.Faulty index e := by
  induction entries with
  | nil => cases failed
  | cons entry rest ih =>
    obtain ⟨⟨start, target⟩, params⟩ := entry
    have found := inside _ List.mem_cons_self
    have later := ih fun entry member => inside entry (List.mem_cons_of_mem _ member)
    obtain ⟨start_present, target_present⟩ := formed.ends (SortedMap.contains_iff.mpr ⟨_, found⟩)
    obtain ⟨startUid, first⟩ := uidOf_of_contains start target start_present
    obtain ⟨targetUid, second⟩ := uidOf_of_contains start target target_present
    simp only [triggering, first, second, bind, Except.bind] at failed
    split at failed
    · exact later failed
    · rename_i triggers
      have triggers : params.triggers = true := by simpa using triggers
      split at failed
      · rename_i undirected
        cases failed
        exact .undirected (by simpa using undirected) ⟨params, found, triggers⟩
      · split at failed
        · rename_i silent
          cases failed
          exact .silent found triggers (List.isEmpty_iff.mp silent)
        · split at failed
          · rename_i wired
            cases failed
            exact later wired
          · cases failed

/-- A component that is not planned is refused for a fault that it has. -/
theorem build_failure (formed : g.WellFormed) (failed : build index g channel = .error e) :
    g.Faulty index e := by
  unfold build at failed
  cases wired : triggering index g g.edges.entries with
  | error e' =>
    rw [wired] at failed
    cases failed
    exact triggering_failure formed (fun entry member => SortedMap.mem_entries.mp member) wired
  | ok edges =>
    rw [wired] at failed
    simp only [bind, Except.bind] at failed
    split at failed
    · rename_i node looped
      cases failed
      exact .looped (triggerLoop?_sound looped)
    · cases failed

/-- A component is planned exactly if its triggering edges can be wired and form no loop. -/
theorem exists_build_iff (formed : g.WellFormed) :
    (∃ p, build index g channel = .ok p) ↔
      g.Wirable ∧ ∀ name, ¬ TransGen g.Triggers name name := by
  constructor
  · rintro ⟨p, success⟩
    obtain ⟨edges, wired, -⟩ := build_success_iff.mp success
    have conditions : ∀ {e params}, g.edges.find? e = some params → params.triggers = true →
        g.directed = true ∧ params.on ≠ [] := fun found =>
      (triggering_success wired).2 _ (SortedMap.mem_entries.mpr found)
    refine ⟨⟨?_, fun e params found triggers => (conditions found triggers).2⟩,
      build_acyclic formed success⟩
    by_cases directed : g.directed = true
    · exact .inl directed
    · refine .inr ?_
      rintro start target ⟨params, found, triggers⟩
      exact directed (conditions found triggers).1
  · rintro ⟨wirable, acyclic⟩
    refine build_succeeds (fun e => formed.ends) (fun e params found triggers => ?_) acyclic index
      channel
    refine ⟨?_, wirable.outcomes e params found triggers⟩
    exact wirable.directed.resolve_right fun nothing => nothing e.1 e.2 ⟨params, found, triggers⟩

end SubgraphPlan

namespace OrchestrationGraph

/-- Whether a graph is planned exactly if it can be, and is refused for its own faults only. -/
structure Judged (g : OrchestrationGraph) (index : Nat) (channel : String) : Prop where
  accepted : (∃ p, SubgraphPlan.build index g channel = .ok p) ↔
    g.Wirable ∧ ∀ name, ¬ TransGen g.Triggers name name
  refused : ∀ {e}, SubgraphPlan.build index g channel = .error e → g.Faulty index e
  complete : ∀ start target missing,
    SubgraphPlan.build index g channel ≠ .error (.missingNode start target missing)
  loop : ∀ {place node}, SubgraphPlan.build index g channel =
    .error (.wiringConflict place (.loop node)) → TransGen g.Triggers node node

theorem WellFormed.judged {g : OrchestrationGraph} (formed : g.WellFormed) (index : Nat)
    (channel : String) : g.Judged index channel where
  accepted := SubgraphPlan.exists_build_iff formed
  refused := SubgraphPlan.build_failure formed
  complete start target missing failed := by cases SubgraphPlan.build_failure formed failed
  loop failed := by
    cases SubgraphPlan.build_failure formed failed
    assumption

/-- Whatever calls a graph was made by, it and each of its parts is planned exactly if all triggering
edges can be wired and none lies on a loop of them; a refusal names an edge or a node that is at
fault, and no end of an edge is ever missing. -/
theorem plans_accepted_exactly (directed : Bool) (history : List Edit) (index : Nat)
    (channel : String) :
    (after directed history).Judged index channel ∧
      ∀ names, ((after directed history).induced names).Judged index channel := by
  have formed := (built_after directed history).wellFormed
  exact ⟨formed.judged index channel, fun names => (formed.induced names).judged index channel⟩

/-- A loop of edges of which one does not trigger is no reason to refuse a graph. -/
example :
    (SubgraphPlan.build 0
      (after true [.insert (blank "a"), .insert (blank "b"), .addEdge "a" "b" {},
        .addEdge "b" "a" { triggers := false }]) "done").isOk = true := by
  decide +kernel

end OrchestrationGraph

end RestWiring
