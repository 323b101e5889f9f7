import RestWiring.Proofs.Deployment.Calm
import RestWiring.Proofs.Orchestration.Wiring

/-!
# The jobs of a plan

The stages of a planned component hold its sinks, its functions and its steps. Whatever a step needs
is provided before: the functions all come before the first step, and the first step sets up the
channel.
-/
namespace RestWiring

variable {g : OrchestrationGraph} {p : SubgraphPlan} {index : Nat} {channel : String} {job : Job}
  {stages : List (List Job)}

theorem mem_stages :
    job ∈ (RestWiring.stages g p).flatten ↔
      (∃ s ∈ p.sinks, job = .sink s) ∨ (∃ n ∈ g.nodes.values, job = .function n.deployment) ∨
        ∃ s ∈ p.steps, job = .step s := by
  unfold RestWiring.stages
  simp only [List.flatten_filter_not_isEmpty, List.flatten_append, List.flatten_cons,
    List.mem_append,
    List.mem_flatten, List.mem_map, List.cons_append]
  constructor
  · rintro (⟨s, member, rfl⟩ | ⟨_, ⟨n, member, rfl⟩, single⟩ | ⟨_, ⟨s, member, rfl⟩, single⟩)
    · exact .inl ⟨s, member, rfl⟩
    · exact .inr (.inl ⟨n, member, List.mem_singleton.mp single⟩)
    · exact .inr (.inr ⟨s, member, List.mem_singleton.mp single⟩)
  · rintro (⟨s, member, rfl⟩ | ⟨n, member, rfl⟩ | ⟨s, member, rfl⟩)
    · exact .inl ⟨s, member, rfl⟩
    · exact .inr (.inl ⟨_, ⟨n, member, rfl⟩, List.mem_singleton_self _⟩)
    · exact .inr (.inr ⟨_, ⟨s, member, rfl⟩, List.mem_singleton_self _⟩)

/-- Leaving out empty stages takes nothing away that others need. -/
theorem Supplied.filter (supplied : Supplied stages) : Supplied (stages.filter (!·.isEmpty)) := by
  intro past stage later split job member key needed
  obtain ⟨past', rest, rfl, rfl, kept⟩ := List.filter_eq_append_iff.mp split
  obtain ⟨empty, later', rfl, none, -, rfl⟩ := List.filter_eq_cons_iff.mp kept
  obtain ⟨j, earlier, provided⟩ :=
    supplied (past' ++ empty) stage later' (by simp) job member key needed
  refine ⟨j, ?_, provided⟩
  rw [List.flatten_append, List.mem_append] at earlier
  rw [List.flatten_filter_not_isEmpty]
  rcases earlier with earlier | earlier
  · exact earlier
  · obtain ⟨stage', member', inside⟩ := List.mem_flatten.mp earlier
    have skipped := none stage' member'
    simp only [Bool.not_eq_true', Bool.not_eq_false, List.isEmpty_iff] at skipped
    rw [skipped] at inside
    cases inside

/-- The steps of a plan find what they need: the channel, set up by the first step, and functions of
the component. -/
theorem wiring_needs {edges : List SubgraphPlan.Triggering} {before after : List WiringStep}
    {s : WiringStep}
    (split : SubgraphPlan.wiring channel edges = before ++ s :: after) {key : ConstructKey}
    (needed : key ∈ (Job.step s).needs) :
    (key = (.topic, channel) ∧ WiringStep.ensureChannel channel ∈ before) ∨
      ∃ e ∈ edges, key = (.function, e.start) ∨ key = (.function, e.target) := by
  have member : s ∈ SubgraphPlan.wiring channel edges := by simp [split]
  have first (needy : (Job.step s).needs ≠ []) : WiringStep.ensureChannel channel ∈ before := by
    rcases SubgraphPlan.wiring_cases channel edges with empty | ⟨steps, equal⟩
    · simp [empty] at member
    · rw [equal] at split
      cases before with
      | nil =>
        cases split
        exact absurd rfl needy
      | cons b before =>
        cases split
        exact List.mem_cons_self
  have published {start : String} {on : SortedSet Outcome}
      (found : (SubgraphPlan.published edges).find? start = some on) :
      ∃ e ∈ edges, e.start = start :=
    SubgraphPlan.published_contains.mp (SortedMap.contains_iff.mpr ⟨on, found⟩)
  obtain ⟨-, rfl | ⟨start, on, found, rfl | rfl⟩ | ⟨e, listed, rfl⟩⟩ :=
    SubgraphPlan.mem_wiring.mp member
  · cases needed
  · obtain ⟨e, listed, rfl⟩ := published found
    simp only [Job.needs, List.mem_cons, List.not_mem_nil, or_false] at needed
    rcases needed with rfl | rfl
    · exact .inr ⟨e, listed, .inl rfl⟩
    · exact .inl ⟨rfl, first (by simp [Job.needs])⟩
  · obtain ⟨e, listed, rfl⟩ := published found
    simp only [Job.needs, List.mem_cons, List.not_mem_nil, or_false] at needed
    rcases needed with rfl | rfl
    · exact .inl ⟨rfl, first (by simp [Job.needs])⟩
    · exact .inr ⟨e, listed, .inl rfl⟩
  · simp only [Job.needs, SubgraphPlan.subscription, TriggerSource.construct, List.mem_cons,
      List.not_mem_nil,
      or_false] at needed
    rcases needed with rfl | rfl
    · exact .inl ⟨rfl, first (by simp [Job.needs])⟩
    · exact .inr ⟨e, listed, .inr rfl⟩

/-- An item of two lists one after the other is an item of the first or of the second. -/
theorem split_append {α : Type} {as bs past rest : List α} {a : α}
    (split : as ++ bs = past ++ a :: rest) :
    (∃ others, as = past ++ a :: others) ∨ ∃ others, past = as ++ others ∧ bs = others ++ a :: rest := by
  rcases List.append_eq_append_iff.mp split with ⟨others, equal, behind⟩ | ⟨others, equal, behind⟩
  · exact .inr ⟨others, equal, behind⟩
  · cases others with
    | nil =>
      refine .inr ⟨[], ?_, behind.symm⟩
      simpa using equal.symm
    | cons first others =>
      cases behind
      exact .inl ⟨others, equal⟩

theorem stages_supplied (success : SubgraphPlan.build index g channel = .ok p) :
    Supplied (RestWiring.stages g p) := by
  obtain ⟨edges, wired, -, rfl⟩ := SubgraphPlan.build_success_iff.mp success
  refine Supplied.filter fun past stage later split job member key needed => ?_
  let registered := (SubgraphPlan.ofEdges index g channel edges).sinks.map Job.sink ::
    g.nodes.values.map fun n => [Job.function n.deployment]
  have unneeding : ∀ stage ∈ registered, ∀ j ∈ stage, j.needs = [] := by
    intro stage inside j member
    rcases List.mem_cons.mp inside with rfl | inside
    · obtain ⟨s, -, rfl⟩ := List.mem_map.mp member
      rfl
    · obtain ⟨n, -, rfl⟩ := List.mem_map.mp inside
      rw [List.mem_singleton.mp member]
      rfl
  have provided {n : OrchestrationNode} {name : String} (found : g.node? name = some n) :
      ∃ j ∈ registered.flatten, j.provides = some (.function, n.uid) := by
    refine ⟨.function n.deployment, ?_, rfl⟩
    have listed := SortedMap.mem_values.mpr ⟨name, found⟩
    exact List.mem_flatten.mpr ⟨_, List.mem_cons_of_mem _ (List.mem_map.mpr ⟨n, listed, rfl⟩),
      List.mem_singleton_self _⟩
  -- What needs something is a step, and so the functions come before it.
  have behind : ∃ steps, past = registered ++ steps ∧
      (SubgraphPlan.wiring channel edges).map (fun s => [Job.step s]) =
        steps ++ stage :: later := by
    refine (split_append split).resolve_left ?_
    rintro ⟨others, equal⟩
    have inside : stage ∈ registered := by simp [registered, equal]
    rw [unneeding stage inside job member] at needed
    cases needed
  obtain ⟨steps, rfl, mapped⟩ := behind
  obtain ⟨before, rest, wiring_eq, rfl, rest_eq⟩ := List.map_eq_append_iff.mp mapped
  obtain ⟨s, after, rfl, rfl, -⟩ := List.map_eq_cons_iff.mp rest_eq
  rw [List.mem_singleton.mp member] at needed
  simp only [List.flatten_append, List.mem_append]
  rcases wiring_needs wiring_eq needed with ⟨rfl, earlier⟩ | ⟨e, listed, place⟩
  · refine ⟨.step (.ensureChannel channel), .inr ?_, rfl⟩
    exact List.mem_flatten.mpr ⟨_, List.mem_map_of_mem earlier, List.mem_singleton_self _⟩
  · obtain ⟨_, _, -, -, f, h, start_found, target_found, rfl⟩ :=
      (SubgraphPlan.mem_triggering wired).mp listed
    rcases place with rfl | rfl
    · obtain ⟨j, earlier, provides⟩ := provided start_found
      exact ⟨j, .inl earlier, provides⟩
    · obtain ⟨j, earlier, provides⟩ := provided target_found
      exact ⟨j, .inl earlier, provides⟩

end RestWiring
