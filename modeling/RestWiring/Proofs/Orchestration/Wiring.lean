import RestWiring.Proofs.Orchestration.Plan

/-!
# What plans wire

The steps of a plan are told by the triggering edges: whoever is at the start of an edge may publish
and reports the outcomes of all its edges, and every edge is a subscription of its target. The sinks
of a plan are those of its functions.
-/
namespace RestWiring.SubgraphPlan

variable {channel start : String} {edges : List Triggering} {o : Outcome}

/-! ## Published outcomes -/

/-- Whether an outcome is listed under a start. -/
def Lists (published : SortedMap String (SortedSet Outcome)) (start : String) (o : Outcome) :
    Prop :=
  ∃ on, published.find? start = some on ∧ SortedMap.contains on o = true

/-- Takes the outcomes of an edge into what its start reports. -/
def publish (published : SortedMap String (SortedSet Outcome)) (e : Triggering) :
    SortedMap String (SortedSet Outcome) :=
  published.alter e.start ∅ fun on => e.on.foldl SortedSet.add on

theorem lists_publish {published : SortedMap String (SortedSet Outcome)} {e : Triggering} :
    Lists (publish published e) start o ↔
      Lists published start o ∨ (e.start = start ∧ o ∈ e.on) := by
  unfold Lists publish
  by_cases same : e.start = start
  · subst same
    simp only [SortedMap.find?_alter_self, Option.some.injEq, exists_eq_left',
      SortedSet.contains_foldl_add, true_and]
    cases published.find? e.start <;> simp
  · simp [SortedMap.find?_alter_of_ne _ _ _ (Ne.symm same), same]

theorem foldl_publish_lists {published : SortedMap String (SortedSet Outcome)} :
    Lists (edges.foldl publish published) start o ↔
      Lists published start o ∨ ∃ e ∈ edges, e.start = start ∧ o ∈ e.on := by
  induction edges generalizing published with
  | nil => simp
  | cons e edges ih =>
    rw [List.foldl_cons, ih, lists_publish, or_assoc]
    simp only [List.exists_mem_cons_iff]

theorem foldl_publish_contains {published : SortedMap String (SortedSet Outcome)} :
    (edges.foldl publish published).contains start = true ↔
      published.contains start = true ∨ ∃ e ∈ edges, e.start = start := by
  induction edges generalizing published with
  | nil => simp
  | cons e edges ih =>
    rw [List.foldl_cons, ih, publish, SortedMap.contains_alter, List.exists_mem_cons_iff, eq_comm,
      or_assoc,
      or_left_comm]

theorem published_contains :
    (published edges).contains start = true ↔ ∃ e ∈ edges, e.start = start := by
  refine foldl_publish_contains.trans ?_
  simp

/-- A start reports exactly the outcomes of its edges. -/
theorem published_lists :
    Lists (published edges) start o ↔ ∃ e ∈ edges, e.start = start ∧ o ∈ e.on := by
  refine foldl_publish_lists.trans ?_
  simp [Lists]

/-! ## Steps -/

/-- The subscription of an edge. -/
def subscription (channel : String) (e : Triggering) : TriggerSpec :=
  ⟨e.on, .topic, channel, .ofList [(sourceAttribute, e.start)]⟩

@[simp] theorem subscription_source (channel : String) (e : Triggering) :
    (subscription channel e).args.find? sourceAttribute = some e.start :=
  SortedMap.find?_insert_self _ _ _

theorem mem_wiring {s : WiringStep} :
    s ∈ wiring channel edges ↔ edges ≠ [] ∧ (s = .ensureChannel channel ∨
      (∃ start on, (published edges).find? start = some on ∧
        (s = .grantPublish channel start ∨
          s = .notify start channel ⟨SortedSet.members on, start⟩)) ∨
      ∃ e ∈ edges, s = .subscribe e.target (subscription channel e)) := by
  unfold wiring
  split
  · rename_i empty
    simp [List.isEmpty_iff.mp empty]
  · rename_i nonempty
    have nonempty : edges ≠ [] := by simpa using nonempty
    simp only [List.mem_cons, List.mem_append, List.mem_flatMap, List.mem_map, Prod.exists,
      SortedMap.mem_entries,
      List.not_mem_nil, or_false, ne_eq, nonempty, not_false_eq_true, true_and, subscription]
    simp only [eq_comm (b := s)]
    exact or_assoc

/-- The first step, and the only one that needs nothing, sets up the channel. -/
theorem wiring_cases (channel : String) (edges : List Triggering) :
    wiring channel edges = [] ∨
      ∃ steps, wiring channel edges = .ensureChannel channel :: steps := by
  unfold wiring
  split
  · exact .inl rfl
  · exact .inr ⟨_, rfl⟩

/-! ## Sinks -/

theorem mem_sinksOf {bindings : List SinkBinding} {seen : SortedSet (SinkKind × String)}
    {key : SinkKind × String} :
    (∃ s ∈ sinksOf bindings seen, (s.kind, s.spec.name) = key) ↔
      seen.contains key = false ∧ ∃ b ∈ bindings, (b.kind, b.target) = key := by
  induction bindings generalizing seen with
  | nil => simp [sinksOf]
  | cons b bindings ih =>
    rw [sinksOf]
    split
    · rename_i known
      rw [ih, List.exists_mem_cons_iff, and_or_left]
      refine (or_iff_right ?_).symm
      rintro ⟨unseen, rfl⟩
      rw [known] at unseen
      cases unseen
    · rename_i unknown
      rw [List.exists_mem_cons_iff, ih, List.exists_mem_cons_iff]
      have added : SortedMap.contains (SortedSet.add seen (b.kind, b.target)) key = false ↔
          key ≠ (b.kind, b.target) ∧ seen.contains key = false := by
        rw [← Bool.not_eq_true, SortedSet.contains_add, not_or, Bool.not_eq_true]
      rw [added]
      by_cases same : (b.kind, b.target) = key
      · subst same
        simpa using unknown
      · simp [same, Ne.symm same]

/-- Every sink is configured as some binding says. -/
theorem exists_binding_of_mem_sinksOf {bindings : List SinkBinding}
    {seen : SortedSet (SinkKind × String)} {s : SinkPlan} (member : s ∈ sinksOf bindings seen) :
    ∃ b ∈ bindings, s = ⟨b.kind, ⟨b.target, b.config⟩⟩ := by
  induction bindings generalizing seen with
  | nil => cases member
  | cons b bindings ih =>
    rw [sinksOf] at member
    split at member
    · obtain ⟨b', listed, equal⟩ := ih member
      exact ⟨b', List.mem_cons_of_mem _ listed, equal⟩
    · rcases List.mem_cons.mp member with rfl | later
      · exact ⟨b, List.mem_cons_self, rfl⟩
      · obtain ⟨b', listed, equal⟩ := ih later
        exact ⟨b', List.mem_cons_of_mem _ listed, equal⟩

/-- Of the sinks of a kind and name there is one. -/
theorem sinksOf_nodup (bindings : List SinkBinding) (seen : SortedSet (SinkKind × String)) :
    ((sinksOf bindings seen).map fun s => (s.kind, s.spec.name)).Nodup := by
  induction bindings generalizing seen with
  | nil => exact List.nodup_nil
  | cons b bindings ih =>
    rw [sinksOf]
    split
    · exact ih seen
    · rw [List.map_cons]
      refine List.nodup_cons.mpr ⟨fun member => ?_, ih _⟩
      obtain ⟨s, listed, keyed⟩ := List.mem_map.mp member
      obtain ⟨unseen, -⟩ := mem_sinksOf.mp ⟨s, listed, keyed⟩
      have added : SortedMap.contains (SortedSet.add seen (b.kind, b.target)) (b.kind, b.target) =
          true := SortedSet.contains_add.mpr (.inl rfl)
      rw [added] at unseen
      cases unseen

end RestWiring.SubgraphPlan
