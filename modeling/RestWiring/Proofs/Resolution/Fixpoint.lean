import RestWiring.Proofs.Cycle
import RestWiring.Proofs.Resolution.Contents

/-!
# Sweeping to a fixpoint

The invariant `Progress` ties the declarations that are pending to the graph built so far; it holds
between any two placements. Two things follow for a whole run: placing never fails, and the run ends
either with nothing pending or with declarations that all wait for one another.
-/
namespace RestWiring

/-- A list of classified declarations in which every reference leads to a declaration. -/
structure Referable (declared : List (Ref × Declared)) : Prop where
  distinct : (declared.map (·.1)).Nodup
  closed : ∀ {r d}, (r, d) ∈ declared → ∀ s ∈ d.references, s ∈ declared.map (·.1)
  categories : ∀ {r d}, (r, d) ∈ declared → d.category = r.1

/-- One classified declaration refers to another. -/
def RefersIn (declared : List (Ref × Declared)) (r s : Ref) : Prop :=
  ∃ d, (r, d) ∈ declared ∧ s ∈ d.references

/-- The state between two placements: what is stored has been declared, what has been declared is
stored or pending, and nothing from which a cycle can be reached has been placed. -/
structure Progress (declared pending : List (Ref × Declared)) (g : ResolutionGraph) : Prop where
  sublist : pending.Sublist declared
  named : g.Named
  contained : g.SelfContained
  yields : ∀ {r n}, g.node? r = some n → ∃ d, (r, d) ∈ declared ∧ d.Yields r.2 n
  stored_iff : ∀ {r}, r ∈ declared.map (·.1) → ((∃ n, g.node? r = some n) ↔ r ∉ pending.map (·.1))
  cyclic : ∀ {r}, ReachesCycle (RefersIn declared) r → r ∈ pending.map (·.1)

/-- The states that the sweeps go through: what has been passed over, what is still to come in this
sweep, and the graph. -/
inductive Visited (declared : List (Ref × Declared)) :
    List (Ref × Declared) → List (Ref × Declared) → ResolutionGraph → Prop
  | start : Visited declared [] declared {}
  | passOver {kept rest : List (Ref × Declared)} {r : Ref} {d : Declared} {g : ResolutionGraph}
      (before : Visited declared kept ((r, d) :: rest) g)
      (waits : d.ready ((kept ++ (r, d) :: rest).map (·.1)) = false) :
      Visited declared (kept ++ [(r, d)]) rest g
  | place {kept rest : List (Ref × Declared)} {r : Ref} {d : Declared} {g g' : ResolutionGraph}
      (before : Visited declared kept ((r, d) :: rest) g)
      (ready : d.ready ((kept ++ (r, d) :: rest).map (·.1)) = true)
      (placed : g.placeDeclared r.2 d = .ok g') :
      Visited declared kept rest g'
  | again {left : List (Ref × Declared)} {g : ResolutionGraph}
    (before : Visited declared left [] g) :
      Visited declared [] left g

variable {declared pending kept rest left : List (Ref × Declared)} {g g' : ResolutionGraph}
  {r : Ref}
  {d : Declared}

theorem Progress.start : Progress declared declared {} where
  sublist := .refl _
  named := by
    rintro ⟨category, name⟩ n stored
    cases category <;> cases stored
  contained := by
    rintro ⟨category, name⟩ n stored
    cases category <;> cases stored
  yields := by
    rintro ⟨category, name⟩ n stored
    cases category <;> cases stored
  stored_iff := by
    rintro ⟨category, name⟩ member
    refine ⟨?_, fun absent => absurd member absent⟩
    rintro ⟨n, stored⟩
    cases category <;> cases stored
  cyclic := by
    intro r reaches
    obtain ⟨s, ⟨d, member, -⟩, -⟩ := reaches.successor
    exact List.mem_map_of_mem member

theorem ready_iff {waiting : List Ref} :
    d.ready waiting = true ↔ ∀ s ∈ d.references, s ∉ waiting := by
  simp [Declared.ready]

theorem Referable.meaning_unique (referable : Referable declared) {d' : Declared}
    (member : (r, d) ∈ declared)
    (member' : (r, d') ∈ declared) : d = d' :=
  congrArg Prod.snd (List.inj_on_of_nodup_map referable.distinct member member' rfl)

/-- Nothing from which a cycle can be reached is ever ready. -/
theorem Progress.not_ready_of_reaches (referable : Referable declared)
    (progress : Progress declared pending g)
    (member : (r, d) ∈ declared) (reaches : ReachesCycle (RefersIn declared) r) :
    d.ready (pending.map (·.1)) = false := by
  obtain ⟨s, ⟨d', member', referenced⟩, reaches'⟩ := reaches.successor
  rw [referable.meaning_unique member' member] at referenced
  by_contra ready
  rw [Bool.not_eq_false] at ready
  exact ready_iff.mp ready s referenced (progress.cyclic reaches')

/-- Taking one declaration out of a list without repetitions leaves the other ones. -/
theorem mem_refs_without (distinct : ((kept ++ (r, d) :: rest).map (·.1)).Nodup) {s : Ref} :
    s ∈ (kept ++ rest).map (·.1) ↔ s ∈ (kept ++ (r, d) :: rest).map (·.1) ∧ s ≠ r := by
  simp only [List.map_append, List.map_cons, List.nodup_append, List.nodup_cons,
    List.mem_cons] at distinct
  simp only [List.map_append, List.map_cons, List.mem_append, List.mem_cons]
  grind

/-- A declaration that is ready is placed without an error, and the invariant goes on to hold. -/
theorem Progress.place (referable : Referable declared)
    (progress : Progress declared (kept ++ (r, d) :: rest) g)
    (ready : d.ready ((kept ++ (r, d) :: rest).map (·.1)) = true) :
    ∃ g', g.placeDeclared r.2 d = .ok g' ∧ Progress declared (kept ++ rest) g' := by
  have member : (r, d) ∈ declared := progress.sublist.subset (by simp)
  have known : r ∈ declared.map (·.1) := List.mem_map_of_mem member
  have present : ∀ s ∈ d.references, ∃ n, g.node? s = some n := fun s referenced =>
    (progress.stored_iff (referable.closed member s referenced)).mpr
      (ready_iff.mp ready s referenced)
  obtain ⟨n, placed, ref_eq, yields, held⟩ :=
    ResolutionGraph.placeDeclared_success progress.named present
  obtain rfl : n.ref = r := by rw [ref_eq, referable.categories member]
  have absent : g.node? n.ref = none := by
    cases stored : g.node? n.ref with
    | none => rfl
    | some m => exact absurd (by simp) ((progress.stored_iff known).mp ⟨m, stored⟩)
  have pending_iff {s : Ref} :=
    mem_refs_without (s := s) (referable.distinct.sublist (progress.sublist.map _))
  refine ⟨g.add n, placed, ?_, ResolutionGraph.Named.add progress.named absent,
    ResolutionGraph.SelfContained.add progress.contained absent held, ?_, ?_, ?_⟩
  · exact .trans (.append_left (List.sublist_cons_self _ _) _) progress.sublist
  · intro s m stored
    by_cases same : s = n.ref
    · rw [same, ResolutionGraph.node?_add_self absent] at stored
      cases stored
      exact ⟨d, same ▸ member, same ▸ yields⟩
    · rw [ResolutionGraph.node?_add_of_ne same] at stored
      exact progress.yields stored
  · intro s known_s
    rw [pending_iff]
    by_cases same : s = n.ref
    · simp [same, ResolutionGraph.node?_add_self absent]
    · rw [ResolutionGraph.node?_add_of_ne same, progress.stored_iff known_s]
      simp [same]
  · intro s reaches
    rw [pending_iff]
    refine ⟨progress.cyclic reaches, ?_⟩
    rintro rfl
    rw [progress.not_ready_of_reaches referable member reaches] at ready
    cases ready

theorem Visited.progress (referable : Referable declared) (visited : Visited declared kept rest g) :
    Progress declared (kept ++ rest) g := by
  induction visited with
  | start => exact Progress.start
  | passOver before waits ih => simpa using ih
  | place before ready placed ih =>
    obtain ⟨g'', placed', progress⟩ := ih.place referable ready
    rw [placed] at placed'
    cases placed'
    exact progress
  | again before ih => simpa using ih

/-- A sweep runs to its end, and the invariant holds of what it leaves. -/
theorem Progress.sweep (referable : Referable declared)
    (progress : Progress declared (kept ++ rest) g) :
    ∃ left g', RestWiring.sweep kept rest g = .ok (left, g') ∧ Progress declared left g' := by
  induction rest generalizing kept g with
  | nil => exact ⟨kept, g, rfl, by simpa using progress⟩
  | cons head rest ih =>
    obtain ⟨r, d⟩ := head
    rw [RestWiring.sweep]
    split
    · rename_i ready
      obtain ⟨g', placed, progress'⟩ := progress.place referable ready
      rw [placed]
      exact ih progress'
    · exact ih (by simpa using progress)

/-- A sweep leaves no more than there was; if it leaves as much, then nothing was ready. -/
theorem sweep_length (swept : sweep kept rest g = .ok (left, g')) :
    left.length ≤ kept.length + rest.length ∧
      (left.length = kept.length + rest.length →
        left = kept ++ rest ∧ ∀ x ∈ rest, x.2.ready ((kept ++ rest).map (·.1)) = false) := by
  induction rest generalizing kept g with
  | nil =>
    cases swept
    simp
  | cons head rest ih =>
    obtain ⟨r, d⟩ := head
    rw [sweep] at swept
    split at swept
    · obtain ⟨next, -, swept⟩ := bind_success_iff.mp swept
      have shorter := (ih swept).1
      simp only [List.length_cons]
      omega
    · rename_i waits
      obtain ⟨bound, idle⟩ := ih swept
      simp only [List.length_append, List.length_cons, List.length_nil, List.append_assoc,
        List.cons_append,
        List.nil_append] at bound idle
      refine ⟨by simp only [List.length_cons]; omega, fun equal => ?_⟩
      obtain ⟨left_eq, others⟩ := idle (by simp only [List.length_cons] at equal; omega)
      refine ⟨left_eq, fun x member => ?_⟩
      rcases List.mem_cons.mp member with rfl | later
      · simpa using waits
      · exact others x later

/-- How a run ends: with everything placed, or with declarations each of which refers to another. -/
inductive Settled (declared : List (Ref × Declared)) :
    Except ResolutionError (ResolutionGraph × Nat) → Prop
  | complete {g : ResolutionGraph} (passes : Nat) (progress : Progress declared [] g) :
      Settled declared (.ok (g, passes))
  | stuck {left : List (Ref × Declared)} {g : ResolutionGraph} (progress : Progress declared left g)
      (nonempty : left ≠ []) (waits : ∀ x ∈ left, ∃ s ∈ x.2.references, s ∈ left.map (·.1)) :
      Settled declared (.error (.cyclicDependency (left.map fun d => Ref.text d.1)))

theorem Progress.settle (referable : Referable declared) (progress : Progress declared pending g)
    (passes : Nat) :
    Settled declared (RestWiring.settle pending g passes) := by
  induction size : pending.length using Nat.strong_induction_on generalizing pending g passes with
  | _ n ih =>
    unfold RestWiring.settle
    split
    · rename_i empty
      rw [List.isEmpty_iff.mp empty] at progress
      exact .complete passes progress
    · rename_i nonempty
      have sweeps :
          ∃ left g', RestWiring.sweep [] pending g = .ok (left, g') ∧ Progress declared left g' :=
        Progress.sweep referable progress
      obtain ⟨left, g', swept, progress'⟩ := sweeps
      obtain ⟨bound, idle⟩ := sweep_length swept
      rw [swept]
      dsimp only
      split
      · rename_i shorter
        exact ih left.length (size ▸ shorter) progress' (passes + 1) rfl
      · rename_i full
        simp only [List.length_nil, Nat.zero_add, List.nil_append] at bound idle
        obtain ⟨rfl, waits⟩ := idle (by omega)
        refine .stuck progress' (by simpa using nonempty) fun x member => ?_
        simpa [Declared.ready] using waits x member

end RestWiring
