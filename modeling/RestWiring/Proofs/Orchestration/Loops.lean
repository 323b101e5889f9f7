import Mathlib.Logic.Relation
import RestWiring.Orchestration.Plan
import RestWiring.Proofs.SortedMap

/-!
# Searching for loops

The depth-first search for loops of triggering edges answers a node if there is a loop, and the node
it answers is on one. At any moment the nodes that have been met and not been left lie on the way to
the node being searched, and from the nodes that have been left edges lead to such nodes only.
-/
namespace RestWiring

open Relation

/-- Whether an edge triggers. -/
def OrchestrationGraph.Triggers (g : OrchestrationGraph) (start target : String) : Prop :=
  ∃ params, g.edges.find? (start, target) = some params ∧ params.triggers = true

namespace SubgraphPlan

variable {g : OrchestrationGraph} {name target : String} {marks marks' : Marks}
  {names : List String}

theorem mem_targetsOf : target ∈ targetsOf g name ↔ g.Triggers name target := by
  simp only [targetsOf, List.mem_map, List.mem_filter, Bool.and_eq_true, beq_iff_eq,
    OrchestrationGraph.Triggers]
  constructor
  · rintro ⟨⟨⟨start, stop⟩, params⟩, ⟨member, rfl, triggers⟩, rfl⟩
    exact ⟨params, SortedMap.mem_entries.mp member, triggers⟩
  · rintro ⟨params, found, triggers⟩
    exact ⟨((name, target), params), ⟨SortedMap.mem_entries.mpr found, rfl, triggers⟩, rfl⟩

/-! ## Only nodes on loops are answered -/

/-- Whether a node has been met and not been left. -/
def Marks.Open (marks : Marks) (name : String) : Prop := marks.find? name = some false

theorem Marks.open_insert {v : Bool} {other : String}
    (isOpen : Marks.Open (marks.insert name v) other) :
    (other = name ∧ v = false) ∨ (other ≠ name ∧ marks.Open other) := by
  unfold Marks.Open at isOpen
  rw [SortedMap.find?_insert] at isOpen
  split at isOpen
  · rename_i same
    exact .inl ⟨same, Option.some.inj isOpen⟩
  · rename_i different
    exact .inr ⟨different, isOpen⟩

/-- What a search may answer: a node on a loop, or nothing and no further open node. -/
def Sound (g : OrchestrationGraph) (marks : Marks) (result : Option String × Marks) : Prop :=
  match result.1 with
  | some found => TransGen g.Triggers found found
  | none => ∀ other, result.2.Open other → marks.Open other

theorem searchAll_sound {search : String → Marks → Option String × Marks}
    (sound : ∀ name marks, (∀ other, Marks.Open marks other → TransGen g.Triggers other name) →
      Sound g marks (search name marks))
    (ahead : ∀ name ∈ names, ∀ other, marks.Open other → TransGen g.Triggers other name) :
    Sound g marks (searchAll search names marks) := by
  induction names generalizing marks with
  | nil => exact fun other isOpen => isOpen
  | cons name names ih =>
    have below := ahead name List.mem_cons_self
    have others := fun n (member : n ∈ names) => ahead n (List.mem_cons_of_mem _ member)
    rw [searchAll]
    split
    · rename_i isOpen
      exact below name isOpen
    · exact ih others
    · have first := sound name marks below
      split
      · rename_i found marks' result
        rw [result] at first
        exact first
      · rename_i marks' result
        rw [result] at first
        have rest :=
          @ih marks' fun n member other isOpen => others n member other (first other isOpen)
        unfold Sound at rest ⊢
        split at rest
        · exact rest
        · exact fun other isOpen => first other (rest other isOpen)

theorem search_sound (fuel : Nat) (below : ∀ other, marks.Open other →
    TransGen g.Triggers other name) :
    Sound g marks (search g fuel name marks) := by
  induction fuel generalizing name marks with
  | zero => exact fun other isOpen => isOpen
  | succ fuel ih =>
    have ahead : ∀ next ∈ targetsOf g name, ∀ other, Marks.Open (marks.insert name false) other →
        TransGen g.Triggers other next := by
      intro next member other isOpen
      have edge := mem_targetsOf.mp member
      rcases Marks.open_insert isOpen with ⟨rfl, -⟩ | ⟨-, isOpen⟩
      · exact .single edge
      · exact (below other isOpen).tail edge
    have all := searchAll_sound (fun _ _ => ih) ahead
    rw [search]
    split
    · rename_i found marks' result
      rw [result] at all
      exact all
    · rename_i marks' result
      rw [result] at all
      intro other isOpen
      rcases Marks.open_insert isOpen with ⟨-, ⟨⟩⟩ | ⟨different, isOpen⟩
      rcases Marks.open_insert (all other isOpen) with ⟨same, -⟩ | ⟨-, isOpen⟩
      · exact absurd same different
      · exact isOpen

/-- A node that the search for loops answers is on a loop. -/
theorem triggerLoop?_sound (found : triggerLoop? g = some name) :
    TransGen g.Triggers name name := by
  have all : Sound g ∅ (searchAll (search g (g.nodes.size + 1)) g.names ∅) :=
    searchAll_sound (fun _ _ => search_sound _) (by rintro _ _ other ⟨⟩)
  unfold triggerLoop? at found
  unfold Sound at all
  rw [found] at all
  exact all

/-! ## Every loop is found -/

/-- Whether a node has been met and left again. -/
def Marks.Left (marks : Marks) (name : String) : Prop := marks.find? name = some true

/-- The nodes that a search has yet to meet. -/
def Marks.unmet (marks : Marks) (names : List String) : List String :=
  names.filter fun name => !marks.contains name

/-- Edges lead from nodes that have been left to such nodes only, and none of these is on a loop. -/
structure Settled (g : OrchestrationGraph) (marks : Marks) : Prop where
  closed : ∀ {start target : String}, marks.Left start → g.Triggers start target →
    marks.Left target
  acyclic : ∀ {name : String}, marks.Left name → ¬ TransGen g.Triggers name name

theorem Settled.reach (settled : Settled g marks) (left : marks.Left name)
    (path : TransGen g.Triggers name target) : marks.Left target := by
  induction path with
  | single edge => exact settled.closed left edge
  | tail _ edge ih => exact settled.closed ih edge

/-- A node that is met anew changes nothing for the nodes that have been left. -/
theorem Settled.meet (settled : Settled g marks) (new : marks.find? name = none) :
    Settled g (marks.insert name false) := by
  have left_iff {other : String} : Marks.Left (marks.insert name false) other ↔ marks.Left other := by
    unfold Marks.Left
    rw [SortedMap.find?_insert]
    split
    · rename_i same
      rw [same, new]
      exact ⟨nofun, nofun⟩
    · exact Iff.rfl
  exact ⟨fun left edge => left_iff.mpr (settled.closed (left_iff.mp left) edge),
    fun left => settled.acyclic (left_iff.mp left)⟩

/-- A node can be left when all its targets have been. -/
theorem Settled.leave (settled : Settled g marks) (isOpen : marks.Open name)
    (below : ∀ target, g.Triggers name target → marks.Left target) :
    Settled g (marks.insert name true) := by
  have still {other : String} (left : marks.Left other) :
      Marks.Left (marks.insert name true) other := by
    unfold Marks.Left at left ⊢
    rw [SortedMap.find?_insert]
    split
    · rfl
    · exact left
  have before {other : String} (left : Marks.Left (marks.insert name true) other) :
      other = name ∨ marks.Left other := by
    unfold Marks.Left at left ⊢
    rw [SortedMap.find?_insert] at left
    split at left
    · exact .inl ‹_›
    · exact .inr left
  have targets_left {other target : String} (left : Marks.Left (marks.insert name true) other)
      (edge : g.Triggers other target) : marks.Left target := by
    rcases before left with rfl | left
    · exact below target edge
    · exact settled.closed left edge
  refine ⟨fun left edge => still (targets_left left edge), fun left loop => ?_⟩
  rcases before left with same | left
  · rw [same] at loop
    -- A loop through the node would lead back to it through nodes that have been left.
    obtain ⟨target, edge, back⟩ := TransGen.head'_iff.mp loop
    have first := below target edge
    have again : marks.Left name := by
      rcases reflTransGen_iff_eq_or_transGen.mp back with rfl | back
      · exact first
      · exact settled.reach first back
    unfold Marks.Left at again
    unfold Marks.Open at isOpen
    rw [isOpen] at again
    cases again
  · exact settled.acyclic left loop

/-- What a search that finds no loop has done: the nodes it was given have been left. -/
structure Exhausts (g : OrchestrationGraph) (names : List String) (before after : Marks) :
    Prop where
  settled : Settled g after
  kept : ∀ {name : String} {v : Bool}, before.find? name = some v → after.find? name = some v
  left : ∀ name ∈ names, after.Left name

theorem Exhausts.unmet_le {others : List String} (exhausts : Exhausts g names marks marks') :
    (marks'.unmet others).length ≤ (marks.unmet others).length := by
  refine (List.monotone_filter_right others fun name unmet => ?_).length_le
  rw [Bool.not_eq_true', SortedMap.contains_eq_false_iff] at unmet ⊢
  cases met : marks.find? name with
  | none => rfl
  | some v => rw [exhausts.kept met] at unmet; cases unmet

/-- Meeting a node leaves one node fewer to be met. -/
theorem Marks.unmet_insert_lt {v : Bool} (new : marks.find? name = none) (member : name ∈ names) :
    (Marks.unmet (marks.insert name v) names).length < (marks.unmet names).length := by
  have fewer : (Marks.unmet (marks.insert name v) names).Sublist (marks.unmet names) := by
    refine List.monotone_filter_right names fun other unmet => ?_
    rw [Bool.not_eq_true', ← Bool.not_eq_true, SortedMap.contains_insert, not_or] at unmet
    simpa using unmet.2
  refine Nat.lt_of_le_of_ne fewer.length_le fun same => ?_
  have equal := fewer.eq_of_length same
  have here : name ∈ marks.unmet names :=
    List.mem_filter.mpr ⟨member, by simp [SortedMap.contains_eq_false_iff.mpr new]⟩
  rw [← equal] at here
  have absent := (List.mem_filter.mp here).2
  rw [Bool.not_eq_true', SortedMap.contains_eq_false_iff, SortedMap.find?_insert_self] at absent
  cases absent

theorem searchAll_exhausts {fuel : Nat} {search : String → Marks → Option String × Marks}
    (exhausts : ∀ {name marks marks'}, Settled g marks → g.contains name = true →
      marks.find? name = none → (marks.unmet g.names).length ≤ fuel →
      search name marks = (none, marks') → Exhausts g [name] marks marks')
    (settled : Settled g marks) (inside : ∀ name ∈ names, g.contains name = true)
    (bound : (marks.unmet g.names).length ≤ fuel)
    (result : searchAll search names marks = (none, marks')) : Exhausts g names marks marks' := by
  induction names generalizing marks with
  | nil =>
    cases result
    exact ⟨settled, id, by simp⟩
  | cons name names ih =>
    have here := inside name List.mem_cons_self
    have others := fun n (member : n ∈ names) => inside n (List.mem_cons_of_mem _ member)
    rw [searchAll] at result
    split at result
    · cases result
    · rename_i left
      have rest := ih settled others bound result
      exact ⟨rest.settled, rest.kept, List.forall_mem_cons.mpr ⟨rest.kept left, rest.left⟩⟩
    · rename_i new
      split at result
      · cases result
      · rename_i between searched
        have first := exhausts settled here new bound searched
        have rest := ih first.settled others (Nat.le_trans first.unmet_le bound) result
        have left := rest.kept (first.left name List.mem_cons_self)
        exact ⟨rest.settled, fun met => rest.kept (first.kept met),
          List.forall_mem_cons.mpr ⟨left, rest.left⟩⟩

section Ends

variable (ends : ∀ {start target : String}, g.Triggers start target → g.contains target = true)
include ends

theorem search_exhausts (fuel : Nat) (settled : Settled g marks) (inside : g.contains name = true)
    (new : marks.find? name = none) (bound : (marks.unmet g.names).length ≤ fuel)
    (result : search g fuel name marks = (none, marks')) : Exhausts g [name] marks marks' := by
  induction fuel generalizing name marks marks' with
  | zero =>
    have fewer := Marks.unmet_insert_lt (v := false) new (SortedMap.mem_keys_iff_contains.mpr inside)
    exact absurd (Nat.le_zero.mp bound) (Nat.ne_of_gt (Nat.zero_lt_of_lt fewer))
  | succ fuel ih =>
    have fewer := Marks.unmet_insert_lt (v := false) new (SortedMap.mem_keys_iff_contains.mpr inside)
    rw [search] at result
    split at result
    · cases result
    · rename_i between searched
      cases result
      have below : Exhausts g (targetsOf g name) (marks.insert name false) between :=
        searchAll_exhausts ih (settled.meet new) (fun target member => ends (mem_targetsOf.mp member))
          (Nat.le_of_lt_succ (Nat.lt_of_lt_of_le fewer bound)) searched
      have isOpen := below.kept (SortedMap.find?_insert_self marks name false)
      refine ⟨below.settled.leave isOpen fun target edge =>
        below.left target (mem_targetsOf.mpr edge), ?_, ?_⟩
      · intro other v met
        have different : other ≠ name := by
          rintro rfl
          rw [new] at met
          cases met
        rw [SortedMap.find?_insert_of_ne _ _ different]
        exact below.kept (by rwa [SortedMap.find?_insert_of_ne _ _ different])
      · rintro _ (_ | ⟨_, ⟨⟩⟩)
        exact SortedMap.find?_insert_self between name true

/-- When the search for loops answers nothing, there are none. -/
theorem triggerLoop?_complete (result : triggerLoop? g = none) (name : String) :
    ¬ TransGen g.Triggers name name := by
  intro loop
  have searched : searchAll (search g (g.nodes.size + 1)) g.names ∅ =
      (none, (searchAll (search g (g.nodes.size + 1)) g.names ∅).2) := Prod.ext result rfl
  have nothing : Settled g ∅ := ⟨nofun, nofun⟩
  have bound : (Marks.unmet ∅ g.names).length ≤ g.nodes.size + 1 := by
    refine Nat.le_succ_of_le (Nat.le_trans (List.length_filter_le _ _) ?_)
    simp [OrchestrationGraph.names, SortedMap.keys, SortedMap.size]
  have all := searchAll_exhausts (search_exhausts ends _) nothing
    (fun name member => SortedMap.mem_keys_iff_contains.mp member) bound searched
  obtain ⟨before, -, edge⟩ := TransGen.tail'_iff.mp loop
  exact all.settled.acyclic (all.left name (SortedMap.mem_keys_iff_contains.mpr (ends edge))) loop

end Ends

end SubgraphPlan

end RestWiring
