import Mathlib.Data.Fintype.EquivFin
import Mathlib.Data.Set.Finite.List
import Mathlib.Order.WellFounded

/-!
# Cycles of a relation

A finite set whose members all lead back into it holds no dead end, so each of its members leads to
a cycle; and whatever leads to a cycle has a successor that does. Where there is no cycle, everything in
a finite set comes after something that nothing comes before.
-/
namespace RestWiring

open Relation

variable {α : Type} {r : α → α → Prop}

/-- Whether a cycle can be reached. -/
def ReachesCycle (r : α → α → Prop) (a : α) : Prop := ∃ b, ReflTransGen r a b ∧ TransGen r b b

theorem ReachesCycle.of_cycle {a : α} (cycle : TransGen r a a) : ReachesCycle r a :=
  ⟨a, .refl, cycle⟩

theorem ReachesCycle.successor {a : α} (reaches : ReachesCycle r a) :
    ∃ b, r a b ∧ ReachesCycle r b := by
  obtain ⟨c, path, cycle⟩ := reaches
  rcases ReflTransGen.cases_head path with rfl | ⟨b, first, rest⟩
  · obtain ⟨b, first, rest⟩ := TransGen.head'_iff.mp cycle
    exact ⟨b, first, a, rest, cycle⟩
  · exact ⟨b, first, c, rest, cycle⟩

/-- A finite set that is never left holds a cycle below each of its members. -/
theorem reachesCycle_of_trapped {s : List α} (trapped : ∀ a ∈ s, ∃ b ∈ s, r a b) {a : α}
    (member : a ∈ s) :
    ReachesCycle r a := by
  by_contra none
  -- Without a cycle the transitive closure is a strict order below `a`, so it has a last member
  -- there.
  let below : Set α := {b | b ∈ s ∧ ReflTransGen r a b}
  have : Finite below := (s.finite_toSet.subset fun b h => h.1).to_subtype
  let before : below → below → Prop := fun b c => TransGen r c.1 b.1
  have : Std.Irrefl before := ⟨fun b cycle => none ⟨b.1, b.2.2, cycle⟩⟩
  have : IsTrans below before := ⟨fun _ _ _ first second => second.trans first⟩
  have founded : WellFounded before := Finite.wellFounded_of_trans_of_irrefl before
  obtain ⟨last, -, least⟩ := founded.has_min Set.univ ⟨⟨a, member, .refl⟩, trivial⟩
  obtain ⟨next, inside, step⟩ := trapped last.1 last.2.1
  exact least ⟨next, inside, last.2.2.tail step⟩ trivial (.single step)

/-- Without a cycle every member of a finite set that is closed under predecessors comes after one that
has none. -/
theorem exists_first_of_acyclic {s : List α} (closed : ∀ a ∈ s, ∀ b, r b a → b ∈ s)
    (acyclic : ∀ a, ¬ TransGen r a a) {a : α} (member : a ∈ s) :
    ∃ b ∈ s, (∀ c, ¬ r c b) ∧ ReflTransGen r b a := by
  classical
  by_contra none
  -- Whatever comes after no first member has a predecessor that does not, either.
  let late : List α := s.filter fun a => ¬ ∃ b ∈ s, (∀ c, ¬ r c b) ∧ ReflTransGen r b a
  have trapped : ∀ a ∈ late, ∃ b ∈ late, Function.swap r a b := by
    intro a inside
    obtain ⟨listed, behind⟩ := List.mem_filter.mp inside
    rw [decide_eq_true_eq] at behind
    obtain ⟨b, before⟩ : ∃ b, r b a := by
      by_contra first
      exact behind ⟨a, listed, fun c before => first ⟨c, before⟩, .refl⟩
    refine ⟨b, List.mem_filter.mpr ⟨closed a listed b before, decide_eq_true ?_⟩, before⟩
    rintro ⟨c, start, first, path⟩
    exact behind ⟨c, start, first, path.tail before⟩
  obtain ⟨b, -, cycle⟩ :=
    reachesCycle_of_trapped trapped (List.mem_filter.mpr ⟨member, decide_eq_true none⟩)
  exact acyclic b (transGen_swap.mp cycle)

end RestWiring
