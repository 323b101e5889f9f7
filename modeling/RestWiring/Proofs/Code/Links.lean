import RestWiring.Code.Arena
import Mathlib.Data.List.Nodup

/-!
# The links of an arena

A node is linked up to its parent and down to its children. As long as nodes are only attached to nodes
that are there, the links up and down agree, lead up to smaller numbers and down to greater ones, and
lists of children are in the order of attachment.
-/
namespace RestWiring

namespace CodeArena

/-- The recorded parent of a node. -/
def parent? (a : CodeArena) (id : Nat) : Option Nat := a.nodes[id]?.bind (·.parent)

/-! ## Attaching -/

section

variable {a : CodeArena} {parent : Nat} {label : String} {part : CodePart}

theorem length_attach : (a.attach parent label part).nodes.length = a.nodes.length + 1 := by
  simp [attach]

/-- The new node is the last one, and of the others only its parent has changed. -/
theorem getElem?_attach (existing : parent < a.nodes.length) (id : Nat) :
    (a.attach parent label part).nodes[id]? =
      if id = a.nodes.length then some { label, part, parent := some parent }
      else a.nodes[id]?.map fun n =>
        if id = parent then { n with children := n.children ++ [a.nodes.length] } else n := by
  simp only [attach, List.getElem?_modify, eq_comm (a := parent)]
  by_cases new : id = a.nodes.length
  · have other : id ≠ parent := by omega
    simp [new, if_neg (new ▸ other)]
  · rw [if_neg new, List.getElem?_append]
    by_cases old : id < a.nodes.length
    · rw [if_pos old]
      rfl
    · have outside : 1 ≤ id - a.nodes.length := by omega
      rw [if_neg old, List.getElem?_eq_none outside, List.getElem?_eq_none (Nat.le_of_not_lt old)]
      rfl

theorem parent?_attach (existing : parent < a.nodes.length) (id : Nat) :
    (a.attach parent label part).parent? id =
      if id = a.nodes.length then some parent else a.parent? id := by
  rw [parent?, getElem?_attach existing]
  split
  · rfl
  · rw [parent?]
    cases a.nodes[id]? with
    | none => rfl
    | some n => by_cases same : id = parent <;> simp [same]

end

/-- What attaching keeps up: the parents are recorded, and the children can be told from them. -/
structure Invariant (a : CodeArena) : Prop where
  root : a.parent? 0 = none
  upward : ∀ id < a.nodes.length, id ≠ 0 → ∃ p < id, a.parent? id = some p
  children : ∀ id node, a.nodes[id]? = some node →
    node.children = (List.range a.nodes.length).filter (a.parent? · = some id)

namespace Invariant

theorem of_root (label : String) (part : CodePart) : (CodeArena.root label part).Invariant where
  root := rfl
  upward id inside other := by
    rw [CodeArena.root, List.length_singleton] at inside
    omega
  children id node found := by
    cases id with
    | zero =>
      cases found
      rfl
    | succ id => cases found

/-- A parent has a smaller number than its child. -/
theorem parent?_lt {a : CodeArena} (invariant : a.Invariant) {id p : Nat}
    (recorded : a.parent? id = some p) : p < id ∧ id < a.nodes.length := by
  have inside : id < a.nodes.length := by
    by_contra outside
    rw [parent?, List.getElem?_eq_none (Nat.le_of_not_lt outside)] at recorded
    cases recorded
  refine ⟨?_, inside⟩
  by_cases first : id = 0
  · subst first
    cases invariant.root.symm.trans recorded
  · obtain ⟨q, less, found⟩ := invariant.upward id inside first
    cases found.symm.trans recorded
    exact less

theorem attach {a : CodeArena} (invariant : a.Invariant) {parent : Nat}
    (existing : parent < a.nodes.length) (label : String) (part : CodePart) :
    (a.attach parent label part).Invariant where
  root := by
    rw [parent?_attach existing, if_neg (by omega)]
    exact invariant.root
  upward id inside other := by
    rw [length_attach] at inside
    rw [parent?_attach existing]
    split
    · exact ⟨parent, by omega, rfl⟩
    · exact invariant.upward id (by omega) other
  children id node found := by
    have same : (List.range a.nodes.length).filter
        ((a.attach parent label part).parent? · = some id) =
          (List.range a.nodes.length).filter (a.parent? · = some id) := by
      apply List.filter_congr
      intro k member
      rw [parent?_attach existing, if_neg (Nat.ne_of_lt (List.mem_range.mp member))]
    have last : (a.attach parent label part).parent? a.nodes.length = some parent := by
      rw [parent?_attach existing, if_pos rfl]
    rw [length_attach, List.range_succ, List.filter_append, same, List.filter_singleton, last]
    rw [getElem?_attach existing] at found
    split at found
    · -- The new node has no children yet: nothing has it for a parent.
      rename_i new
      cases found
      subst new
      have none_below : (List.range a.nodes.length).filter
          (a.parent? · = some a.nodes.length) = [] := by
        apply List.filter_eq_nil_iff.mpr
        intro k _ recorded
        have := invariant.parent?_lt (of_decide_eq_true recorded)
        omega
      simp [none_below, Nat.ne_of_lt existing]
    · rename_i old
      obtain ⟨node, before, rfl⟩ := Option.map_eq_some_iff.mp found
      rw [← invariant.children id node before]
      by_cases own : id = parent
      · simp [own]
      · simp [own, Ne.symm own]

end Invariant

/-- How the links of an arena go together. -/
structure WellLinked (a : CodeArena) : Prop where
  root : a.parent? 0 = none
  /-- The other nodes have parents, and these have smaller numbers. -/
  upward : ∀ id < a.nodes.length, id ≠ 0 → ∃ p < id, a.parent? id = some p
  /-- A node is listed once by the parent that it records, and by no other node. -/
  once : ∀ p node, a.nodes[p]? = some node →
    ∀ id, node.children.count id = if a.parent? id = some p then 1 else 0
  /-- Children are there, and have greater numbers than their parents. -/
  downward : ∀ p node, a.nodes[p]? = some node → ∀ id ∈ node.children, p < id ∧ id < a.nodes.length
  /-- Children are listed in the order in which they were attached. -/
  ascending : ∀ (p : Nat) (node : ArenaNode), a.nodes[p]? = some node → node.children.Pairwise (· < ·)

theorem Invariant.wellLinked {a : CodeArena} (invariant : a.Invariant) : a.WellLinked where
  root := invariant.root
  upward := invariant.upward
  once p node found id := by
    rw [invariant.children p node found]
    by_cases own : a.parent? id = some p
    · obtain ⟨-, inside⟩ := invariant.parent?_lt own
      rw [if_pos own, List.count_filter (by simpa using own)]
      exact List.count_eq_one_of_mem List.nodup_range (List.mem_range.mpr inside)
    · rw [if_neg own, List.count_eq_zero]
      simp [own]
  downward p node found id member := by
    rw [invariant.children p node found, List.mem_filter, List.mem_range, decide_eq_true_iff] at member
    exact invariant.parent?_lt member.2
  ascending p node found := by
    rw [invariant.children p node found]
    exact List.pairwise_lt_range.filter _

end CodeArena

end RestWiring
