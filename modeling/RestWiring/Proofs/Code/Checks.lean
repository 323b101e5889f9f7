import RestWiring.Proofs.Code.Parts
import RestWiring.Proofs.Stencil.Forms

/-!
# The checks of parts

The standard stencils are sure for the attributes of their parts, so nothing can go wrong in rendering
a part. What can go wrong in compiling a tree is therefore what the checks of its parts find, and the
first thing found is reported.
-/
namespace RestWiring

open Stencil

/-! ## Attributes -/

/-- The attributes and the texts of the children are of the forms that are known of them. -/
theorem StencilSet.scope_fits {known : Forms} {members : List (String × Json)}
    (apart : (members.map (·.1)).Nodup)
    (each : ∀ k ∈ known, ∃ j, (k.1, j) ∈ members ∧ k.2.Holds (.ofJson j))
    (children : List String) :
    Fits (("children", .list .any) :: known) (scope (.object members) children ∅) := by
  intro name form listed
  rw [find?_scope]
  rw [lookup_cons_eq] at listed
  split at listed
  · rename_i same
    cases listed
    rw [if_pos same, Option.map_some, Option.getD_some, ofJson_strings]
    exact ⟨_, rfl, fun _ _ => trivial⟩
  · rename_i differ
    obtain ⟨before, after, rfl, -⟩ := List.lookup_eq_some_iff.mp listed
    obtain ⟨j, member, holds⟩ := each (name, form) (List.mem_append_right before List.mem_cons_self)
    rw [if_neg differ, (SortedMap.find?_ofList apart).mpr member]
    exact holds

theorem holds_strings (items : List String) : (Form.list .any).Holds (.ofJson (.strings items)) := by
  rw [ofJson_strings]
  exact ⟨_, rfl, fun _ _ => trivial⟩

namespace CodePart

/-- What is known of the attributes of a part. -/
def forms : CodePart → Forms
  | .header _ => [("imports", .list .any)]
  | .request _ => [("timeout_ms", .number), ("retries", .int 0 (2 ^ 32 - 1))]
  | .bodyReader .. => [("select", .list .any)]
  | .response _ => [("params", .list .any)]
  | _ => []

/-- Whether the number of attempts, if a part has one, fits into a word of 32 bits. -/
def IsModerate : CodePart → Prop
  | .request p => p.attempts < 2 ^ 32
  | _ => True

theorem attributes_fit {part : CodePart} (moderate : part.IsModerate) :
    ∃ members, part.attributes = .object members ∧ (members.map (·.1)).Nodup ∧
      ∀ k ∈ part.forms, ∃ j, (k.1, j) ∈ members ∧ k.2.Holds (.ofJson j) := by
  cases part with
  | header p =>
    refine ⟨_, rfl, by simp, List.forall_mem_singleton.mpr ?_⟩
    exact ⟨.strings p.imports, by simp, holds_strings _⟩
  | request p =>
    have least : 0 ≤ (p.attempts : Int) := Int.natCast_nonneg _
    have greatest : (p.attempts : Int) ≤ 2 ^ 32 - 1 := by
      rw [IsModerate] at moderate
      omega
    refine ⟨_, rfl, by simp, List.forall_mem_cons.mpr ⟨?_, List.forall_mem_singleton.mpr ?_⟩⟩
    · exact ⟨.nat p.timeoutMs, by simp, .int p.timeoutMs, rfl⟩
    · exact ⟨.nat p.attempts, by simp, p.attempts, rfl, least, greatest⟩
  | bodyReader source name path =>
    refine ⟨_, rfl, by simp, List.forall_mem_singleton.mpr ?_⟩
    exact ⟨.strings path, by simp, holds_strings _⟩
  | response p =>
    refine ⟨_, rfl, by simp, List.forall_mem_singleton.mpr ?_⟩
    exact ⟨.strings p.params, by simp, holds_strings _⟩
  | _ => exact ⟨_, rfl, by simp, by simp [forms]⟩

theorem areSure_stencil {part : CodePart} {stencil : Stencil} (has : part.stencil? = some stencil) :
    areSure (("children", .list .any) :: part.forms) stencil = true := by
  cases part with
  | module => cases has
  | _ =>
    cases has
    simp only [forms]
    decide

/-- A request takes one off its number of attempts, so it needs to know that this is a number. -/
example : areSure [("children", .list .any)] CodeStencils.request = false := by decide

/-- The stencil of a part is rendered, whatever the part is made of. -/
theorem render_succeeds {part : CodePart} {name : String} (named : part.stencilName = some name)
    (moderate : part.IsModerate) (node : String) (children : List String) :
    ∃ text, StencilSet.standard.render node name part.attributes children ∅ = .ok text := by
  obtain ⟨stencil, has⟩ : ∃ stencil, part.stencil? = some stencil := by
    cases part with
    | module => cases named
    | _ => exact ⟨_, rfl⟩
  obtain ⟨name', named', found, -⟩ := stencil?_found has
  obtain rfl : name' = name := Option.some.inj (named'.symm.trans named)
  obtain ⟨members, shown, apart, each⟩ := attributes_fit moderate
  have fits := StencilSet.scope_fits apart each children
  obtain ⟨text, success⟩ := renderAll_sure (.ofName name') fits stencil (areSure_stencil has)
  refine ⟨String.ofList (Text.trimEnd text), ?_⟩
  simp only [StencilSet.render, shown, found, Stencil.render, success]

end CodePart

/-! ## Trees -/

namespace CodeTree

/-- What the check of a part finds where it stands. -/
def Place.faults (p : Place) : List CompilationError :=
  ((p.tree.part.fault? p.tree.children.length).map (.invalidConfig p.path)).toList

theorem Place.check_raises (p : Place) :
    Raises p.faults (p.tree.part.check p.path p.tree.children.length) := by
  unfold faults CodePart.check
  cases p.tree.part.fault? p.tree.children.length with
  | none => exact .ok ()
  | some reason => exact rfl

mutual

/-- A tree is compiled unless a check finds something, of which the first is reported. -/
theorem compileAt_raises (above : List CodeTree) : (t : CodeTree) →
    (moderate : ∀ p ∈ t.places above, p.tree.part.IsModerate) →
    Raises ((t.places above).flatMap Place.faults)
      (compileAt .standard ∅ (above.map label) t)
  | .node number name part children, moderate => by
    rw [places, List.forall_mem_cons] at moderate
    obtain ⟨own, others⟩ := moderate
    have inner := compileForest_raises (above ++ [.node number name part children]) children others
    rw [List.map_append] at inner
    rw [places, List.flatMap_cons, compileAt]
    refine (Place.check_raises ⟨above, .node number name part children⟩).bind fun _ _ => ?_
    rw [← List.append_nil (List.flatMap _ _)]
    refine inner.bind fun texts _ => ?_
    -- Once the checks have passed, the part itself is rendered for sure.
    cases named : part.stencilName with
    | none => exact .ok _
    | some stencil => exact CodePart.render_succeeds named own _ texts

theorem compileForest_raises (above : List CodeTree) : (ts : List CodeTree) →
    (moderate : ∀ p ∈ forestPlaces above ts, p.tree.part.IsModerate) →
    Raises ((forestPlaces above ts).flatMap Place.faults)
      (compileForest .standard ∅ (above.map label) ts)
  | [], _ => .ok []
  | t :: ts, moderate => by
    rw [forestPlaces, List.forall_mem_append] at moderate
    rw [forestPlaces, List.flatMap_append, compileForest]
    refine (compileAt_raises above t moderate.1).bind fun text _ => ?_
    exact (compileForest_raises above ts moderate.2).map

end

end CodeTree

end RestWiring
