import RestWiring.Code.Compiler
import RestWiring.Proofs.Fallible

/-!
# The trees of units

The tree of a unit has two levels: a module, and in it an entry point with the steps of an
invocation. Both are built by attaching nodes without children one by one.
-/
namespace RestWiring

namespace CodeTree

/-- Nodes without children, numbered from a first number on. -/
def leaves (first : Nat) (steps : List (String × CodePart)) : List CodeTree :=
  (steps.zipIdx first).map fun s => .node s.2 s.1.1 s.1.2 []

theorem leaves_cons (first : Nat) (s : String × CodePart) (steps : List (String × CodePart)) :
    leaves first (s :: steps) = .node first s.1 s.2 [] :: leaves (first + 1) steps :=
  rfl

theorem leaves_concat (first : Nat) (steps : List (String × CodePart)) (s : String × CodePart) :
    leaves first (steps ++ [s]) = leaves first steps ++ [.node (first + steps.length) s.1 s.2 []] := by
  rw [leaves, List.zipIdx_append, List.map_append]
  rfl

theorem forestSize_append (ts us : List CodeTree) :
    forestSize (ts ++ us) = forestSize ts + forestSize us := by
  induction ts with
  | nil => simp [forestSize]
  | cons t ts ih => rw [List.cons_append, forestSize, forestSize, ih, Nat.add_assoc]

theorem forestSize_leaves (first : Nat) (steps : List (String × CodePart)) :
    forestSize (leaves first steps) = steps.length := by
  induction steps generalizing first with
  | nil => rfl
  | cons s steps ih =>
    rw [leaves_cons, forestSize, ih, List.length_cons, size, forestSize]
    omega

theorem graftForest_append (parent : Nat) (child : CodeTree) (ts us : List CodeTree) :
    graftForest parent child (ts ++ us) = graftForest parent child ts ++ graftForest parent child us := by
  induction ts with
  | nil => rfl
  | cons t ts ih => rw [List.cons_append, graftForest, graftForest, ih, List.cons_append]

/-- Nothing is put under nodes that have other numbers. -/
theorem graftForest_leaves {parent first : Nat} {steps : List (String × CodePart)}
    (apart : parent < first ∨ first + steps.length ≤ parent) (child : CodeTree) :
    graftForest parent child (leaves first steps) = leaves first steps := by
  induction steps generalizing first with
  | nil => rfl
  | cons s steps ih =>
    rw [List.length_cons] at apart
    have other : first ≠ parent := by omega
    rw [leaves_cons, graftForest, ih (by omega), graft, graftForest, if_neg other]

/-- A node is attached under the module. -/
theorem attach_root (label : String) (part : CodePart) (front : List (String × CodePart))
    (name : String) (step : CodePart) :
    (CodeTree.node 0 label part (leaves 1 front)).attach 0 name step =
      .node 0 label part (leaves 1 (front ++ [(name, step)])) := by
  rw [attach, graft, size, forestSize_leaves, graftForest_leaves (.inl (by omega)), if_pos rfl,
    leaves_concat]

/-- The tree of a module, of which the last node has steps under it. -/
def twoLevels (label : String) (part : CodePart) (front : List (String × CodePart))
    (last : String × CodePart) (steps : List (String × CodePart)) : CodeTree :=
  .node 0 label part
    (leaves 1 front ++
      [.node (1 + front.length) last.1 last.2 (leaves (1 + front.length + 1) steps)])

theorem attach_twoLevels (label : String) (part : CodePart) (front : List (String × CodePart))
    (last : String × CodePart) (steps : List (String × CodePart)) (s : String × CodePart) :
    (twoLevels label part front last steps).attach (1 + front.length) s.1 s.2 =
      twoLevels label part front last (steps ++ [s]) := by
  have size_eq : (twoLevels label part front last steps).size =
      1 + front.length + 1 + steps.length := by
    rw [twoLevels, size, forestSize_append, forestSize_leaves, forestSize, size, forestSize_leaves,
      forestSize]
    omega
  rw [attach, size_eq, twoLevels, graft, graftForest_append, graftForest_leaves (.inr (by omega)),
    graftForest, graft, graftForest_leaves (.inl (by omega)), graftForest, if_pos rfl,
    if_neg (by omega), twoLevels, leaves_concat]

theorem attach_each (label : String) (part : CodePart) (front : List (String × CodePart))
    (last : String × CodePart) (before steps : List (String × CodePart)) :
    steps.foldl (fun t s => t.attach (1 + front.length) s.1 s.2)
        (twoLevels label part front last before) =
      twoLevels label part front last (before ++ steps) := by
  induction steps generalizing before with
  | nil => rw [List.foldl_nil, List.append_nil]
  | cons s steps ih => rw [List.foldl_cons, attach_twoLevels, ih, List.append_assoc, List.singleton_append]

/-- When the front is there, the last node is attached, and under it the steps. -/
theorem attach_last (label : String) (part : CodePart) (front : List (String × CodePart))
    (last : String × CodePart) (steps : List (String × CodePart)) :
    steps.foldl
        (fun t s => t.attach (CodeTree.node 0 label part (leaves 1 front)).size s.1 s.2)
        ((CodeTree.node 0 label part (leaves 1 front)).attach 0 last.1 last.2) =
      twoLevels label part front last steps := by
  have attached : (CodeTree.node 0 label part (leaves 1 front)).attach 0 last.1 last.2 =
      twoLevels label part front last [] := by
    rw [attach_root, leaves_concat]
    rfl
  rw [attached, size, forestSize_leaves, attach_each, List.nil_append]

theorem forestPlaces_append (above ts us : List CodeTree) :
    forestPlaces above (ts ++ us) = forestPlaces above ts ++ forestPlaces above us := by
  induction ts with
  | nil => rfl
  | cons t ts ih => rw [List.cons_append, forestPlaces, forestPlaces, ih, List.append_assoc]

theorem forestPlaces_leaves (above : List CodeTree) (first : Nat)
    (steps : List (String × CodePart)) :
    forestPlaces above (leaves first steps) = (leaves first steps).map (Place.mk above) := by
  induction steps generalizing first with
  | nil => rfl
  | cons s steps ih => rw [leaves_cons, forestPlaces, ih]; rfl

theorem compileForest_eq_mapM (stencils : StencilSet) (overrides : SortedMap String Json)
    (above : List String) (ts : List CodeTree) :
    compileForest stencils overrides above ts = ts.mapM (compileAt stencils overrides above) := by
  induction ts with
  | nil => rfl
  | cons t ts ih => rw [compileForest, List.mapM_cons, ih]; rfl

theorem compileForest_append {stencils : StencilSet} {overrides : SortedMap String Json}
    {above : List String} {ts us : List CodeTree} {texts : List String}
    (success : compileForest stencils overrides above (ts ++ us) = .ok texts) :
    ∃ firsts lasts, compileForest stencils overrides above ts = .ok firsts ∧
      compileForest stencils overrides above us = .ok lasts ∧ texts = firsts ++ lasts := by
  rw [compileForest_eq_mapM, List.mapM_append] at success
  obtain ⟨firsts, compiled, success⟩ := bind_success_iff.mp success
  obtain ⟨lasts, compiled', equal⟩ := bind_success_iff.mp success
  cases equal
  rw [← compileForest_eq_mapM] at compiled compiled'
  exact ⟨firsts, lasts, compiled, compiled', rfl⟩

end CodeTree

namespace CompilerConfig

/-- The parts of a module before its entry point. -/
def front (c : CompilerConfig) (u : FunctionUnit) (descriptor? : Option Json) :
    List (String × CodePart) :=
  ("header", .header { imports := u.imports, userAgent := c.userAgent }) ::
    (descriptor?.map fun d => ("authenticator", CodePart.authenticator d.compact)).toList

/-- A unit has a tree unless its descriptors conflict. -/
theorem build_eq (c : CompilerConfig) (u : FunctionUnit) :
    c.build u = u.descriptor?.map fun descriptor? =>
      CodeTree.twoLevels u.name .module (c.front u descriptor?)
        ("handler", .handler c.handlerName 500) (c.steps u descriptor?.isSome) := by
  have header : (CodeTree.root u.name .module).attach 0 "header"
        (.header { imports := u.imports, userAgent := c.userAgent }) =
      .node 0 u.name .module (CodeTree.leaves 1 (c.front u none)) :=
    CodeTree.attach_root u.name .module [] "header" _
  unfold build
  dsimp only
  rw [header]
  have assembled (front steps : List (String × CodePart)) :=
    CodeTree.attach_last u.name .module front ("handler", .handler c.handlerName 500) steps
  cases u.descriptor? with
  | error e => rfl
  | ok descriptor? =>
    refine congrArg Except.ok ?_
    cases descriptor? with
    | none => exact assembled (c.front u none) (c.steps u false)
    | some descriptor =>
      dsimp only
      rw [CodeTree.attach_root]
      exact assembled (c.front u (some descriptor)) (c.steps u true)

/-- What the tree of a unit looks like, if there is one. -/
theorem build_success {c : CompilerConfig} {u : FunctionUnit} {t : CodeTree} (built : c.build u = .ok t) :
    ∃ descriptor?, u.descriptor? = .ok descriptor? ∧
      t = CodeTree.twoLevels u.name .module (c.front u descriptor?)
        ("handler", .handler c.handlerName 500) (c.steps u descriptor?.isSome) := by
  rw [build_eq] at built
  cases described : u.descriptor? with
  | error e =>
    rw [described] at built
    cases built
  | ok descriptor? =>
    rw [described] at built
    exact ⟨descriptor?, rfl, (Except.ok.inj built).symm⟩

end CompilerConfig

end RestWiring
