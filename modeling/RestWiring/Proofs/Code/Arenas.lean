import RestWiring.Proofs.Code.Failures
import RestWiring.Proofs.Code.Links
import Mathlib.Logic.Relation
import Mathlib.Tactic.Ring

/-!
# Trees in arenas

An arena and a tree that come about by the same attachments stand for each other, so everything that
follows the links of such an arena comes to an end, with what the tree gives. What is not below a node
has no part in compiling it.
-/
namespace RestWiring

/-! ## The numbers of the nodes -/

namespace CodeTree

mutual

def numbers : CodeTree → List Nat
  | .node n _ _ cs => n :: forestNumbers cs

def forestNumbers : List CodeTree → List Nat
  | [] => []
  | t :: ts => numbers t ++ forestNumbers ts

end

mutual

theorem numbers_places (above : List CodeTree) :
    (t : CodeTree) → (places above t).map (·.tree.number) = numbers t
  | .node n l p cs => by
    rw [places, numbers, List.map_cons, numbers_forestPlaces]
    rfl

theorem numbers_forestPlaces (above : List CodeTree) :
    (ts : List CodeTree) → (forestPlaces above ts).map (·.tree.number) = forestNumbers ts
  | [] => rfl
  | t :: ts => by
    rw [forestPlaces, forestNumbers, List.map_append, numbers_places, numbers_forestPlaces]

end

mutual

theorem length_numbers : (t : CodeTree) → (numbers t).length = t.size
  | .node n l p cs => by rw [numbers, size, List.length_cons, length_forestNumbers, Nat.add_comm]

theorem length_forestNumbers : (ts : List CodeTree) → (forestNumbers ts).length = forestSize ts
  | [] => rfl
  | t :: ts => by
    rw [forestNumbers, forestSize, List.length_append, length_numbers, length_forestNumbers]

end

theorem forestNumbers_append (ts us : List CodeTree) :
    forestNumbers (ts ++ us) = forestNumbers ts ++ forestNumbers us := by
  induction ts with
  | nil => rfl
  | cons t ts ih => rw [List.cons_append, forestNumbers, forestNumbers, ih, List.append_assoc]

theorem number_mem (t : CodeTree) : t.number ∈ t.numbers := by
  cases t
  exact List.mem_cons_self

theorem mem_forestNumbers {ts : List CodeTree} {k : Nat} :
    k ∈ forestNumbers ts ↔ ∃ t ∈ ts, k ∈ t.numbers := by
  induction ts with
  | nil => simp [forestNumbers]
  | cons t ts ih => rw [forestNumbers, List.mem_append, ih, List.exists_mem_cons_iff]

mutual

/-- A tree is put in once for every node under which it goes. -/
theorem count_graft (parent : Nat) (child : CodeTree) (k : Nat) : (t : CodeTree) →
    (numbers (graft parent child t)).count k =
      (numbers t).count k + (numbers t).count parent * (numbers child).count k
  | .node n l p cs => by
    have inner := count_graftForest parent child k cs
    rw [graft]
    by_cases same : n = parent
    · subst same
      simp only [numbers, if_true, forestNumbers_append, forestNumbers, List.append_nil,
        List.count_cons, List.count_append, inner, BEq.rfl]
      ring
    · simp only [numbers, if_neg same, List.count_cons, inner, beq_iff_eq]
      ring

theorem count_graftForest (parent : Nat) (child : CodeTree) (k : Nat) : (ts : List CodeTree) →
    (forestNumbers (graftForest parent child ts)).count k =
      (forestNumbers ts).count k + (forestNumbers ts).count parent * (numbers child).count k
  | [] => by simp [graftForest, forestNumbers]
  | t :: ts => by
    rw [graftForest, forestNumbers, forestNumbers, List.count_append, List.count_append,
      List.count_append, count_graft, count_graftForest]
    ring

end

/-- Attaching a node gives out the next number. -/
theorem numbers_attach {t : CodeTree} (numbered : t.numbers.Perm (List.range t.size)) {parent : Nat}
    (existing : parent < t.size) (label : String) (part : CodePart) :
    (t.attach parent label part).numbers.Perm (List.range (t.size + 1)) := by
  have once : t.numbers.count parent = 1 := by
    rw [numbered.count_eq]
    exact List.count_eq_one_of_mem List.nodup_range (List.mem_range.mpr existing)
  rw [List.perm_iff_count]
  intro k
  rw [attach, count_graft, once, one_mul, List.range_succ, List.count_append, numbered.count_eq,
    numbers, forestNumbers]

theorem pathOf_concat {labels : List String} (nonempty : labels ≠ []) (label : String) :
    pathOf (labels ++ [label]) = pathOf labels ++ "/" ++ label := by
  rw [pathOf, String.intercalate_append_of_ne_nil nonempty (by simp), String.intercalate_singleton]
  rfl

theorem number_graft (parent : Nat) (child : CodeTree) (t : CodeTree) :
    (graft parent child t).number = t.number := by
  cases t
  rfl

theorem map_number_graftForest (parent : Nat) (child : CodeTree) (ts : List CodeTree) :
    (graftForest parent child ts).map number = ts.map number := by
  induction ts with
  | nil => rfl
  | cons t ts ih => rw [graftForest, List.map_cons, List.map_cons, ih, number_graft]

end CodeTree

namespace CodeArena

/-- The arenas and the trees that come from one root by attaching nodes to nodes that are there. -/
inductive Built : CodeArena → CodeTree → Prop
  | root (label : String) (part : CodePart) : Built (.root label part) (.root label part)
  | attach {a : CodeArena} {t : CodeTree} {parent : Nat} (built : Built a t)
      (existing : parent < a.nodes.length) (label : String) (part : CodePart) :
    Built (a.attach parent label part) (t.attach parent label part)

/-! ## The tree of an arena -/

mutual

/-- Whether a node of an arena, and what is below it, is a given tree. -/
def Depicts (a : CodeArena) (parent : Option Nat) : CodeTree → Prop
  | .node n label part children =>
    a.nodes[n]? = some { label, part, parent, children := children.map CodeTree.number } ∧
      DepictsAll a (some n) children

def DepictsAll (a : CodeArena) (parent : Option Nat) : List CodeTree → Prop
  | [] => True
  | t :: ts => Depicts a parent t ∧ DepictsAll a parent ts

end

theorem Depicts.found {a : CodeArena} {parent : Option Nat} {t : CodeTree} (depicts : a.Depicts parent t) :
    a.nodes[t.number]? = some
      { label := t.label, part := t.part, parent, children := t.children.map CodeTree.number } := by
  cases t
  exact depicts.1

theorem Depicts.below {a : CodeArena} {parent : Option Nat} {t : CodeTree} (depicts : a.Depicts parent t) :
    a.DepictsAll (some t.number) t.children := by
  cases t
  exact depicts.2

theorem depictsAll_iff {a : CodeArena} {parent : Option Nat} {ts : List CodeTree} :
    a.DepictsAll parent ts ↔ ∀ t ∈ ts, a.Depicts parent t := by
  induction ts with
  | nil => simp [DepictsAll]
  | cons t ts ih => rw [DepictsAll, ih, List.forall_mem_cons]

section

variable {a : CodeArena} {parent : Nat} {label : String} {part : CodePart}

mutual

/-- A node is attached to the arena as it is to the tree. -/
theorem Depicts.attach (existing : parent < a.nodes.length) {above : Option Nat} :
    (t : CodeTree) → a.Depicts above t →
      (a.attach parent label part).Depicts above
        (CodeTree.graft parent (.node a.nodes.length label part []) t)
  | .node n l p cs, ⟨here, below⟩ => by
    have inside : n < a.nodes.length := (List.getElem?_eq_some_iff.mp here).1
    have others := DepictsAll.attach existing cs below
    have kept := CodeTree.map_number_graftForest parent (.node a.nodes.length label part []) cs
    rw [CodeTree.graft, Depicts, getElem?_attach existing, if_neg inside.ne, here]
    by_cases own : n = parent
    · subst own
      have new : (a.attach n label part).Depicts (some n) (.node a.nodes.length label part []) := by
        refine ⟨?_, trivial⟩
        rw [getElem?_attach existing, if_pos rfl, List.map_nil]
      refine ⟨by simp [kept, CodeTree.number], ?_⟩
      simp only [if_true]
      rw [depictsAll_iff] at others ⊢
      exact List.forall_mem_append.mpr ⟨others, List.forall_mem_singleton.mpr new⟩
    · refine ⟨by simp [own, kept], ?_⟩
      simpa only [if_neg own] using others

theorem DepictsAll.attach (existing : parent < a.nodes.length) {above : Option Nat} :
    (ts : List CodeTree) → a.DepictsAll above ts →
      (a.attach parent label part).DepictsAll above
        (CodeTree.graftForest parent (.node a.nodes.length label part []) ts)
  | [], _ => trivial
  | t :: ts, ⟨first, rest⟩ => ⟨Depicts.attach existing t first, DepictsAll.attach existing ts rest⟩

end

mutual

/-- A tree stays as it is when a node is attached outside of it. -/
theorem Depicts.attach_outside (existing : parent < a.nodes.length) {above : Option Nat} :
    (t : CodeTree) → a.Depicts above t → parent ∉ t.numbers →
      (a.attach parent label part).Depicts above t
  | .node n l p cs, ⟨here, below⟩, outside => by
    have inside : n < a.nodes.length := (List.getElem?_eq_some_iff.mp here).1
    rw [CodeTree.numbers, List.mem_cons, not_or] at outside
    refine ⟨?_, DepictsAll.attach_outside existing cs below outside.2⟩
    rw [getElem?_attach existing, if_neg inside.ne, here, Option.map_some, if_neg (Ne.symm outside.1)]

theorem DepictsAll.attach_outside (existing : parent < a.nodes.length) {above : Option Nat} :
    (ts : List CodeTree) → a.DepictsAll above ts → parent ∉ CodeTree.forestNumbers ts →
      (a.attach parent label part).DepictsAll above ts
  | [], _, _ => trivial
  | t :: ts, ⟨first, rest⟩, outside => by
    rw [CodeTree.forestNumbers, List.mem_append, not_or] at outside
    exact ⟨Depicts.attach_outside existing t first outside.1,
      DepictsAll.attach_outside existing ts rest outside.2⟩

end

end

/-! ## Where a node stands -/

/-- Whether a node of an arena, with what is below and above it, is a node of a tree. -/
structure Stands (a : CodeArena) (p : CodeTree.Place) : Prop where
  invariant : a.Invariant
  depicts : a.Depicts (p.parent?.map CodeTree.number) p.tree
  ascent : ∀ steps > p.tree.number, a.ascentWithin steps p.tree.number =
    some (p.above.map CodeTree.label ++ [p.tree.label]).reverse

theorem liftM_some_bind {ε α β : Type} (v : α) (next : α → ExceptT ε Option β) :
    ((liftM (some v) : ExceptT ε Option α) >>= next) = next v :=
  rfl

/-- A step that comes to an end is followed by the next one. -/
theorem run_bind {ε α β : Type} {step : ExceptT ε Option α} {result : Except ε α}
    (done : step.run = some result) {next : α → ExceptT ε Option β} {next' : α → Except ε β}
    (goes : ∀ v, (next v).run = some (next' v)) : (step >>= next).run = some (result >>= next') := by
  rw [ExceptT.run_bind, done]
  cases result with
  | error e => rfl
  | ok v => exact goes v

namespace Stands

variable {a : CodeArena} {p : CodeTree.Place}

theorem inside (stands : a.Stands p) : p.tree.number < a.nodes.length :=
  (List.getElem?_eq_some_iff.mp stands.depicts.found).1

theorem path (stands : a.Stands p) : a.path p.tree.number = some p.path := by
  rw [CodeArena.path, stands.ascent _ stands.inside, CodeTree.Place.path]
  simp

theorem child_lt (stands : a.Stands p) {c : CodeTree} (member : c ∈ p.tree.children) :
    p.tree.number < c.number := by
  have depicts : a.Depicts (some p.tree.number) c := depictsAll_iff.mp stands.depicts.below c member
  have recorded : a.parent? c.number = some p.tree.number := by
    rw [parent?, depicts.found]
    rfl
  exact (stands.invariant.parent?_lt recorded).1

theorem child {above : List CodeTree} {t : CodeTree} (stands : a.Stands ⟨above, t⟩) {c : CodeTree}
    (member : c ∈ t.children) : a.Stands ⟨above ++ [t], c⟩ := by
  have depicts : a.Depicts (some t.number) c := depictsAll_iff.mp stands.depicts.below c member
  refine ⟨stands.invariant, by simpa [CodeTree.Place.parent?] using depicts, ?_⟩
  intro steps more
  have less : t.number < c.number := stands.child_lt member
  cases steps with
  | zero => cases more
  | succ rest =>
    have climbs := stands.ascent rest (Nat.lt_of_lt_of_le less (Nat.le_of_lt_succ more))
    rw [ascentWithin, depicts.found]
    simp [climbs]

mutual

theorem places {above : List CodeTree} : (t : CodeTree) → a.Stands ⟨above, t⟩ →
    ∀ p ∈ t.places above, a.Stands p
  | .node n l p cs, stands => by
    rw [CodeTree.places, List.forall_mem_cons]
    exact ⟨stands, forestPlaces cs fun c member => stands.child member⟩

theorem forestPlaces {above : List CodeTree} : (ts : List CodeTree) →
    (∀ t ∈ ts, a.Stands ⟨above, t⟩) → ∀ p ∈ CodeTree.forestPlaces above ts, a.Stands p
  | [], _ => by simp [CodeTree.forestPlaces]
  | t :: ts, stand => by
    rw [List.forall_mem_cons] at stand
    rw [CodeTree.forestPlaces, List.forall_mem_append]
    exact ⟨places t stand.1, forestPlaces ts stand.2⟩

end

section

variable (stencils : StencilSet) (overrides : SortedMap String Json)

mutual

/-- A node of an arena is compiled as it is in the tree. It takes no more steps to get down to the last
leaf than there are nodes from here on, since every step leads to a greater number. -/
theorem compileAt {above : List CodeTree} : (t : CodeTree) → a.Stands ⟨above, t⟩ →
    (steps : Nat) → a.nodes.length ≤ t.number + steps →
    (a.compileWithin stencils overrides steps t.number).run =
      some (CodeTree.compileAt stencils overrides (above.map CodeTree.label) t)
  | .node _ _ _ _, stands, 0, enough => absurd stands.inside (Nat.not_lt_of_le enough)
  | .node n l p cs, stands, rest + 1, enough => by
    have more : ∀ c ∈ cs, a.nodes.length ≤ c.number + rest := by
      intro c member
      have less : n < c.number := stands.child_lt member
      rw [CodeTree.number] at enough
      omega
    have inner := compileForest cs (fun c member => stands.child member) rest more
    have path : a.path n = some (CodeTree.pathOf (above.map CodeTree.label ++ [l])) := stands.path
    rw [List.map_append] at inner
    rw [CodeTree.number, compileWithin, stands.depicts.1, path, CodeTree.compileAt,
      liftM_some_bind, liftM_some_bind, List.length_map]
    apply run_bind rfl
    intro _
    apply run_bind inner
    intro texts
    dsimp only
    cases p.stencilName with
    | none => rfl
    | some name => rfl

theorem compileForest {above : List CodeTree} : (ts : List CodeTree) →
    (∀ t ∈ ts, a.Stands ⟨above, t⟩) → (steps : Nat) →
    (∀ t ∈ ts, a.nodes.length ≤ t.number + steps) →
    ((ts.map CodeTree.number).mapM (a.compileWithin stencils overrides steps)).run =
      some (CodeTree.compileForest stencils overrides (above.map CodeTree.label) ts)
  | [], _, _, _ => rfl
  | t :: ts, stand, steps, enough => by
    rw [List.forall_mem_cons] at stand enough
    rw [List.map_cons, List.mapM_cons, CodeTree.compileForest]
    apply run_bind (compileAt t stand.1 steps enough.1)
    intro text
    apply run_bind (compileForest ts stand.2 steps enough.2)
    intro texts
    rfl

end

theorem compile_eq (stands : a.Stands p) :
    (a.compile stencils overrides p.tree.number).run = some (p.compile stencils overrides) :=
  compileAt stencils overrides p.tree stands _ (Nat.le_add_left _ _)

theorem compileChildren_eq (stands : a.Stands p) :
    (a.compileChildren stencils overrides p.tree.number).run =
      some (p.compileChildren stencils overrides) := by
  have below := compileForest stencils overrides p.tree.children
    (fun c member => stands.child member) a.nodes.length fun c _ => Nat.le_add_left _ _
  rw [List.map_append] at below
  rw [compileChildren, stands.depicts.found, liftM_some_bind]
  exact below

end

end Stands

/-! ## What is below a node -/

/-- Whether one node is another one or can be reached from it through lists of children. -/
def Below (a : CodeArena) : Nat → Nat → Prop :=
  Relation.ReflTransGen fun p id => ∃ node, a.nodes[p]? = some node ∧ id ∈ node.children

section

variable {a : CodeArena}

mutual

theorem Depicts.below_of_mem {parent : Option Nat} : (t : CodeTree) → a.Depicts parent t →
    ∀ k ∈ t.numbers, a.Below t.number k
  | .node n l p cs, ⟨here, below⟩ => by
    rw [CodeTree.numbers, List.forall_mem_cons]
    refine ⟨.refl, fun k member => ?_⟩
    obtain ⟨c, child, reached⟩ := DepictsAll.below_of_mem cs below k member
    exact .head ⟨_, here, List.mem_map_of_mem child⟩ reached

theorem DepictsAll.below_of_mem {parent : Option Nat} : (ts : List CodeTree) →
    a.DepictsAll parent ts → ∀ k ∈ CodeTree.forestNumbers ts, ∃ t ∈ ts, a.Below t.number k
  | [], _ => by simp [CodeTree.forestNumbers]
  | t :: ts, ⟨first, rest⟩ => by
    rw [CodeTree.forestNumbers, List.forall_mem_append]
    refine ⟨fun k member => ⟨t, List.mem_cons_self, Depicts.below_of_mem t first k member⟩, ?_⟩
    intro k member
    obtain ⟨u, listed, reached⟩ := DepictsAll.below_of_mem ts rest k member
    exact ⟨u, List.mem_cons_of_mem t listed, reached⟩

end

mutual

theorem Depicts.child_mem {parent : Option Nat} : (t : CodeTree) → a.Depicts parent t →
    ∀ k ∈ t.numbers, ∀ node, a.nodes[k]? = some node → ∀ id ∈ node.children, id ∈ t.numbers
  | .node n l p cs, ⟨here, below⟩ => by
    rw [CodeTree.numbers, List.forall_mem_cons]
    constructor
    · intro node found id member
      cases here.symm.trans found
      obtain ⟨c, child, rfl⟩ := List.mem_map.mp member
      exact List.mem_cons_of_mem n (CodeTree.mem_forestNumbers.mpr ⟨c, child, c.number_mem⟩)
    · intro k reached node found id member
      exact List.mem_cons_of_mem n (DepictsAll.child_mem cs below k reached node found id member)

theorem DepictsAll.child_mem {parent : Option Nat} : (ts : List CodeTree) → a.DepictsAll parent ts →
    ∀ k ∈ CodeTree.forestNumbers ts, ∀ node, a.nodes[k]? = some node →
      ∀ id ∈ node.children, id ∈ CodeTree.forestNumbers ts
  | [], _ => by simp [CodeTree.forestNumbers]
  | t :: ts, ⟨first, rest⟩ => by
    intro k reached node found id member
    rw [CodeTree.forestNumbers, List.mem_append] at reached ⊢
    rcases reached with inside | later
    · exact .inl (Depicts.child_mem t first k inside node found id member)
    · exact .inr (DepictsAll.child_mem ts rest k later node found id member)

end

/-- What is below a node is in its tree. -/
theorem Depicts.below_iff {parent : Option Nat} {t : CodeTree} (depicts : a.Depicts parent t) (k : Nat) :
    a.Below t.number k ↔ k ∈ t.numbers := by
  constructor
  · intro reached
    induction reached with
    | refl => exact t.number_mem
    | tail _ link ih =>
      obtain ⟨node, found, member⟩ := link
      exact depicts.child_mem t _ ih node found _ member
  · exact depicts.below_of_mem t k

/-- Attaching a node leaves the way up from the others as it is. -/
theorem Invariant.ascentWithin_attach (invariant : a.Invariant) {parent : Nat}
    (existing : parent < a.nodes.length) (label : String) (part : CodePart) (steps : Nat) :
    ∀ id < a.nodes.length,
      (a.attach parent label part).ascentWithin steps id = a.ascentWithin steps id := by
  induction steps with
  | zero => exact fun _ _ => rfl
  | succ steps ih =>
    intro id inside
    obtain ⟨node, found⟩ : ∃ node, a.nodes[id]? = some node := ⟨_, List.getElem?_eq_getElem inside⟩
    have recorded : a.parent? id = node.parent := by rw [parent?, found]; rfl
    rw [ascentWithin, ascentWithin, getElem?_attach existing, if_neg inside.ne, found]
    cases has : node.parent with
    | none => by_cases own : id = parent <;> simp [own, has]
    | some p =>
      obtain ⟨less, -⟩ := invariant.parent?_lt (recorded.trans has)
      have above := ih p (less.trans inside)
      by_cases own : id = parent <;> simp [own, has, above]

end

/-! ## Arenas that are built -/

namespace Built

variable {a : CodeArena} {t : CodeTree}

theorem invariant (built : Built a t) : a.Invariant := by
  induction built with
  | root label part => exact .of_root label part
  | attach built existing label part ih => exact ih.attach existing label part

theorem numbered (built : Built a t) :
    t.size = a.nodes.length ∧ t.numbers.Perm (List.range a.nodes.length) := by
  induction built with
  | root label part => exact ⟨rfl, .refl _⟩
  | attach built existing label part ih =>
    obtain ⟨size, perm⟩ := ih
    rw [← size] at perm existing
    have attached := CodeTree.numbers_attach perm existing label part
    rw [length_attach, ← size]
    refine ⟨?_, attached⟩
    rw [← CodeTree.length_numbers, attached.length_eq, List.length_range]

theorem depicts (built : Built a t) : a.Depicts none t := by
  induction built with
  | root label part => exact ⟨rfl, trivial⟩
  | attach built existing label part ih =>
    rw [CodeTree.attach, built.numbered.1]
    exact ih.attach existing

theorem stands (built : Built a t) : ∀ p ∈ t.places [], a.Stands p := by
  apply Stands.places
  refine ⟨built.invariant, built.depicts, ?_⟩
  intro steps more
  cases steps with
  | zero => cases more
  | succ rest => rw [ascentWithin, built.depicts.found]; rfl

/-- Every number of an arena belongs to a node of the tree. -/
theorem exists_place (built : Built a t) {id : Nat} (inside : id < a.nodes.length) :
    ∃ p, t.find? id = some p ∧ p.tree.number = id ∧ a.Stands p := by
  have numbered : id ∈ (t.places []).map (·.tree.number) := by
    rw [CodeTree.numbers_places]
    exact built.numbered.2.mem_iff.mpr (List.mem_range.mpr inside)
  obtain ⟨q, listed, same⟩ := List.mem_map.mp numbered
  have some_place : (t.find? id).isSome := by
    apply List.find?_isSome.mpr
    exact ⟨q, listed, by simpa using same⟩
  obtain ⟨p, found⟩ := Option.isSome_iff_exists.mp some_place
  have number : p.tree.number = id := by simpa using List.find?_some found
  exact ⟨p, found, number, built.stands p (List.mem_of_find?_eq_some found)⟩

end Built

section

variable {a : CodeArena} {t : CodeTree}

/-- The path of a node goes through its parent. -/
theorem Built.path_step (built : Built a t) {id parent : Nat} {node : ArenaNode}
    (found : a.nodes[id]? = some node) (recorded : node.parent = some parent) :
    ∃ above, a.path parent = some above ∧ a.path id = some (above ++ "/" ++ node.label) := by
  have parent? : a.parent? id = some parent := by
    rw [CodeArena.parent?, found, Option.bind_some, recorded]
  obtain ⟨less, inside⟩ := built.invariant.parent?_lt parent?
  obtain ⟨p, -, rfl, stands⟩ := built.exists_place (less.trans inside)
  refine ⟨_, stands.path, ?_⟩
  have nonempty : p.above.map CodeTree.label ++ [p.tree.label] ≠ [] := by simp
  obtain ⟨rest, length⟩ := Nat.exists_eq_add_one_of_ne_zero (Nat.ne_of_gt (Nat.zero_lt_of_lt inside))
  have climbs := stands.ascent rest (by omega)
  have ascent : a.ascentWithin a.nodes.length id =
      some (p.above.map CodeTree.label ++ [p.tree.label] ++ [node.label]).reverse := by
    rw [length, ascentWithin, found]
    simp [recorded, climbs]
  rw [path, ascent, CodeTree.Place.path, ← CodeTree.pathOf_concat nonempty]
  simp

/-- Attaching a node outside of a tree leaves every node of the tree where it stands. -/
theorem Stands.attach_outside {p : CodeTree.Place} (stands : a.Stands p) {parent : Nat}
    (existing : parent < a.nodes.length) (outside : ¬ a.Below p.tree.number parent)
    (label : String) (part : CodePart) : (a.attach parent label part).Stands p where
  invariant := stands.invariant.attach existing label part
  depicts := by
    rw [stands.depicts.below_iff] at outside
    exact stands.depicts.attach_outside existing p.tree outside
  ascent steps more := by
    rw [stands.invariant.ascentWithin_attach existing label part steps _ stands.inside]
    exact stands.ascent steps more

/-- What a node of an arena is in a tree, and what the tree gives for it. -/
structure Mirrors (a : CodeArena) (id : Nat) (p : CodeTree.Place) : Prop where
  node : a.nodes[id]? = some
    { label := p.tree.label, part := p.tree.part, parent := p.parent?.map CodeTree.number,
      children := p.tree.children.map CodeTree.number }
  below : ∀ k, a.Below id k ↔ ∃ q ∈ p.below, q.tree.number = k
  path : a.path id = some p.path
  compile : ∀ stencils overrides,
    (a.compile stencils overrides id).run = some (p.compile stencils overrides)
  compileChildren : ∀ stencils overrides,
    (a.compileChildren stencils overrides id).run = some (p.compileChildren stencils overrides)

theorem Stands.mirrors {p : CodeTree.Place} (stands : a.Stands p) : a.Mirrors p.tree.number p where
  node := stands.depicts.found
  below k := by
    rw [stands.depicts.below_iff, ← CodeTree.numbers_places p.above]
    exact List.mem_map
  path := stands.path
  compile := stands.compile_eq
  compileChildren := stands.compileChildren_eq

/-- How a node of an arena fails to compile: some node below it is refused by its check or cannot be
rendered, the error is that of the first event that fails, and it names the node of that event. -/
structure FailsInOrder (a : CodeArena) (stencils : StencilSet) (overrides : SortedMap String Json)
    (id : Nat) (p : CodeTree.Place) : Prop where
  fails : (∃ err, (a.compile stencils overrides id).run = some (.error err)) ↔
    ∃ q ∈ p.below, (CodeTree.Event.check q).failure? stencils overrides ≠ none ∨
      (CodeTree.Event.render q).failure? stencils overrides ≠ none
  first : ∀ err, (a.compile stencils overrides id).run = some (.error err) ↔
    ∃ before e after, p.events = before ++ e :: after ∧ e.failure? stencils overrides = some err ∧
      ∀ e' ∈ before, e'.failure? stencils overrides = none
  named : ∀ e ∈ p.events, ∀ err, e.failure? stencils overrides = some err →
    ∃ path, a.path e.place.tree.number = some path ∧ err.node? = some path

theorem Stands.failsInOrder {p : CodeTree.Place} (stands : a.Stands p) (stencils : StencilSet)
    (overrides : SortedMap String Json) : a.FailsInOrder stencils overrides p.tree.number p where
  fails := by
    simp only [stands.compile_eq, Option.some.injEq]
    exact CodeTree.Place.compile_fails_iff
  first err := by
    rw [stands.compile_eq, Option.some.injEq]
    exact CodeTree.Place.compile_error_iff
  named e listed err failed := by
    have member : e.place ∈ p.below := (CodeTree.mem_events p.above p.tree e).mp listed
    exact ⟨_, (Stands.places p.tree stands e.place member).path,
      CodeTree.Event.failure?_node? stencils overrides failed⟩

/-- An arena that is built by attaching nodes is linked like a tree, and everything that follows its
links comes to an end. A path is that of the parent and one more label. A node attached elsewhere
changes nothing about the code of a node. Compiling fails as the first check or rendering that fails,
where the check of a node comes before everything below it and its rendering after. -/
theorem Built.linked_local_ordered (built : Built a t) :
    a.WellLinked ∧
    (∀ id < a.nodes.length, ∃ p, t.find? id = some p ∧ a.Mirrors id p ∧
      ∀ stencils overrides, a.FailsInOrder stencils overrides id p) ∧
    (∀ id parent (node : ArenaNode), a.nodes[id]? = some node → node.parent = some parent →
      ∃ above, a.path parent = some above ∧ a.path id = some (above ++ "/" ++ node.label)) ∧
    ∀ id < a.nodes.length, ∀ parent < a.nodes.length, ¬ a.Below id parent →
      ∀ label part stencils overrides,
        (a.attach parent label part).compile stencils overrides id = a.compile stencils overrides id ∧
        (a.attach parent label part).compileChildren stencils overrides id =
          a.compileChildren stencils overrides id := by
  refine ⟨built.invariant.wellLinked, ?_, fun id parent node => built.path_step, ?_⟩
  · intro id inside
    obtain ⟨p, found, rfl, stands⟩ := built.exists_place inside
    exact ⟨p, found, stands.mirrors, stands.failsInOrder⟩
  · intro id inside parent existing outside label part stencils overrides
    obtain ⟨p, -, rfl, stands⟩ := built.exists_place inside
    have after := stands.attach_outside existing outside label part
    constructor
    · apply ExceptT.ext
      rw [after.compile_eq, stands.compile_eq]
    · apply ExceptT.ext
      rw [after.compileChildren_eq, stands.compileChildren_eq]

end

end CodeArena

/-- An entry point without steps. -/
def emptyHandlerArena : CodeArena :=
  (CodeArena.root "users" .module).attach 0 "handler" (.handler "handler" 500)

def emptyHandlerTree : CodeTree :=
  (CodeTree.root "users" .module).attach 0 "handler" (.handler "handler" 500)

theorem CodeArena.Built.linked_local_ordered_users :
    (emptyHandlerArena.compile .standard ∅ 0).run =
      some (.error (.invalidConfig "users/handler" .noSteps)) := by
  have built : Built emptyHandlerArena emptyHandlerTree :=
    .attach (.root "users" .module) (by decide) "handler" (.handler "handler" 500)
  obtain ⟨-, mirrored, -, -⟩ := built.linked_local_ordered
  obtain ⟨p, found, -, ordered⟩ := mirrored 0 (by decide)
  cases found
  exact ((ordered .standard ∅).first _).mpr ⟨[.check _], .check _, _, rfl, rfl, by decide⟩

end RestWiring
