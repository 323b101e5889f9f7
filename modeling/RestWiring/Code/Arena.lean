import RestWiring.Code.Tree

/-!
# Trees of code in an arena

A tree once more, as one list of nodes that know their parent and their children by number. A link may
lead anywhere, so what climbs to the root or goes down to the leaves need not come to an end: with more
steps than there are nodes it comes back to one of them, again and again. Then there is no result, and
neither is there one where a number is out of range.
-/
namespace RestWiring

structure ArenaNode where
  label : String
  part : CodePart
  parent : Option Nat := none
  children : List Nat := []
  deriving DecidableEq, Repr

structure CodeArena where
  nodes : List ArenaNode
  deriving DecidableEq, Repr

namespace CodeArena

/-- An arena of one node. -/
def root (label : String) (part : CodePart) : CodeArena := ⟨[{ label, part }]⟩

/-- Attaches a new node behind the last child of the node of a given number. -/
def attach (a : CodeArena) (parent : Nat) (label : String) (part : CodePart) : CodeArena :=
  let node : ArenaNode := { label, part, parent := some parent }
  ⟨(a.nodes ++ [node]).modify parent fun n => { n with children := n.children ++ [a.nodes.length] }⟩

section

variable (a : CodeArena)

/-- The labels from a node up to the root, if it takes no more than so many steps to get there. -/
def ascentWithin : Nat → Nat → Option (List String)
  | 0, _ => none
  | steps + 1, id => do
    let node ← a.nodes[id]?
    match node.parent with
    | none => return [node.label]
    | some parent => return node.label :: (← ascentWithin steps parent)

/-- The labels from the root to a node, with slashes between them. -/
def path (id : Nat) : Option String := do
  return CodeTree.pathOf (← a.ascentWithin a.nodes.length id).reverse

variable (stencils : StencilSet) (overrides : SortedMap String Json)

/-- Checks a node, compiles its children in order, and renders its part around their texts, if it takes
no more than so many steps to get down to the last leaf. -/
def compileWithin : Nat → Nat → ExceptT CompilationError Option String
  | 0, _ => liftM (none : Option String)
  | steps + 1, id => do
    let node ← liftM a.nodes[id]?
    let path ← liftM (a.path id)
    liftM (node.part.check path node.children.length)
    let texts ← node.children.mapM (compileWithin steps)
    match node.part.stencilName with
    | none => return CodeTree.separator.intercalate texts
    | some name => liftM (stencils.render path name node.part.attributes texts overrides)

def compile (id : Nat) : ExceptT CompilationError Option String :=
  a.compileWithin stencils overrides a.nodes.length id

/-- Compiles the children only. -/
def compileChildren (id : Nat) : ExceptT CompilationError Option (List String) := do
  let node ← liftM a.nodes[id]?
  node.children.mapM (a.compile stencils overrides)

end

end CodeArena

end RestWiring
