import RestWiring.Code.Part

/-!
# Trees of code

Every node of a `CodeTree` has a number, a label and a part. The root has number zero and each node
that is attached gets the next number. A node is compiled by checking it, compiling its children in
order, and rendering its part around their texts; a path of labels says which node failed.
-/
namespace RestWiring

inductive CodeTree where
  | node (number : Nat) (label : String) (part : CodePart) (children : List CodeTree)
  deriving Repr

namespace CodeTree

def number : CodeTree → Nat
  | .node n _ _ _ => n

def label : CodeTree → String
  | .node _ l _ _ => l

def part : CodeTree → CodePart
  | .node _ _ p _ => p

def children : CodeTree → List CodeTree
  | .node _ _ _ cs => cs

mutual

def same : CodeTree → CodeTree → Bool
  | .node n l p cs, .node n' l' p' cs' => n == n' && l == l' && p == p' && sameForest cs cs'

def sameForest : List CodeTree → List CodeTree → Bool
  | [], [] => true
  | t :: ts, u :: us => same t u && sameForest ts us
  | _, _ => false

end

instance : BEq CodeTree := ⟨same⟩

mutual

def size : CodeTree → Nat
  | .node _ _ _ cs => 1 + forestSize cs

def forestSize : List CodeTree → Nat
  | [] => 0
  | t :: ts => size t + forestSize ts

end

/-- A tree of one node. -/
def root (label : String) (part : CodePart) : CodeTree := .node 0 label part []

mutual

/-- Puts a tree behind the last child of the node of a given number. -/
def graft (parent : Nat) (child : CodeTree) : CodeTree → CodeTree
  | .node n l p cs =>
    let cs := graftForest parent child cs
    .node n l p (if n = parent then cs ++ [child] else cs)

def graftForest (parent : Nat) (child : CodeTree) : List CodeTree → List CodeTree
  | [] => []
  | t :: ts => graft parent child t :: graftForest parent child ts

end

/-- Attaches a new node under the node of a given number; the new node's number is the former size. -/
def attach (t : CodeTree) (parent : Nat) (label : String) (part : CodePart) : CodeTree :=
  graft parent (.node t.size label part []) t

/-- A node where it stands: the nodes above it, from the root, and the tree below it. -/
structure Place where
  above : List CodeTree
  tree : CodeTree

mutual

/-- All nodes where they stand, each before its children. -/
def places (above : List CodeTree) : CodeTree → List Place
  | t@(.node _ _ _ cs) => ⟨above, t⟩ :: forestPlaces (above ++ [t]) cs

def forestPlaces (above : List CodeTree) : List CodeTree → List Place
  | [] => []
  | t :: ts => places above t ++ forestPlaces above ts

end

/-- The place of the node of a given number. -/
def find? (t : CodeTree) (number : Nat) : Option Place :=
  (t.places []).find? (·.tree.number == number)

/-- All nodes in the order in which they were attached. -/
def inOrder (t : CodeTree) : List Place :=
  (List.range t.size).filterMap t.find?

def pathOf (labels : List String) : String := "/".intercalate labels

namespace Place

/-- The labels from the root to a node, with slashes between them. -/
def path (p : Place) : String := pathOf (p.above.map label ++ [p.tree.label])

def parent? (p : Place) : Option CodeTree := p.above.getLast?

end Place

def isEnclosing (t : CodeTree) : Bool := !t.children.isEmpty

/-- What stands between the blocks of a module. -/
def separator : String := "\n\n\n"

mutual

/-- Compiles a node, given the labels above it. -/
def compileAt (stencils : StencilSet) (overrides : SortedMap String Json) (above : List String) :
    CodeTree → Except CompilationError String
  | .node _ label part children => do
    let path := pathOf (above ++ [label])
    part.check path children.length
    let texts ← compileForest stencils overrides (above ++ [label]) children
    match part.stencilName with
    | none => .ok (separator.intercalate texts)
    | some name => stencils.render path name part.attributes texts overrides

/-- Compiles trees one after another up to the first failure. -/
def compileForest (stencils : StencilSet) (overrides : SortedMap String Json) (above : List String) :
    List CodeTree → Except CompilationError (List String)
  | [] => .ok []
  | t :: ts => do
    let text ← compileAt stencils overrides above t
    let texts ← compileForest stencils overrides above ts
    .ok (text :: texts)

end

namespace Place

def compile (p : Place) (stencils : StencilSet) (overrides : SortedMap String Json) :
    Except CompilationError String :=
  compileAt stencils overrides (p.above.map label) p.tree

/-- Compiles the children only. -/
def compileChildren (p : Place) (stencils : StencilSet) (overrides : SortedMap String Json) :
    Except CompilationError (List String) :=
  compileForest stencils overrides (p.above.map label ++ [p.tree.label]) p.tree.children

end Place

end CodeTree

end RestWiring
