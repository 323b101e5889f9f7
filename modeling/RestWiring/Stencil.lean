import RestWiring.Stencil.Value

/-!
# Stencils

A stencil is a text with places in it: a place shows a value, a branch or a loop decides which parts
appear. Places refer to variables by name; what a variable holds is given when a stencil is rendered.

The template language that stencils are written in has more than this. Left out are

* statements that bind names or keep text for later: `set`, `with`, `macro` and `call`, `do`;
* statements that refer to other templates: `include`, `import`, `from`, `extends` and `block`;
* the blocks `filter` and `autoescape`, loops that are recursive, left early or bind nested patterns, and
  `loop.cycle` and `loop.changed`;
* keyword arguments and arguments that are spread;
* the filters, tests and functions that `Value.filter`, `Value.test` and `Value.call` do not list.

None of the built-in stencils uses any of them. A text that does is read as faulty, or fails when it is
rendered.
-/
namespace RestWiring

namespace Stencil

inductive Operator where
  | add | sub | mul | div | floorDiv | rem | pow | concat
  | equal | notEqual | less | lessEqual | greater | greaterEqual | isIn
  | and | or
  deriving DecidableEq, Repr

inductive Expr where
  | literal (value : Value)
  | variable (name : String)
  | list (items : List Expr)
  | map (names values : List Expr)
  | member (of : Expr) (name : String)
  | item (of index : Expr)
  | slice (of start stop step : Expr)
  | not (of : Expr)
  | neg (of : Expr)
  | binary (op : Operator) (left right : Expr)
  | choice (condition whenTrue whenFalse : Expr)
  | filter (name : String) (of : Expr) (arguments : List Expr)
  | test (name : String) (of : Expr) (arguments : List Expr)
  | call (name : String) (arguments : List Expr)
  | method (of : Expr) (name : String) (arguments : List Expr)
  deriving Repr

/-- What a loop binds in each round: the item, or the parts of which it consists. -/
inductive LoopNames where
  | one (name : String)
  | several (names : List String)
  deriving DecidableEq, Repr

/-- A part of a stencil. Lines say where a part began, for messages. -/
inductive Segment where
  | text (content : String)
  | emit (line : Nat) (value : Expr)
  | branch (line : Nat) (condition : Expr) (whenTrue whenFalse : List Segment)
  /-- Goes over the items of `source` of which the condition holds. -/
  | loop (line : Nat) (names : LoopNames) (source : Expr) (condition : Option Expr)
      (body whenEmpty : List Segment)
  deriving Repr

/-- A loop that binds the items and leaves none out. -/
def Segment.each (line : Nat) (name : String) (source : Expr) (body : List Segment) : Segment :=
  .loop line (.one name) source none body []

end Stencil

/-- The parts of a text, in order. -/
abbrev Stencil := List Stencil.Segment

end RestWiring
