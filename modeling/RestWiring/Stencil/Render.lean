import RestWiring.Stencil.Filter
import RestWiring.SortedMap

/-!
# Rendering stencils

`Stencil.render` fills the places of a stencil from a scope, which says what each variable holds. A
loop adds what it binds and a description of its progress to the scope of its body.
-/
namespace RestWiring

namespace Stencil

/-- What the variables hold. -/
abbrev Scope := SortedMap String Value

/-- A fault, and the line of the part in which it arose. -/
structure FaultAt where
  line : Nat
  fault : Fault
  deriving DecidableEq, Repr

mutual

def Expr.eval (scope : Scope) : Expr → Except Fault Value
  | .literal value => .ok value
  | .variable name => .ok ((scope.find? name).getD .undefined)
  | .list items => do return .list (← evalAll scope items)
  | .map names values => do
    let names ← evalAll scope names
    let values ← evalAll scope values
    return .map (Entries.ofList ((names.map fun v => String.ofList v.shown).zip values))
  | .member e name => do Value.member (← e.eval scope) name
  | .item e index => do
    let v ← e.eval scope
    Value.item v (← index.eval scope)
  | .slice e start stop step => do
    let v ← e.eval scope
    let start ← start.eval scope
    let stop ← stop.eval scope
    Value.slice v start stop (← step.eval scope)
  | .not e => do return .bool (!(← e.eval scope).isTrue)
  | .neg e => do Value.negative (← e.eval scope)
  | .binary .and left right => do
    let l ← left.eval scope
    if l.isTrue then right.eval scope else return l
  | .binary .or left right => do
    let l ← left.eval scope
    if l.isTrue then return l else right.eval scope
  | .binary op left right => do
    let l ← left.eval scope
    Value.combine op l (← right.eval scope)
  | .choice condition whenTrue whenFalse => do
    if (← condition.eval scope).isTrue then whenTrue.eval scope else whenFalse.eval scope
  | .filter name e arguments => do
    let v ← e.eval scope
    Value.filter name v (← evalAll scope arguments)
  | .test name e arguments => do
    let v ← e.eval scope
    Value.test name v (← evalAll scope arguments)
  | .call name arguments => do
    let given ← evalAll scope arguments
    match scope.find? name with
    | some v => .error (.invalid ("value of type " ++ v.kind.text ++ " is not callable"))
    | none => Value.call name given
  | .method e name arguments => do
    let v ← e.eval scope
    let _ ← evalAll scope arguments
    .error (.unknownMethod v.kind name)

def evalAll (scope : Scope) : List Expr → Except Fault (List Value)
  | [] => .ok []
  | e :: es => do
    let v ← e.eval scope
    return v :: (← evalAll scope es)

end

def located {α : Type} (line : Nat) : Except Fault α → Except FaultAt α
  | .ok a => .ok a
  | .error fault => .error ⟨line, fault⟩

/-- What a loop tells its body about its progress. What depends on the number of rounds is left out
if that is not known before the last one. -/
def progress (index : Nat) (length : Option Nat) (before after : Value) : Value :=
  .map <| Entries.ofList <|
    [("first", .bool (index == 0)), ("index", .nat (index + 1)), ("index0", .nat index),
     ("depth", .nat 1), ("depth0", .nat 0), ("previtem", before), ("nextitem", after)] ++
    match length with
    | some length =>
      [("last", .bool (index + 1 == length)), ("length", .nat length),
       ("revindex", .nat (length - index)), ("revindex0", .nat (length - index - 1))]
    | none => []

/-- Binds an item of a loop. -/
def bindItem (scope : Scope) : LoopNames → Value → Except Fault Scope
  | .one name, v => .ok (scope.insert name v)
  | .several names, .list items =>
    if items.length = names.length then
      .ok ((names.zip items).foldl (fun scope (name, v) => scope.insert name v) scope)
    else
      .error <| .notUnpackable <|
        "sequence of wrong length (expected " ++ toString names.length ++ ", got " ++ toString items.length ++ ")"
  | .several _, _ => .error (.notUnpackable "value is not iterable")

/-- The items of which a condition holds. -/
def chosenItems (scope : Scope) (names : LoopNames) (condition : Expr) : List Value → Except Fault (List Value)
  | [] => .ok []
  | v :: vs => do
    let chosen ← condition.eval (← bindItem scope names v)
    let rest ← chosenItems scope names condition vs
    return if chosen.isTrue then v :: rest else rest

/-- The items that a loop goes over, and their number if that is known from the beginning, which it is
not for the characters of a text. -/
def loopItems (scope : Scope) (names : LoopNames) (condition : Option Expr) (source : Value) :
    Except Fault (List Value × Option Nat) := do
  let items ← source.visited
  match condition with
  | none => return (items, if source.kind == .string then none else some items.length)
  | some condition =>
    let items ← chosenItems scope names condition items
    return (items, some items.length)

/-- The scope in which a loop renders its body for an item. -/
def loopScope (scope : Scope) (names : LoopNames) (items : List Value) (length : Option Nat) (index : Nat)
    (v : Value) : Except Fault Scope :=
  let before := if index = 0 then .undefined else items[index - 1]?.getD .undefined
  bindItem (scope.insert "loop" (progress index length before (items[index + 1]?.getD .undefined))) names v

mutual

def Segment.render (escaping : Escaping) (scope : Scope) : Segment → Except FaultAt (List Char)
  | .text content => .ok content.toList
  | .emit line value => do
    let v ← located line (value.eval scope)
    return escaping.shown v
  | .branch line condition whenTrue whenFalse => do
    let v ← located line (condition.eval scope)
    if v.isTrue then renderAll escaping scope whenTrue else renderAll escaping scope whenFalse
  | .loop line names source condition body whenEmpty => do
    let v ← located line (source.eval scope)
    let (items, length) ← located line (loopItems scope names condition v)
    if items.isEmpty then renderAll escaping scope whenEmpty
    else
      let rounds ← items.zipIdx.mapM fun (v, index) => do
        renderAll escaping (← located line (loopScope scope names items length index v)) body
      return rounds.flatten

def renderAll (escaping : Escaping) (scope : Scope) : List Segment → Except FaultAt (List Char)
  | [] => .ok []
  | s :: rest => do
    let first ← s.render escaping scope
    return first ++ (← renderAll escaping scope rest)

end

end Stencil

/-- Renders a stencil. -/
def Stencil.render (s : Stencil) (escaping : Stencil.Escaping) (scope : Stencil.Scope) :
    Except Stencil.FaultAt (List Char) :=
  Stencil.renderAll escaping scope s

end RestWiring
