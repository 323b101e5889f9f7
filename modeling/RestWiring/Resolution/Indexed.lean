import RestWiring.Resolution.Sweep

/-!
# Resolving through maps

Resolution once more, on the maps that it goes through: the declarations of each category, the
references of every declaration, and for each category the names that are still to be placed. Looking
up a key that is not in a map stops everything.
-/
namespace RestWiring

/-- Why resolving through maps ends without a graph. -/
inductive Halt where
  | failed (e : ResolutionError)
  /-- A key was looked up that is not there. -/
  | absentKey
  /-- The sweeps did not come to an end. -/
  | exhausted
  deriving DecidableEq, Repr

/-- Looks up a key that has to be there. -/
def SortedMap.index {κ α : Type} [Key κ] (m : SortedMap κ α) (k : κ) : Except Halt α :=
  match m.find? k with
  | some v => .ok v
  | none => .error .absentKey

/-- What every declaration refers to. -/
abbrev ReferenceMap := SortedMap Ref (List Ref)

/-- The names of each category that are still to be placed. -/
abbrev Unresolved := SortedMap Category (SortedSet String)

namespace Declarations

def declares (c : Declarations) : Ref → Bool
  | (.endpoint, name) => c.endpoints.contains name
  | (.param, name) => c.params.contains name
  | (.resolver, name) => c.resolvers.contains name
  | (.output, name) => c.outputs.contains name

def names (c : Declarations) : Category → List String
  | .endpoint => c.endpoints.keys
  | .param => c.params.keys
  | .resolver => c.resolvers.keys
  | .output => c.outputs.keys

def collectReferences (c : Declarations) : Except ResolutionError ReferenceMap := do
  let declared ← c.classify
  return .ofList (declared.map fun (r, d) => (r, d.references))

/-- Fails on the first reference to something that is not declared in its category. -/
def checkEntries (c : Declarations) : List (Ref × List Ref) → Except ResolutionError Unit
  | [] => .ok ()
  | (referrer, targets) :: rest =>
    match targets.find? fun target => !c.declares target with
    | some target => .error (.missingReference referrer.2 target.2)
    | none => c.checkEntries rest

def unresolved (c : Declarations) : Unresolved :=
  .ofList (Category.all.map fun category => (category, SortedSet.ofList (c.names category)))

/-- Looks a declaration up and classifies it. -/
def lookUp (c : Declarations) : Ref → Except Halt Declared
  | (.endpoint, name) => do (((← c.endpoints.index name).classify name).mapError .failed)
  | (.param, name) => do return .param (← c.params.index name)
  | (.resolver, name) => do (((← c.resolvers.index name).classify name).mapError .failed)
  | (.output, name) => do (((← c.outputs.index name).classify name).mapError .failed)

end Declarations

def ResolutionGraph.stores (g : ResolutionGraph) : Ref → Bool
  | (.endpoint, name) => g.endpoints.contains name
  | (.param, name) => g.params.contains name
  | (.resolver, name) => g.resolvers.contains name
  | (.output, name) => g.outputs.contains name

namespace Unresolved

/-- Whether nothing of what is referred to is still to be placed. -/
def ready (u : Unresolved) : List Ref → Except Halt Bool
  | [] => .ok true
  | (category, name) :: rest => do
    let names ← SortedMap.index u category
    if SortedMap.contains names name then return false
    u.ready rest

def remaining (u : Unresolved) : List Ref :=
  u.entries.flatMap fun (category, names) => (SortedSet.members names).map (category, ·)

end Unresolved

/-- A sweep under way: what is still to be placed, the graph, and how much the sweep has placed. -/
structure SweepState where
  unresolved : Unresolved
  graph : ResolutionGraph
  placed : Nat := 0

section Sweeps

variable (c : Declarations) (references : ReferenceMap)

/-- Places a declaration; one that the graph stores is left as it is. -/
def placeIndexed (g : ResolutionGraph) (r : Ref) : Except Halt ResolutionGraph :=
  if g.stores r then .ok g
  else do
    let declared ← c.lookUp r
    (g.placeDeclared r.2 declared).mapError .failed

/-- Places a declaration if nothing that it refers to is still to be placed. -/
def visitIndexed (s : SweepState) (r : Ref) : Except Halt SweepState := do
  let targets ← references.index r
  if ← s.unresolved.ready targets then
    let graph ← placeIndexed c s.graph r
    return ⟨s.unresolved.modify r.1 (SortedMap.erase · r.2), graph, s.placed + 1⟩
  else return s

def visitAllIndexed (s : SweepState) : List Ref → Except Halt SweepState
  | [] => .ok s
  | r :: rest => do visitAllIndexed (← visitIndexed c references s r) rest

/-- Sweeps through categories; the names of one are listed when its turn comes. -/
def sweepIndexed (s : SweepState) : List Category → Except Halt SweepState
  | [] => .ok s
  | category :: rest => do
    let names ← SortedMap.index s.unresolved category
    let s ← visitAllIndexed c references s ((SortedSet.members names).map (category, ·))
    sweepIndexed s rest

/-- Sweeps until nothing is left or a sweep places nothing, at most as often as `fuel` says. -/
def settleIndexed : Nat → Unresolved → ResolutionGraph → Nat → Except Halt (ResolutionGraph × Nat)
  | 0, _, _, _ => .error .exhausted
  | fuel + 1, u, g, passes =>
    if u.values.all SortedMap.isEmpty then .ok (g, passes)
    else do
      let s ← sweepIndexed c references ⟨u, g, 0⟩ Category.all
      if s.placed = 0 then .error (.failed (.cyclicDependency (s.unresolved.remaining.map Ref.text)))
      else settleIndexed fuel s.unresolved s.graph (passes + 1)

end Sweeps

/-- Resolves a template through maps; every sweep but the last places something. -/
def Template.resolveIndexed (t : Template) : Except Halt (ResolutionGraph × Nat) := do
  let references ← t.config.collectReferences.mapError Halt.failed
  (t.config.checkEntries references.entries).mapError Halt.failed
  settleIndexed t.config references (t.declarationCount + 1) t.config.unresolved {} 0

end RestWiring
