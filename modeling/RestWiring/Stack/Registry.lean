import RestWiring.Stack.Manifest

/-!
# The registry

A `Registry` is a backend that keeps its stack in memory. It logs every call, then fails the call if a
failure has been injected for the construct that the call names, and only then acts on it. It acts step
by step, and a step that fails ends the call there: what the steps before it have done stays done.
-/
namespace RestWiring

inductive ExecutorError where
  /-- The backend refused a call; repeating it may help. -/
  | backend (construct message : String) (retryable : Bool)
  | alreadyExists (kind : ConstructKind) (name : String)
  | notFound (kind : ConstructKind) (name : String)
  deriving DecidableEq, Repr

namespace ExecutorError

def message : ExecutorError → String
  | .backend construct message _ => "backend failure on '" ++ construct ++ "': " ++ message
  | .alreadyExists kind name => kind.text ++ " already exists: " ++ name
  | .notFound kind name => kind.text ++ " not found: " ++ name

def isRetryable : ExecutorError → Bool
  | .backend _ _ retryable => retryable
  | _ => false

end ExecutorError

inductive Operation where
  | create | getOrCreate | withRole | trigger | notify | grantPublish | compile | deploy | diff | tearDown
  deriving DecidableEq, Repr

def Operation.text : Operation → String
  | .create => "create"
  | .getOrCreate => "get_or_create"
  | .withRole => "with_role"
  | .trigger => "trigger"
  | .notify => "notify"
  | .grantPublish => "grant_publish"
  | .compile => "compile"
  | .deploy => "deploy"
  | .diff => "diff"
  | .tearDown => "tear_down"

/-- A line of the log. -/
structure LoggedCall where
  operation : Operation
  kind : Option ConstructKind
  name : String
  deriving DecidableEq, Repr

def LoggedCall.toJson (c : LoggedCall) : Json :=
  .object <|
    [("operation", .string c.operation.text)] ++ Json.optional "kind" (c.kind.map fun k => .string k.text) ++
    [("name", .string c.name)]

/-- A failure for calls that name a construct: so many times, or for ever. -/
structure InjectedFailure where
  construct : String
  remaining : Option Nat
  deriving DecidableEq, Repr

abbrev Constructs := SortedMap (ConstructKind × String) ConstructRecord

/-- A call of the backend. -/
inductive Call where
  | create (kind : ConstructKind) (name : String) (spec : Json)
  | getOrCreate (topic : String) (config : TopicConfig)
  | withRole (kind : ConstructKind) (name role : String)
  | trigger (function : String) (spec : TriggerSpec)
  | notify (function topic : String) (params : NotifyParams)
  | grantPublish (topic function : String)
  | compile
  | deploy
  | diff (update : Manifest)
  | tearDown

/-- What a call answers. -/
inductive Answer where
  | done
  | registered (registration : Registration)
  | manifest (manifest : Manifest)
  | diff (diff : ManifestDiff)
  deriving BEq

namespace Call

def createFunction (f : FunctionDeployment) : Call := .create .function f.uid f.toJson.sorted

def createStorage (kind : ConstructKind) (s : StorageSpec) : Call := .create kind s.name s.toJson.sorted

def createTopic (name : String) (config : TopicConfig) : Call := .create .topic name config.toJson.sorted

def logged : Call → LoggedCall
  | .create kind name _ => ⟨.create, some kind, name⟩
  | .getOrCreate topic _ => ⟨.getOrCreate, some .topic, topic⟩
  | .withRole kind name _ => ⟨.withRole, some kind, name⟩
  | .trigger function _ => ⟨.trigger, some .function, function⟩
  | .notify function _ _ => ⟨.notify, some .function, function⟩
  | .grantPublish topic _ => ⟨.grantPublish, some .topic, topic⟩
  | .compile => ⟨.compile, none, "stack"⟩
  | .deploy => ⟨.deploy, none, "stack"⟩
  | .diff _ => ⟨.diff, none, "stack"⟩
  | .tearDown => ⟨.tearDown, none, "stack"⟩

end Call

structure Registry where
  constructs : Constructs := ∅
  calls : List LoggedCall := []
  failures : List InjectedFailure := []
  deployed : Option Manifest := none

namespace Registry

/-- Injects a failure behind those that are there. -/
def inject (r : Registry) (construct : String) (times : Option Nat) : Registry :=
  { r with failures := r.failures ++ [⟨construct, times⟩] }

/-- Uses up the first failure for a construct that is not exhausted, and says whether a call may
succeed when it is repeated. -/
def useFailure (name : String) : List InjectedFailure → Option (Bool × List InjectedFailure)
  | [] => none
  | f :: rest =>
    if f.construct = name then
      match f.remaining with
      | none => some (false, f :: rest)
      | some (n + 1) => some (true, { f with remaining := some n } :: rest)
      | some 0 => (useFailure name rest).map fun (retryable, rest) => (retryable, f :: rest)
    else (useFailure name rest).map fun (retryable, rest) => (retryable, f :: rest)

def store (cs : Constructs) (record : ConstructRecord) : Constructs :=
  cs.insert (record.kind, record.name) record

/-- Appends what is not there yet. -/
def appendNew {α : Type} [DecidableEq α] (as : List α) (a : α) : List α :=
  if a ∈ as then as else as ++ [a]

def manifest (cs : Constructs) : Manifest := Manifest.ofRecords cs.values

/-- A step on the registry. Where it fails, the registry is left as the step has made it so far. -/
abbrev Action := ExceptT ExecutorError (StateM Registry)

/-- What a step comes to, and the registry that it leaves. -/
def Action.on {α : Type} (action : Action α) (r : Registry) : Except ExecutorError α × Registry :=
  (action.run.run r).run

/-- Lets the first failure that is injected for a construct strike. -/
def injected (name : String) : Action Unit := do
  match useFailure name (← get).failures with
  | none => return
  | some (retryable, failures) =>
    modify fun r => { r with failures }
    throw (.backend name "injected failure" retryable)

/-- Logs a call, which an injected failure may then strike. -/
def record (call : LoggedCall) : Action Unit := do
  modify fun r => { r with calls := r.calls ++ [call] }
  injected call.name

/-- Fails if a construct is not there. -/
def ensure (kind : ConstructKind) (name : String) : Action Unit := do
  unless (← get).constructs.contains (kind, name) do throw (.notFound kind name)

/-- Puts a construct in its place. -/
def put (construct : ConstructRecord) : Action Unit :=
  modify fun r => { r with constructs := store r.constructs construct }

/-- Changes a construct that is there. -/
def amend (kind : ConstructKind) (name : String) (change : ConstructRecord → ConstructRecord) :
    Action Unit := do
  match (← get).constructs.find? (kind, name) with
  | some construct => put (change construct)
  | none => throw (.notFound kind name)

/-- What a call does once it is logged. -/
def act : Call → Action Answer
  | .create kind name spec => do
    if (← get).constructs.contains (kind, name) then throw (.alreadyExists kind name)
    put { kind, name, spec }
    return .registered .created
  | .getOrCreate topic config => do
    if (← get).constructs.contains (.topic, topic) then return .registered .existing
    put { kind := .topic, name := topic, spec := config.toJson.sorted }
    return .registered .created
  | .withRole kind name role => do
    amend kind name fun c => { c with role := some role }
    return .done
  | .trigger function spec => do
    ensure spec.source.construct spec.name
    amend .function function fun c => { c with triggers := appendNew c.triggers spec }
    return .done
  | .notify function topic params => do
    ensure .topic topic
    amend .function function fun c =>
      { c with notifications := appendNew c.notifications (topic, params) }
    return .done
  | .grantPublish topic function => do
    ensure .function function
    amend .topic topic fun c => { c with publishers := SortedSet.add c.publishers function }
    return .done
  | .compile => return .manifest (manifest (← get).constructs)
  | .deploy => do
    let applied := manifest (← get).constructs
    modify fun r => { r with deployed := some applied }
    return .manifest applied
  | .diff update => return .diff ((manifest (← get).constructs).diff update)
  | .tearDown => do
    modify fun r => { r with constructs := ∅, deployed := none }
    return .done

/-- Performs a call: logs it, lets an injected failure strike, and acts. -/
def perform (r : Registry) (call : Call) : Except ExecutorError Answer × Registry :=
  Action.on (do record call.logged; act call) r

/-- Takes a construct that is already there for registered. -/
def registration : Except ExecutorError Answer → Except ExecutorError Answer
  | .ok _ => .ok (.registered .created)
  | .error (.alreadyExists ..) => .ok (.registered .existing)
  | .error e => .error e

/-- Creates a construct unless it is there. -/
def register (r : Registry) (call : Call) : Except ExecutorError Answer × Registry :=
  let (result, r) := r.perform call
  (registration result, r)

/-- Registers constructs one after another, up to the first failure. -/
def registerAll (r : Registry) : List Call → Except ExecutorError (List Answer) × Registry
  | [] => (.ok [], r)
  | call :: rest =>
    match r.register call with
    | (.error e, r) => (.error e, r)
    | (.ok answer, r) =>
      match r.registerAll rest with
      | (.error e, r) => (.error e, r)
      | (.ok answers, r) => (.ok (answer :: answers), r)

def construct? (r : Registry) (kind : ConstructKind) (name : String) : Option ConstructRecord :=
  r.constructs.find? (kind, name)

def count (r : Registry) (kind : ConstructKind) : Nat :=
  (r.constructs.keys.filter (·.1 = kind)).length

end Registry

end RestWiring
