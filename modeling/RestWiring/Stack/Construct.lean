import RestWiring.FunctionDeployment

/-!
# Constructs

A deployed stack is made of constructs: functions, buckets, tables, queues and topics. A
`ConstructRecord` is what the backend knows about one of them: what it was created from, its role, and
for functions the events they react to and the topics they report to, for topics who may publish.
-/
namespace RestWiring

open Json (Reader)

inductive ConstructKind where
  | function | bucket | table | queue | topic
  deriving DecidableEq, Repr

namespace ConstructKind

def text : ConstructKind → String
  | .function => "function"
  | .bucket => "bucket"
  | .table => "table"
  | .queue => "queue"
  | .topic => "topic"

def ofText? : String → Option ConstructKind
  | "function" => some .function
  | "bucket" => some .bucket
  | "table" => some .table
  | "queue" => some .queue
  | "topic" => some .topic
  | _ => none

def rank : ConstructKind → Nat
  | .function => 0
  | .bucket => 1
  | .table => 2
  | .queue => 3
  | .topic => 4

instance : Key ConstructKind := Key.ofRank rank (by intro a b; cases a <;> cases b <;> simp [rank])

def reader : Reader ConstructKind := .word ["function", "bucket", "table", "queue", "topic"] ofText?

end ConstructKind

/-- The kind of construct that a sink is. -/
def SinkKind.construct : SinkKind → ConstructKind
  | .queue => .queue
  | .bucket => .bucket
  | .table => .table
  | .topic => .topic

/-- What came of registering a construct: it is new, or it was there and nothing changed. -/
inductive Registration where
  | created | existing
  deriving DecidableEq, Repr

def Registration.text : Registration → String
  | .created => "created"
  | .existing => "existing"

/-- How a run of a function ended. -/
inductive Outcome where
  | success | failure | skipped
  deriving DecidableEq, Repr

namespace Outcome

def text : Outcome → String
  | .success => "success"
  | .failure => "failure"
  | .skipped => "skipped"

def ofText? : String → Option Outcome
  | "success" => some .success
  | "failure" => some .failure
  | "skipped" => some .skipped
  | _ => none

def rank : Outcome → Nat
  | .success => 0
  | .failure => 1
  | .skipped => 2

instance : Key Outcome := Key.ofRank rank (by intro a b; cases a <;> cases b <;> simp [rank])

def reader : Reader Outcome := .word ["success", "failure", "skipped"] ofText?

def listJson (on : List Outcome) : Json := .array (on.map fun o => .string o.text)

end Outcome

/-- What delivers events to a function. -/
inductive TriggerSource where
  | topic | queue
  deriving DecidableEq, Repr

namespace TriggerSource

def text : TriggerSource → String
  | .topic => "topic"
  | .queue => "queue"

def ofText? : String → Option TriggerSource
  | "topic" => some .topic
  | "queue" => some .queue
  | _ => none

def construct : TriggerSource → ConstructKind
  | .topic => .topic
  | .queue => .queue

def reader : Reader TriggerSource := .word ["topic", "queue"] ofText?

end TriggerSource

/-- A subscription of a function: the outcomes it reacts to, the construct that delivers them, and
what an event must carry. -/
structure TriggerSpec where
  on : List Outcome
  source : TriggerSource
  name : String
  args : SortedMap String String := ∅
  deriving DecidableEq, Repr

namespace TriggerSpec

def toJson (t : TriggerSpec) : Json :=
  .object <|
    [("on", Outcome.listJson t.on), ("source", .string t.source.text), ("name", .string t.name)] ++
    Json.omittedIf t.args.isEmpty "args" (.object (t.args.map Json.string).entries)

def fields : List (Field Reader TriggerSpec) :=
  [.mandatory "on" (.list Outcome.reader) fun v t => { t with on := v },
   .mandatory "source" TriggerSource.reader fun v t => { t with source := v },
   .mandatory "name" Reader.string fun v t => { t with name := v },
   .optional "args" (.map Reader.string) fun v t => { t with args := v }]

def reader : Reader TriggerSpec := .record "TriggerSpec" fields ⟨[], .topic, "", ∅⟩

end TriggerSpec

/-- A report of outcomes under an identity. -/
structure NotifyParams where
  on : List Outcome
  identity : String
  deriving DecidableEq, Repr

namespace NotifyParams

def toJson (n : NotifyParams) : Json :=
  .object [("on", Outcome.listJson n.on), ("identity", .string n.identity)]

def fields : List (Field Reader NotifyParams) :=
  [.mandatory "on" (.list Outcome.reader) fun v n => { n with on := v },
   .mandatory "identity" Reader.string fun v n => { n with identity := v }]

def reader : Reader NotifyParams := .record "NotifyParams" fields ⟨[], ""⟩

end NotifyParams

/-- What a bucket, a table or a queue is created from. -/
structure StorageSpec where
  name : String
  config : SortedMap String Json := ∅
  deriving BEq, Repr

namespace StorageSpec

def toJson (s : StorageSpec) : Json :=
  .object <|
    [("name", .string s.name)] ++ Json.omittedIf s.config.isEmpty "config" (.object s.config.entries)

def fields : List (Field Reader StorageSpec) :=
  [.mandatory "name" Reader.string fun v s => { s with name := v },
   .optional "config" (.map Reader.any) fun v s => { s with config := v }]

def reader : Reader StorageSpec := .record "StorageSpec" fields ⟨"", ∅⟩

end StorageSpec

/-- What a topic is created from. -/
structure TopicConfig where
  displayName : Option String := none
  fifo : Bool := false
  deriving DecidableEq, Repr

namespace TopicConfig

def toJson (t : TopicConfig) : Json :=
  .object <| Json.optional "display_name" (t.displayName.map .string) ++ [("fifo", .bool t.fifo)]

def fields : List (Field Reader TopicConfig) :=
  [.optional "display_name" (.option Reader.string) fun v t => { t with displayName := v },
   .optional "fifo" Reader.bool fun v t => { t with fifo := v }]

def reader : Reader TopicConfig := .record "TopicConfig" fields {}

end TopicConfig

structure ConstructRecord where
  kind : ConstructKind
  name : String
  /-- What the construct was created from. -/
  spec : Json
  role : Option String := none
  triggers : List TriggerSpec := []
  /-- The topics that a function reports to, and what it reports. -/
  notifications : List (String × NotifyParams) := []
  /-- The functions that may publish to a topic. -/
  publishers : SortedSet String := ∅
  deriving BEq, Repr

namespace ConstructRecord

/-- The key of a construct in a manifest. -/
def key (r : ConstructRecord) : String := r.kind.text ++ "/" ++ r.name

def toJson (r : ConstructRecord) : Json :=
  .object <|
    [("kind", .string r.kind.text), ("name", .string r.name), ("spec", r.spec)] ++
    Json.optional "role" (r.role.map .string) ++
    Json.omittedIf r.triggers.isEmpty "triggers" (.array (r.triggers.map (·.toJson))) ++
    Json.omittedIf r.notifications.isEmpty "notifications"
      (.array (r.notifications.map fun n => .array [.string n.1, n.2.toJson])) ++
    Json.omittedIf r.publishers.isEmpty "publishers" (.strings (SortedSet.members r.publishers))

def fields : List (Field Reader ConstructRecord) :=
  [.mandatory "kind" ConstructKind.reader fun v r => { r with kind := v },
   .mandatory "name" Reader.string fun v r => { r with name := v },
   .mandatory "spec" Reader.any fun v r => { r with spec := v },
   .optional "role" (.option Reader.string) fun v r => { r with role := v },
   .optional "triggers" (.list TriggerSpec.reader) fun v r => { r with triggers := v },
   .optional "notifications" (.list (.pair Reader.string NotifyParams.reader)) fun v r =>
     { r with notifications := v },
   .optional "publishers" (.list Reader.string) fun v r => { r with publishers := SortedSet.ofList v }]

def reader : Reader ConstructRecord :=
  .record "ConstructRecord" fields { kind := .function, name := "", spec := .null }

end ConstructRecord

end RestWiring
