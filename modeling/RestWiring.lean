import RestWiring.Code.Arena
import RestWiring.Code.CompilationError
import RestWiring.Code.Compiler
import RestWiring.Code.Part
import RestWiring.Code.StencilSet
import RestWiring.Code.Stencils
import RestWiring.Code.Tree
import RestWiring.CommandLine
import RestWiring.CommandLine.Arguments
import RestWiring.Deployment.Cascade
import RestWiring.Deployment.Deploy
import RestWiring.Deployment.Event
import RestWiring.Deployment.Interleaving
import RestWiring.Deployment.Retry
import RestWiring.Double
import RestWiring.Double.Extended
import RestWiring.Double.Shortest
import RestWiring.FileStore
import RestWiring.FunctionDeployment
import RestWiring.FunctionUnit
import RestWiring.Json
import RestWiring.Json.Document
import RestWiring.Json.Reader
import RestWiring.Json.Text
import RestWiring.Main
import RestWiring.Orchestration.Components
import RestWiring.Orchestration.Derive
import RestWiring.Orchestration.Graph
import RestWiring.Orchestration.Plan
import RestWiring.Proofs.Cycle
import RestWiring.Proofs.Deployment.Attempts
import RestWiring.Proofs.Deployment.Calm
import RestWiring.Proofs.Deployment.Deployed
import RestWiring.Proofs.Deployment.DryRun
import RestWiring.Proofs.Deployment.Integrity
import RestWiring.Proofs.Deployment.Jobs
import RestWiring.Proofs.Deployment.Plannable
import RestWiring.Proofs.Deployment.PlannedJobs
import RestWiring.Proofs.Deployment.Realisation
import RestWiring.Proofs.Deployment.Records
import RestWiring.Proofs.Deployment.Schedules
import RestWiring.Proofs.Deployment.Stages
import RestWiring.Proofs.Deployment.Tasks
import RestWiring.Proofs.Fallible
import RestWiring.Proofs.Orchestration.Components
import RestWiring.Proofs.Orchestration.Derive
import RestWiring.Proofs.Orchestration.Graph
import RestWiring.Proofs.Orchestration.Loops
import RestWiring.Proofs.Orchestration.Plan
import RestWiring.Proofs.Orchestration.Wiring
import RestWiring.Proofs.Resolution.Contents
import RestWiring.Proofs.Resolution.Cycles
import RestWiring.Proofs.Resolution.Fidelity
import RestWiring.Proofs.Resolution.Fixpoint
import RestWiring.Proofs.Resolution.References
import RestWiring.Proofs.SortedMap
import RestWiring.Proofs.Template.Serialization
import RestWiring.Proofs.Text.ByteOrder
import RestWiring.Proofs.Text.Splitting
import RestWiring.Record
import RestWiring.Resolution.Graph
import RestWiring.Resolution.Json
import RestWiring.Resolution.Node
import RestWiring.Resolution.Reference
import RestWiring.Resolution.Sweep
import RestWiring.Resolution.Indexed
import RestWiring.SortedMap
import RestWiring.Stack.Construct
import RestWiring.Stack.Manifest
import RestWiring.Stack.Registry
import RestWiring.Stencil
import RestWiring.Stencil.Fault
import RestWiring.Stencil.Filter
import RestWiring.Stencil.Operation
import RestWiring.Stencil.Parser
import RestWiring.Stencil.Render
import RestWiring.Stencil.Token
import RestWiring.Stencil.Value
import RestWiring.Template
import RestWiring.Template.Format
import RestWiring.Template.Record
import RestWiring.Text
import RestWiring.Text.Hidden
import RestWiring.Text.Quoted
import RestWiring.Yaml.Cursor
import RestWiring.Yaml.Node
import RestWiring.Yaml.Reader
import RestWiring.Yaml.Scalar
import RestWiring.Yaml.Tag
import RestWiring.Yaml.Token
import RestWiring.Yaml.Typed
import RestWiring.Proofs.Deployment.Coordination
import RestWiring.Proofs.Deployment.Parts
import RestWiring.Proofs.Deployment.Orders
import RestWiring.Proofs.Deployment.Redeployment
import RestWiring.Proofs.Deployment.Isolation
import RestWiring.Proofs.Orchestration.Units
import RestWiring.Proofs.Deployment.Inventory
import RestWiring.Proofs.CommandLine.Agreement
import RestWiring.Proofs.Orchestration.Representation
import RestWiring.Proofs.Orchestration.Traversal
import RestWiring.Proofs.Deployment.Tolerance
import RestWiring.Proofs.Deployment.Progress
import RestWiring.Proofs.Deployment.Transient
import RestWiring.Proofs.Deployment.Phases
import RestWiring.Proofs.Deployment.Contacts
import RestWiring.Proofs.Deployment.Discipline
import RestWiring.Proofs.Deployment.Cancellation
import RestWiring.Proofs.Deployment.Feedback
import RestWiring.Proofs.Deployment.InFlight
import RestWiring.Proofs.Deployment.Incidents
import RestWiring.Proofs.Deployment.Reports
import RestWiring.Proofs.Orchestration.Layout
import RestWiring.Proofs.Orchestration.Dependencies
import RestWiring.Proofs.Orchestration.Suppliers
import RestWiring.Proofs.Deployment.Reachability
import RestWiring.Proofs.FileStore
import RestWiring.Proofs.Json.Documents
import RestWiring.Proofs.Json.Numbers
import RestWiring.Proofs.Json.Readers
import RestWiring.Proofs.Json.Strings
import RestWiring.Proofs.Orchestration.Identity
import RestWiring.Proofs.Orchestration.CodeFiles
import RestWiring.Proofs.Deployment.Events
import RestWiring.Proofs.Deployment.Chronicle
import RestWiring.Proofs.Deployment.Story
import RestWiring.Proofs.Orchestration.Acceptance
import RestWiring.Proofs.Stencil.Literals
import RestWiring.Proofs.Stencil.Outlines
import RestWiring.Proofs.Stencil.Drawings
import RestWiring.Proofs.Code.Trees
import RestWiring.Proofs.Code.Parts
import RestWiring.Proofs.Json.Values
import RestWiring.Proofs.Code.Skeletons
import RestWiring.Proofs.Stack.Refusals
import RestWiring.Proofs.Deployment.Retrying
import RestWiring.Proofs.Resolution.Precedence
import RestWiring.Proofs.Resolution.Indexing
import RestWiring.Proofs.Stencil.Forms
import RestWiring.Proofs.Json.Equality
import RestWiring.Proofs.Code.Checks
import RestWiring.Proofs.Code.Verdicts
import RestWiring.Proofs.Resolution.Passes
import RestWiring.Proofs.Stack.Manifests
import RestWiring.Proofs.Code.Failures
import RestWiring.Proofs.Code.Links
import RestWiring.Proofs.Code.Arenas
import RestWiring.Proofs.Code.Consistency
import RestWiring.Proofs.Deployment.Delays
import RestWiring.Proofs.Resolution.Addresses
import RestWiring.Proofs.Stencil.Variables
import RestWiring.Proofs.Code.Overrides
import RestWiring.Proofs.Resolution.Handles
import RestWiring.Proofs.Stack.Injections
