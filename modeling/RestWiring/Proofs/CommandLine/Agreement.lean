import RestWiring.CommandLine
import RestWiring.Proofs.Deployment.Inventory
import RestWiring.Proofs.Deployment.Plannable
import RestWiring.Proofs.Deployment.Schedules

/-!
# The commands agree

Whatever compiles can be planned. The plan that `plan` prints is the one that a dry run reports and
that `deploy` carries out, and its nodes are the units that `validate` lists. What does not compile
is refused by all commands that compile it.
-/
namespace RestWiring.CommandLine

open Deployment (EndsIn)

variable {files files' : FileStore} {path dataFolder deploymentId : String} {template : Template}
  {graph : ResolutionGraph} {g : OrchestrationGraph} {plan : DeploymentPlan}

/-! ## What compiles -/

/-- Whether a template can be loaded, resolved and compiled, and what comes of it. -/
structure Compiles (files : FileStore) (path dataFolder : String) (template : Template)
    (graph : ResolutionGraph) (g : OrchestrationGraph) : Prop where
  loads : Template.load files path = .ok template
  resolves : template.resolve = .ok graph
  orchestrates : (orchestrate (compilerConfig dataFolder) graph files).1 = .ok g

theorem load_success_iff {loaded : Loaded} :
    load files path = .ok loaded ↔
      Template.load files path = .ok loaded.template ∧
        loaded.template.resolve = .ok loaded.graph := by
  unfold load
  rw [bind_success_iff]
  constructor
  · rintro ⟨template, loads, success⟩
    obtain ⟨graph, resolves, equal⟩ := bind_success_iff.mp success
    cases equal
    exact ⟨mapError_success_iff.mp loads, mapError_success_iff.mp resolves⟩
  · rintro ⟨loads, resolves⟩
    refine ⟨_, mapError_success_iff.mpr loads, bind_success_iff.mpr ⟨_, ?_, rfl⟩⟩
    exact mapError_success_iff.mpr resolves

theorem compile_success_iff :
    (compile files path dataFolder).1 = .ok (template, g) ↔
      ∃ graph, Compiles files path dataFolder template graph g := by
  unfold compile
  constructor
  · intro success
    split at success
    · cases success
    · rename_i loaded loads
      obtain ⟨loads, resolves⟩ := load_success_iff.mp loads
      split at success
      · cases success
      · rename_i orchestrated
        cases success
        exact ⟨loaded.graph, loads, resolves, congrArg Prod.fst orchestrated⟩
  · rintro ⟨graph, loads, resolves, orchestrates⟩
    have loaded : load files path = .ok ⟨template, graph⟩ := load_success_iff.mpr ⟨loads, resolves⟩
    simp only [loaded]
    generalize orchestrate (compilerConfig dataFolder) graph files = outcome at orchestrates ⊢
    obtain ⟨result, written⟩ := outcome
    cases orchestrates
    rfl

namespace Compiles

variable (compiles : Compiles files path dataFolder template graph g)
include compiles

theorem compile : ∃ files', compile files path dataFolder = (.ok (template, g), files') :=
  ⟨_, Prod.ext (compile_success_iff.mpr ⟨graph, compiles⟩) rfl⟩

theorem wellFormed : g.WellFormed := (orchestrate_success compiles.orchestrates).1.wellFormed

theorem renders : g.Renders (compilerConfig dataFolder) (FunctionUnit.collect graph) :=
  orchestrate_renders compiles.orchestrates

/-- What compiles can be planned. -/
theorem exists_plan : ∃ plan, g.plan channel = .ok plan :=
  orchestrate_plan_succeeds compiles.resolves compiles.orchestrates channel

end Compiles

/-- If nothing compiles, compiling fails. -/
theorem compile_fails
    (refused : ¬ ∃ template graph g, Compiles files path dataFolder template graph g) :
    ∃ e files', compile files path dataFolder = (.error e, files') := by
  generalize compiled : compile files path dataFolder = outcome
  obtain ⟨result, files'⟩ := outcome
  cases result with
  | error e => exact ⟨e, files', rfl⟩
  | ok result =>
    obtain ⟨graph, compiles⟩ := compile_success_iff.mp (congrArg Prod.fst compiled)
    exact absurd ⟨result.1, graph, result.2, compiles⟩ refused

/-! ## Commands that fail -/

theorem run_plan_fails {e : CommandError}
    (failed : compile files path dataFolder = (.error e, files')) :
    ((Command.plan path).run files dataFolder deploymentId).exitCode = 1 := by
  have stopped : CommandLine.plan files path dataFolder = (.error e, files') := by
    unfold CommandLine.plan
    rw [failed]
  unfold Command.run
  simp only [stopped]
  rfl

theorem run_deploy_fails {e : CommandError} {dryRun : Bool}
    (failed : compile files path dataFolder = (.error e, files')) :
    ((Command.deploy path dryRun).run files dataFolder deploymentId).exitCode = 1 := by
  have stopped : deploy files path dataFolder deploymentId dryRun = (.error e, files') := by
    unfold deploy
    rw [failed]
  unfold Command.run
  simp only [stopped]
  rfl

/-! ## Commands that succeed -/

/-- Whether a command succeeds and prints a document. -/
def Command.Prints (command : Command) (files : FileStore) (dataFolder deploymentId : String)
    (document : Json) : Prop :=
  (command.run files dataFolder deploymentId).exitCode = 0 ∧
    (command.run files dataFolder deploymentId).output = document.pretty ++ "\n"

theorem validate_prints {summary : Summary} (valid : validate files path = .ok summary) :
    (Command.validate path).Prints files dataFolder deploymentId summary.toJson := by
  unfold Command.Prints Command.run
  simp only [valid]
  exact ⟨rfl, congrArg (· ++ "\n") String.empty_append⟩

theorem plan_prints (compiled : compile files path dataFolder = (.ok (template, g), files'))
    (planned : g.plan channel = .ok plan) :
    (Command.plan path).Prints files dataFolder deploymentId plan.toJson := by
  have finished : CommandLine.plan files path dataFolder = (.ok (template, plan), files') := by
    unfold CommandLine.plan
    rw [compiled]
    simp only [planned]
  unfold Command.Prints Command.run
  simp only [finished]
  exact ⟨rfl, congrArg (· ++ "\n") String.empty_append⟩

/-- What becomes of a deployment on a new backend. -/
def delivery (template : Template) (g : OrchestrationGraph) (deploymentId : String)
    (dryRun : Bool) : Deployed :=
  let ended := RestWiring.deploy {} deploymentId dryRun channel g { registry := {} }
  { template, report := ended.1, applied := apply template ended.1 ended.2.1.registry }

theorem deploy_of_compile (compiled : compile files path dataFolder = (.ok (template, g), files'))
    (dryRun : Bool) :
    deploy files path dataFolder deploymentId dryRun =
      (.ok (delivery template g deploymentId dryRun), files') := by
  unfold deploy
  rw [compiled]
  rfl

theorem deploy_prints {dryRun : Bool} {deployed : Deployed}
    (finished : deploy files path dataFolder deploymentId dryRun = (.ok deployed, files'))
    {manifest? : Option Manifest} (applied : deployed.applied = .ok manifest?) :
    (Command.deploy path dryRun).Prints files dataFolder deploymentId deployed.report.toJson := by
  unfold Command.Prints Command.run
  simp only [finished, applied]
  cases manifest? with
  | none => exact ⟨rfl, congrArg (· ++ "\n") String.empty_append⟩
  | some manifest => exact ⟨rfl, congrArg (· ++ "\n") String.empty_append⟩

/-! ## What is delivered -/

theorem isSuccess_of_map {report : DeploymentReport} {status : SubgraphStatus}
    (finished : status.isUnfinished = false)
    (reports : report.subgraphs = plan.subgraphs.map fun p => ⟨p.index, some p, status⟩) :
    report.isSuccess = true := by
  simp [DeploymentReport.isSuccess, DeploymentReport.unfinished, reports, finished]

/-- A deployment without unfinished components is applied. -/
theorem apply_finished {report : DeploymentReport} {registry : Registry}
    (finished : report.isSuccess = true) (dryRun : report.dryRun = false)
    (spares : registry.Spares "stack") :
    apply template report registry = .ok (some (Registry.manifest registry.constructs)) := by
  unfold apply
  rw [finished, dryRun, Registry.perform_deploy spares]
  rfl

theorem apply_dryRun {report : DeploymentReport} {registry : Registry}
    (finished : report.isSuccess = true) (dryRun : report.dryRun = true) :
    apply template report registry = .ok none := by
  unfold apply
  rw [finished, dryRun]
  rfl

/-- Whether a deployment has deployed all of a plan, and has applied a manifest of the constructs
that the plan asks for, each once. -/
def Delivers (plan : DeploymentPlan) (d : Deployed) : Prop :=
  d.report.subgraphs = plan.subgraphs.map (fun p => ⟨p.index, some p, .deployed⟩) ∧
    ∃ manifest, d.applied = .ok (some manifest) ∧
      (manifest.values.map fun r => (r.kind, r.name)).Perm plan.constructs

/-- Whatever turns a deployment takes, it delivers the plan. -/
theorem delivers_of_endsIn (planned : g.plan channel = .ok plan) (nodup : plan.constructs.Nodup)
    {turns : List Turn} {outcome : DeploymentReport × World} (uncancelled : .cancel ∉ turns)
    (ends : EndsIn {} deploymentId channel g { registry := {} } turns outcome) :
    Delivers plan ⟨template, outcome.1, apply template outcome.1 outcome.2.registry⟩ := by
  obtain ⟨reports, -⟩ := ends.calm planned rfl rfl rfl uncancelled
  refine ⟨reports, _, ?_, ends.inventory planned nodup rfl rfl rfl uncancelled⟩
  have dryRun : outcome.1.dryRun = false := by
    obtain ⟨d, -, ended⟩ := ends
    obtain ⟨tasks, -, equal⟩ := Option.bind_eq_some_iff.mp ended
    cases equal
    rfl
  exact apply_finished (isSuccess_of_map rfl reports) dryRun (ends.spares rfl rfl)

theorem delivery_delivers (template : Template) (deploymentId : String)
    (planned : g.plan channel = .ok plan) (nodup : plan.constructs.Nodup) :
    Delivers plan (delivery template g deploymentId false) := by
  obtain ⟨turns, uncancelled, ends⟩ := deploy_endsIn {} deploymentId channel g { registry := {} }
  unfold delivery
  generalize RestWiring.deploy {} deploymentId false channel g { registry := {} } = ended at ends ⊢
  exact delivers_of_endsIn planned nodup uncancelled ends

/-- A dry run reports a plan and applies nothing. -/
theorem delivery_dryRun (template : Template) (deploymentId : String)
    (planned : g.plan channel = .ok plan) :
    (delivery template g deploymentId true).report.subgraphs =
        plan.subgraphs.map (fun p => ⟨p.index, some p, .planned⟩) ∧
      (delivery template g deploymentId true).applied = .ok none := by
  have reports : (RestWiring.deploy {} deploymentId true channel g { registry := {} }).1.subgraphs =
      plan.subgraphs.map fun p => ⟨p.index, some p, .planned⟩ := deploy_dryRun_planned planned _
  have dryRun : (RestWiring.deploy {} deploymentId true channel g { registry := {} }).1.dryRun =
      true := rfl
  unfold delivery
  generalize RestWiring.deploy {} deploymentId true channel g { registry := {} } = ended
    at reports dryRun ⊢
  exact ⟨reports, apply_dryRun (isSuccess_of_map rfl reports) dryRun⟩

/-! ## Agreement -/

/-- What does not compile is refused, by `plan` and by `deploy`. -/
theorem run_of_not_compiles
    (refused : ¬ ∃ template graph g, Compiles files path dataFolder template graph g) :
    ∀ command ∈ [Command.plan path, .deploy path true, .deploy path false],
      (command.run files dataFolder deploymentId).exitCode = 1 := by
  obtain ⟨e, files', failed⟩ := compile_fails refused
  simp only [List.forall_mem_cons]
  exact ⟨run_plan_fails failed, run_deploy_fails failed, run_deploy_fails failed, nofun⟩

/-- What compiles is planned and deployed, and the plan and the reports are printed. -/
theorem Compiles.prints (compiles : Compiles files path dataFolder template graph g)
    (planned : g.plan channel = .ok plan) (deploymentId : String) :
    (Command.plan path).Prints files dataFolder deploymentId plan.toJson ∧
      (Command.deploy path true).Prints files dataFolder deploymentId
        (delivery template g deploymentId true).report.toJson ∧
      (Command.deploy path false).Prints files dataFolder deploymentId
        (delivery template g deploymentId false).report.toJson := by
  obtain ⟨files', compiled⟩ := compiles.compile
  have nodup := compiles.renders.constructs_nodup compiles.wellFormed planned
  have applied := (delivery_dryRun template deploymentId planned).2
  obtain ⟨-, manifest, applied', -⟩ := delivery_delivers template deploymentId planned nodup
  exact ⟨plan_prints compiled planned, deploy_prints (deploy_of_compile compiled true) applied,
    deploy_prints (deploy_of_compile compiled false) applied'⟩

/-- The units of a template that compiles are the nodes of its plan, each once. -/
theorem Compiles.units (compiles : Compiles files path dataFolder template graph g)
    (planned : g.plan channel = .ok plan) :
    (Summary.mk template.name graph).units.Nodup ∧
      (Summary.mk template.name graph).units.Perm (plan.subgraphs.flatMap (·.nodes)) :=
  ⟨compiles.renders.names_nodup, compiles.renders.names_perm.trans
    (OrchestrationGraph.plan_nodes_perm planned compiles.wellFormed).symm⟩

theorem Compiles.validate (compiles : Compiles files path dataFolder template graph g) :
    validate files path = .ok ⟨template.name, graph⟩ :=
  bind_success_iff.mpr
    ⟨⟨template, graph⟩, load_success_iff.mpr ⟨compiles.loads, compiles.resolves⟩, rfl⟩

/-- Planning, dry runs and deployments succeed for the same templates, which are those that
compile. They report the same plan, and a deployment carries it out: every component is deployed,
and the manifest has one construct for everything that the plan asks for, whatever turns the
components take. The plan has one node for each unit that validation lists. -/
theorem commands_agree (files : FileStore) (path dataFolder deploymentId : String) :
    (∀ command ∈ [Command.plan path, .deploy path true, .deploy path false],
      (command.run files dataFolder deploymentId).exitCode = 0 ↔
        ∃ template graph g, Compiles files path dataFolder template graph g) ∧
    ∀ template graph g, Compiles files path dataFolder template graph g →
      ∃ plan, g.plan channel = .ok plan ∧ plan.constructs.Nodup ∧
        (Command.plan path).Prints files dataFolder deploymentId plan.toJson ∧
        (∃ report, (Command.deploy path true).Prints files dataFolder deploymentId
            (DeploymentReport.toJson report) ∧
          report.subgraphs = plan.subgraphs.map fun p => ⟨p.index, some p, .planned⟩) ∧
        (∃ deployed, (deploy files path dataFolder deploymentId false).1 = .ok deployed ∧
          (Command.deploy path false).Prints files dataFolder deploymentId deployed.report.toJson ∧
          Delivers plan deployed) ∧
        (∀ turns outcome, .cancel ∉ turns →
          EndsIn {} deploymentId channel g { registry := {} } turns outcome →
          Delivers plan ⟨template, outcome.1, apply template outcome.1 outcome.2.registry⟩) ∧
        ∃ summary, validate files path = .ok summary ∧
          (Command.validate path).Prints files dataFolder deploymentId summary.toJson ∧
          summary.units.Nodup ∧ summary.units.Perm (plan.subgraphs.flatMap (·.nodes)) := by
  constructor
  · intro command listed
    by_cases compilable : ∃ template graph g, Compiles files path dataFolder template graph g
    · obtain ⟨template, graph, g, compiles⟩ := compilable
      obtain ⟨plan, planned⟩ := compiles.exists_plan
      obtain ⟨planning, dry, deploying⟩ := compiles.prints planned deploymentId
      refine iff_of_true ?_ ⟨template, graph, g, compiles⟩
      simp only [List.mem_cons, List.not_mem_nil, or_false] at listed
      rcases listed with rfl | rfl | rfl
      · exact planning.1
      · exact dry.1
      · exact deploying.1
    · refine iff_of_false ?_ compilable
      rw [run_of_not_compiles compilable command listed]
      exact Nat.one_ne_zero
  · intro template graph g compiles
    obtain ⟨plan, planned⟩ := compiles.exists_plan
    have nodup := compiles.renders.constructs_nodup compiles.wellFormed planned
    obtain ⟨files', compiled⟩ := compiles.compile
    obtain ⟨planning, dry, deploying⟩ := compiles.prints planned deploymentId
    refine ⟨plan, planned, nodup, planning, ⟨_, dry, (delivery_dryRun _ _ planned).1⟩,
      ⟨_, ?_, deploying, delivery_delivers _ _ planned nodup⟩, ?_,
      ⟨_, compiles.validate, validate_prints compiles.validate, compiles.units planned⟩⟩
    · rw [deploy_of_compile compiled]
    · intro turns outcome uncancelled ends
      exact delivers_of_endsIn planned nodup uncancelled ends

/-- An endpoint whose answers are kept in a bucket. -/
def catalogue : String :=
  "version: 1\n" ++
  "kind: api\n" ++
  "config:\n" ++
  "  endpoints:\n" ++
  "    items:\n" ++
  "      kind: baseurl\n" ++
  "      url: http://shop\n" ++
  "      outputs: [copy]\n" ++
  "  outputs:\n" ++
  "    copy:\n" ++
  "      kind: blob\n" ++
  "      target: raw\n"

def shop : FileStore := { entries := SortedMap.insert ∅ ["shop.yaml"] (.text catalogue) }

theorem commands_agree_shop :
    ∃ template graph g plan deployed, Compiles shop "shop.yaml" "data" template graph g ∧
      g.plan channel = .ok plan ∧
      (Command.plan "shop.yaml").Prints shop "data" "first" plan.toJson ∧
      (deploy shop "shop.yaml" "data" "first" false).1 = .ok deployed ∧
      Delivers plan deployed := by
  have succeeds : (compile shop "shop.yaml" "data").1.isOk = true := by decide +kernel
  cases compiled : (compile shop "shop.yaml" "data").1 with
  | error e =>
    rw [compiled] at succeeds
    cases succeeds
  | ok result =>
    obtain ⟨template, g⟩ := result
    obtain ⟨graph, compiles⟩ := compile_success_iff.mp compiled
    obtain ⟨plan, planned, -, planning, -, ⟨deployed, finished, -, delivers⟩, -⟩ :=
      (commands_agree shop "shop.yaml" "data" "first").2 template graph g compiles
    exact ⟨template, graph, g, plan, deployed, compiles, planned, planning, finished, delivers⟩

end RestWiring.CommandLine
