import RestWiring.Proofs.FileStore
import RestWiring.Proofs.Orchestration.Dependencies

/-!
# Identities of functions

Identities say less than the names that they come from, so several units may have one identity; an
endpoint and a resolver never do. Deriving a graph stops at the first unit whose identity is taken, and
says so exactly if it gets there: if all units before it compile.
-/
namespace RestWiring

/-! ## Characters of identities -/

namespace FunctionUnit

/-- A letter from a to z, a digit or a hyphen. -/
def IsUidChar (c : Char) : Prop := ('a' ≤ c ∧ c ≤ 'z') ∨ ('0' ≤ c ∧ c ≤ '9') ∨ c = '-'

/-- A text that can be an identity, whatever it was made of. -/
structure IsUid (uid : String) : Prop where
  nonempty : uid ≠ ""
  chars : ∀ c ∈ uid.toList, IsUidChar c

theorem isUidChar_uidChar (c : Char) : IsUidChar (uidChar c) := by
  unfold uidChar
  dsimp only
  split
  · rename_i kept
    exact kept.imp_right .inl
  · exact .inr (.inr rfl)

theorem isUid (u : FunctionUnit) : IsUid u.uid where
  nonempty := by
    intro empty
    have nothing : u.qualified.toList = [] := by
      simpa [uid, uidOf] using congrArg String.toList empty
    cases u <;> simp [qualified, Category.qualify] at nothing
  chars := by
    intro c listed
    rw [uid, uidOf, String.toList_ofList] at listed
    obtain ⟨c, -, rfl⟩ := List.mem_map.mp listed
    exact isUidChar_uidChar c

/-- An identity names one folder and leads nowhere else. -/
theorem IsUid.plain {uid : String} (isUid : IsUid uid) : FilePath.Plain uid := by
  have dot : ¬ IsUidChar '.' := by unfold IsUidChar; decide
  have slash : ¬ IsUidChar '/' := by unfold IsUidChar; decide
  refine ⟨isUid.nonempty, ?_, ?_, fun listed => slash (isUid.chars _ listed)⟩ <;>
    rintro rfl <;> exact dot (isUid.chars _ (by decide))

/-- The identities of endpoints and those of resolvers begin with different letters. -/
theorem call_uid_ne_supply_uid (e : Endpoint) (resolvers : List Resolver) (authentication : List Json)
    (r : Resolver) (feeds : List String) :
    (call e resolvers authentication).uid ≠ (supply r feeds).uid := by
  intro same
  have heads : some (uidChar 'e') = some (uidChar 'r') := by
    simpa [uid, uidOf, qualified, Category.qualify, category, Category.text] using
      congrArg (·.toList.head?) same
  exact absurd heads (by decide)

theorem uid_eq_of_qualified_eq {u v : FunctionUnit} (same : u.qualified = v.qualified) :
    u.uid = v.uid := congrArg uidOf same

end FunctionUnit

/-! ## Identities that are taken -/

/-- Compiles units one after another, each into the files that the one before it has left. -/
def CompilerConfig.compileAll (config : CompilerConfig) :
    List FunctionUnit → FileStore → Except CompilationError FileStore
  | [], files => .ok files
  | unit :: units, files => do
    let (_, files) ← config.compile files unit
    config.compileAll units files

variable {config : CompilerConfig} {units past : List FunctionUnit} {uids : SortedSet String}
  {files : FileStore} {g : OrchestrationGraph} {name : String}

theorem CompilerConfig.compileAll_append {later : List FunctionUnit} {files' : FileStore}
    (success : config.compileAll (units ++ later) files = .ok files') :
    ∃ between, config.compileAll units files = .ok between := by
  induction units generalizing files with
  | nil => exact ⟨files, rfl⟩
  | cons unit units ih =>
    obtain ⟨⟨deployment, written⟩, compiled, success⟩ := bind_success_iff.mp success
    obtain ⟨between, others⟩ := ih success
    exact ⟨between, bind_success_iff.mpr ⟨_, compiled, others⟩⟩

/-- What is known of units that have been added: their names and their identities, no two of which are
the same. -/
structure Added (past : List FunctionUnit) (uids : SortedSet String) (g : OrchestrationGraph) : Prop where
  apart : (past.map (·.uid)).Nodup
  uids_iff : ∀ uid, uids.contains uid = true ↔ uid ∈ past.map (·.uid)
  names_iff : ∀ name, g.contains name = true ↔ name ∈ past.map (·.qualified)

namespace Added

theorem nothing : Added [] ∅ {} where
  apart := .nil
  uids_iff := by simp
  names_iff := by simp [OrchestrationGraph.contains]

/-- A unit is refused if its identity is taken. Its name need not be looked at for that. -/
theorem refuses_iff (added : Added past uids g) (unit : FunctionUnit) :
    (g.contains unit.qualified || uids.contains unit.uid) = true ↔
      unit.uid ∈ past.map (·.uid) := by
  rw [Bool.or_eq_true, added.names_iff, added.uids_iff]
  refine or_iff_right_of_imp fun named => ?_
  obtain ⟨u, listed, same⟩ := List.mem_map.mp named
  exact List.mem_map.mpr ⟨u, listed, FunctionUnit.uid_eq_of_qualified_eq same⟩

theorem snoc {unit : FunctionUnit} (added : Added past uids g) (deployment : FunctionDeployment)
    (free : unit.uid ∉ past.map (·.uid)) :
    Added (past ++ [unit]) (uids.add unit.uid)
      ((g.insert? ⟨unit.qualified, deployment⟩).getD g) where
  apart := by
    rw [List.map_append]
    exact added.apart.append (List.nodup_singleton _) (by simpa using free)
  uids_iff := taken_snoc added.uids_iff unit
  names_iff := by
    intro name
    have new : g.contains unit.qualified = false := by
      rw [Bool.eq_false_iff]
      exact fun named => free ((added.refuses_iff unit).mp (by simp [named]))
    obtain ⟨next, inserted, nodes, -⟩ :=
      OrchestrationGraph.insert?_of_new (n := ⟨unit.qualified, deployment⟩) new
    rw [inserted, Option.getD_some, OrchestrationGraph.contains, nodes, SortedMap.contains_insert,
      List.map_append, List.mem_append, ← added.names_iff, or_comm, List.map_singleton,
      List.mem_singleton]
    rfl

/-- Adding units ends with the first one whose identity is taken if all units before it compile. -/
theorem addUnits_duplicate_iff (added : Added past uids g) :
    (addUnits config units uids g files).1 = .error (.duplicateNode name) ↔
      ∃ before u after, units = before ++ u :: after ∧ ((past ++ before).map (·.uid)).Nodup ∧
        u.uid ∈ (past ++ before).map (·.uid) ∧
        (∃ files', config.compileAll before files = .ok files') ∧ name = u.qualified := by
  induction units generalizing past uids g files with
  | nil => simp [addUnits]
  | cons unit units ih =>
    rw [addUnits]
    split
    · rename_i refused
      have taken := (added.refuses_iff unit).mp refused
      constructor
      · intro failure
        cases failure
        exact ⟨[], unit, units, rfl, by simpa using added.apart, by simpa using taken, ⟨files, rfl⟩, rfl⟩
      · rintro ⟨before, u, after, split, apart, -, -, rfl⟩
        cases before with
        | nil =>
          cases split
          rfl
        | cons first before =>
          cases split
          rw [List.map_append, List.map_cons] at apart
          exact absurd taken fun taken =>
            List.disjoint_of_nodup_append apart taken List.mem_cons_self
    · rename_i accepted
      have free : unit.uid ∉ past.map (·.uid) := fun taken =>
        accepted ((added.refuses_iff unit).mpr taken)
      -- The first of the units is not the one that is refused, so it is compiled.
      have first {before after : List FunctionUnit} {u : FunctionUnit}
          (split : unit :: units = before ++ u :: after) (taken : u.uid ∈ (past ++ before).map (·.uid)) :
          ∃ others, before = unit :: others ∧ units = others ++ u :: after := by
        cases before with
        | nil =>
          cases split
          exact absurd (by simpa using taken) free
        | cons first others =>
          cases split
          exact ⟨others, rfl, rfl⟩
      split
      · rename_i e failed
        constructor
        · rintro ⟨⟩
        · rintro ⟨before, u, after, split, -, taken, ⟨files', compiled⟩, -⟩
          obtain ⟨others, rfl, -⟩ := first split taken
          rw [CompilerConfig.compileAll, failed] at compiled
          cases compiled
      · rename_i deployment written compiled
        rw [ih (added.snoc deployment free)]
        constructor
        · rintro ⟨before, u, after, rfl, apart, taken, ⟨files', others⟩, rfl⟩
          rw [List.append_assoc] at apart taken
          exact ⟨unit :: before, u, after, rfl, apart, taken,
            ⟨files', bind_success_iff.mpr ⟨_, compiled, others⟩⟩, rfl⟩
        · rintro ⟨before, u, after, split, apart, taken, ⟨files', all⟩, rfl⟩
          obtain ⟨others, rfl, rfl⟩ := first split taken
          obtain ⟨_, same, all⟩ := bind_success_iff.mp all
          cases compiled.symm.trans same
          rw [List.append_cons] at apart taken
          exact ⟨others, u, after, rfl, apart, taken, ⟨files', all⟩, rfl⟩

end Added

/-- Edges are refused only for an end that is missing. -/
theorem addEdges_failure {pairs : List (String × String)} {e : OrchestrationError}
    (failure : addEdges pairs g = .error e) :
    ∃ start target missing, e = .missingNode start target missing := by
  induction pairs generalizing g with
  | nil => cases failure
  | cons pair pairs ih =>
    obtain ⟨start, target⟩ := pair
    rw [addEdges] at failure
    cases added : g.addEdge start target {} with
    | ok next =>
      rw [added] at failure
      exact ih failure
    | error e' =>
      rw [added] at failure
      cases failure
      rw [OrchestrationGraph.addEdge_eq, OrchestrationGraph.checkEnds] at added
      split at added
      · cases added
        exact ⟨_, _, _, rfl⟩
      · split at added <;> cases added
        exact ⟨_, _, _, rfl⟩

variable {graph : ResolutionGraph}

/-- Deriving a graph ends with the first unit whose identity is taken if all units before it compile. -/
theorem orchestrate_duplicate_iff :
    (orchestrate config graph files).1 = .error (.duplicateNode name) ↔
      ∃ before u after, FunctionUnit.collect graph = before ++ u :: after ∧
        (before.map (·.uid)).Nodup ∧ u.uid ∈ before.map (·.uid) ∧
        (∃ files', config.compileAll before files = .ok files') ∧ name = u.qualified := by
  refine Iff.trans ?_ Added.nothing.addUnits_duplicate_iff
  unfold orchestrate
  split
  · rename_i e files' added
    rw [added]
  · rename_i nodes files' added
    rw [added]
    refine iff_of_false (fun failure => ?_) nofun
    obtain ⟨_, _, _, equal⟩ := addEdges_failure failure
    cases equal

/-- Where two items of a list agree there is a first item that agrees with an earlier one. -/
theorem exists_first_repeated {α β : Type} {f : α → β} {as : List α}
    (repeated : ¬ (as.map f).Nodup) :
    ∃ before a after, as = before ++ a :: after ∧ (before.map f).Nodup ∧ f a ∈ before.map f := by
  induction as using List.reverseRecOn with
  | nil => exact absurd .nil repeated
  | append_singleton as a ih =>
    by_cases apart : (as.map f).Nodup
    · refine ⟨as, a, [], rfl, apart, ?_⟩
      by_contra new
      refine repeated ?_
      rw [List.map_append]
      exact apart.append (List.nodup_singleton _) (by simpa using new)
    · obtain ⟨before, b, after, rfl, rest⟩ := ih apart
      exact ⟨before, b, after ++ [a], by simp, rest⟩

/-- Deriving a graph ends with an identity that is taken if some unit has the identity of an earlier
one and all units before it compile. -/
theorem exists_orchestrate_duplicate_iff :
    (∃ name, (orchestrate config graph files).1 = .error (.duplicateNode name)) ↔
      ∃ before u after, FunctionUnit.collect graph = before ++ u :: after ∧
        u.uid ∈ before.map (·.uid) ∧ ∃ files', config.compileAll before files = .ok files' := by
  constructor
  · rintro ⟨name, failure⟩
    obtain ⟨before, u, after, split, -, taken, compiled, -⟩ := orchestrate_duplicate_iff.mp failure
    exact ⟨before, u, after, split, taken, compiled⟩
  · rintro ⟨before, u, after, split, taken, files', compiled⟩
    have repeated : ¬ ((before ++ [u]).map (·.uid)).Nodup := by
      rw [List.map_append]
      exact fun apart => List.disjoint_of_nodup_append apart taken List.mem_cons_self
    obtain ⟨first, v, between, same, apart, taken'⟩ := exists_first_repeated repeated
    obtain ⟨rest, rfl⟩ : first <+: before := by
      refine List.prefix_of_prefix_length_le ⟨v :: between, same.symm⟩ (List.prefix_append ..) ?_
      have lengths := congrArg List.length same
      simp at lengths
      omega
    refine ⟨_, orchestrate_duplicate_iff.mpr ⟨first, v, between ++ after, ?_, apart, taken',
      CompilerConfig.compileAll_append compiled, rfl⟩⟩
    rw [split, List.append_cons, same, List.append_assoc, List.cons_append]

end RestWiring
