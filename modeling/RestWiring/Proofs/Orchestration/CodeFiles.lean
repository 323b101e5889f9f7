import RestWiring.Proofs.Orchestration.Identity

/-!
# Files of code

Deriving a graph writes the code of each unit into a file of its own. A journal is kept of all that is
written, and of a last write that may have failed; it accounts for the files that are left. Every file is
named by an identity in a folder below the code root, no file is written twice, and what has been
written is there in the end.
-/
namespace RestWiring

/-- What is written, as paths and contents, in order. -/
abbrev Journal := List (String × String)

namespace CompilerConfig

/-- Compiles a unit, and keeps a journal of what it writes or fails to write. -/
def compileJournaled (config : CompilerConfig) (files : FileStore) (unit : FunctionUnit) :
    Except CompilationError (FunctionDeployment × FileStore) × Journal :=
  match config.render unit with
  | .error e => (.error e, [])
  | .ok deployment =>
    (match files.write deployment.codeLocation deployment.code with
      | .ok files => .ok (deployment, files)
      | .error fault => .error (.unwritable deployment.codeLocation fault),
      [(deployment.codeLocation, deployment.code)])

end CompilerConfig

/-- Adds units, and keeps a journal. -/
def addUnitsJournaled (config : CompilerConfig) :
    List FunctionUnit → SortedSet String → OrchestrationGraph → FileStore →
      (Except OrchestrationError OrchestrationGraph × FileStore) × Journal
  | [], _, g, files => ((.ok g, files), [])
  | unit :: units, uids, g, files =>
    if g.contains unit.qualified || SortedMap.contains uids unit.uid then
      ((.error (.duplicateNode unit.qualified), files), [])
    else
      match config.compileJournaled files unit with
      | (.error e, journal) => ((.error (.compilation e), files), journal)
      | (.ok (deployment, files), journal) =>
        let (outcome, later) := addUnitsJournaled config units (SortedSet.add uids unit.uid)
          ((g.insert? ⟨unit.qualified, deployment⟩).getD g) files
        (outcome, journal ++ later)

/-- Derives a graph, and keeps a journal. -/
def orchestrateJournaled (config : CompilerConfig) (graph : ResolutionGraph) (files : FileStore) :
    (Except OrchestrationError OrchestrationGraph × FileStore) × Journal :=
  match addUnitsJournaled config (FunctionUnit.collect graph) ∅ {} files with
  | ((.error e, files), journal) => ((.error e, files), journal)
  | ((.ok nodes, files), journal) => ((addEdges (dependencies graph) nodes, files), journal)

/-- Writes all that is in a journal; what cannot be written changes nothing. -/
def Journal.replay (journal : Journal) (files : FileStore) : FileStore :=
  journal.foldl (fun files entry => ((files.write entry.1 entry.2).toOption).getD files) files

variable {config : CompilerConfig} {units past : List FunctionUnit} {unit : FunctionUnit}
  {uids : SortedSet String} {files files' : FileStore} {g g' : OrchestrationGraph}
  {deployment : FunctionDeployment} {uid uid' : String} {graph : ResolutionGraph} {journal : Journal}

open FunctionUnit (IsUid)

/-! ## Journals are kept on the side -/

theorem CompilerConfig.compileJournaled_fst :
    (config.compileJournaled files unit).1 = config.compile files unit := by
  unfold compileJournaled compile
  cases config.render unit <;> rfl

theorem addUnitsJournaled_fst :
    (addUnitsJournaled config units uids g files).1 = addUnits config units uids g files := by
  induction units generalizing uids g files with
  | nil => rfl
  | cons unit units ih =>
    rw [addUnitsJournaled, addUnits, ← CompilerConfig.compileJournaled_fst]
    split
    · rfl
    · obtain ⟨result, journal⟩ := config.compileJournaled files unit
      cases result with
      | error e => rfl
      | ok compiled => exact ih

theorem orchestrateJournaled_fst :
    (orchestrateJournaled config graph files).1 = orchestrate config graph files := by
  unfold orchestrateJournaled orchestrate
  rw [← addUnitsJournaled_fst]
  obtain ⟨⟨result, files'⟩, journal⟩ :=
    addUnitsJournaled config (FunctionUnit.collect graph) ∅ {} files
  cases result <;> rfl

theorem orchestrateJournaled_snd : (orchestrateJournaled config graph files).2 =
    (addUnitsJournaled config (FunctionUnit.collect graph) ∅ {} files).2 := by
  unfold orchestrateJournaled
  obtain ⟨⟨result, files'⟩, journal⟩ :=
    addUnitsJournaled config (FunctionUnit.collect graph) ∅ {} files
  cases result <;> rfl

theorem orchestrate_snd : (orchestrate config graph files).2 =
    (addUnits config (FunctionUnit.collect graph) ∅ {} files).2 := by
  unfold orchestrate
  obtain ⟨result, files'⟩ := addUnits config (FunctionUnit.collect graph) ∅ {} files
  cases result <;> rfl

/-! ## What a unit writes -/

theorem CompilerConfig.render_codeLocation (success : config.render unit = .ok deployment) :
    deployment.codeLocation = config.codeLocation unit.uid := by
  obtain ⟨tree, -, success⟩ := bind_success_iff.mp success
  obtain ⟨texts, -, equal⟩ := bind_success_iff.mp success
  cases equal
  rfl

/-- A unit that does not compile changes no file and writes at most the code of its own function; one
that compiles writes this code. -/
theorem CompilerConfig.compileJournaled_cases (config : CompilerConfig) (files : FileStore)
    (unit : FunctionUnit) :
    (∃ e, config.compileJournaled files unit = (.error e, [])) ∨
      ∃ deployment, config.render unit = .ok deployment ∧
        ((∃ e, config.compileJournaled files unit =
            (.error e, [(config.codeLocation unit.uid, deployment.code)]) ∧
          (files.write (config.codeLocation unit.uid) deployment.code).toOption = none) ∨
        ∃ files', config.compileJournaled files unit =
            (.ok (deployment, files'), [(config.codeLocation unit.uid, deployment.code)]) ∧
          files.write (config.codeLocation unit.uid) deployment.code = .ok files') := by
  unfold compileJournaled
  cases rendered : config.render unit with
  | error e => exact .inl ⟨e, rfl⟩
  | ok deployment =>
    refine .inr ⟨deployment, rfl, ?_⟩
    dsimp only
    rw [render_codeLocation rendered]
    cases written : files.write (config.codeLocation unit.uid) deployment.code with
    | error fault => exact .inl ⟨_, rfl, rfl⟩
    | ok files' => exact .inr ⟨files', rfl, rfl⟩

/-! ## Where code is written -/

theorem handlerFile_plain : FilePath.Plain "handler.py" :=
  ⟨by decide, by decide, by decide, by decide⟩

/-- The place of a function's code is that of a file in a folder of its own below the code root. -/
theorem location_codeLocation (files : FileStore) (isUid : IsUid uid) :
    files.location (config.codeLocation uid) =
      files.location config.codeRoot ++ [uid, "handler.py"] := by
  rw [CompilerConfig.codeLocation, FileStore.location_join _ _ handlerFile_plain,
    FileStore.location_join _ _ isUid.plain, List.append_assoc]
  rfl

theorem codeLocation_injective (isUid : IsUid uid) (isUid' : IsUid uid')
    (same : config.codeLocation uid = config.codeLocation uid') : uid = uid' := by
  have places := congrArg (FileStore.location {}) same
  rw [location_codeLocation _ isUid, location_codeLocation _ isUid'] at places
  exact (List.cons.inj (List.append_cancel_left places)).1

/-- Code that is written can be read, and changes nothing but the file of its identity. -/
theorem write_code (isUid : IsUid uid) {code : String}
    (success : files.write (config.codeLocation uid) code = .ok files') :
    FileStore.Puts (files.location config.codeRoot ++ [uid, "handler.py"]) code files files' ∧
      files'.read (config.codeLocation uid) = .ok code := by
  obtain ⟨way, divided, -⟩ :=
    FilePath.parts_join (FilePath.join config.codeRoot uid) handlerFile_plain
  rw [← location_codeLocation files isUid]
  exact FileStore.write_success divided handlerFile_plain success

/-! ## The journal of all units -/

/-- The files of identities below a folder. -/
def CodePlace (root place : List String) : Prop := ∃ uid, IsUid uid ∧ place = root ++ [uid, "handler.py"]

/-- What a journal says of files: every path in it is that of an identity that has not been taken, no
path is written twice, and the files are what it says has been written, within the code root. -/
structure Journal.Accounts (config : CompilerConfig) (taken : String → Prop) (journal : Journal)
    (files files' : FileStore) : Prop where
  paths : ∀ entry ∈ journal, ∃ uid, IsUid uid ∧ ¬ taken uid ∧ entry.1 = config.codeLocation uid
  apart : (journal.map (·.1)).Nodup
  replayed : files' = journal.replay files
  within : FileStore.Within (CodePlace (files.location config.codeRoot)) files files'

namespace Journal.Accounts

variable {taken : String → Prop}

theorem nothing (config : CompilerConfig) (taken : String → Prop) (files : FileStore) :
    Accounts config taken [] files files where
  paths := nofun
  apart := .nil
  replayed := rfl
  within := .refl _ files

/-- A write that fails is accounted for although it changes nothing. -/
theorem failed (isUid : IsUid uid) (free : ¬ taken uid) {code : String}
    (failure : (files.write (config.codeLocation uid) code).toOption = none) :
    Accounts config taken [(config.codeLocation uid, code)] files files where
  paths := by
    intro entry listed
    cases List.mem_singleton.mp listed
    exact ⟨uid, isUid, free, rfl⟩
  apart := List.nodup_singleton _
  replayed := by simp [replay, failure]
  within := .refl _ files

/-- A write comes before those of other identities. -/
theorem cons {between : FileStore} (isUid : IsUid uid) (free : ¬ taken uid) {code : String}
    (success : files.write (config.codeLocation uid) code = .ok between)
    (later : Accounts config (fun other => other = uid ∨ taken other) journal between files') :
    Accounts config taken ((config.codeLocation uid, code) :: journal) files files' where
  paths := by
    intro entry listed
    rcases List.mem_cons.mp listed with rfl | listed
    · exact ⟨uid, isUid, free, rfl⟩
    · obtain ⟨uid', isUid', free', equal⟩ := later.paths entry listed
      exact ⟨uid', isUid', fun held => free' (.inr held), equal⟩
  apart := by
    rw [List.map_cons, List.nodup_cons]
    refine ⟨fun listed => ?_, later.apart⟩
    obtain ⟨entry, inside, same⟩ := List.mem_map.mp listed
    obtain ⟨uid', isUid', free', equal⟩ := later.paths entry inside
    exact free' (.inl (codeLocation_injective isUid' isUid (equal.symm.trans same)))
  replayed := by
    rw [later.replayed]
    simp [replay, success, Except.toOption]
  within := by
    obtain ⟨puts, -⟩ := write_code isUid success
    have here : FileStore.Within (CodePlace (files.location config.codeRoot)) files between :=
      puts.toWithin.mono fun place same => ⟨uid, isUid, same⟩
    have there := later.within
    rw [here.location] at there
    exact here.trans there

end Journal.Accounts

/-- The journal of adding units accounts for the files that are left, whether all units are added or
not. -/
theorem addUnitsJournaled_accounts :
    Journal.Accounts config (fun uid => uids.contains uid = true)
      (addUnitsJournaled config units uids g files).2 files
      (addUnitsJournaled config units uids g files).1.2 := by
  induction units generalizing uids g files with
  | nil => exact .nothing ..
  | cons unit units ih =>
    rw [addUnitsJournaled]
    split
    · exact .nothing ..
    · rename_i accepted
      have free : ¬ uids.contains unit.uid = true := fun taken => accepted (by simp [taken])
      rcases config.compileJournaled_cases files unit with ⟨e, failed⟩ | ⟨deployment, -,
        ⟨e, failed, unwritten⟩ | ⟨files', compiled, written⟩⟩
      · rw [failed]
        exact .nothing ..
      · rw [failed]
        exact .failed unit.isUid free unwritten
      · rw [compiled]
        have later := @ih (uids.add unit.uid) files'
          ((g.insert? ⟨unit.qualified, deployment⟩).getD g)
        simp only [SortedSet.contains_add] at later
        exact .cons unit.isUid free written later

/-! ## The code of all nodes -/

/-- Whether the code of every node can be read at its location. -/
def CodeStored (g : OrchestrationGraph) (files : FileStore) : Prop :=
  ∀ name n, g.node? name = some n →
    files.read n.deployment.codeLocation = .ok n.deployment.code

/-- One more unit leaves the code of the others alone. -/
theorem CodeStored.insert? {next : OrchestrationGraph} (stored : CodeStored g files)
    (renders : g.Renders config past) (unused : unit.uid ∉ past.map (·.uid))
    (new : g.contains unit.qualified = false)
    (compiled : config.compile files unit = .ok (deployment, files'))
    (inserted : g.insert? ⟨unit.qualified, deployment⟩ = some next) : CodeStored next files' := by
  have rendered := CompilerConfig.compile_success compiled
  have written : files.write (config.codeLocation unit.uid) deployment.code = .ok files' := by
    rw [← CompilerConfig.compileJournaled_fst] at compiled
    rcases config.compileJournaled_cases files unit with ⟨e, failed⟩ | ⟨_, -,
      ⟨e, failed, -⟩ | ⟨_, success, written⟩⟩
    · rw [failed] at compiled
      cases compiled
    · rw [failed] at compiled
      cases compiled
    · rw [success] at compiled
      cases compiled
      exact written
  obtain ⟨puts, readable⟩ := write_code unit.isUid written
  obtain ⟨_, same, nodes, -⟩ :=
    OrchestrationGraph.insert?_of_new (n := ⟨unit.qualified, deployment⟩) new
  cases inserted.symm.trans same
  intro name n found
  rw [OrchestrationGraph.node?, nodes, SortedMap.find?_insert] at found
  split at found
  · cases found
    rwa [CompilerConfig.render_codeLocation rendered]
  · obtain ⟨u, listed, -, rendered'⟩ := renders.node found
    refine puts.read_of_ne (stored name n found) ?_
    rw [CompilerConfig.render_codeLocation rendered', location_codeLocation files u.isUid]
    intro same
    have uid := (List.cons.inj (List.append_cancel_left same)).1
    exact unused (List.mem_map.mpr ⟨u, listed, uid⟩)

theorem addUnits_codeStored (stored : CodeStored g files) (renders : g.Renders config past)
    (taken : ∀ uid, uids.contains uid = true ↔ uid ∈ past.map (·.uid))
    (success : addUnits config units uids g files = (.ok g', files')) : CodeStored g' files' := by
  induction units generalizing past uids g files with
  | nil =>
    cases success
    exact stored
  | cons unit units ih =>
    obtain ⟨deployment, next, written, new, unused, compiled, inserted, success⟩ :=
      addUnits_cons success
    have unused' : unit.uid ∉ past.map (·.uid) := by
      rw [← taken, unused]
      exact Bool.false_ne_true
    have rendered := CompilerConfig.compile_success compiled
    exact ih (stored.insert? renders unused' new compiled inserted)
      (renders.insert? rendered new unused' inserted) (taken_snoc taken unit) success

theorem orchestrate_accounts (config : CompilerConfig) (graph : ResolutionGraph)
    (files : FileStore) :
    Journal.Accounts config (fun _ => False) (orchestrateJournaled config graph files).2 files
      (orchestrate config graph files).2 := by
  have accounts := @addUnitsJournaled_accounts config (FunctionUnit.collect graph) ∅ files {}
  rw [addUnitsJournaled_fst, ← orchestrateJournaled_snd, ← orchestrate_snd] at accounts
  exact ⟨fun entry listed => (accounts.paths entry listed).imp fun uid path =>
    ⟨path.1, not_false, path.2.2⟩, accounts.apart, accounts.replayed, accounts.within⟩

/-- The code of all nodes of a derived graph is stored when it has been derived. -/
theorem orchestrate_codeStored {o : OrchestrationGraph}
    (success : (orchestrate config graph files).1 = .ok o) :
    CodeStored o (orchestrate config graph files).2 := by
  rw [orchestrate_snd]
  unfold orchestrate at success
  split at success
  · cases success
  · rename_i nodes files' added
    rw [added]
    have nothing : CodeStored {} files := by rintro name n ⟨⟩
    have stored : CodeStored nodes files' :=
      addUnits_codeStored nothing (.empty config) (by simp) added
    obtain ⟨built, directed, -⟩ := addUnits_frame added (.empty true)
    obtain ⟨-, -, same, -⟩ := addEdges_success success built directed
    intro name n found
    rw [OrchestrationGraph.node?, same] at found
    exact stored name n found

/-- Deriving a graph fails for an identity that is taken exactly if a unit has the identity of an earlier
one and all units before it compile, and tells the first such unit; an endpoint and a resolver never
have the same identity. Whether it fails or not, no path is written twice, every path is that of a
folder below the code root whose name has letters from a to z, digits and hyphens alone, and besides
these files only folders come into being. If it succeeds, all nodes have identities of their own, and
the code of each can be read at its location. -/
theorem orchestrate_identities (config : CompilerConfig) (graph : ResolutionGraph)
    (files : FileStore) :
    (∀ name, (orchestrate config graph files).1 = .error (.duplicateNode name) ↔
      ∃ before u after, FunctionUnit.collect graph = before ++ u :: after ∧
        (before.map (·.uid)).Nodup ∧ u.uid ∈ before.map (·.uid) ∧
        (∃ files', config.compileAll before files = .ok files') ∧ name = u.qualified) ∧
    ((∃ name, (orchestrate config graph files).1 = .error (.duplicateNode name)) ↔
      ∃ before u after, FunctionUnit.collect graph = before ++ u :: after ∧
        u.uid ∈ before.map (·.uid) ∧ ∃ files', config.compileAll before files = .ok files') ∧
    (∀ e resolvers authentication r feeds,
      (FunctionUnit.call e resolvers authentication).uid ≠ (FunctionUnit.supply r feeds).uid) ∧
    ((orchestrateJournaled config graph files).1 = orchestrate config graph files ∧
      (orchestrate config graph files).2 =
        (orchestrateJournaled config graph files).2.replay files ∧
      ((orchestrateJournaled config graph files).2.map (·.1)).Nodup ∧
      (∀ entry ∈ (orchestrateJournaled config graph files).2, ∃ folder, IsUid folder ∧
        entry.1 = FilePath.join (FilePath.join config.codeRoot folder) "handler.py") ∧
      FileStore.Within (CodePlace (files.location config.codeRoot)) files
        (orchestrate config graph files).2) ∧
    ∀ o, (orchestrate config graph files).1 = .ok o →
      (o.nodes.values.map (·.uid)).Nodup ∧
      ∀ name n, o.node? name = some n →
        (orchestrate config graph files).2.read n.deployment.codeLocation =
          .ok n.deployment.code := by
  have accounts := orchestrate_accounts config graph files
  refine ⟨fun name => orchestrate_duplicate_iff, exists_orchestrate_duplicate_iff,
    FunctionUnit.call_uid_ne_supply_uid, ⟨orchestrateJournaled_fst, accounts.replayed,
      accounts.apart, fun entry listed => ?_, accounts.within⟩, fun o success => ⟨?_, ?_⟩⟩
  · obtain ⟨uid, isUid, -, path⟩ := accounts.paths entry listed
    exact ⟨uid, isUid, path⟩
  · exact (orchestrate_renders success).functions_nodup
  · exact orchestrate_codeStored success

/-- Two endpoints whose names would lead out of the code root, with the same identity. -/
def ResolutionGraph.hostile : ResolutionGraph where
  endpoints :=
    (SortedMap.insert ∅ "..-up"
      ⟨"..-up", "", .get, none, [], .base "http://site"⟩).insert "../up"
      ⟨"../up", "", .get, none, [], .base "http://site"⟩

theorem orchestrate_identities_hostile :
    (orchestrate { codeRoot := "/code" } .hostile {}).1 = .error (.duplicateNode "endpoint:../up") ∧
    (orchestrate { codeRoot := "/code" } .hostile {}).2.files = ["code/endpoint----up/handler.py"] := by
  obtain ⟨duplicate, -⟩ := orchestrate_identities { codeRoot := "/code" } .hostile {}
  refine ⟨(duplicate "endpoint:../up").mpr ⟨[_], _, [], rfl, List.nodup_singleton _, ?_, ?_, rfl⟩, ?_⟩
  · decide +kernel
  · have compiles : (CompilerConfig.compileAll { codeRoot := "/code" }
        [.ofEndpoint .hostile ⟨"..-up", "", .get, none, [], .base "http://site"⟩] {}).isOk = true := by
      decide +kernel
    cases compiled : CompilerConfig.compileAll { codeRoot := "/code" }
        [.ofEndpoint .hostile ⟨"..-up", "", .get, none, [], .base "http://site"⟩] {} with
    | error e =>
      rw [compiled] at compiles
      cases compiles
    | ok files => exact ⟨files, rfl⟩
  · decide +kernel

end RestWiring
