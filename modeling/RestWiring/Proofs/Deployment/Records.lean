import RestWiring.Proofs.Deployment.Jobs

/-!
# What becomes of a construct

A job touches one construct. The record of a construct after some jobs can therefore be told from the
jobs that touch it: it is the record that was there before, or else the one that the first of them
creates, with everything that they wire taken in one after another.
-/
namespace RestWiring

/-- Whether every record is stored under its own kind and name. -/
def Named (cs : Constructs) : Prop :=
  ∀ key record, cs.find? key = some record → (record.kind, record.name) = key

theorem Named.empty : Named ∅ := by
  rintro key record ⟨⟩

theorem Named.insert {cs : Constructs} (named : Named cs) (record : ConstructRecord) :
    Named (cs.insert (record.kind, record.name) record) := by
  intro key stored found
  rw [SortedMap.find?_insert] at found
  split at found
  · rename_i same
    cases found
    exact same.symm
  · exact named key stored found

/-- Storing a record again under its key, with changes beside its kind and name. -/
theorem Named.find?_store {cs : Constructs} (named : Named cs) {key key' : ConstructKey}
    {record changed : ConstructRecord} (found : cs.find? key = some record)
    (kind : changed.kind = record.kind) (name : changed.name = record.name) :
    (Registry.store cs changed).find? key' =
      if key' = key then some changed else cs.find? key' := by
  rw [Registry.store, kind, name, named _ _ found, SortedMap.find?_insert]

/-! ## Registries -/

namespace Registry

/-- The registries that calls can make out of an empty one, whatever failures are injected. -/
inductive Built : Registry → Prop
  | empty : Built {}
  | inject {r : Registry} (before : Built r) (construct : String) (times : Option Nat) :
    Built (r.inject construct times)
  | perform {r : Registry} (before : Built r) (call : Call) : Built (r.perform call).2

/-- Calls keep every record under its own kind and name. -/
theorem effect_named {call : Call} {cs cs' : Constructs} {deployed deployed' : Option Manifest}
    {answer : Answer} (named : Named cs)
    (success : effect call cs deployed = .ok (answer, cs', deployed')) : Named cs' := by
  cases call with
  | create kind name spec =>
    simp only [effect] at success
    split at success
    · cases success
    · cases success
      exact named.insert _
  | getOrCreate topic config =>
    simp only [effect] at success
    split at success
    · cases success
      exact named
    · cases success
      exact named.insert _
  | withRole kind name role =>
    obtain ⟨record, -, equal⟩ := bind_success_iff.mp success
    cases equal
    exact named.insert _
  | trigger function spec | notify function topic params | grantPublish topic function =>
    obtain ⟨_, -, success⟩ := bind_success_iff.mp success
    obtain ⟨record, -, equal⟩ := bind_success_iff.mp success
    cases equal
    exact named.insert _
  | compile | deploy | diff =>
    cases success
    exact named
  | tearDown =>
    cases success
    exact .empty

theorem Built.named {r : Registry} (built : r.Built) : Named r.constructs := by
  induction built with
  | empty => exact .empty
  | inject _ _ _ named => exact named
  | @perform r _ call named =>
    rcases perform_inv r call with ⟨_, _, failed⟩ | ⟨_, _, _, served, effect⟩
    · rw [failed]
      exact named
    · rw [served]
      exact effect_named named effect

end Registry

/-! ## The construct that a job touches -/

namespace Job

/-- The construct that a job creates or changes. -/
def key : Job → ConstructKey
  | .sink s => (s.kind.construct, s.spec.name)
  | .function f => (.function, f.uid)
  | .step (.ensureChannel channel) => (.topic, channel)
  | .step (.grantPublish channel _) => (.topic, channel)
  | .step (.notify uid _ _) => (.function, uid)
  | .step (.subscribe uid _) => (.function, uid)

/-- The record that a job creates under a key if there is none. -/
def creation? (key : ConstructKey) (job : Job) : Option ConstructRecord :=
  match job.call with
  | .create kind name spec => if (kind, name) = key then some { kind, name, spec } else none
  | .getOrCreate topic config =>
    if (.topic, topic) = key then some { kind := .topic, name := topic, spec := config.toJson.sorted }
    else none
  | _ => none

/-- The subscription that a job adds to the construct of a key. -/
def subscription? (key : ConstructKey) : Job → Option TriggerSpec
  | .step (.subscribe uid trigger) => if (.function, uid) = key then some trigger else none
  | _ => none

/-- The report that a job adds to the construct of a key. -/
def report? (key : ConstructKey) : Job → Option (String × NotifyParams)
  | .step (.notify uid topic params) => if (.function, uid) = key then some (topic, params) else none
  | _ => none

/-- The publisher that a job adds to the construct of a key. -/
def publisher? (key : ConstructKey) : Job → Option String
  | .step (.grantPublish topic uid) => if (.topic, topic) = key then some uid else none
  | _ => none

end Job

/-- A record with everything taken in that some jobs wire to the construct of a key. -/
def ConstructRecord.wired (record : ConstructRecord) (key : ConstructKey) (jobs : List Job) :
    ConstructRecord :=
  { record with
    triggers := (jobs.filterMap (Job.subscription? key)).foldl Registry.appendNew record.triggers
    notifications :=
      (jobs.filterMap (Job.report? key)).foldl Registry.appendNew record.notifications
    publishers := (jobs.filterMap (Job.publisher? key)).foldl SortedSet.add record.publishers }

/-- The record that a construct has first: the one it had before, or the first that is created. -/
def firstRecord (base : Constructs) (jobs : List Job) (key : ConstructKey) :
    Option ConstructRecord :=
  (base.find? key).or (jobs.findSome? (Job.creation? key))

namespace Job

variable {key : ConstructKey} {job : Job}

/-- A job leaves alone all constructs but one. -/
theorem untouched (different : job.key ≠ key) :
    job.creation? key = none ∧ job.subscription? key = none ∧ job.report? key = none ∧
      job.publisher? key = none := by
  cases job with
  | sink s =>
    obtain ⟨spec, called⟩ := call_sink s
    have apart : (s.kind.construct, s.spec.name) ≠ key := different
    simp [creation?, called, apart, subscription?, report?, publisher?]
  | function f =>
    have apart : (ConstructKind.function, f.uid) ≠ key := different
    simp [creation?, call, Call.createFunction, apart, subscription?, report?, publisher?]
  | step s =>
    cases s <;> simp only [Job.key] at different <;>
      simp [creation?, call, different, subscription?, report?, publisher?]

theorem key_of_provides (provided : job.provides = some key) : job.key = key := by
  cases job with
  | sink | function =>
    cases provided
    rfl
  | step s =>
    cases s with
    | ensureChannel =>
      cases provided
      rfl
    | grantPublish | notify | subscribe => cases provided

/-- A job either creates its construct or needs it. -/
theorem creates_or_needs (job : Job) :
    (∃ record, job.creation? job.key = some record) ∨ job.key ∈ job.needs := by
  cases job with
  | sink s =>
    obtain ⟨spec, called⟩ := call_sink s
    exact .inl ⟨_, by simp [creation?, called, Job.key]; rfl⟩
  | function f => exact .inl ⟨_, by simp [creation?, call, Call.createFunction, Job.key]; rfl⟩
  | step s =>
    cases s with
    | ensureChannel channel => exact .inl ⟨_, by simp [creation?, call, Job.key]; rfl⟩
    | grantPublish | notify | subscribe => exact .inr (by simp [needs, Job.key])

end Job

namespace ConstructRecord

variable {key : ConstructKey}

theorem wired_append (record : ConstructRecord) (key : ConstructKey) (jobs jobs' : List Job) :
    record.wired key (jobs ++ jobs') = (record.wired key jobs).wired key jobs' := by
  simp [wired, List.filterMap_append, List.foldl_append]

/-- Jobs that touch other constructs wire nothing. -/
theorem wired_of_untouched (record : ConstructRecord) {jobs : List Job}
    (untouched : ∀ job ∈ jobs, job.key ≠ key) : record.wired key jobs = record := by
  have none_of {α : Type} {f : Job → Option α} (nothing : ∀ job, job.key ≠ key → f job = none) :
      jobs.filterMap f = [] :=
    List.filterMap_eq_nil_iff.mpr fun job member => nothing job (untouched job member)
  simp only [wired, none_of fun job different => (Job.untouched different).2.1,
    none_of fun job different => (Job.untouched different).2.2.1,
    none_of fun job different => (Job.untouched different).2.2.2, List.foldl_nil]

/-- Only the jobs that touch a construct count. -/
theorem wired_filter (record : ConstructRecord) (key : ConstructKey) (jobs : List Job) :
    record.wired key (jobs.filter (·.key = key)) = record.wired key jobs := by
  induction jobs generalizing record with
  | nil => rfl
  | cons job jobs ih =>
    rw [← List.singleton_append, wired_append]
    by_cases same : job.key = key
    · rw [List.filter_append, List.filter_cons_of_pos (by simpa using same), List.filter_nil,
        wired_append, ih]
    · have alone : record.wired key [job] = record :=
        wired_of_untouched record (by simpa using same)
      rw [List.filter_append, List.filter_cons_of_neg (by simpa using same), List.filter_nil,
        List.nil_append, ih, alone]

end ConstructRecord

theorem firstRecord_append (base : Constructs) (jobs jobs' : List Job) (key : ConstructKey) :
    firstRecord base (jobs ++ jobs') key =
      (firstRecord base jobs key).or (jobs'.findSome? (Job.creation? key)) := by
  rw [firstRecord, firstRecord, List.findSome?_append, Option.or_assoc]

theorem firstRecord_filter (base : Constructs) (jobs : List Job) (key : ConstructKey) :
    firstRecord base (jobs.filter (·.key = key)) key = firstRecord base jobs key := by
  unfold firstRecord
  congr 1
  induction jobs with
  | nil => rfl
  | cons job jobs ih =>
    by_cases same : job.key = key
    · rw [List.filter_cons_of_pos (by simpa using same), List.findSome?_cons, List.findSome?_cons,
        ih]
    · rw [List.filter_cons_of_neg (by simpa using same), List.findSome?_cons,
        (Job.untouched same).1]
      exact ih

/-! ## Records after some jobs -/

namespace Job

variable {cs : Constructs} {job : Job} {key : ConstructKey}

theorem apply_creation {record : ConstructRecord} (created : job.creation? job.key = some record)
    (cs : Constructs) :
    job.apply cs = if cs.contains job.key then cs else cs.insert job.key record := by
  cases job with
  | sink s =>
    obtain ⟨spec, called⟩ := call_sink s
    simp only [creation?, called, Job.key, if_true, Option.some.injEq] at created
    rw [apply_create called, created, Job.key]
  | function f =>
    simp only [creation?, call, Call.createFunction, Job.key, if_true, Option.some.injEq] at created
    rw [apply_create rfl, created, Job.key]
  | step s =>
    cases s with
    | ensureChannel channel =>
      simp only [creation?, call, Job.key, if_true, Option.some.injEq] at created
      subst created
      by_cases present : cs.contains (.topic, channel) = true <;>
        simp [apply, call, Registry.effect, Registry.store, Job.key, present]
    | grantPublish | notify | subscribe => cases created

/-- A job that creates a construct wires nothing. -/
theorem wired_of_creation {record : ConstructRecord} (created : job.creation? job.key = some record)
    (r : ConstructRecord) (key : ConstructKey) : r.wired key [job] = r := by
  cases job with
  | sink | function => rfl
  | step s =>
    cases s with
    | ensureChannel => rfl
    | grantPublish | notify | subscribe => cases created

/-- A job that needs its construct wires it. -/
theorem apply_wiring {record : ConstructRecord} (needs : job.key ∈ job.needs)
    (needed : ∀ key ∈ job.needs, cs.contains key = true)
    (found : cs.find? job.key = some record) :
    job.apply cs = Registry.store cs (record.wired job.key [job]) := by
  cases job with
  | sink | function => cases needs
  | step s =>
    cases s with
    | ensureChannel => cases needs
    | grantPublish channel uid =>
      rw [apply_grantPublish (needed (.function, uid) (by simp [Job.needs])) found]
      simp [ConstructRecord.wired, subscription?, report?, publisher?, Job.key, List.filterMap_cons]
    | notify uid channel params =>
      rw [apply_notify (needed (.topic, channel) (by simp [Job.needs])) found]
      simp [ConstructRecord.wired, subscription?, report?, publisher?, Job.key, List.filterMap_cons]
    | subscribe uid trigger =>
      rw [apply_subscribe
        (needed (trigger.source.construct, trigger.name) (by simp [Job.needs])) found]
      simp [ConstructRecord.wired, subscription?, report?, publisher?, Job.key, List.filterMap_cons]

/-- A job that creates its construct leaves one that is there alone, and wires nothing. -/
theorem find?_apply_of_creation {record : ConstructRecord}
    (created : job.creation? job.key = some record) (key : ConstructKey) :
    (job.apply cs).find? key = (cs.find? key).or (job.creation? key) := by
  rw [apply_creation created]
  by_cases same : job.key = key
  · subst same
    cases found : cs.find? job.key with
    | some old => rw [if_pos (SortedMap.contains_iff.mpr ⟨old, found⟩), found]; rfl
    | none =>
      have absent : ¬ cs.contains job.key = true := by
        simp [SortedMap.contains_eq_false_iff.mpr found]
      rw [if_neg absent, SortedMap.find?_insert_self, created]
      rfl
  · rw [(untouched same).1, Option.or_none]
    split
    · rfl
    · exact SortedMap.find?_insert_of_ne _ _ (Ne.symm same)

/-- What a job makes of the record of a construct. -/
theorem find?_apply (named : Named cs) (job : Job)
    (needed : ∀ key ∈ job.needs, cs.contains key = true) (key : ConstructKey) :
    (job.apply cs).find? key =
      ((cs.find? key).or (job.creation? key)).map (·.wired key [job]) := by
  have ignored (nothing : ∀ r : ConstructRecord, r.wired key [job] = r) :
      (fun r : ConstructRecord => r.wired key [job]) = id := funext nothing
  rcases job.creates_or_needs with ⟨record, created⟩ | needs
  · rw [ignored fun r => wired_of_creation created r key, Option.map_id_fun, id]
    exact find?_apply_of_creation created key
  · obtain ⟨record, found⟩ := SortedMap.contains_iff.mp (needed _ needs)
    have stored : (Registry.store cs (record.wired job.key [job])).find? key =
        if key = job.key then some (record.wired job.key [job]) else cs.find? key :=
      named.find?_store found rfl rfl
    rw [apply_wiring needs needed found, stored]
    by_cases same : key = job.key
    · subst same
      rw [if_pos rfl, found]
      rfl
    · rw [if_neg same, (untouched (Ne.symm same)).1, Option.or_none,
        ignored fun r => r.wired_of_untouched (by simpa using Ne.symm same), Option.map_id_fun, id]

theorem apply_named (named : Named cs) (needed : ∀ key ∈ job.needs, cs.contains key = true) :
    Named (job.apply cs) := by
  rcases effect_cases job cs none with ⟨-, ⟨answer, effect⟩ | ⟨_, _, -, same, -⟩⟩ | ⟨_, _, -, key, absent⟩
  · exact Registry.effect_named named effect
  · rw [same]
    exact named
  · rw [needed _ key] at absent
    cases absent

end Job

namespace Replayable

variable {base : Constructs} {jobs : List Job} {key : ConstructKey}

theorem append {jobs' : List Job} (first : Replayable base jobs)
    (second : Replayable (replay base jobs) jobs') : Replayable base (jobs ++ jobs') := by
  induction second with
  | nil => rwa [List.append_nil]
  | snoc _ present ih =>
    rw [← List.append_assoc]
    refine ih.snoc fun key needed => ?_
    rw [replay, List.foldl_append]
    exact present key needed

/-- The record of a construct after some jobs: the first one that there was, with everything that
the jobs wire. A construct that is still not there has not been touched. -/
theorem spec (replayable : Replayable base jobs) (named : Named base) :
    Named (replay base jobs) ∧
      (∀ key, (replay base jobs).find? key =
        (firstRecord base jobs key).map (·.wired key jobs)) ∧
      ∀ key, firstRecord base jobs key = none → ∀ job ∈ jobs, job.key ≠ key := by
  induction replayable with
  | nil =>
    refine ⟨named, fun key => ?_, by simp⟩
    have same : (fun r : ConstructRecord => r.wired key []) = id := rfl
    rw [same, Option.map_id_fun, id, firstRecord, List.findSome?_nil, Option.or_none]
    rfl
  | @snoc jobs job _ present ih =>
    obtain ⟨named, found, untouched⟩ := ih
    have first (key : ConstructKey) : firstRecord base (jobs ++ [job]) key =
        (firstRecord base jobs key).or (job.creation? key) := by
      rw [firstRecord_append]
      cases created : job.creation? key <;> simp [created]
    rw [replay_snoc]
    refine ⟨Job.apply_named named present, fun key => ?_, fun key nothing => ?_⟩
    · rw [Job.find?_apply named job present, found, first]
      cases start : firstRecord base jobs key with
      | some record =>
        simp only [Option.map_some, Option.some_or]
        rw [ConstructRecord.wired_append]
      | none =>
        simp only [Option.map_none, Option.none_or]
        refine congrArg (fun f => Option.map f _) (funext fun record => ?_)
        rw [ConstructRecord.wired_append, record.wired_of_untouched (untouched key start)]
    · rw [first, Option.or_eq_none_iff] at nothing
      obtain ⟨absent, uncreated⟩ := nothing
      intro j member
      rcases List.mem_append.mp member with earlier | last
      · exact untouched key absent j earlier
      · rw [List.mem_singleton.mp last]
        rintro rfl
        rcases job.creates_or_needs with ⟨record, created⟩ | needs
        · rw [uncreated] at created
          cases created
        · obtain ⟨record, stored⟩ := SortedMap.contains_iff.mp (present _ needs)
          rw [found, absent] at stored
          cases stored

theorem find?_replay (replayable : Replayable base jobs) (named : Named base) (key : ConstructKey) :
    (replay base jobs).find? key = (firstRecord base jobs key).map (·.wired key jobs) :=
  (replayable.spec named).2.1 key

theorem contains_of_touched (replayable : Replayable base jobs) (named : Named base) {job : Job}
    (member : job ∈ jobs) : (replay base jobs).contains job.key = true := by
  rw [SortedMap.contains_iff, replayable.find?_replay named]
  cases start : firstRecord base jobs job.key with
  | some record => exact ⟨_, rfl⟩
  | none => exact absurd rfl ((replayable.spec named).2.2 job.key start job member)

end Replayable

/-! ## Jobs that are done again -/

theorem subset_foldl_appendNew {α : Type} [DecidableEq α] (as bs : List α) :
    as ⊆ bs.foldl Registry.appendNew as ∧ bs ⊆ bs.foldl Registry.appendNew as := by
  induction bs generalizing as with
  | nil => simp
  | cons b bs ih =>
    obtain ⟨kept, added⟩ := ih (Registry.appendNew as b)
    refine ⟨fun a member => kept (mem_appendNew.mpr (.inr member)), fun a member => ?_⟩
    rcases List.mem_cons.mp member with rfl | later
    · exact kept (mem_appendNew.mpr (.inl rfl))
    · exact added later

theorem foldl_appendNew_of_subset {α : Type} [DecidableEq α] {as bs : List α} (known : bs ⊆ as) :
    bs.foldl Registry.appendNew as = as := by
  induction bs with
  | nil => rfl
  | cons b bs ih =>
    have here : b ∈ as := known List.mem_cons_self
    rw [List.foldl_cons, Registry.appendNew, if_pos here]
    exact ih fun a member => known (List.mem_cons_of_mem _ member)

/-- What has been appended from the front of a list is not appended again. -/
theorem foldl_appendNew_of_prefix {α : Type} [DecidableEq α] (as : List α) {bs' bs : List α}
    (first : bs' <+: bs) :
    (bs' ++ bs).foldl Registry.appendNew as = bs.foldl Registry.appendNew as := by
  obtain ⟨rest, rfl⟩ := first
  rw [List.foldl_append, List.foldl_append, List.foldl_append,
    foldl_appendNew_of_subset (subset_foldl_appendNew as bs').2]

/-- Sets that are added the same members to are the same. -/
theorem SortedSet.foldl_add_congr (s : SortedSet String) {ks ks' : List String}
    (same : ∀ k, k ∈ ks ↔ k ∈ ks') : ks.foldl SortedSet.add s = ks'.foldl SortedSet.add s := by
  refine SortedSet.ext_contains fun k => ?_
  rw [SortedSet.contains_foldl_add, SortedSet.contains_foldl_add, same]

end RestWiring
