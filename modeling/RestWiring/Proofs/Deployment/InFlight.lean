import RestWiring.Proofs.Deployment.Incidents

/-!
# Calls in flight

A call that has been issued is in flight until it is answered or given up together with its task. The
calls that are answered and those in flight are always among those that have been issued. Once a
deployment has been cancelled it issues no more calls, so that all that is still answered was in flight
by then. What the backend itself keeps a log of are the calls that it has answered.
-/
namespace RestWiring

namespace Contact

/-- The job of a call that is issued. -/
def issue? : Contact → Option Job
  | .issued job => some job
  | .succeeded _ | .repeated .. | .failed .. => none

/-- The job of a call that is answered. -/
def answer? : Contact → Option Job
  | .issued _ => none
  | .succeeded job | .repeated job _ | .failed job _ => some job

end Contact

/-- The jobs that a component has issued calls for. -/
def issuedBy (log : List (Nat × Contact)) (place : Nat) : List Job :=
  (contactsOf log place).filterMap Contact.issue?

/-- The jobs that a component has had answers for. -/
def answeredBy (log : List (Nat × Contact)) (place : Nat) : List Job :=
  (contactsOf log place).filterMap Contact.answer?

/-- A job whose call is in flight. -/
def inFlight? : Job × JobProgress → Option Job
  | (job, .underway _) => some job
  | (_, .ready _) | (_, .failed _) => none

/-- The jobs of a component whose calls are in flight. -/
def Activity.inFlight : Activity → List Job
  | .working work | .announcing _ work => work.current.filterMap inFlight?
  | .fresh | .closing _ | .over _ => []

def Recorded.inFlight (s : Recorded) (place : Nat) : List Job :=
  (s.deployment.runners[place]?.map (·.activity.inFlight)).getD []

variable {settings : DeploymentSettings} {index place : Nat} {stages : List (List Job)} {work : Work}
  {activity activity' : Activity} {w w' : World} {made : Option Contact} {job : Job}
  {progress : JobProgress} {s s' s'' : Recorded} {x : Incident} {incidents : List Incident}
  {log more more' : List (Nat × Contact)}

section Lists

variable {α β : Type} {f : α → Option β} {as : List α} {i : Nat} {a b : α}

theorem filterMap_perm_of_getElem? (found : as[i]? = some a) :
    (as.filterMap f).Perm ((f a).toList ++ (as.eraseIdx i).filterMap f) := by
  obtain ⟨inside, rfl⟩ := List.getElem?_eq_some_iff.mp found
  refine ((List.getElem_cons_eraseIdx_perm inside).symm.filterMap f).trans (.of_eq ?_)
  rw [List.filterMap_cons]
  cases f as[i] <;> rfl

theorem filterMap_set_perm (found : as[i]? = some a) :
    ((as.set i b).filterMap f).Perm ((f b).toList ++ (as.eraseIdx i).filterMap f) := by
  obtain ⟨inside, -⟩ := List.getElem?_eq_some_iff.mp found
  have there : (as.set i b)[i]? = some b := List.getElem?_set_self inside
  rw [← List.eraseIdx_set_eq (i := i) (a := b)]
  exact filterMap_perm_of_getElem? there

end Lists

/-! ## Steps -/

theorem Registry.perform_calls (r : Registry) (call : Call) :
    (r.perform call).2.calls = r.calls ++ [call.logged] := by
  rcases perform_inv r call with ⟨_, _, performed⟩ | ⟨_, _, _, performed, -⟩ <;> rw [performed]

theorem Job.perform_calls (job : Job) (r : Registry) :
    (job.perform r).2.calls = r.calls ++ [job.call.logged] := by
  rw [perform_snd, Registry.perform_calls]

namespace Activity

theorem inFlight_ofWork (work : Work) :
    (ofWork work).inFlight.Subperm (work.current.filterMap inFlight?) := by
  unfold ofWork
  split
  · exact List.nil_subperm
  · exact .refl _

theorem inFlight_settle (event : Option DeploymentEvent) (work : Work) :
    (settle event work).inFlight.Subperm (work.current.filterMap inFlight?) := by
  cases event with
  | none => exact inFlight_ofWork work
  | some e => exact .refl _

/-- A job that fails is not in flight any more. -/
theorem inFlight_fail (listed : work.current[place]? = some (job, progress)) (e : OrchestrationError) :
    (fail place job e work).inFlight.Subperm
      ((work.current.eraseIdx place).filterMap inFlight?) := by
  unfold fail
  split
  · exact (inFlight_ofWork _).trans (filterMap_set_perm listed).subperm
  · exact List.nil_subperm

/-- A call that is answered was in flight. -/
theorem subperm_of_answered {attempt : Nat} {rest : List Job}
    (listed : work.current[place]? = some (job, .underway attempt))
    (others : rest.Subperm ((work.current.eraseIdx place).filterMap inFlight?)) :
    (job :: rest).Subperm (working work).inFlight := by
  have before : (working work).inFlight.Perm
      (job :: (work.current.eraseIdx place).filterMap inFlight?) := filterMap_perm_of_getElem? listed
  exact ((List.subperm_append_left [job]).mpr others).trans before.symm.subperm

/-- What is answered in a step and what is in flight after it was issued in the step or in flight
before. -/
theorem Step.balance (step : Step settings index stages activity w made activity' w') :
    ((made.bind Contact.answer?).toList ++ activity'.inFlight).Subperm
      ((made.bind Contact.issue?).toList ++ activity.inFlight) := by
  cases step with
  | breakDown | start | finish | close => exact List.nil_subperm
  | @withhold work _ place _ _ listed =>
    have others : ((work.current.eraseIdx place).filterMap inFlight?).Sublist (working work).inFlight :=
      (List.eraseIdx_sublist ..).filterMap _
    exact (inFlight_fail listed _).trans others.subperm
  | @issue work _ place _ _ listed =>
    have others : ((work.current.eraseIdx place).filterMap inFlight?).Sublist (working work).inFlight :=
      (List.eraseIdx_sublist ..).filterMap _
    exact (filterMap_set_perm listed).subperm.trans ((List.subperm_append_left _).mpr others.subperm)
  | succeed listed => exact subperm_of_answered listed (inFlight_settle ..)
  | again listed => exact subperm_of_answered listed (filterMap_set_perm listed).subperm
  | giveUp listed => exact subperm_of_answered listed (inFlight_fail listed _)
  | announce => exact inFlight_ofWork _
  | @enter _ _ stage =>
    have nothing : (stage.map fun job => (job, JobProgress.ready 1)).filterMap inFlight? = [] := by
      rw [List.filterMap_map]
      exact List.filterMap_eq_nil_iff.mpr fun _ _ => rfl
    exact (List.Perm.of_eq nothing).subperm

/-- Whoever sees that the deployment is cancelled does not issue a call. -/
theorem Step.halted (step : Step settings index stages activity w made activity' w')
    (cancelled : w.cancelled = true) : w'.cancelled = true ∧ made.bind Contact.issue? = none := by
  cases step with
  | issue _ running => simp [running] at cancelled
  | start | announce | close => exact ⟨by simp [World.record, cancelled], rfl⟩
  | _ => exact ⟨cancelled, rfl⟩

/-- The backend keeps a log of the calls that it answers, and is left alone otherwise. -/
theorem Step.calls (step : Step settings index stages activity w made activity' w') :
    w'.registry.calls = w.registry.calls ++
      (made.bind Contact.answer?).toList.map (·.call.logged) ∧
      (made.bind Contact.answer? = none → w'.registry = w.registry) := by
  cases step with
  | @succeed _ _ _ _ job _ _ _ performed | @again _ _ _ _ job _ _ _ performed
  | @giveUp _ _ _ _ job _ _ _ performed =>
    have logged := job.perform_calls w.registry
    rw [performed] at logged
    exact ⟨logged, nofun⟩
  | _ => exact ⟨by simp [World.record, Contact.answer?], fun _ => rfl⟩

end Activity

/-! ## Runs -/

theorem contactsOf_append (log more : List (Nat × Contact)) (place : Nat) :
    contactsOf (log ++ more) place = contactsOf log place ++ contactsOf more place := by
  simp [contactsOf]

theorem filterMap_contactsOf_made {α : Type} (f : Contact → Option α) (made : Option Contact)
    (place : Nat) :
    (contactsOf (made.map (place, ·)).toList place).filterMap f = (made.bind f).toList := by
  have own := contactsOf_snoc [] place made
  rw [List.nil_append] at own
  rw [own]
  cases made with
  | none => rfl
  | some contact =>
    simp only [contactsOf, List.filter_nil, List.map_nil, List.nil_append, Option.toList_some,
      List.filterMap_cons, List.filterMap_nil, Option.bind_some]
    cases f contact <;> rfl

theorem filterMap_contactsOf_made_of_ne {α : Type} (f : Contact → Option α) (made : Option Contact)
    {place other : Nat} (different : other ≠ place) :
    (contactsOf (made.map (place, ·)).toList other).filterMap f = [] := by
  have others := @contactsOf_snoc_of_ne place other [] different made
  rw [List.nil_append] at others
  rw [others]
  rfl

namespace Recorded

/-- How a run accounts for the calls of all components, with `more` as what has been added to the
log. -/
structure Accounted (s s' : Recorded) (more : List (Nat × Contact)) : Prop where
  log : s'.log = s.log ++ more
  balance : ∀ place, (answeredBy more place ++ s'.inFlight place).Subperm
    (issuedBy more place ++ s.inFlight place)
  halted : s.deployment.world.cancelled = true →
    s'.deployment.world.cancelled = true ∧ ∀ place, issuedBy more place = []

theorem Accounted.refl (s : Recorded) : s.Accounted s [] where
  log := (List.append_nil _).symm
  balance := fun _ => .refl _
  halted := fun cancelled => ⟨cancelled, fun _ => rfl⟩

theorem Accounted.trans (first : s.Accounted s' more) (second : s'.Accounted s'' more') :
    s.Accounted s'' (more ++ more') where
  log := by rw [second.log, first.log, List.append_assoc]
  balance := by
    intro place
    rw [answeredBy, issuedBy, contactsOf_append, List.filterMap_append, List.filterMap_append]
    change ((answeredBy more place ++ answeredBy more' place) ++ s''.inFlight place).Subperm
      ((issuedBy more place ++ issuedBy more' place) ++ s.inFlight place)
    -- Calls that are answered later may be in flight in between: there the two accounts cancel.
    have later := (List.subperm_append_left (answeredBy more place)).mpr (second.balance place)
    have earlier := (List.subperm_append_left (issuedBy more' place)).mpr (first.balance place)
    rw [List.append_assoc]
    refine later.trans ?_
    refine (List.perm_append_comm_assoc ..).subperm.trans (earlier.trans ?_)
    rw [List.append_assoc]
    exact (List.perm_append_comm_assoc ..).subperm
  halted := by
    intro cancelled
    obtain ⟨between, nothing⟩ := first.halted cancelled
    obtain ⟨after, nothing'⟩ := second.halted between
    refine ⟨after, fun place => ?_⟩
    rw [issuedBy, contactsOf_append, List.filterMap_append]
    exact List.append_eq_nil_iff.mpr ⟨nothing place, nothing' place⟩

/-- Where no component moves, nothing needs to be accounted for. -/
theorem Accounted.aside {d : Deployment} {world : World}
    (later : d.world.cancelled = true → world.cancelled = true) :
    Accounted ⟨d, log⟩ ⟨⟨d.runners, world⟩, log⟩ [] where
  log := (List.append_nil _).symm
  balance := fun _ => .refl _
  halted := fun cancelled => ⟨later cancelled, fun _ => rfl⟩

theorem Moves.accounted (moves : Moves settings x s s') : ∃ more, s.Accounted s' more := by
  cases moves with
  | @step d log place turn r made activity world found step =>
    obtain ⟨inside, -⟩ := List.getElem?_eq_some_iff.mp found
    refine ⟨_, rfl, fun other => ?_, fun cancelled => ?_⟩
    · by_cases same : other = place
      · subst same
        rw [answeredBy, issuedBy, filterMap_contactsOf_made, filterMap_contactsOf_made, inFlight,
          inFlight, List.getElem?_set_self inside, found]
        exact step.balance
      · rw [answeredBy, issuedBy, filterMap_contactsOf_made_of_ne _ _ same,
          filterMap_contactsOf_made_of_ne _ _ same, inFlight, inFlight,
          List.getElem?_set_ne (Ne.symm same)]
    · obtain ⟨still, silent⟩ := step.halted cancelled
      refine ⟨still, fun other => ?_⟩
      by_cases same : other = place
      · subst same
        rw [issuedBy, filterMap_contactsOf_made, silent, Option.toList_none]
      · exact filterMap_contactsOf_made_of_ne _ _ same
  | @breakDown d log place r found task =>
    obtain ⟨inside, -⟩ := List.getElem?_eq_some_iff.mp found
    refine ⟨[], (List.append_nil _).symm, fun other => ?_, fun cancelled => ⟨cancelled, fun _ => rfl⟩⟩
    by_cases same : other = place
    · subst same
      rw [inFlight, List.getElem?_set_self inside]
      exact List.nil_subperm
    · rw [inFlight, inFlight, List.getElem?_set_ne (Ne.symm same)]
      exact .refl _
  | cancel => exact ⟨[], .aside fun _ => rfl⟩
  | call | inject => exact ⟨[], .aside id⟩

/-- The calls of a run are accounted for. -/
theorem befallAll?_accounted (befallen : s.befallAll? settings incidents = some s') :
    ∃ more, s.Accounted s' more := by
  refine befallAll?_induction (fun s' => ∃ more, s.Accounted s' more) (fun _ => True) ⟨[], .refl s⟩
    (fun _ accounted moves => ?_) (fun _ _ => trivial) befallen
  obtain ⟨more, first⟩ := accounted
  obtain ⟨more', second⟩ := moves.accounted
  exact ⟨more ++ more', first.trans second⟩

/-- How the backend's own log of calls tells what a deployment has been answered when nobody else uses
the backend. -/
structure Logged (s s' : Recorded) (more : List (Nat × Contact)) : Prop where
  log : s'.log = s.log ++ more
  calls : s'.deployment.world.registry.calls = s.deployment.world.registry.calls ++
    (more.filterMap (·.2.answer?)).map (·.call.logged)
  untouched : more.filterMap (·.2.answer?) = [] →
    s'.deployment.world.registry = s.deployment.world.registry

theorem Logged.refl (s : Recorded) : s.Logged s [] where
  log := (List.append_nil _).symm
  calls := (List.append_nil _).symm
  untouched := fun _ => rfl

theorem Logged.trans (first : s.Logged s' more) (second : s'.Logged s'' more') :
    s.Logged s'' (more ++ more') where
  log := by rw [second.log, first.log, List.append_assoc]
  calls := by
    rw [second.calls, first.calls, List.append_assoc, List.filterMap_append, List.map_append]
  untouched := by
    intro nothing
    rw [List.filterMap_append, List.append_eq_nil_iff] at nothing
    exact (second.untouched nothing.2).trans (first.untouched nothing.1)

theorem Moves.logged (moves : Moves settings x s s') (own : x.Own) : ∃ more, s.Logged s' more := by
  cases moves with
  | @step d log place turn r made activity world found step =>
    have answers : ((made.map (place, ·)).toList.filterMap fun e => e.2.answer?) =
        (made.bind Contact.answer?).toList := by
      cases made with
      | none => rfl
      | some contact =>
        simp only [Option.map_some, Option.toList_some, List.filterMap_cons, List.filterMap_nil,
          Option.bind_some]
        cases contact.answer? <;> rfl
    obtain ⟨calls, untouched⟩ := step.calls
    refine ⟨_, rfl, by rw [answers]; exact calls, fun nothing => untouched ?_⟩
    rw [answers] at nothing
    exact Option.toList_eq_nil_iff.mp nothing
  | breakDown | cancel => exact ⟨[], (List.append_nil _).symm, (List.append_nil _).symm, fun _ => rfl⟩
  | call | inject => exact own.elim

theorem befallAll?_logged (befallen : s.befallAll? settings incidents = some s')
    (own : ∀ x ∈ incidents, x.Own) : ∃ more, s.Logged s' more := by
  refine befallAll?_induction (fun s' => ∃ more, s.Logged s' more) Incident.Own ⟨[], .refl s⟩
    (fun own logged moves => ?_) own befallen
  obtain ⟨more, first⟩ := logged
  obtain ⟨more', second⟩ := moves.logged own
  exact ⟨more ++ more', first.trans second⟩

end Recorded

end RestWiring
