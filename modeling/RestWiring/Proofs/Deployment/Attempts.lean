import Mathlib.Algebra.GroupWithZero.Nat
import Mathlib.Logic.Relation
import RestWiring.Deployment.Interleaving
import RestWiring.Proofs.Fallible

/-!
# Attempts as turns

A task that runs until it has to wait or is over takes turns all the while, each attempt at least
one. What it is left with is what the turns leave of its stage, job by job.
-/
namespace RestWiring

open Relation

variable {settings : DeploymentSettings} {index time fuel : Nat} {stages later : List (List Job)}
  {w w' : World}
  {orderly first : Bool} {before after current : List (Job × JobProgress)} {job : Job}

namespace Activity

/-- Whether turns of one component lead from one activity to another. -/
def Reaches (settings : DeploymentSettings) (index : Nat) (stages : List (List Job)) :
    Activity × World → Activity × World → Prop :=
  ReflTransGen fun s s' => ∃ turn, s.1.take? settings index stages turn s.2 = some s'

theorem Reaches.turn {s s' : Activity × World} (turn : TaskTurn)
    (taken : s.1.take? settings index stages turn s.2 = some s') :
    Reaches settings index stages s s' :=
  .single ⟨turn, taken⟩

/-- Whether a failure ends a stage with these jobs at once. -/
def Leads (current : List (Job × JobProgress)) : Prop :=
  ∀ job e, current.head? ≠ some (job, .failed e)

theorem ofWork_leads (leads : Leads current) :
    ofWork ⟨orderly, current, later⟩ = .working ⟨orderly, current, later⟩ := by
  unfold ofWork
  split
  · rename_i job e rest equal
    cases current with
    | nil => cases equal
    | cons x rest =>
      cases equal
      exact absurd rfl (leads job e)
  · rfl

/-- What comes of a stage when one of its jobs is done, waits or has failed. -/
def left (orderly : Bool) (before : List (Job × JobProgress)) (job : Job)
    (after : List (Job × JobProgress))
    (later : List (List Job)) : Option Unfinished → Activity
  | none => ofWork ⟨orderly, before ++ after, later⟩
  | some (.waiting next) => .working ⟨orderly, before ++ (job, .ready next.number) :: after, later⟩
  | some (.failed e) =>
    if orderly then ofWork ⟨orderly, before ++ (job, .failed e) :: after, later⟩
      else .closing (Task.statusOf e)

theorem fail_eq_left {progress : JobProgress} {e : OrchestrationError} :
    fail before.length job e ⟨orderly, before ++ (job, progress) :: after, later⟩ =
      left orderly before job after later (some (.failed e)) := by
  simp [fail, left]

end Activity

namespace Attempt

variable {a next : Attempt} {result : Option Unfinished}

/-- One attempt takes a turn that sees the cancellation, or the turns of a call and its event. -/
theorem once_reaches (attempted : a.once settings time w = (result, w')) (index : Nat)
    (stages : List (List Job))
    (orderly : Bool) (before after : List (Job × JobProgress)) (later : List (List Job)) :
    Activity.Reaches settings index stages
      (.working ⟨orderly, before ++ (a.job, .ready a.number) :: after, later⟩, w)
      (Activity.left orderly before a.job after later result, w') := by
  have listed (progress : JobProgress) :
      (before ++ (a.job, progress) :: after)[before.length]? = some (a.job, progress) := by simp
  unfold once at attempted
  split at attempted
  · rename_i cancelled
    cases attempted
    refine .turn (.issue before.length) ?_
    simp only [Activity.take?, Activity.issue?, listed, cancelled, if_true, Activity.fail_eq_left]
  · rename_i running
    have issued : Activity.Reaches settings index stages
        (.working ⟨orderly, before ++ (a.job, .ready a.number) :: after, later⟩, w)
        (.working ⟨orderly, before ++ (a.job, .underway a.number) :: after, later⟩, w) := by
      refine .turn (.issue before.length) ?_
      simp [Activity.take?, Activity.issue?, running]
    refine ReflTransGen.trans issued ?_
    split at attempted
    · rename_i answer registry performed
      have erased :
          (before ++ (a.job, JobProgress.underway a.number) :: after).eraseIdx before.length =
            before ++ after := by
        rw [List.eraseIdx_append_of_length_le (Nat.le_refl _)]
        simp
      split at attempted
      · rename_i e announced
        cases attempted
        refine ReflTransGen.head (b := (.announcing e ⟨orderly, before ++ after, later⟩,
          { w with registry }))
          ⟨.complete before.length, ?_⟩ (Activity.Reaches.turn .announce rfl)
        simp only [Activity.take?, Activity.complete?, listed, performed, announced, erased]
      · rename_i silent
        cases attempted
        refine Activity.Reaches.turn (.complete before.length) ?_
        simp only [Activity.take?, Activity.complete?, listed, performed, silent, erased,
          Activity.left]
    · rename_i e registry performed
      refine Activity.Reaches.turn (.complete before.length) ?_
      simp only [Activity.take?, Activity.complete?, listed, performed]
      split at attempted
      · rename_i repeated
        cases attempted
        simp [repeated, Activity.left]
      · rename_i final
        cases attempted
        simp only [final, Bool.false_eq_true, if_false, Activity.fail_eq_left]

/-- How many attempts a job may still make. -/
def weight (settings : DeploymentSettings) (a : Attempt) : Nat :=
  settings.retry.maxAttempts - a.number + 1

theorem once_waiting (attempted : a.once settings time w = (some (.waiting next), w')) :
    next.job = a.job ∧ next.weight settings < a.weight settings := by
  unfold once at attempted
  split at attempted
  · cases attempted
  · split at attempted
    · split at attempted <;> cases attempted
    · rename_i e registry performed
      split at attempted
      · rename_i repeated
        cases attempted
        simp only [RetryPolicy.repeats, Bool.and_eq_true, decide_eq_true_eq] at repeated
        refine ⟨rfl, ?_⟩
        simp only [weight]
        omega
      · cases attempted

theorem now_reaches (attempted : a.now settings time fuel w = (result, w')) (index : Nat)
    (stages : List (List Job))
    (orderly : Bool) (before after : List (Job × JobProgress)) (later : List (List Job)) :
    Activity.Reaches settings index stages
      (.working ⟨orderly, before ++ (a.job, .ready a.number) :: after, later⟩, w)
      (Activity.left orderly before a.job after later result, w') := by
  induction fuel generalizing a w with
  | zero => exact once_reaches attempted index stages orderly before after later
  | succ fuel ih =>
    rw [now] at attempted
    split at attempted
    · rename_i next w'' once
      have first := once_reaches once index stages orderly before after later
      split at attempted
      · have rest := ih attempted
        rw [(once_waiting once).1] at rest
        exact first.trans rest
      · cases attempted
        exact first
    · exact once_reaches attempted index stages orderly before after later

theorem now_waiting (attempted : a.now settings time fuel w = (some (.waiting next), w')) :
    next.job = a.job ∧ next.weight settings < a.weight settings := by
  induction fuel generalizing a w with
  | zero => exact once_waiting attempted
  | succ fuel ih =>
    rw [now] at attempted
    split at attempted
    · rename_i between w'' once
      obtain ⟨same, less⟩ := once_waiting once
      split at attempted
      · obtain ⟨same', less'⟩ := ih attempted
        exact ⟨same'.trans same, Nat.lt_trans less' less⟩
      · cases attempted
        exact ⟨same, less⟩
    · exact once_waiting attempted

end Attempt

/-! ## Stages -/

/-- How what is left of a job is listed between two turns. -/
inductive Unfinished.Listed : Unfinished → Job × JobProgress → Prop
  | waiting (a : Attempt) : Listed (.waiting a) (a.job, .ready a.number)
  | failed (job : Job) (e : OrchestrationError) : Listed (.failed e) (job, .failed e)

def Unfinished.weight (settings : DeploymentSettings) : Unfinished → Nat
  | .waiting a => a.weight settings
  | .failed _ => 0

/-- How many attempts the jobs of a list may still make. -/
def weightOf (settings : DeploymentSettings) (unfinished : List Unfinished) : Nat :=
  (unfinished.map (·.weight settings)).sum

namespace Stage

variable {unfinished rest : List Unfinished} {result : Except OrchestrationError (List Unfinished)}

/-- What is to be shown of the attempts at the jobs of a stage: the turns that they take lead to
what is left of the stage, or to the failure that ends it. -/
def Attempted (settings : DeploymentSettings) (index : Nat) (stages : List (List Job))
    (orderly : Bool)
    (before current : List (Job × JobProgress)) (later : List (List Job)) (w w' : World) :
    Except OrchestrationError (List Unfinished) → Prop
  | .ok rest =>
    ∃ current', List.Forall₂ Unfinished.Listed rest current' ∧ Activity.Leads (before ++ current') ∧
      Activity.Reaches settings index stages (.ofWork ⟨orderly, before ++ current, later⟩, w)
        (.working ⟨orderly, before ++ current', later⟩, w')
  | .error e =>
    Activity.Reaches settings index stages (.ofWork ⟨orderly, before ++ current, later⟩, w)
      (.closing (Task.statusOf e), w')

theorem Attempted.head {between : List (Job × JobProgress)} {w'' : World}
    (start : Activity.Reaches settings index stages (.ofWork ⟨orderly, before ++ current, later⟩, w)
      (.ofWork ⟨orderly, before ++ between, later⟩, w''))
    (attempted : Attempted settings index stages orderly before between later w'' w' result) :
    Attempted settings index stages orderly before current later w w' result := by
  cases result with
  | ok rest =>
    obtain ⟨current', listed, leads, reaches⟩ := attempted
    exact ⟨current', listed, leads, start.trans reaches⟩
  | error e => exact start.trans attempted

/-- A job that is kept stays in front of what comes of the jobs behind it. -/
theorem Attempted.keep {job : Unfinished} {x : Job × JobProgress}
    {outcome : Except OrchestrationError (List Unfinished) × World} (listed : job.Listed x)
    (attempted : Attempted settings index stages orderly (before ++ [x]) current later w
      outcome.2 outcome.1) :
    Attempted settings index stages orderly before (x :: current) later w (Stage.keep job outcome).2
      (Stage.keep job outcome).1 := by
  obtain ⟨result, w'⟩ := outcome
  cases result with
  | ok rest =>
    obtain ⟨current', listed', leads, reaches⟩ := attempted
    simp only [List.append_assoc, List.singleton_append] at leads reaches
    exact ⟨x :: current', .cons listed listed', leads, reaches⟩
  | error e =>
    simp only [Attempted, List.append_assoc, List.singleton_append] at attempted
    exact attempted

theorem leads_append {x : Job × JobProgress} (leads : Activity.Leads before)
    (passes : before = [] → ∀ e, x.2 ≠ .failed e) (behind : List (Job × JobProgress)) :
    Activity.Leads (before ++ x :: behind) := by
  intro job e head
  cases before with
  | nil =>
    cases head
    exact passes rfl e rfl
  | cons y before => exact leads job e head

theorem attemptAll_reaches (settings : DeploymentSettings) (index time : Nat)
    (stages : List (List Job)) (orderly : Bool)
    (later : List (List Job)) (first : Bool) (before : List (Job × JobProgress)) (w : World)
    (listed : List.Forall₂ Unfinished.Listed unfinished current)
    (leading : first = true ↔ before = []) (leads : Activity.Leads before) :
    Attempted settings index stages orderly before current later w
      (attemptAll settings time orderly first unfinished w).2
        (attemptAll settings time orderly first unfinished w).1 := by
  induction listed generalizing first before w with
  | nil =>
    refine ⟨[], .nil, by simpa using leads, ?_⟩
    rw [Activity.ofWork_leads (by simpa using leads)]
    exact .refl
  | @cons job x rest current listed _ ih =>
    have behind {x : Job × JobProgress} (passes : before = [] → ∀ e, x.2 ≠ .failed e) (w : World) :=
      ih false (before ++ [x]) w (by simp) (leads_append leads passes [])
    cases listed with
    | failed job e =>
      rw [attemptAll]
      split
      · rename_i holds
        rw [leading.mp holds]
        exact .refl
      · rename_i held
        exact (behind (fun empty => absurd (leading.mpr empty) held) w).keep (.failed job e)
    | waiting a =>
      have ready (number : Nat) :
          before = [] → ∀ e, (a.job, JobProgress.ready number).2 ≠ .failed e :=
        fun _ _ => JobProgress.noConfusion
      rw [attemptAll]
      split
      · exact (behind (ready a.number) w).keep (.waiting a)
      · generalize attempted : a.now settings time settings.retry.maxAttempts w = outcome
        obtain ⟨result, w''⟩ := outcome
        have reached := Attempt.now_reaches attempted index stages orderly before current later
        rw [← Activity.ofWork_leads (leads_append leads (ready a.number) current)] at reached
        cases result with
        | none => exact (ih first before w'' leading leads).head reached
        | some unfinished =>
          cases unfinished with
          | waiting next =>
            rw [Activity.left,
              ← Activity.ofWork_leads (leads_append leads (ready next.number) current)] at reached
            have listed := Unfinished.Listed.waiting next
            rw [(Attempt.now_waiting attempted).1] at listed
            exact ((behind (ready next.number) w'').keep listed).head reached
          | failed e =>
            simp only
            rw [Activity.left] at reached
            split
            · rename_i ends
              cases orderly with
              | false => exact reached
              | true =>
                rw [leading.mp (by simpa using ends)] at reached ⊢
                exact reached
            · rename_i held
              simp only [Bool.or_eq_true, Bool.not_eq_true', not_or, Bool.not_eq_true,
                Bool.not_eq_false] at held
              rw [if_pos held.2] at reached
              refine ((behind (fun empty => ?_) w'').keep (.failed a.job e)).head reached
              simp [leading.mpr empty] at held

/-- Whether an attempt at a job is due. -/
def HasDue (time : Nat) (unfinished : List Unfinished) : Prop :=
  ∃ a, .waiting a ∈ unfinished ∧ a.wake ≤ time

theorem keep_ok {job : Unfinished} {outcome : Except OrchestrationError (List Unfinished) × World}
    {kept : List Unfinished} (success : (Stage.keep job outcome).1 = .ok kept) :
    ∃ rest, outcome.1 = .ok rest ∧ kept = job :: rest := by
  obtain ⟨result, w'⟩ := outcome
  cases result with
  | ok rest =>
    cases success
    exact ⟨rest, rfl, rfl⟩
  | error e => cases success

/-- Every attempt that is made takes away from the weight of a stage. -/
theorem attemptAll_weight (success : (attemptAll settings time orderly first unfinished w).1 =
    .ok rest) :
    weightOf settings rest ≤ weightOf settings unfinished ∧
      (HasDue time unfinished → weightOf settings rest < weightOf settings unfinished) := by
  induction unfinished generalizing first w rest with
  | nil =>
    cases success
    exact ⟨Nat.le_refl _, by rintro ⟨a, ⟨⟩, -⟩⟩
  | cons job unfinished ih =>
    have held (undue : HasDue time (job :: unfinished) → HasDue time unfinished) {w : World}
        (kept : (Stage.keep job (attemptAll settings time orderly false unfinished w)).1 =
          .ok rest) :
        weightOf settings rest ≤ weightOf settings (job :: unfinished) ∧
          (HasDue time (job :: unfinished) →
            weightOf settings rest < weightOf settings (job :: unfinished)) := by
      obtain ⟨others, others_ok, rfl⟩ := keep_ok kept
      obtain ⟨less, fewer⟩ := ih others_ok
      simp only [weightOf, List.map_cons, List.sum_cons] at less fewer ⊢
      refine ⟨by omega, fun due => ?_⟩
      have := fewer (undue due)
      omega
    cases job with
    | failed e =>
      rw [attemptAll] at success
      split at success
      · cases success
      · refine held ?_ success
        rintro ⟨a, member, due⟩
        exact ⟨a, by simpa using member, due⟩
    | waiting a =>
      rw [attemptAll] at success
      split at success
      · rename_i early
        refine held ?_ success
        rintro ⟨b, member, due⟩
        rcases List.mem_cons.mp member with same | later
        · cases same
          omega
        · exact ⟨b, later, due⟩
      · generalize attempted : a.now settings time settings.retry.maxAttempts w = outcome at success
        obtain ⟨result, w''⟩ := outcome
        have positive : 0 < a.weight settings := Nat.succ_pos _
        suffices weightOf settings rest < weightOf settings (.waiting a :: unfinished) from
          ⟨Nat.le_of_lt this, fun _ => this⟩
        cases result with
        | none =>
          obtain ⟨less, -⟩ := ih success
          simp only [weightOf, List.map_cons, List.sum_cons, Unfinished.weight] at less ⊢
          omega
        | some left =>
          cases left with
          | waiting next =>
            obtain ⟨-, fewer⟩ := Attempt.now_waiting attempted
            obtain ⟨others, others_ok, rfl⟩ := keep_ok success
            obtain ⟨less, -⟩ := ih others_ok
            simp only [weightOf, List.map_cons, List.sum_cons, Unfinished.weight] at less ⊢
            omega
          | failed e =>
            simp only at success
            split at success
            · cases success
            · obtain ⟨others, others_ok, rfl⟩ := keep_ok success
              obtain ⟨less, -⟩ := ih others_ok
              simp only [weightOf, List.map_cons, List.sum_cons, Unfinished.weight] at less ⊢
              omega

/-- The attempts that are due in a stage take turns that lead to what is left of it, of less weight
than before if there were any, or to the failure that ends it. -/
theorem attempt_cases (settings : DeploymentSettings) (index time : Nat)
    (stages later : List (List Job)) {s : Stage}
    (listed : List.Forall₂ Unfinished.Listed s.unfinished current) (w : World) :
    (∃ rest w', s.attempt settings time w = (.ok { s with unfinished := rest }, w') ∧
      (∃ current', List.Forall₂ Unfinished.Listed rest current' ∧ Activity.Leads current' ∧
        Activity.Reaches settings index stages (.ofWork ⟨s.orderly, current, later⟩, w)
          (.working ⟨s.orderly, current', later⟩, w')) ∧
      weightOf settings rest ≤ weightOf settings s.unfinished ∧
      (HasDue time s.unfinished → weightOf settings rest < weightOf settings s.unfinished)) ∨
    ∃ e w', s.attempt settings time w = (.error e, w') ∧
      Activity.Reaches settings index stages (.ofWork ⟨s.orderly, current, later⟩, w)
        (.closing (Task.statusOf e), w') := by
  have attempted :=
    attemptAll_reaches settings index time stages s.orderly later true [] w listed (by simp)
    (by rintro _ _ ⟨⟩)
  have lighter (rest : List Unfinished)
      (success : (attemptAll settings time s.orderly true s.unfinished w).1 = .ok rest) :=
        attemptAll_weight success
  unfold attempt
  generalize attemptAll settings time s.orderly true s.unfinished w = outcome at attempted lighter
  obtain ⟨result, w'⟩ := outcome
  cases result with
  | ok rest => exact .inl ⟨rest, w', rfl, attempted, lighter rest rfl⟩
  | error e => exact .inr ⟨e, w', rfl, attempted⟩

end Stage

end RestWiring
