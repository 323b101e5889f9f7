import Mathlib.Data.List.Sort
import RestWiring.Proofs.Deployment.Deployed
import RestWiring.Proofs.Deployment.Tasks

/-!
# Schedules as turns

A deployment that runs its tasks one after another, each until it has to wait, takes turns like any
other: there is a list of turns that ends in the same report and leaves the same behind. What holds
of every list of turns therefore holds of it.
-/
namespace RestWiring

open Relation

section Ordering

variable {α : Type} {index : α → Nat} {as sorted : List α}

/-- Lists that ascend are told by what they hold. -/
theorem eq_of_ascending (index : α → Nat) (perm : as.Perm sorted)
    (ascending : as.Pairwise fun a b => index a < index b)
    (ascending' : sorted.Pairwise fun a b => index a < index b) : as = sorted :=
  List.Perm.eq_of_pairwise (fun _ _ _ _ first second =>
    absurd first (Nat.lt_asymm second)) ascending ascending' perm

/-- Whether an element is put in front of those that have a greater index. -/
structure Inserts (index : α → Nat) (insert : α → List α → List α) : Prop where
  nil : ∀ a, insert a [] = [a]
  cons : ∀ a b rest, insert a (b :: rest) =
    if index a ≤ index b then a :: b :: rest else b :: insert a rest

theorem exists_ascending (index : α → Nat) (as : List α) (apart : (as.map index).Nodup) :
    ∃ sorted, sorted.Perm as ∧ sorted.Pairwise (fun a b => index a < index b) ∧
      ∀ insert, Inserts index insert → as.foldr insert [] = sorted := by
  let before (a b : α) : Prop := index a ≤ index b
  have : Std.Total before := ⟨fun a b => Nat.le_total (index a) (index b)⟩
  have : IsTrans α before := ⟨fun _ _ _ => Nat.le_trans⟩
  have perm := List.perm_insertionSort before as
  have different : (List.insertionSort before as).Pairwise fun a b => index a ≠ index b :=
    List.pairwise_map.mp ((perm.map index).nodup_iff.mpr apart)
  have ascending := ((List.pairwise_insertionSort before as).and different).imp fun both =>
    Nat.lt_of_le_of_ne both.1 both.2
  refine ⟨_, perm, ascending, fun insert inserts => ?_⟩
  have same (a : α) (rest : List α) : insert a rest = List.orderedInsert before a rest := by
    induction rest with
    | nil => exact inserts.nil a
    | cons b rest ih =>
      rw [inserts.cons, ih]
      rfl
  exact congrArg (fun f => as.foldr f []) (funext fun a => funext (same a))

/-- Insertion gives the one order in which a list ascends. -/
theorem foldr_insert_eq {insert : α → List α → List α} (inserts : Inserts index insert)
    (perm : as.Perm sorted)
    (ascending : sorted.Pairwise fun a b => index a < index b) : as.foldr insert [] = sorted := by
  have apart : (as.map index).Nodup :=
    (perm.map index).nodup_iff.mpr (List.pairwise_map.mpr (ascending.imp Nat.ne_of_lt))
  obtain ⟨sorted', perm', ascending', equal⟩ := exists_ascending index as apart
  rw [equal insert inserts]
  exact eq_of_ascending index (perm'.trans perm) ascending' ascending

theorem inserts_insertReport : Inserts SubgraphReport.index insertReport :=
  ⟨fun _ => rfl, fun _ _ _ => rfl⟩

theorem inserts_insertEnded : Inserts EndedTask.index insertEnded :=
  ⟨fun _ => rfl, fun _ _ _ => rfl⟩

end Ordering

variable {settings : DeploymentSettings} {channel deploymentId : String} {g : OrchestrationGraph}
  {d d' d'' : Deployment}
  {w w' : World} {place fuel : Nat} {r : Runner}

namespace Deployment

/-- Whether turns, none of which cancels, lead from one deployment to another. -/
def Reaches (settings : DeploymentSettings) (d d' : Deployment) : Prop :=
  ∃ turns, .cancel ∉ turns ∧ d.takeAll? settings turns = some d'

theorem Reaches.refl (settings : DeploymentSettings) (d : Deployment) : Reaches settings d d :=
  ⟨[], List.not_mem_nil, rfl⟩

theorem takeAll?_append {first second : List Turn} :
    d.takeAll? settings (first ++ second) =
      (d.takeAll? settings first).bind (takeAll? settings second) := by
  induction first generalizing d with
  | nil => rfl
  | cons turn first ih =>
    rw [List.cons_append, takeAll?, takeAll?, Option.bind_assoc]
    exact congrArg _ (funext fun next => ih)

theorem Reaches.trans (first : Reaches settings d d') (second : Reaches settings d' d'') :
    Reaches settings d d'' := by
  obtain ⟨turns, uncancelled, taken⟩ := first
  obtain ⟨turns', uncancelled', taken'⟩ := second
  refine ⟨turns ++ turns', by simp [uncancelled, uncancelled'], ?_⟩
  rw [takeAll?_append, taken, Option.bind_some, taken']

/-- Turns of one component are turns of the deployment. -/
theorem Reaches.of_runner (found : d.runners[place]? = some r) {s : Activity × World}
    (reached : Activity.Reaches settings r.index r.stages (r.activity, d.world) s) :
    Reaches settings d ⟨d.runners.set place { r with activity := s.1 }, s.2⟩ := by
  obtain ⟨inside, rfl⟩ := List.getElem?_eq_some_iff.mp found
  unfold Activity.Reaches at reached
  induction reached with
  | refl =>
    have same : d.runners.set place d.runners[place] = d.runners := List.set_getElem_self inside
    exact ⟨[], List.not_mem_nil, by simp [takeAll?, same]⟩
  | tail _ step ih =>
    obtain ⟨turn, taken⟩ := step
    refine ih.trans ⟨[.task place turn], by simp, ?_⟩
    simp [takeAll?, Deployment.take?, Runner.take?, inside, taken]

end Deployment

/-! ## Standings -/

/-- What is known of the component at a place. -/
structure Standing where
  place : Nat
  holds : Runner → Prop

/-- Whether each place of a deployment is known once, and is as it is known. -/
def Deployment.StandsAs (d : Deployment) (standings : List Standing) : Prop :=
  (standings.map (·.place)).Perm (List.range d.runners.length) ∧
    ∀ s ∈ standings, ∃ r, d.runners[s.place]? = some r ∧ r.index = s.place ∧ s.holds r

namespace Deployment.StandsAs

variable {standings standings' rest : List Standing} {s : Standing}

theorem perm (stands : d.StandsAs standings) (same : standings'.Perm standings) :
    d.StandsAs standings' :=
  ⟨(same.map _).trans stands.1, fun s member => stands.2 s (same.subset member)⟩

theorem head (stands : d.StandsAs (s :: rest)) :
    ∃ r, d.runners[s.place]? = some r ∧ r.index = s.place ∧ s.holds r :=
  stands.2 s List.mem_cons_self

/-- Turns of one component change what is known of it and leave the others alone. -/
theorem move {activity : Activity} (stands : d.StandsAs (s :: rest)) (s' : Standing)
    (found : d.runners[s.place]? = some r) (index : r.index = s.place)
    (reached : Activity.Reaches settings s.place r.stages (r.activity, d.world) (activity, w))
    (same : s'.place = s.place) (holds : s'.holds { r with activity }) :
    ∃ d', Reaches settings d d' ∧ d'.world = w ∧ d'.StandsAs (s' :: rest) := by
  obtain ⟨places, known⟩ := stands
  rw [← index] at reached
  refine ⟨_, .of_runner found reached, rfl, ?_, fun other member => ?_⟩
  · rw [List.length_set, List.map_cons, same]
    exact places
  · obtain ⟨inside, -⟩ := List.getElem?_eq_some_iff.mp found
    rcases List.mem_cons.mp member with rfl | later
    · refine ⟨{ r with activity }, ?_, index.trans same.symm, holds⟩
      rw [same]
      exact List.getElem?_set_self inside
    · have nodup := places.nodup_iff.mpr List.nodup_range
      have different : s.place ≠ other.place := by
        intro equal
        rw [List.map_cons, List.nodup_cons, equal] at nodup
        exact nodup.1 (List.mem_map_of_mem later)
      obtain ⟨r', found', rest⟩ := known other (List.mem_cons_of_mem _ later)
      exact ⟨r', (List.getElem?_set_ne different).trans found', rest⟩

end Deployment.StandsAs

def Prospect.standing (p : Prospect) : Standing :=
  ⟨p.index, (· = .ofPlanned p.index p.component (.ok p.plan))⟩

def Task.standing (t : Task) : Standing :=
  ⟨t.index, fun r => r.plan = some t.plan ∧ t.Stands r.activity⟩

def EndedTask.standing (t : EndedTask) : Standing :=
  ⟨t.index, fun r => r.plan = t.plan ∧ r.activity = .over t.status⟩

namespace Schedule

variable {s : Schedule} {others : List Standing}

def standings (s : Schedule) : List Standing :=
  s.waiting.map Task.standing ++ s.ended.map EndedTask.standing

theorem standings_add_waiting (t : Task) :
    (s.add (.inl t, w)).standings.Perm (t.standing :: s.standings) := by
  simp only [add, standings, List.map_append, List.map_cons, List.map_nil, List.append_assoc,
    List.singleton_append]
  exact List.perm_middle

theorem standings_add_ended (t : EndedTask) :
    (s.add (.inr t, w)).standings.Perm (t.standing :: s.standings) := by
  simp only [add, standings, List.map_append, List.map_cons, List.map_nil, ← List.append_assoc]
  exact List.perm_append_singleton _ _

/-- How many attempts the tasks that wait may still make. -/
def weight (settings : DeploymentSettings) (s : Schedule) : Nat :=
  (s.waiting.map (·.cascade.weight settings)).sum

/-- Whether a deployment stands as a schedule does, other components aside. -/
structure Follows (s : Schedule) (others : List Standing) (d : Deployment) : Prop where
  world : d.world = s.world
  stands : d.StandsAs (s.standings ++ others)

/-- A task that starts takes turns. -/
theorem Follows.start (settings : DeploymentSettings) {p : Prospect}
    (follows : s.Follows (p.standing :: others) d) :
    ∃ d', d.Reaches settings d' ∧
      (s.add (Task.start settings p.index p.component p.plan s.world)).Follows others d' ∧
      (s.add (Task.start settings p.index p.component p.plan s.world)).weight settings ≤
        s.weight settings + (stages p.component p.plan).flatten.length *
          (settings.retry.maxAttempts + 1) := by
  have stands := follows.stands.perm List.perm_middle.symm
  obtain ⟨_, found, -, rfl⟩ := stands.head
  rw [← follows.world]
  rcases Task.start_cases settings p.index p.component p.plan d.world with
    ⟨t, w, activity, started, index, plan, standing, reached, light⟩ | ⟨status, w, started, reached⟩
  · rw [started]
    obtain ⟨d', reaches, world, stands'⟩ := stands.move t.standing found rfl reached index
      ⟨congrArg some plan.symm, standing⟩
    refine ⟨d', reaches, ⟨world, stands'.perm ((standings_add_waiting t).append_right _)⟩, ?_⟩
    simp only [weight, add, List.map_append, List.sum_append, List.map_cons, List.map_nil,
      List.sum_cons, List.sum_nil]
    omega
  · rw [started]
    obtain ⟨d', reaches, world, stands'⟩ :=
      stands.move (EndedTask.standing ⟨p.index, some p.plan, status⟩)
      found rfl reached rfl ⟨rfl, rfl⟩
    exact ⟨d', reaches, ⟨world, stands'.perm ((standings_add_ended _).append_right _)⟩,
      Nat.le_add_right _ _⟩

theorem Follows.startAll (settings : DeploymentSettings) {tasks : List Prospect}
    (follows : s.Follows (tasks.map Prospect.standing ++ others) d) :
    ∃ d', d.Reaches settings d' ∧
      (tasks.foldl (fun s p => s.add (Task.start settings p.index p.component p.plan s.world))
        s).Follows others d' ∧
      (tasks.foldl (fun s p => s.add (Task.start settings p.index p.component p.plan s.world))
        s).weight settings ≤
        s.weight settings +
          (tasks.flatMap fun p => (stages p.component p.plan).flatten).length *
            (settings.retry.maxAttempts + 1) := by
  induction tasks generalizing s d with
  | nil => exact ⟨d, .refl settings d, follows, Nat.le_add_right _ _⟩
  | cons p tasks ih =>
    obtain ⟨d', reaches, follows', light⟩ := follows.start settings
    obtain ⟨d'', reaches', follows'', light'⟩ := ih follows'
    refine ⟨d'', reaches.trans reaches', follows'', ?_⟩
    simp only [List.foldl_cons, List.flatMap_cons, List.length_append,
      Nat.add_mul] at light light' ⊢
    omega

/-- Ends a task that waits in a deployment that has been cancelled. -/
def giveUp (settings : DeploymentSettings) (s : Schedule) (t : Task) : Schedule :=
  s.add (.inr (Task.finish settings t.index t.plan .cancelled s.world).1,
    (Task.finish settings t.index t.plan .cancelled s.world).2)

theorem Follows.giveUp (settings : DeploymentSettings) {t : Task}
    (follows : s.Follows (t.standing :: others) d) (cancelled : s.world.cancelled = true) :
    ∃ d', d.Reaches settings d' ∧ (s.giveUp settings t).Follows others d' := by
  have stands := follows.stands.perm List.perm_middle.symm
  obtain ⟨r, found, index, plan, standing⟩ := stands.head
  rw [← follows.world] at cancelled
  obtain ⟨d', reaches, world, stands'⟩ := stands.move
    (EndedTask.standing ⟨t.index, some t.plan, some .cancelled⟩) found index
    (standing.cancel settings cancelled) rfl ⟨plan, rfl⟩
  rw [follows.world] at world
  exact ⟨d', reaches, ⟨world, stands'.perm ((standings_add_ended _).append_right _)⟩⟩

theorem Follows.giveUpAll (settings : DeploymentSettings) {tasks : List Task}
    (follows : s.Follows (tasks.map Task.standing ++ others) d)
    (cancelled : s.world.cancelled = true) :
    ∃ d', d.Reaches settings d' ∧ (tasks.foldl (Schedule.giveUp settings) s).Follows others d' ∧
      (tasks.foldl (Schedule.giveUp settings) s).waiting = s.waiting := by
  induction tasks generalizing s d with
  | nil => exact ⟨d, .refl settings d, follows, rfl⟩
  | cons t tasks ih =>
    obtain ⟨d', reaches, follows'⟩ := follows.giveUp settings cancelled
    have still : (s.giveUp settings t).world.cancelled = true := by
      simp [Schedule.giveUp, add, Task.finish, World.record, cancelled]
    obtain ⟨d'', reaches', follows'', waiting⟩ := ih follows' still
    exact ⟨d'', reaches.trans reaches', follows'', waiting⟩

/-- Tasks that wait when the deployment is cancelled take turns to end. -/
theorem Follows.abandon (settings : DeploymentSettings) (follows : s.Follows others d)
    (cancelled : s.world.cancelled = true) :
    ∃ d', d.Reaches settings d' ∧ (s.abandon settings).Follows others d' ∧
      (s.abandon settings).waiting = [] := by
  refine Follows.giveUpAll settings (s := { s with waiting := [] })
    ⟨follows.world, follows.stands.perm ?_⟩ cancelled
  simp only [standings, List.map_nil, List.nil_append, ← List.append_assoc]
  exact List.perm_append_comm.append_right _

theorem due_eq_none_iff {tasks : List Task} : due tasks = none ↔ tasks = [] := by
  cases tasks with
  | nil => simp [due]
  | cons t tasks =>
    rw [due]
    split
    · simp
    · split <;> simp

/-- The task that is due first is one of those that wait. -/
theorem due_perm {tasks rest : List Task} {t : Task} (found : due tasks = some (t, rest)) :
    tasks.Perm (t :: rest) := by
  induction tasks generalizing t rest with
  | nil => cases found
  | cons u tasks ih =>
    rw [due] at found
    split at found
    · rename_i none
      cases found
      rw [due_eq_none_iff.mp none]
    · rename_i v others first
      split at found
      · cases found
        exact ((ih first).cons u).trans (.swap ..)
      · cases found
        exact .refl _

/-- A round makes an attempt, by turns. -/
theorem Follows.round (settings : DeploymentSettings) {t : Task} {rest : List Task} {time : Nat}
    (follows : s.Follows others d) (found : due s.waiting = some (t, rest))
    (due : t.cascade.wake ≤ time) :
    ∃ d', d.Reaches settings d' ∧
      (add { s with waiting := rest, time } (t.proceed settings time s.world)).Follows others d' ∧
      (add { s with waiting := rest, time } (t.proceed settings time s.world)).weight settings <
        s.weight settings := by
  have waiting := due_perm found
  have heavier : s.weight settings =
      t.cascade.weight settings + (rest.map (·.cascade.weight settings)).sum := by
    rw [weight, (waiting.map _).sum_nat, List.map_cons, List.sum_cons]
  have stands : d.StandsAs (t.standing ::
    (({ s with waiting := rest, time } : Schedule).standings ++ others)) := by
    refine follows.stands.perm (List.Perm.symm ?_)
    exact ((waiting.map Task.standing).append_right _).append_right _
  obtain ⟨r, found, index, plan, standing⟩ := stands.head
  have attempts := standing.hasDue due
  have pos := standing.weight_pos settings
  obtain ⟨jobs, listed, leads, -, working⟩ := standing
  rw [← Activity.ofWork_leads leads] at working
  rw [← follows.world]
  rcases Task.proceed_cases settings time r.stages listed d.world with
    ⟨t', w, activity, proceeded, same, same', standing', reached, -, fewer⟩ |
      ⟨status, w, proceeded, reached⟩
  · rw [proceeded]
    rw [← working] at reached
    obtain ⟨d', reaches, world, stands'⟩ := stands.move t'.standing found index reached same
      ⟨by rw [same', ← plan], standing'⟩
    refine ⟨d', reaches, ⟨world, stands'.perm ((standings_add_waiting t').append_right _)⟩, ?_⟩
    have := fewer attempts
    simp only [weight, add, List.map_append, List.sum_append, List.map_cons, List.map_nil,
      List.sum_cons,
      List.sum_nil] at heavier ⊢
    omega
  · rw [proceeded]
    rw [← working] at reached
    obtain ⟨d', reaches, world, stands'⟩ := stands.move
      (EndedTask.standing ⟨t.index, some t.plan, some status⟩) found index reached rfl ⟨plan, rfl⟩
    refine ⟨d', reaches, ⟨world, stands'.perm ((standings_add_ended _).append_right _)⟩, ?_⟩
    simp only [weight, add] at heavier ⊢
    omega

/-- A schedule runs by turns until no task is left. -/
theorem Follows.run (follows : s.Follows others d) (enough : s.weight settings ≤ fuel) :
    ∃ d', d.Reaches settings d' ∧ (s.run settings fuel).Follows others d' ∧
      (s.run settings fuel).waiting = [] := by
  induction fuel generalizing s d with
  | zero =>
    refine ⟨d, .refl settings d, follows, ?_⟩
    rw [Schedule.run]
    cases waiting : s.waiting with
    | nil => rfl
    | cons t rest =>
      have member : t.standing ∈ s.standings ++ others := by simp [standings, waiting]
      obtain ⟨r, -, -, -, standing⟩ := follows.stands.2 _ member
      have pos := standing.weight_pos settings
      simp only [weight, waiting, List.map_cons, List.sum_cons] at enough
      omega
  | succ fuel ih =>
    rw [Schedule.run]
    split
    · rename_i cancelled
      exact follows.abandon settings cancelled
    · split
      · rename_i none
        exact ⟨d, .refl settings d, follows, due_eq_none_iff.mp none⟩
      · rename_i t rest found
        obtain ⟨d', reaches, follows', lighter⟩ := follows.round settings found
          (Nat.le_max_right s.time t.cascade.wake)
        obtain ⟨d'', reaches', follows'', idle⟩ := ih follows' (by omega)
        exact ⟨d'', reaches.trans reaches', follows'', idle⟩

end Schedule

/-! ## Deployments from beginning to end -/

def freshStanding (p : Nat × OrchestrationGraph × Except OrchestrationError SubgraphPlan) :
    Standing :=
  ⟨p.1, (· = .ofPlanned p.1 p.2.1 p.2.2)⟩

/-- At the beginning every component stands as its plan says. -/
theorem begin_stands (settings : DeploymentSettings) (channel : String) (g : OrchestrationGraph)
    (w : World) :
    (Deployment.begin settings channel g w).StandsAs ((g.planned channel).map freshStanding) := by
  refine ⟨?_, fun s member => ?_⟩
  · have places :
      ((g.planned channel).map freshStanding).map (·.place) = (g.planned channel).map (·.1) := by
      rw [List.map_map]
      rfl
    have length : (Deployment.begin settings channel g w).runners.length = g.components.length := by
      simp [Deployment.begin, OrchestrationGraph.planned]
    rw [places, OrchestrationGraph.planned_indices, length]
  · obtain ⟨p, listed, rfl⟩ := List.mem_map.mp member
    refine ⟨.ofPlanned p.1 p.2.1 p.2.2, ?_, ?_, rfl⟩
    · simp [Deployment.begin, freshStanding, OrchestrationGraph.getElem?_planned listed]
    · cases result : p.2.2 <;> rfl

/-- Components that cannot be planned are closed first, each by a turn. -/
theorem prospects_stands (settings : DeploymentSettings)
    {parts : List (Nat × OrchestrationGraph × Except OrchestrationError SubgraphPlan)}
    {others : List Standing} (stands : d.StandsAs (parts.map freshStanding ++ others)) :
    ∃ (d' : Deployment) (early : List EndedTask), d.Reaches settings d' ∧
      d'.world = (prospects settings false parts d.world).2.2 ∧
      d'.StandsAs ((prospects settings false parts d.world).2.1.map Prospect.standing ++
        (early.map EndedTask.standing ++ others)) ∧
      (prospects settings false parts d.world).1 = early.map EndedTask.report ∧
        ∀ t ∈ early, t.status ≠ none := by
  induction parts generalizing d others with
  | nil => exact ⟨d, [], .refl settings d, rfl, stands, rfl, by simp⟩
  | cons p parts ih =>
    obtain ⟨index, component, result⟩ := p
    cases result with
    | error e =>
      obtain ⟨_, found, -, rfl⟩ := stands.head
      have closed : Activity.Reaches settings index [] (.closing (.failed e), d.world)
          (.over (some (.failed e)), d.world.record settings (.subgraphFailed index e)) :=
            .turn .close rfl
      obtain ⟨d', reaches, world, stands'⟩ := stands.move
        (EndedTask.standing ⟨index, none, some (.failed e)⟩) found rfl closed rfl ⟨rfl, rfl⟩
      obtain ⟨d'', early, reaches', world', stands'', reports, final⟩ :=
        ih (stands'.perm List.perm_middle)
      rw [world] at world' stands'' reports
      refine ⟨d'', ⟨index, none, some (.failed e)⟩ :: early, reaches.trans reaches', world',
        stands''.perm ?_, ?_, ?_⟩
      · exact (List.Perm.append_left _ List.perm_middle.symm)
      · simp only [prospects, List.map_cons]
        exact congrArg _ reports
      · simpa using final
    | ok plan =>
      obtain ⟨d', early, reaches, world, stands', reports, final⟩ :=
        ih (stands.perm (List.perm_middle (a := freshStanding (index, component, .ok plan))))
      refine ⟨d', early, reaches, world, stands'.perm ?_, reports, final⟩
      simp only [prospects, Bool.false_eq_true, if_false, List.map_cons, List.cons_append,
        ← List.append_assoc]
      exact List.perm_middle.symm

/-- Components that are over are reported in order. -/
theorem ended_stands {ended : List EndedTask} (stands : d.StandsAs (ended.map EndedTask.standing)) :
    ∃ inOrder, d.runners.mapM Runner.ended? = some inOrder ∧ inOrder.Perm ended ∧
      inOrder.Pairwise fun t u => t.index < u.index := by
  obtain ⟨places, known⟩ := stands
  have indices : (ended.map EndedTask.standing).map (·.place) = ended.map (·.index) := by
    rw [List.map_map]
    rfl
  rw [indices] at places
  obtain ⟨inOrder, perm, ascending, -⟩ := exists_ascending EndedTask.index ended
    (places.nodup_iff.mpr List.nodup_range)
  have numbered : inOrder.map (·.index) = List.range d.runners.length :=
    eq_of_ascending id ((perm.map _).trans places) (List.pairwise_map.mpr ascending)
      List.pairwise_lt_range
  refine ⟨inOrder, mapM_eq_some_iff.mpr ?_, perm, ascending⟩
  have lengths : d.runners.length = inOrder.length := by
    simpa using (congrArg List.length numbered).symm
  refine List.forall₂_iff_get.mpr ⟨lengths, fun place inside inside' => ?_⟩
  have member : inOrder[place] ∈ ended := perm.subset (List.getElem_mem inside')
  obtain ⟨r, found, index, plan, closed⟩ := known _ (List.mem_map_of_mem member)
  have number : inOrder[place].index = place := by
    have same := congrArg (·[place]?) numbered
    simpa [inside', inside] using same
  have ends : r.ended? = some inOrder[place] := by
    rw [Runner.ended?, closed, index, plan]
    rfl
  have here : d.runners[place]? = some r := by rw [← found, EndedTask.standing, number]
  obtain ⟨_, equal⟩ := List.getElem?_eq_some_iff.mp here
  rw [← equal] at ends
  exact ends

/-- What is recorded at the end are the tasks that broke down. -/
theorem conclude_world (settings : DeploymentSettings) (ended : List EndedTask) (w : World) :
    (conclude settings ended w).2 =
      (ended.filter (·.status.isNone)).foldl
        (fun w t => w.record settings (.subgraphFailed t.index .task)) w := by
  induction ended generalizing w with
  | nil => rfl
  | cons t rest ih =>
    obtain ⟨index, plan, status⟩ := t
    cases status with
    | some status => simpa [conclude] using ih w
    | none => simpa [conclude] using ih _

/-- Tasks that are over when no other one is left are reported as the deployment does. -/
theorem outcome?_of_stands (settings : DeploymentSettings) {ended early : List EndedTask}
    (stands : d.StandsAs ((ended ++ early).map EndedTask.standing))
    (final : ∀ t ∈ early, t.status ≠ none) :
    ∃ inOrder, d.runners.mapM Runner.ended? = some inOrder ∧
      (conclude settings inOrder d.world).1 =
        (early.map EndedTask.report ++
          (conclude settings (ended.foldr insertEnded []) d.world).1).foldr insertReport [] ∧
      (conclude settings inOrder d.world).2 =
        (conclude settings (ended.foldr insertEnded []) d.world).2 := by
  obtain ⟨inOrder, closed, perm, ascending⟩ := ended_stands stands
  have apart : (ended.map (·.index)).Nodup := by
    have nodup : ((ended ++ early).map (·.index)).Nodup :=
      (perm.map _).nodup_iff.mp (List.pairwise_map.mpr (ascending.imp Nat.ne_of_lt))
    rw [List.map_append] at nodup
    exact nodup.of_append_left
  obtain ⟨sorted, sorted_perm, sorted_ascending, inserted⟩ :=
    exists_ascending EndedTask.index ended apart
  rw [inserted insertEnded inserts_insertEnded]
  refine ⟨inOrder, closed, ?_, ?_⟩
  · rw [(conclude_spec ..).1, (conclude_spec ..).1, ← List.map_append]
    refine (foldr_insert_eq inserts_insertReport ?_ ?_).symm
    · exact ((sorted_perm.append_left early).trans (List.perm_append_comm.trans perm.symm)).map _
    · exact List.pairwise_map.mpr ascending
  · have none_early : early.filter (·.status.isNone) = [] := by
      simpa [List.filter_eq_nil_iff] using final
    have same : inOrder.filter (·.status.isNone) = sorted.filter (·.status.isNone) := by
      refine eq_of_ascending EndedTask.index ?_ (ascending.filter _) (sorted_ascending.filter _)
      have filtered := perm.filter (·.status.isNone)
      rw [List.filter_append, none_early, List.append_nil] at filtered
      exact filtered.trans (sorted_perm.filter _).symm
    rw [conclude_world, conclude_world, same]

/-- A deployment is one of its interleavings. -/
theorem deploy_endsIn (settings : DeploymentSettings) (deploymentId channel : String)
    (g : OrchestrationGraph) (w : World) :
    ∃ turns, .cancel ∉ turns ∧ Deployment.EndsIn settings deploymentId channel g w turns
      ((deploy settings deploymentId false channel g w).1,
        (deploy settings deploymentId false channel g w).2.1) := by
  have fresh := begin_stands settings channel g w
  rw [← List.append_nil ((g.planned channel).map freshStanding)] at fresh
  obtain ⟨d, early, reaches, world, stands, reports, final⟩ := prospects_stands settings fresh
  generalize sorted_out :
      prospects settings false (g.planned channel)
        (Deployment.begin settings channel g w).world =
    outcome at world stands reports
  obtain ⟨early_reports, tasks, w'⟩ := outcome
  simp only [List.append_nil] at world stands reports
  have begun :
      Schedule.Follows { world := w' }
        (tasks.map Prospect.standing ++ early.map EndedTask.standing) d :=
    ⟨world, stands⟩
  obtain ⟨d', reaches', follows, light⟩ := begun.startAll settings
  have enough := light.trans (show _ ≤ roundLimit settings.retry tasks by
    simp only [roundLimit, Schedule.weight, List.map_nil, List.sum_nil, Nat.zero_add]
    exact Nat.mul_le_mul_right _ (Nat.le_succ _))
  obtain ⟨d'', reaches'', follows', idle⟩ := follows.run enough
  have stands' := follows'.stands
  rw [Schedule.standings, idle, List.map_nil, List.nil_append, ← List.map_append] at stands'
  obtain ⟨inOrder, closed, reported, recorded⟩ := outcome?_of_stands settings stands' final
  obtain ⟨turns, uncancelled, taken⟩ := reaches.trans (reaches'.trans reaches'')
  refine ⟨turns, uncancelled, d'', taken, ?_⟩
  have opened : prospects settings false (g.planned channel)
      (w.record settings (.deploymentStarted (g.planned channel).length false)) =
        (early_reports, tasks, w') := sorted_out
  rw [follows'.world, ← reports] at reported
  rw [follows'.world] at recorded
  simp only [Deployment.outcome?, closed, bind, Option.bind_some, follows'.world, reported,
    recorded, deploy, opened]
  rfl

end RestWiring
