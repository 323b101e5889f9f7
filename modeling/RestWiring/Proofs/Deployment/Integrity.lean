import Mathlib.Data.List.DropRight
import RestWiring.Proofs.Deployment.Calm
import RestWiring.Proofs.Deployment.Records

/-!
# Referential integrity

Whatever is asked of a registry, and whatever it refuses, its constructs refer to nothing that is not
there. Between two times that it is torn down constructs only grow, and each of them has been
reported as created once.
-/
namespace RestWiring

namespace Registry

/-! ## Requests -/

/-- What is asked of a registry. -/
inductive Request where
  | call (call : Call)
  /-- To create a construct unless it is there. -/
  | register (kind : ConstructKind) (name : String) (spec : Json)
  /-- To make calls fail. -/
  | inject (construct : String) (times : Option Nat)

/-- The construct that a request is to create, and what it is to be created from. -/
def Request.creation? : Request → Option (ConstructKey × Json)
  | .call (.create kind name spec) => some ((kind, name), spec)
  | .call (.getOrCreate topic config) => some ((.topic, topic), config.toJson.sorted)
  | .register kind name spec => some ((kind, name), spec)
  | _ => none

/-- What a request to create a construct is answered when the construct is there. -/
def Request.refusal : Request → Except ExecutorError Answer
  | .call (.create kind name _) => .error (.alreadyExists kind name)
  | _ => .ok (.registered .existing)

def serve (r : Registry) : Request → Except ExecutorError Answer × Registry
  | .call call => r.perform call
  | .register kind name spec => r.register (.create kind name spec)
  | .inject construct times => (.ok .done, r.inject construct times)

def serveAll (r : Registry) (requests : List Request) : Registry :=
  requests.foldl (fun r request => (r.serve request).2) r

/-- A request and how it was answered. -/
structure Exchange where
  request : Request
  answer : Except ExecutorError Answer

/-- The exchanges in which requests are served one after another. -/
def exchanges (r : Registry) : List Request → List Exchange
  | [] => []
  | request :: rest => ⟨request, (r.serve request).1⟩ :: exchanges (r.serve request).2 rest

namespace Exchange

/-- The construct that an exchange reports as created: one that a call creates, or one that a call
or a registration says is new. -/
def created? : Exchange → Option (ConstructKey × Json)
  | ⟨.call (.create kind name spec), .ok _⟩ => some ((kind, name), spec)
  | ⟨request, .ok (.registered .created)⟩ => request.creation?
  | _ => none

/-- What an exchange that reports a given construct as created has created it from. -/
def creationOf? (key : ConstructKey) (e : Exchange) : Option Json :=
  e.created?.bind fun (created, spec) => if created = key then some spec else none

/-- Whether an exchange has torn the stack down. -/
def tearsDown : Exchange → Bool
  | ⟨.call .tearDown, .ok _⟩ => true
  | _ => false

end Exchange

/-- The exchanges since the stack was last torn down. -/
def sinceTearDown (es : List Exchange) : List Exchange := es.rtakeWhile fun e => !e.tearsDown

theorem serveAll_append (r : Registry) (requests later : List Request) :
    r.serveAll (requests ++ later) = (r.serveAll requests).serveAll later :=
  List.foldl_append

theorem serveAll_concat (r : Registry) (requests : List Request) (request : Request) :
    r.serveAll (requests ++ [request]) = ((r.serveAll requests).serve request).2 :=
  r.serveAll_append requests [request]

theorem exchanges_concat (r : Registry) (requests : List Request) (request : Request) :
    r.exchanges (requests ++ [request]) =
      r.exchanges requests ++ [⟨request, ((r.serveAll requests).serve request).1⟩] := by
  induction requests generalizing r with
  | nil => rfl
  | cons first rest ih => exact congrArg (_ :: ·) (ih (r.serve first).2)

/-! ## What a request does -/

/-- The changes that a call can make to the record of a construct. -/
inductive Change (cs : Constructs) (record : ConstructRecord) : ConstructRecord → Prop
  | role (role : String) : Change cs record { record with role := some role }
  | trigger (spec : TriggerSpec) (function : record.kind = .function)
      (source : cs.contains (spec.source.construct, spec.name) = true) :
    Change cs record { record with triggers := appendNew record.triggers spec }
  | notification (topic : String) (params : NotifyParams) (function : record.kind = .function)
      (present : cs.contains (.topic, topic) = true) :
    Change cs record
      { record with notifications := appendNew record.notifications (topic, params) }
  | publisher (function : String) (topic : record.kind = .topic)
      (present : cs.contains (.function, function) = true) :
    Change cs record { record with publishers := SortedSet.add record.publishers function }

/-- What becomes of the constructs when a request is answered. -/
inductive Served (cs : Constructs) : Exchange → Constructs → Prop
  | unchanged {e : Exchange} (silent : e.created? = none) (kept : e.tearsDown = false) :
    Served cs e cs
  | created {request : Request} {key : ConstructKey} {spec : Json}
      (creation : request.creation? = some (key, spec)) (absent : cs.contains key = false) :
    Served cs ⟨request, .ok (.registered .created)⟩
      (store cs { kind := key.1, name := key.2, spec })
  | changed {e : Exchange} {key : ConstructKey} {record changed : ConstructRecord}
      (silent : e.created? = none) (kept : e.tearsDown = false)
      (found : cs.find? key = some record) (change : Change cs record changed) :
    Served cs e (store cs changed)
  | tornDown {e : Exchange} (silent : e.created? = none) (torn : e.tearsDown = true) :
    Served cs e ∅

section Steps

variable {cs cs' : Constructs} {call : Call} {deployed deployed' : Option Manifest}
  {answer : Answer}

theorem require_success {kind : ConstructKind} {name : String} {record : ConstructRecord}
    (success : require cs kind name = .ok record) : cs.find? (kind, name) = some record := by
  rcases Job.require_cases cs kind name with ⟨stored, found, equal⟩ | ⟨-, equal⟩
  · rw [equal] at success
    cases success
    exact found
  · rw [equal] at success
    cases success

/-- What a call that succeeds does to the constructs. -/
theorem served_of_effect (named : Named cs)
    (success : effect call cs deployed = .ok (answer, cs', deployed')) :
    Served cs ⟨.call call, .ok answer⟩ cs' := by
  have kind {key : ConstructKey} {record : ConstructRecord} (found : cs.find? key = some record) :
      record.kind = key.1 := congrArg Prod.fst (named _ _ found)
  have present {key : ConstructKey} {record : ConstructRecord}
      (found : cs.find? key = some record) : cs.contains key = true :=
    SortedMap.contains_iff.mpr ⟨record, found⟩
  cases call with
  | create kind name spec =>
    rw [effect] at success
    split at success
    · cases success
    · rename_i absent
      cases success
      have creation : (Request.call (.create kind name spec)).creation? =
          some ((kind, name), spec) := rfl
      exact .created creation (by simpa using absent)
  | getOrCreate topic config =>
    rw [effect] at success
    split at success
    · cases success
      exact .unchanged rfl rfl
    · rename_i absent
      cases success
      have creation : (Request.call (.getOrCreate topic config)).creation? =
          some ((.topic, topic), config.toJson.sorted) := rfl
      exact .created creation (by simpa using absent)
  | withRole =>
    obtain ⟨record, required, equal⟩ := bind_success_iff.mp success
    cases equal
    exact .changed rfl rfl (require_success required) (.role _)
  | trigger =>
    obtain ⟨source, source_required, success⟩ := bind_success_iff.mp success
    obtain ⟨record, required, equal⟩ := bind_success_iff.mp success
    cases equal
    have found := require_success required
    exact .changed rfl rfl found (.trigger _ (kind found) (present (require_success source_required)))
  | notify =>
    obtain ⟨topic, topic_required, success⟩ := bind_success_iff.mp success
    obtain ⟨record, required, equal⟩ := bind_success_iff.mp success
    cases equal
    have found := require_success required
    exact .changed rfl rfl found
      (.notification _ _ (kind found) (present (require_success topic_required)))
  | grantPublish =>
    obtain ⟨function, function_required, success⟩ := bind_success_iff.mp success
    obtain ⟨record, required, equal⟩ := bind_success_iff.mp success
    cases equal
    have found := require_success required
    exact .changed rfl rfl found
      (.publisher _ (kind found) (present (require_success function_required)))
  | compile | deploy | diff =>
    cases success
    exact .unchanged rfl rfl
  | tearDown =>
    cases success
    exact .tornDown rfl rfl

end Steps

variable {r : Registry} {request : Request} {key : ConstructKey}

theorem served_of_perform (named : Named r.constructs) (call : Call) :
    Served r.constructs ⟨.call call, (r.perform call).1⟩ (r.perform call).2.constructs := by
  have failed (e : ExecutorError) : Served r.constructs ⟨.call call, .error e⟩ r.constructs :=
    .unchanged (by cases call <;> rfl) (by cases call <;> rfl)
  rcases perform_inv r call with ⟨e, _, fails⟩ | ⟨_, _, _, succeeds, effect⟩
  · rw [fails]
    exact failed e
  · rw [succeeds]
    exact served_of_effect named effect

/-- What a request does to the constructs. -/
theorem served_of_serve (named : Named r.constructs) (request : Request) :
    Served r.constructs ⟨request, (r.serve request).1⟩ (r.serve request).2.constructs := by
  cases request with
  | call call => exact served_of_perform named call
  | inject => exact .unchanged rfl rfl
  | register kind name spec =>
    -- A registration that does not create the construct is answered by a creation that has not.
    have silent {answer : Except ExecutorError Answer}
        (created : Exchange.created? ⟨.call (.create kind name spec), answer⟩ = none) :
        Exchange.created? ⟨.register kind name spec, registration answer⟩ = none := by
      rcases answer with ⟨_ | _ | _⟩ | _
      · rfl
      · rfl
      · rfl
      · cases created
    have calm (answer : Except ExecutorError Answer) :
        Exchange.tearsDown ⟨.register kind name spec, answer⟩ = false := rfl
    have served := served_of_perform named (.create kind name spec)
    change Served r.constructs ⟨_, registration (r.perform (.create kind name spec)).1⟩
      (r.perform (.create kind name spec)).2.constructs
    generalize (r.perform (.create kind name spec)).1 = answer at served ⊢
    generalize (r.perform (.create kind name spec)).2.constructs = cs at served ⊢
    cases served with
    | unchanged created _ => exact .unchanged (silent created) (calm _)
    | created creation absent => exact .created creation absent
    | changed created _ found change => exact .changed (silent created) (calm _) found change
    | tornDown _ torn => cases torn

theorem perform_of_spared (call : Call) (spared : r.Spares call.logged.name) :
    ((r.perform call).1, (r.perform call).2.constructs) =
      match effect call r.constructs r.deployed with
      | .ok (answer, constructs, _) => (.ok answer, constructs)
      | .error e => (.error e, r.constructs) := by
  cases effect : effect call r.constructs r.deployed with
  | ok done => rw [perform_succeeds spared effect]
  | error e => rw [perform_fails spared effect]

/-- What a request to create a construct comes to when no injected failure strikes it. -/
theorem serve_creation {spec : Json} (creation : request.creation? = some (key, spec))
    (spared : r.Spares key.2) :
    ((r.serve request).1, (r.serve request).2.constructs) =
      if r.constructs.contains key then (request.refusal, r.constructs)
      else (.ok (.registered .created), store r.constructs { kind := key.1, name := key.2, spec }) := by
  cases request with
  | inject => cases creation
  | register kind name spec =>
    cases creation
    obtain ⟨answered, left⟩ := Prod.mk.inj (perform_of_spared (.create kind name spec) spared)
    change (registration (r.perform (.create kind name spec)).1,
      (r.perform (.create kind name spec)).2.constructs) = _
    rw [answered, left, effect]
    cases r.constructs.contains (kind, name) <;> rfl
  | call call =>
    cases call with
    | create kind name spec =>
      cases creation
      rw [serve, perform_of_spared _ spared, effect]
      cases r.constructs.contains (kind, name) <;> rfl
    | getOrCreate topic config =>
      cases creation
      rw [serve, perform_of_spared _ spared, effect]
      cases r.constructs.contains (.topic, topic) <;> rfl
    | withRole | trigger | notify | grantPublish | compile | deploy | diff | tearDown =>
      cases creation

/-! ## Referring to what is there -/

/-- What holds of a record that stands under a key among some constructs. -/
structure Referring (cs : Constructs) (key : ConstructKey) (record : ConstructRecord) : Prop where
  own_key : (record.kind, record.name) = key
  triggers_function : record.triggers ≠ [] → record.kind = .function
  notifications_function : record.notifications ≠ [] → record.kind = .function
  publishers_topic : SortedSet.members record.publishers ≠ [] → record.kind = .topic
  sources_present :
    ∀ t ∈ record.triggers, cs.contains (t.source.construct, t.name) = true
  topics_present : ∀ n ∈ record.notifications, cs.contains (.topic, n.1) = true
  publishers_present :
    ∀ uid ∈ SortedSet.members record.publishers, cs.contains (.function, uid) = true
  triggers_nodup : record.triggers.Nodup
  notifications_nodup : record.notifications.Nodup

/-- Whether all records refer only to what is there. -/
def Sound (cs : Constructs) : Prop :=
  ∀ key record, cs.find? key = some record → Referring cs key record

theorem nodup_appendNew {α : Type} [DecidableEq α] {as : List α} (nodup : as.Nodup) (a : α) :
    (appendNew as a).Nodup := by
  unfold appendNew
  split
  · exact nodup
  · rename_i new
    exact List.concat_eq_append ▸ nodup.concat new

section Soundness

variable {cs cs' : Constructs} {record changed : ConstructRecord} {e : Exchange}

theorem Referring.of_created (cs : Constructs) (key : ConstructKey) (spec : Json) :
    Referring cs key { kind := key.1, name := key.2, spec } where
  own_key := rfl
  triggers_function wired := absurd rfl wired
  notifications_function wired := absurd rfl wired
  publishers_topic wired := absurd rfl wired
  sources_present := by simp
  topics_present := by simp
  publishers_present := by rintro uid ⟨⟩
  triggers_nodup := List.nodup_nil
  notifications_nodup := List.nodup_nil

/-- A record refers to what is there as long as nothing disappears. -/
theorem Referring.mono (referring : Referring cs key record)
    (kept : ∀ key, cs.contains key = true → cs'.contains key = true) :
    Referring cs' key record :=
  { referring with
    sources_present := fun t member => kept _ (referring.sources_present t member)
    topics_present := fun n member => kept _ (referring.topics_present n member)
    publishers_present := fun uid member => kept _ (referring.publishers_present uid member) }

theorem Referring.change (referring : Referring cs key record)
    (change : Change cs record changed) : Referring cs key changed := by
  cases change with
  | role role => exact { referring with }
  | trigger spec function source =>
    exact
      { referring with
        triggers_function := fun _ => function
        sources_present := fun t member =>
          (mem_appendNew.mp member).elim (fun same => same ▸ source) (referring.sources_present t)
        triggers_nodup := nodup_appendNew referring.triggers_nodup spec }
  | notification topic params function present =>
    exact
      { referring with
        notifications_function := fun _ => function
        topics_present := fun n member =>
          (mem_appendNew.mp member).elim (fun same => same ▸ present) (referring.topics_present n)
        notifications_nodup := nodup_appendNew referring.notifications_nodup (topic, params) }
  | publisher function topic present =>
    refine
      { referring with
        publishers_topic := fun _ => topic
        publishers_present := fun uid member => ?_ }
    rcases SortedSet.contains_add.mp (SortedSet.mem_members.mp member) with rfl | before
    · exact present
    · exact referring.publishers_present uid (SortedSet.mem_members.mpr before)

theorem Sound.empty : Sound ∅ := by
  rintro key record ⟨⟩

theorem Sound.named (sound : Sound cs) : Named cs := fun key record found =>
  (sound key record found).own_key

theorem Sound.store (sound : Sound cs) (referring : Referring cs key record) :
    Sound (store cs record) := by
  have kept (key : ConstructKey) (present : cs.contains key = true) :
      (Registry.store cs record).contains key = true :=
    SortedMap.contains_insert.mpr (.inr present)
  intro key' stored found
  rw [Registry.store, SortedMap.find?_insert] at found
  split at found
  · rename_i same
    cases found
    rw [same, referring.own_key]
    exact referring.mono kept
  · exact (sound key' stored found).mono kept

/-- Whatever is asked, records refer only to what is there. -/
theorem Sound.served (sound : Sound cs) (served : Served cs e cs') : Sound cs' := by
  cases served with
  | unchanged => exact sound
  | @created _ key spec => exact sound.store (.of_created cs key spec)
  | changed _ _ found change => exact sound.store ((sound _ _ found).change change)
  | tornDown => exact .empty

end Soundness

theorem sound_serveAll (sound : Sound r.constructs) (requests : List Request) :
    Sound (r.serveAll requests).constructs := by
  induction requests generalizing r with
  | nil => exact sound
  | cons request rest ih => exact ih (sound.served (served_of_serve sound.named request))

/-! ## Growing -/

/-- What becomes of a record while its construct is there. -/
structure Grown (record record' : ConstructRecord) : Prop where
  spec : record'.spec = record.spec
  triggers : record.triggers <+: record'.triggers
  notifications : record.notifications <+: record'.notifications
  publishers : SortedSet.members record.publishers ⊆ SortedSet.members record'.publishers

/-- Whether constructs are still there and have only grown. -/
def AllGrown (cs cs' : Constructs) : Prop :=
  ∀ key record, cs.find? key = some record →
    ∃ record', cs'.find? key = some record' ∧ Grown record record'

theorem prefix_appendNew {α : Type} [DecidableEq α] (as : List α) (a : α) :
    as <+: appendNew as a := by
  unfold appendNew
  split
  · exact List.prefix_refl as
  · exact List.prefix_append as [a]

section Growth

variable {cs cs' cs'' : Constructs} {record record' record'' : ConstructRecord} {e : Exchange}

theorem Grown.refl (record : ConstructRecord) : Grown record record :=
  ⟨rfl, List.prefix_refl _, List.prefix_refl _, List.Subset.refl _⟩

theorem Grown.trans (first : Grown record record') (second : Grown record' record'') :
    Grown record record'' where
  spec := second.spec.trans first.spec
  triggers := first.triggers.trans second.triggers
  notifications := first.notifications.trans second.notifications
  publishers := List.Subset.trans first.publishers second.publishers

theorem Grown.of_change (change : Change cs record record') : Grown record record' := by
  cases change with
  | role => exact { Grown.refl record with }
  | trigger spec => exact { Grown.refl record with triggers := prefix_appendNew _ spec }
  | notification topic params =>
    exact { Grown.refl record with notifications := prefix_appendNew _ (topic, params) }
  | publisher function =>
    refine { Grown.refl record with publishers := fun uid member => ?_ }
    rw [SortedSet.mem_members] at member ⊢
    exact SortedSet.contains_add.mpr (.inr member)

theorem AllGrown.refl (cs : Constructs) : AllGrown cs cs := fun _ record found =>
  ⟨record, found, .refl record⟩

theorem AllGrown.trans (first : AllGrown cs cs') (second : AllGrown cs' cs'') :
    AllGrown cs cs'' := by
  intro key record found
  obtain ⟨record', found', grown⟩ := first key record found
  obtain ⟨record'', found'', grown'⟩ := second key record' found'
  exact ⟨record'', found'', grown.trans grown'⟩

theorem Change.same_key (change : Change cs record record') :
    (record'.kind, record'.name) = (record.kind, record.name) := by
  cases change <;> rfl

/-- Short of tearing down the stack, no request makes a construct disappear or shrink. -/
theorem Served.grown (served : Served cs e cs') (named : Named cs) (kept : e.tearsDown = false) :
    AllGrown cs cs' := by
  cases served with
  | unchanged => exact .refl cs
  | tornDown _ torn =>
    rw [torn] at kept
    cases kept
  | @created _ new spec _ absent =>
    intro key record found
    have other : key ≠ new := by
      rintro rfl
      rw [SortedMap.contains_eq_false_iff, found] at absent
      cases absent
    exact ⟨record, (SortedMap.find?_insert_of_ne _ _ other).trans found, .refl record⟩
  | @changed _ touched _ _ _ _ stored change =>
    intro key record found
    rw [store, change.same_key, named _ _ stored]
    by_cases same : key = touched
    · subst same
      rw [stored] at found
      cases found
      exact ⟨_, SortedMap.find?_insert_self _ _ _, .of_change change⟩
    · exact ⟨record, (SortedMap.find?_insert_of_ne _ _ same).trans found, .refl record⟩

end Growth

theorem grown_serveAll (sound : Sound r.constructs) {requests : List Request}
    (kept : ∀ e ∈ r.exchanges requests, e.tearsDown = false) :
    AllGrown r.constructs (r.serveAll requests).constructs := by
  induction requests generalizing r with
  | nil => exact .refl _
  | cons request rest ih =>
    obtain ⟨first, later⟩ := List.forall_mem_cons.mp kept
    have served := served_of_serve sound.named request
    exact (served.grown sound.named first).trans (ih (sound.served served) later)

/-! ## Reporting creations -/

theorem created?_of_registered (request : Request) :
    Exchange.created? ⟨request, .ok (.registered .created)⟩ = request.creation? := by
  cases request with
  | call call => cases call <;> rfl
  | register => rfl
  | inject => rfl

theorem sinceTearDown_concat (es : List Exchange) (e : Exchange) :
    sinceTearDown (es ++ [e]) = if e.tearsDown then [] else sinceTearDown es ++ [e] := by
  rw [sinceTearDown, List.rtakeWhile_concat]
  cases e.tearsDown <;> rfl

/-- Since the stack was last torn down a construct that is there has been reported as created once,
from the spec that it has, and no other has been. -/
def Accounted (es : List Exchange) (cs : Constructs) : Prop :=
  ∀ key, (sinceTearDown es).filterMap (Exchange.creationOf? key) =
    ((cs.find? key).map (·.spec)).toList

theorem Accounted.served {es : List Exchange} {e : Exchange} {cs cs' : Constructs}
    (accounted : Accounted es cs) (named : Named cs) (served : Served cs e cs') :
    Accounted (es ++ [e]) cs' := by
  intro key
  rw [sinceTearDown_concat]
  have quiet (silent : e.created? = none) :
      (sinceTearDown es ++ [e]).filterMap (Exchange.creationOf? key) =
        ((cs.find? key).map (·.spec)).toList := by
    rw [List.filterMap_append, accounted key]
    simp [Exchange.creationOf?, silent]
  cases served with
  | unchanged silent kept =>
    rw [kept]
    exact quiet silent
  | tornDown _ torn =>
    rw [torn]
    rfl
  | @changed _ touched record changed silent kept stored change =>
    rw [kept]
    refine (quiet silent).trans ?_
    rw [store, change.same_key, named _ _ stored, SortedMap.find?_insert]
    split
    · rename_i same
      rw [same, stored, Option.map_some, Option.map_some, (Grown.of_change change).spec]
    · rfl
  | @created request new spec creation absent =>
    have calm : Exchange.tearsDown ⟨request, .ok (.registered .created)⟩ = false := by
      cases request with
      | call call => cases call <;> first | rfl | cases creation
      | register | inject => rfl
    rw [calm, if_neg (by simp), List.filterMap_append, accounted key, store,
      SortedMap.find?_insert]
    have reported : Exchange.creationOf? key ⟨request, .ok (.registered .created)⟩ =
        if new = key then some spec else none := by
      rw [Exchange.creationOf?, created?_of_registered, creation]
      rfl
    by_cases same : new = key
    · subst same
      rw [SortedMap.contains_eq_false_iff.mp absent]
      simp [reported]
    · simp [reported, same, Ne.symm same]

theorem accounted_serveAll (requests : List Request) :
    Accounted (exchanges {} requests) (serveAll {} requests).constructs := by
  induction requests using List.reverseRecOn with
  | nil => exact fun _ => rfl
  | append_singleton requests request ih =>
    rw [exchanges_concat, serveAll_concat]
    have named := (sound_serveAll (r := {}) .empty requests).named
    exact ih.served named (served_of_serve named request)

/-- Whatever has been asked of a registry that was empty at first, calls that failed included:

* records refer only to what is there, and stand under their own kind and name;
* whatever is asked next, no construct disappears or shrinks before the stack is torn down;
* since the stack was last torn down one exchange has reported each construct as created, from the
  spec that it has, and none has reported a construct that is not there;
* a request to create a construct that is there is answered that it exists and changes nothing,
  unless an injected failure strikes. -/
theorem serveAll_integrity (requests : List Request) :
    Sound (serveAll {} requests).constructs ∧
      (∀ later, (∀ e ∈ (serveAll {} requests).exchanges later, e.tearsDown = false) →
        AllGrown (serveAll {} requests).constructs (serveAll {} (requests ++ later)).constructs) ∧
      Accounted (exchanges {} requests) (serveAll {} requests).constructs ∧
      ∀ request key spec, request.creation? = some (key, spec) →
        (serveAll {} requests).constructs.contains key = true →
        (serveAll {} requests).Spares key.2 →
          ((serveAll {} requests).serve request).1 = request.refusal ∧
            ((serveAll {} requests).serve request).2.constructs =
              (serveAll {} requests).constructs := by
  have sound : Sound (serveAll {} requests).constructs := sound_serveAll .empty requests
  refine ⟨sound, fun later kept => ?_, accounted_serveAll requests, ?_⟩
  · rw [serveAll_append]
    exact grown_serveAll sound kept
  · intro request key spec creation present spared
    rw [← Prod.mk.injEq, serve_creation creation spared, if_pos present]

/-- A function that is fed by a queue and reports to a topic. A failure strikes it once. -/
def wired : List Request :=
  [.call (.create .queue "orders" .null), .register .function "ship" (.bool true),
    .call (.getOrCreate "done" {}), .call (.trigger "ship" ⟨[.success], .queue, "orders", ∅⟩),
    .call (.notify "ship" "done" ⟨[.success, .failure], "ship"⟩), .call (.grantPublish "done" "ship"),
    .inject "ship" (some 1), .call (.withRole .function "ship" "shipper")]

/-- Wires the function as it is, and then to one more queue. -/
def rewired : List Request :=
  [.call (.trigger "ship" ⟨[.success], .queue, "orders", ∅⟩),
    .call (.trigger "ship" ⟨[.failure], .queue, "returns", ∅⟩), .register .queue "returns" .null,
    .call (.trigger "ship" ⟨[.failure], .queue, "returns", ∅⟩)]

/-- The stack is torn down, and the queue is created from something else. -/
def rebuilt : List Request :=
  wired ++ [.call .tearDown, .register .queue "orders" (.bool false)]

/-- The constructs of a wired stack, what is told of them later, and what is left of them in the end. -/
theorem serveAll_integrity_wired :
    Sound (serveAll {} wired).constructs ∧
      ((serveAll {} wired).construct? .function "ship").map (fun c => (c.triggers, c.notifications)) =
        some ([⟨[.success], .queue, "orders", ∅⟩], [("done", ⟨[.success, .failure], "ship"⟩)]) ∧
      ((serveAll {} wired).construct? .topic "done").map (SortedSet.members ·.publishers) =
        some ["ship"] ∧
      AllGrown (serveAll {} wired).constructs (serveAll {} (wired ++ rewired)).constructs ∧
      ((serveAll {} (wired ++ rewired)).construct? .function "ship").map
          (·.triggers.map TriggerSpec.name) =
        some ["orders", "returns"] ∧
      ((serveAll {} wired).serve (.register .function "ship" .null)).1 =
        .ok (.registered .existing) ∧
      Accounted (exchanges {} rebuilt) (serveAll {} rebuilt).constructs ∧
      (serveAll {} rebuilt).constructs.keys = [(.queue, "orders")] ∧
      (exchanges {} rebuilt).filterMap (Exchange.creationOf? (.queue, "orders")) =
        [.null, .bool false] := by
  obtain ⟨sound, grows, -, refuses⟩ := serveAll_integrity wired
  obtain ⟨-, -, accounted, -⟩ := serveAll_integrity rebuilt
  have standing : ∀ e ∈ (serveAll {} wired).exchanges rewired, e.tearsDown = false := by
    decide +kernel
  -- The failure has struck, and none is left.
  have spared : (serveAll {} wired).Spares "ship" := by rfl
  obtain ⟨refused, -⟩ := refuses (.register .function "ship" .null) (.function, "ship") .null rfl
    (by decide +kernel) spared
  exact ⟨sound, by decide +kernel, by decide +kernel, grows rewired standing, by decide +kernel,
    refused, accounted, by decide +kernel, by rfl⟩

-- A stack that could not be torn down keeps its topic, and the topic is not created again.
example :
    ((exchanges {} [.register .topic "orders" .null, .inject "stack" (some 1), .call .tearDown,
        .register .topic "orders" (.bool true)]).map (Exchange.creationOf? (.topic, "orders"))) =
      [some .null, none, none, none] := by
  rfl

end Registry

end RestWiring
