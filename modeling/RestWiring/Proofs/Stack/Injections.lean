import RestWiring.Proofs.Deployment.Retrying
import RestWiring.Proofs.Stack.Refusals

/-!
# How injected failures are used up

The failures for a construct strike the calls that name it in the order in which they were injected:
one that passes as often as it was announced to, one that never passes for ever, so that those behind
it never strike. What is left of each of them is told by the number of strikes alone, whatever else has
been called or injected in between.
-/
namespace RestWiring

namespace Registry

variable {r : Registry} {request : Request} {call : Call} {c d : String} {k : Nat}
  {entries : List (Option Nat)} {failures : List InjectedFailure}

/-! ## What a history says -/

/-- The call that a request makes. -/
def Request.call? : Request → Option Call
  | .call call => some call
  | .register kind name spec => some (.create kind name spec)
  | .inject .. => none

/-- The construct that the call of a request names. -/
def Request.target? (request : Request) : Option String := request.call?.map (·.logged.name)

/-- What a request injects for a construct: so many failures that pass, or one that never passes. -/
def Request.injection? (c : String) : Request → Option (Option Nat)
  | .inject construct times => if construct = c then some times else none
  | _ => none

/-- The failures injected for a construct, in order. -/
def registered (c : String) (history : List Request) : List (Option Nat) :=
  history.filterMap (Request.injection? c)

/-- How often failures that pass are to strike: those ahead of the first that never passes. -/
def announced (entries : List (Option Nat)) : Nat :=
  ((entries.takeWhile Option.isSome).map (·.getD 0)).sum

/-- Whether an answer is a failure that may pass. -/
def passes : Except ExecutorError Answer → Bool
  | .error e => e.isRetryable
  | .ok _ => false

/-- How often calls that name a construct have failed with an error that may pass. -/
def strikesOn (c : String) (es : List Exchange) : Nat :=
  es.countP fun e => e.request.target? = some c && passes e.answer

/-! ## What is left of failures -/

/-- What failures for a construct have left, in order. -/
def counters (c : String) (failures : List InjectedFailure) : List (Option Nat) :=
  (failures.filter (·.construct = c)).map (·.remaining)

/-- What is left of failures after a number of strikes: they fall to the first as often as it is to
strike, then to the next, and never to those behind one that does not pass. -/
def leftOver : Nat → List (Option Nat) → List (Option Nat)
  | _, [] => []
  | _, none :: rest => none :: rest
  | k, some times :: rest => some (times - k) :: leftOver (k - times) rest

/-- The next strike: whether it passes, and what is left then. -/
def strike : List (Option Nat) → Option (Bool × List (Option Nat))
  | [] => none
  | none :: rest => some (false, none :: rest)
  | some (n + 1) :: rest => some (true, some n :: rest)
  | some 0 :: rest => (strike rest).map fun (again, rest) => (again, some 0 :: rest)

@[simp] theorem announced_nil : announced [] = 0 := rfl

@[simp] theorem announced_none : announced (none :: entries) = 0 := rfl

@[simp] theorem announced_some (times : Nat) :
    announced (some times :: entries) = times + announced entries := rfl

theorem announced_le_concat (entries : List (Option Nat)) (times : Option Nat) :
    announced entries ≤ announced (entries ++ [times]) := by
  induction entries with
  | nil => exact Nat.zero_le _
  | cons entry rest ih =>
    cases entry with
    | none => exact Nat.le_refl _
    | some n =>
      rw [List.cons_append, announced_some, announced_some]
      omega

/-- A failure that is injected has all its strikes left, as long as no more have fallen than were
announced. -/
theorem leftOver_concat (within : k ≤ announced entries) (times : Option Nat) :
    leftOver k (entries ++ [times]) = leftOver k entries ++ [times] := by
  induction entries generalizing k with
  | nil =>
    rw [announced_nil, Nat.le_zero] at within
    cases times <;> simp [leftOver, within]
  | cons entry rest ih =>
    cases entry with
    | none => rfl
    | some n =>
      rw [announced_some] at within
      rw [List.cons_append, leftOver, leftOver, ih (by omega), List.cons_append]

theorem length_leftOver (k : Nat) (entries : List (Option Nat)) :
    (leftOver k entries).length = entries.length := by
  induction entries generalizing k with
  | nil => rfl
  | cons entry rest ih =>
    cases entry with
    | none => rfl
    | some n => simp [leftOver, ih]

/-- Failures behind one that never passes are left as they were injected. -/
theorem leftOver_of_lasting (k : Nat) (ahead behind : List (Option Nat)) :
    leftOver k (ahead ++ none :: behind) = leftOver k ahead ++ none :: behind := by
  induction ahead generalizing k with
  | nil => rfl
  | cons entry rest ih =>
    cases entry with
    | none => rfl
    | some n => rw [List.cons_append, leftOver, leftOver, ih, List.cons_append]

/-- The next strike passes while fewer have fallen than were announced, and after these there is one
only if some failure never passes. -/
theorem strike_leftOver (k : Nat) (entries : List (Option Nat)) :
    strike (leftOver k entries) =
      if k < announced entries then some (true, leftOver (k + 1) entries)
      else if none ∈ entries then some (false, leftOver k entries) else none := by
  induction entries generalizing k with
  | nil => rfl
  | cons entry rest ih =>
    cases entry with
    | none => simp [leftOver, strike]
    | some times =>
      have member : none ∈ some times :: rest ↔ none ∈ rest := by simp
      simp only [leftOver, announced_some, member]
      -- A failure that has no strikes left passes the next one on to those behind it.
      cases left : times - k with
      | zero =>
        have shift : k + 1 - times = k - times + 1 := by omega
        have more : k < times + announced rest ↔ k - times < announced rest := by omega
        have none_left : times - (k + 1) = 0 := by omega
        rw [strike, ih, shift, none_left]
        simp only [more]
        split
        · rfl
        · split <;> rfl
      | succ n =>
        have more : k < times + announced rest := by omega
        have one_fewer : times - (k + 1) = n := by omega
        have shift : k + 1 - times = k - times := by omega
        rw [strike, if_pos more, one_fewer, shift]

/-! ## Calls and the failures that they see -/

/-- A call sees no failures but those for the construct that it names. -/
theorem useFailure_counters (c : String) (failures : List InjectedFailure) :
    (useFailure c failures).map (fun used => (used.1, counters c used.2)) =
      strike (counters c failures) := by
  induction failures with
  | nil => rfl
  | cons f rest ih =>
    by_cases named : f.construct = c
    · have first (rest : List InjectedFailure) :
          counters c (f :: rest) = f.remaining :: counters c rest := by simp [counters, named]
      rcases left : f.remaining with _ | _ | n
      · simp [useFailure, named, left, first, strike]
      · rw [useFailure_cons_of_exhausted fun _ => left, first, left, strike, ← ih, Option.map_map,
          Option.map_map]
        refine congrArg (Option.map · _) (funext fun used => ?_)
        simp [first, left]
      · simp [useFailure, named, left, counters, strike]
    · have others (rest : List InjectedFailure) : counters c (f :: rest) = counters c rest := by
        simp [counters, named]
      rw [useFailure_cons_of_exhausted fun same => absurd same named, others, ← ih, Option.map_map]
      refine congrArg (Option.map · _) (funext fun used => ?_)
      simp [others]

/-- A registry without the failures for a construct. -/
def without (r : Registry) (c : String) : Registry :=
  { r with failures := r.failures.filter (·.construct ≠ c) }

/-- A strike falls as well without the failures for another construct. -/
theorem useFailure_filter (different : d ≠ c) (failures : List InjectedFailure) :
    useFailure d (failures.filter (·.construct ≠ c)) =
      (useFailure d failures).map fun used => (used.1, used.2.filter (·.construct ≠ c)) := by
  induction failures with
  | nil => rfl
  | cons f rest ih =>
    -- A failure that can strike is for the construct that the call names, so it is not dropped.
    by_cases exhausted : f.construct = d → f.remaining = some 0
    · rw [useFailure_cons_of_exhausted exhausted, Option.map_map]
      by_cases other : f.construct = c
      · rw [List.filter_cons_of_neg (by simp [other]), ih]
        refine congrArg (Option.map · _) (funext fun used => ?_)
        simp [other]
      · rw [List.filter_cons_of_pos (by simp [other]), useFailure_cons_of_exhausted exhausted, ih,
          Option.map_map]
        refine congrArg (Option.map · _) (funext fun used => ?_)
        simp [other]
    · obtain ⟨named, live⟩ := Classical.not_imp.mp exhausted
      have other : f.construct ≠ c := named ▸ different
      rw [List.filter_cons_of_pos (by simp [other])]
      rcases left : f.remaining with _ | _ | n
      · simp [useFailure, named, left, different]
      · exact absurd left live
      · simp [useFailure, named, left, different]

/-- A strike takes nothing from the failures for another construct. -/
theorem counters_of_struck {again : Bool} {left : List InjectedFailure} (different : d ≠ c)
    (struck : useFailure d failures = some (again, left)) : counters c left = counters c failures := by
  obtain ⟨before, f, after, rfl, named, ⟨-, -, rfl⟩ | ⟨n, -, -, rfl⟩⟩ := useFailure_cases struck
  · rfl
  · have other : f.construct ≠ c := named ▸ different
    simp [counters, other]

theorem without_spares (r : Registry) (c : String) : (r.without c).Spares c :=
  useFailure_eq_none_iff.mpr fun f member named => by
    simp [without, named] at member

/-- What a request that makes a call answers when the call has been answered. -/
def Request.report : Request → Except ExecutorError Answer → Except ExecutorError Answer
  | .register .. => registration
  | .call _ | .inject .. => id

theorem Request.report_backend (request : Request) (name message : String) (again : Bool) :
    request.report (.error (.backend name message again)) = .error (.backend name message again) := by
  cases request <;> rfl

theorem Request.of_report_backend {answer : Except ExecutorError Answer} {name message : String}
    {again : Bool} (reports : request.report answer = .error (.backend name message again)) :
    answer = .error (.backend name message again) := by
  cases request with
  | call | inject => exact reports
  | register =>
    rcases answer with (_ | _ | _) | _ <;> first | exact reports | cases reports

theorem exists_call_of_target (names : request.target? = some c) :
    ∃ call, call.logged.name = c ∧ ∀ r : Registry,
      r.serve request = (request.report (r.perform call).1, (r.perform call).2) := by
  obtain ⟨call, makes, named⟩ := Option.map_eq_some_iff.mp names
  refine ⟨call, named, fun r => ?_⟩
  cases request <;> cases makes <;> rfl

/-- A call that no injected failure strikes does not fail as if one had. -/
theorem perform_ne_backend (spared : r.Spares call.logged.name) (name message : String)
    (again : Bool) : (r.perform call).1 ≠ .error (.backend name message again) := by
  cases effect : effect call r.constructs r.deployed with
  | ok done =>
    rw [perform_succeeds spared effect]
    nofun
  | error e =>
    rw [perform_fails spared effect]
    rcases effect_error_iff.mp effect with ⟨_, _, _, -, -, rfl⟩ | ⟨_, -, rfl⟩ <;> nofun

theorem perform_of_strike {again : Bool} {left : List (Option Nat)}
    (struck : strike (counters call.logged.name r.failures) = some (again, left)) :
    (r.perform call).1 = .error (.backend call.logged.name "injected failure" again) ∧
      counters call.logged.name (r.perform call).2.failures = left := by
  rw [← useFailure_counters] at struck
  obtain ⟨⟨_, failures⟩, used, equal⟩ := Option.map_eq_some_iff.mp struck
  cases equal
  rw [perform_struck used]
  exact ⟨rfl, rfl⟩

/-- A call that nothing strikes goes as it does without the failures for some construct. -/
theorem perform_without (spared : r.Spares call.logged.name)
    (spared' : (r.without c).Spares call.logged.name) :
    (r.without c).perform call = ((r.perform call).1, (r.perform call).2.without c) ∧
      (r.perform call).2.failures = r.failures := by
  cases effect : effect call r.constructs r.deployed with
  | ok done =>
    rw [perform_succeeds spared effect, perform_succeeds spared' effect]
    exact ⟨rfl, rfl⟩
  | error e =>
    rw [perform_fails spared effect, perform_fails spared' effect]
    exact ⟨rfl, rfl⟩

/-- A call that names one construct goes as it does without the failures for another, and leaves these
as they are. -/
theorem perform_elsewhere (different : call.logged.name ≠ c) :
    (r.without c).perform call = ((r.perform call).1, (r.perform call).2.without c) ∧
      counters c (r.perform call).2.failures = counters c r.failures := by
  have filtered := useFailure_filter different r.failures
  cases struck : useFailure call.logged.name r.failures with
  | some used =>
    obtain ⟨again, left⟩ := used
    rw [struck] at filtered
    rw [perform_struck struck, perform_struck filtered]
    exact ⟨rfl, counters_of_struck different struck⟩
  | none =>
    rw [struck] at filtered
    obtain ⟨alike, kept⟩ := perform_without struck filtered
    exact ⟨alike, by rw [kept]⟩

/-! ## Requests -/

theorem serve_of_strike {again : Bool} {left : List (Option Nat)}
    (names : request.target? = some c) (struck : strike (counters c r.failures) = some (again, left)) :
    (r.serve request).1 = .error (.backend c "injected failure" again) ∧
      counters c (r.serve request).2.failures = left := by
  obtain ⟨call, rfl, served⟩ := exists_call_of_target names
  obtain ⟨answer, rest⟩ := perform_of_strike struck
  rw [served, answer, request.report_backend]
  exact ⟨rfl, rest⟩

theorem serve_of_spared (names : request.target? = some c)
    (spared : strike (counters c r.failures) = none) :
    (r.serve request).1 = ((r.without c).serve request).1 ∧
      (r.serve request).2.failures = r.failures := by
  obtain ⟨call, rfl, served⟩ := exists_call_of_target names
  have spares : r.Spares call.logged.name := by
    rwa [← useFailure_counters, Option.map_eq_none_iff] at spared
  obtain ⟨alike, kept⟩ := perform_without spares (r.without_spares _)
  rw [served, served, alike]
  exact ⟨rfl, kept⟩

theorem serve_elsewhere (names : request.target? = some d) (different : d ≠ c) :
    (r.without c).serve request = ((r.serve request).1, (r.serve request).2.without c) ∧
      counters c (r.serve request).2.failures = counters c r.failures := by
  obtain ⟨call, rfl, served⟩ := exists_call_of_target names
  obtain ⟨alike, kept⟩ := @perform_elsewhere r call c different
  rw [served, served, alike]
  exact ⟨rfl, kept⟩

/-- Without the failures for a construct no call that names it fails as if one had been injected. -/
theorem serve_without_ne_backend (names : request.target? = some c) (name message : String)
    (again : Bool) : ((r.without c).serve request).1 ≠ .error (.backend name message again) := by
  obtain ⟨call, rfl, served⟩ := exists_call_of_target names
  rw [served]
  exact fun reports =>
    perform_ne_backend (r.without_spares _) name message again (Request.of_report_backend reports)

theorem passes_without (names : request.target? = some c) :
    passes ((r.without c).serve request).1 = false := by
  cases answer : ((r.without c).serve request).1 with
  | ok => rfl
  | error e =>
    refine Bool.eq_false_iff.mpr fun again => ?_
    obtain ⟨name, message, rfl⟩ := ExecutorError.isRetryable_iff.mp again
    exact serve_without_ne_backend names name message true answer

theorem serve_spent (names : request.target? = some c) :
    Spent r.failures (r.serve request).2.failures := by
  obtain ⟨call, -, served⟩ := exists_call_of_target names
  rw [served]
  rcases perform_cases r call with ⟨_, _, refused, -, spent⟩ | ⟨_, _, _, done, -⟩
  · rw [refused]
    exact spent
  · rw [done]
    exact .nothing _

/-- What a call is answered, and what it leaves of the failures for the construct that it names, once a
number of strikes have fallen. -/
theorem serve_named (names : request.target? = some c)
    (left : counters c r.failures = leftOver k entries) :
    (r.serve request).1 =
        (if k < announced entries then .error (.backend c "injected failure" true)
        else if none ∈ entries then .error (.backend c "injected failure" false)
        else ((r.without c).serve request).1) ∧
      (passes (r.serve request).1 = true ↔ k < announced entries) ∧
      counters c (r.serve request).2.failures =
        leftOver (if k < announced entries then k + 1 else k) entries := by
  have next := strike_leftOver k entries
  rw [← left] at next
  by_cases more : k < announced entries
  · rw [if_pos more] at next
    obtain ⟨answer, rest⟩ := serve_of_strike names next
    rw [answer, rest, if_pos more, if_pos more]
    exact ⟨rfl, iff_of_true rfl more, rfl⟩
  · rw [if_neg more] at next
    by_cases lasting : none ∈ entries
    · rw [if_pos lasting] at next
      obtain ⟨answer, rest⟩ := serve_of_strike names next
      rw [answer, rest, if_neg more, if_neg more, if_pos lasting]
      exact ⟨rfl, iff_of_false Bool.false_ne_true more, left⟩
    · rw [if_neg lasting] at next
      obtain ⟨answer, kept⟩ := serve_of_spared names next
      rw [answer, kept, if_neg more, if_neg more, if_neg lasting, passes_without names]
      exact ⟨rfl, iff_of_false Bool.false_ne_true more, left⟩

theorem counters_inject (r : Registry) (c construct : String) (times : Option Nat) :
    counters c (r.inject construct times).failures =
      counters c r.failures ++ if construct = c then [times] else [] := by
  by_cases same : construct = c <;> simp [counters, inject, same]

/-! ## Histories -/

theorem strikesOn_concat (c : String) (es : List Exchange) (e : Exchange) :
    strikesOn c (es ++ [e]) =
      strikesOn c es + if e.request.target? = some c ∧ passes e.answer = true then 1 else 0 := by
  simp [strikesOn, List.countP_append, List.countP_singleton]

theorem registered_concat (c : String) (history : List Request) (request : Request) :
    registered c (history ++ [request]) =
      registered c history ++ (request.injection? c).toList := by
  rw [registered, List.filterMap_append]
  cases injected : request.injection? c <;> simp [registered, injected]

theorem injection?_of_target (names : request.target? = some d) : request.injection? c = none := by
  cases request with
  | call | register => rfl
  | inject => cases names

/-- However calls and injections follow one another, no more strikes have fallen than were announced,
and what is left of the failures is what these strikes leave. -/
theorem strikesOn_serveAll (history : List Request) (c : String) :
    strikesOn c (exchanges {} history) ≤ announced (registered c history) ∧
      counters c (serveAll {} history).failures =
        leftOver (strikesOn c (exchanges {} history)) (registered c history) := by
  induction history using List.reverseRecOn with
  | nil => exact ⟨Nat.le_refl 0, rfl⟩
  | append_singleton history request ih =>
    obtain ⟨within, left⟩ := ih
    rw [exchanges_concat, serveAll_concat, strikesOn_concat, registered_concat]
    dsimp only
    -- A request injects a failure, or makes a call that names this construct or another one.
    cases target : request.target? with
    | none =>
      cases request with
      | call | register => cases target
      | inject construct times =>
        rw [serve, counters_inject, left]
        by_cases same : construct = c
        · simp only [Request.injection?, same, if_true, Option.toList_some, reduceCtorEq, false_and,
            if_false, Nat.add_zero]
          exact ⟨within.trans (announced_le_concat _ _), (leftOver_concat within times).symm⟩
        · simp [Request.injection?, same, within]
    | some d =>
      rw [injection?_of_target target, Option.toList_none, List.append_nil]
      by_cases own : d = c
      · subst own
        obtain ⟨-, again, rest⟩ := serve_named target left
        simp only [again, rest, true_and]
        split
        · rename_i more
          exact ⟨more, rfl⟩
        · exact ⟨within, rfl⟩
      · rw [(serve_elsewhere target own).2, if_neg (by simp [own])]
        exact ⟨within, left⟩

/-- Injected failures strike exactly as announced, however calls and injections follow one another:

* a call that names a construct fails in a way that may pass while fewer of its calls have done so than
  were announced ahead of the first failure that never passes; then in a way that never passes if there
  is such a failure; and otherwise it is answered as if no failure had been injected for the construct,
  which is never what an injected failure answers;
* a call that names another construct goes as it does without these failures, and leaves them as they
  are;
* no more strikes have fallen than were announced, and what is left of the failures is what these
  strikes leave, so that those behind one that never passes are as they were injected;
* a call takes a strike only from a failure that has one left, and from one failure at most. -/
theorem injections_strike_as_announced (history : List Request) (c : String) :
    let r := serveAll {} history
    let entries := registered c history
    let fallen := strikesOn c (exchanges {} history)
    (∀ request, request.target? = some c →
      (r.serve request).1 =
          (if fallen < announced entries then .error (.backend c "injected failure" true)
          else if none ∈ entries then .error (.backend c "injected failure" false)
          else ((r.without c).serve request).1) ∧
        ∀ message again, ((r.without c).serve request).1 ≠ .error (.backend c message again)) ∧
      (∀ request d, request.target? = some d → d ≠ c →
        (r.without c).serve request = ((r.serve request).1, (r.serve request).2.without c) ∧
          counters c (r.serve request).2.failures = counters c r.failures) ∧
      (fallen ≤ announced entries ∧ counters c r.failures = leftOver fallen entries) ∧
      (∀ ahead behind, entries = ahead ++ none :: behind →
        ∃ spent, spent.length = ahead.length ∧ counters c r.failures = spent ++ none :: behind) ∧
      ∀ request d, request.target? = some d → Spent r.failures (r.serve request).2.failures := by
  intro r entries fallen
  obtain ⟨within, left⟩ := strikesOn_serveAll history c
  refine ⟨fun request names => ⟨(serve_named names left).1, serve_without_ne_backend names c⟩,
    fun request d names different => serve_elsewhere names different, ⟨within, left⟩, ?_,
    fun request d => serve_spent⟩
  intro ahead behind split
  refine ⟨leftOver fallen ahead, length_leftOver fallen ahead, left.trans ?_⟩
  change leftOver fallen entries = _
  rw [split, leftOver_of_lasting]

/-- A call to create a queue is struck once, and then for ever, whatever is announced later. -/
theorem injections_strike_as_announced_flaky :
    let create : Request := .register .queue "flaky" .null
    let history : List Request :=
      [.inject "flaky" (some 1), create, .inject "other" (some 3), .inject "flaky" none,
        .inject "flaky" (some 5)]
    let r := serveAll {} history
    (create.target? = some "flaky" ∧
      (r.serve create).1 = .error (.backend "flaky" "injected failure" false)) ∧
      counters "flaky" r.failures = [some 0, none, some 5] ∧
      Spent r.failures (r.serve create).2.failures := by
  intro create history r
  have announced := injections_strike_as_announced history "flaky"
  obtain ⟨answers, -, ⟨-, left⟩, -, spent⟩ := announced
  exact ⟨⟨rfl, (answers create rfl).1⟩, left, spent create "flaky" rfl⟩

end Registry

end RestWiring
