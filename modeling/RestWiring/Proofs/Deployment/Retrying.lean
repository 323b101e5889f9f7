import Mathlib.Data.List.Basic
import RestWiring.Deployment.Retry

/-!
# Repeated calls

A run of calls goes in rounds, and how many calls have been made determines where it stands: which call
is next, when it is made, and when the others were. A round repeats its call only after a failure that
may pass, while attempts are left, and when no cancellation comes before the wait is over. From this
follows how a run ends, whatever the calls answer and whenever it is cancelled, and however long the
timer takes to wait for a delay.
-/
namespace RestWiring

/-- Whether a cancellation comes before a time, or in the course of so many calls. -/
def Cancellation.Before (c : Cancellation) (calls time : Nat) : Prop :=
  c.after calls = true ∨ ∃ t, c.atTime = some t ∧ t < time

theorem Cancellation.interrupts_eq_none_iff {c : Cancellation} {calls now wake : Nat} :
    c.interrupts calls now wake = none ↔ ¬c.Before calls wake := by
  unfold interrupts Before
  cases c.after calls
  · cases c.atTime <;> simp
  · simp

theorem ExecutorError.isRetryable_iff {e : ExecutorError} :
    e.isRetryable = true ↔ ∃ construct message, e = .backend construct message true := by
  cases e <;> simp [isRetryable]

namespace RetryPolicy

variable {policy : RetryPolicy} {attempt : Nat} {e : ExecutorError}

theorem repeats_iff :
    policy.repeats attempt e = true ↔ e.isRetryable = true ∧ attempt < policy.maxAttempts := by
  simp [repeats]

/-- When the call is made that comes after so many others. Between two calls goes by what the timer
takes for the delay after the first of them. -/
def callTime (timer : Duration → Nat) (policy : RetryPolicy) : Nat → Nat
  | 0 => 0
  | calls + 1 => policy.callTime timer calls + timer (policy.backoff (calls + 1))

/-- Where a run stands that has made so many calls. -/
def standing (timer : Duration → Nat) (policy : RetryPolicy) (calls : Nat) : RetryState where
  attempt := calls + 1
  now := policy.callTime timer calls
  callTimes := (List.range calls).map (policy.callTime timer)

theorem callTimes_succ (timer : Duration → Nat) (policy : RetryPolicy) (calls : Nat) :
    (List.range calls).map (policy.callTime timer) ++ [policy.callTime timer calls] =
      (List.range (calls + 1)).map (policy.callTime timer) := by
  rw [List.range_succ, List.map_append, List.map_singleton]

end RetryPolicy

namespace Retry

variable {α : Type} {timer : Duration → Nat} {policy : RetryPolicy} {cancel : Cancellation}
  {operation : String} {script : Nat → Except ExecutorError α}
  {s s' : RetryState} {run : RetryRun α} {calls : Nat}

/-! ## A round -/

section Rounds

variable (timer : Duration → Nat) (policy : RetryPolicy) (cancel : Cancellation)
  (operation : String) (script : Nat → Except ExecutorError α)

/-- What a round comes to. -/
inductive Round (s : RetryState) : RetryRun α ⊕ RetryState → Prop
  | withheld (cancelled : cancel.after (s.attempt - 1) = true) :
    Round s (.inl ⟨s.callTimes, s.now, .error .cancelled⟩)
  | succeeded {a : α} (running : cancel.after (s.attempt - 1) = false)
      (answer : script s.attempt = .ok a) :
    Round s (.inl ⟨s.callTimes ++ [s.now], s.now, .ok a⟩)
  | gaveUp {e : ExecutorError} (running : cancel.after (s.attempt - 1) = false)
      (answer : script s.attempt = .error e) (final : policy.repeats s.attempt e = false) :
    Round s (.inl ⟨s.callTimes ++ [s.now], s.now, .error (.executor operation e)⟩)
  | interrupted {e : ExecutorError} (t : Nat) (running : cancel.after (s.attempt - 1) = false)
      (answer : script s.attempt = .error e) (repeated : policy.repeats s.attempt e = true)
      (cancelled : cancel.Before s.attempt (s.now + timer (policy.backoff s.attempt))) :
    Round s (.inl ⟨s.callTimes ++ [s.now], t, .error .cancelled⟩)
  | again {e : ExecutorError} (running : cancel.after (s.attempt - 1) = false)
      (answer : script s.attempt = .error e) (repeated : policy.repeats s.attempt e = true)
      (undisturbed : ¬cancel.Before s.attempt (s.now + timer (policy.backoff s.attempt))) :
    Round s (.inr ⟨s.attempt + 1, s.now + timer (policy.backoff s.attempt), s.callTimes ++ [s.now]⟩)

theorem round (s : RetryState) :
    Round timer policy cancel operation script s
      (retryRound timer policy cancel operation script s) := by
  unfold retryRound
  split
  · rename_i cancelled
    exact .withheld cancelled
  · rename_i running
    have running := Bool.eq_false_iff.mpr running
    dsimp only
    split
    · rename_i answer
      exact .succeeded running answer
    · rename_i answer
      split
      · rename_i repeated
        split
        · rename_i t interrupted
          refine .interrupted t running answer repeated (not_not.mp fun undisturbed => ?_)
          cases interrupted.symm.trans (Cancellation.interrupts_eq_none_iff.mpr undisturbed)
        · rename_i undisturbed
          exact .again running answer repeated (Cancellation.interrupts_eq_none_iff.mp undisturbed)
      · rename_i final
        exact .gaveUp running answer (Bool.eq_false_iff.mpr final)

/-- Where a run comes to stand. -/
inductive Reached : RetryState → Prop
  | start : Reached {}
  | next {s s' : RetryState} (reached : Reached s)
      (again : retryRound timer policy cancel operation script s = .inr s') : Reached s'

/-- Whether so many calls are all made and repeated. -/
structure Repeated (calls : Nat) : Prop where
  allowed : calls + 1 ≤ max 1 policy.maxAttempts
  failed : ∀ k < calls, ∃ e, script (k + 1) = .error e ∧ e.isRetryable = true
  running : ∀ k < calls, ¬cancel.Before k (policy.callTime timer k)
  undisturbed : 0 < calls → ¬cancel.Before calls (policy.callTime timer calls)

end Rounds

/-! ## The rounds of a run -/

/-- A call that is made is not too late for any cancellation. -/
theorem Repeated.running_now (repeated : Repeated timer policy cancel script calls)
    (running : cancel.after calls = false) : ¬cancel.Before calls (policy.callTime timer calls) := by
  rcases Nat.eq_zero_or_pos calls with rfl | made
  · rintro (seen | ⟨t, -, early⟩)
    · rw [running] at seen
      cases seen
    · exact Nat.not_lt_zero t early
  · exact repeated.undisturbed made

/-- A round that does not end the run makes and repeats one more call. -/
theorem Repeated.again (repeated : Repeated timer policy cancel script calls)
    (again : retryRound timer policy cancel operation script (policy.standing timer calls) = .inr s') :
    s' = policy.standing timer (calls + 1) ∧ Repeated timer policy cancel script (calls + 1) := by
  have round := again ▸ round timer policy cancel operation script (policy.standing timer calls)
  cases round with
  | again running answer repeats undisturbed =>
    obtain ⟨passes, allowed⟩ := RetryPolicy.repeats_iff.mp repeats
    refine ⟨congrArg (RetryState.mk _ _) (policy.callTimes_succ timer calls), ?_, ?_, ?_, ?_⟩
    · exact Nat.le_trans allowed (Nat.le_max_right ..)
    · exact Nat.forall_lt_succ_right.mpr ⟨repeated.failed, _, answer, passes⟩
    · exact Nat.forall_lt_succ_right.mpr ⟨repeated.running, repeated.running_now running⟩
    · exact fun _ => undisturbed

theorem Reached.repeated (reached : Reached timer policy cancel operation script s) :
    ∃ calls, s = policy.standing timer calls ∧ Repeated timer policy cancel script calls := by
  induction reached with
  | start => exact ⟨0, rfl, Nat.le_max_left .., by simp, by simp, by simp⟩
  | next _ again ih =>
    obtain ⟨calls, rfl, repeated⟩ := ih
    exact ⟨calls + 1, repeated.again again⟩

/-- A run comes to a last round. -/
theorem Reached.last (reached : Reached timer policy cancel operation script s) :
    ∃ last, Reached timer policy cancel operation script last ∧
      retryRound timer policy cancel operation script last =
        .inl (retryFrom timer policy cancel operation script s) := by
  induction s using retryFrom.induct timer policy cancel operation script with
  | case1 s run ends =>
    refine ⟨s, reached, ?_⟩
    rw [retryFrom, ends]
  | case2 s s' again ih =>
    obtain ⟨last, reached', ends⟩ := ih (reached.next again)
    refine ⟨last, reached', ?_⟩
    rw [retryFrom, again]
    exact ends

/-! ## How a run ends -/

section Ends

variable (timer : Duration → Nat) (policy : RetryPolicy) (cancel : Cancellation)
  (operation : String) (script : Nat → Except ExecutorError α)

/-- What comes of a run after so many calls. -/
inductive Ending : Nat → Except OrchestrationError α → Prop
  | withheld (cancelled : cancel.Before 0 0) : Ending 0 (.error .cancelled)
  | succeeded {k : Nat} {a : α} (answer : script (k + 1) = .ok a) : Ending (k + 1) (.ok a)
  | gaveUp {k : Nat} {e : ExecutorError} (answer : script (k + 1) = .error e)
      (final : e.isRetryable = false ∨ k + 1 = max 1 policy.maxAttempts) :
    Ending (k + 1) (.error (.executor operation e))
  | interrupted {k : Nat} {e : ExecutorError} (answer : script (k + 1) = .error e)
      (passes : e.isRetryable = true) (allowed : k + 1 ≠ max 1 policy.maxAttempts)
      (cancelled : cancel.Before (k + 1) (policy.callTime timer (k + 1))) :
    Ending (k + 1) (.error .cancelled)

/-- What holds of every run. -/
structure Contract (run : RetryRun α) : Prop where
  /-- The run ends, and it ends like this. -/
  ends : ∃ last, Reached timer policy cancel operation script last ∧
    retryRound timer policy cancel operation script last = .inl run
  /-- The number of the next call never goes beyond the greatest number of attempts. -/
  counted : ∀ s, Reached timer policy cancel operation script s → s.attempt ≤ max 1 policy.maxAttempts
  limited : run.callTimes.length ≤ max 1 policy.maxAttempts
  /-- Calls are as far apart as the delays between them last. -/
  spaced : run.callTimes = (List.range run.callTimes.length).map (policy.callTime timer)
  /-- A call is followed by another only if it failed in a way that may pass. -/
  repeated : ∀ k, 0 < k → k < run.callTimes.length →
    ∃ construct message, script k = .error (.backend construct message true)
  /-- No call is made after a cancellation. -/
  running : ∀ k < run.callTimes.length, ¬cancel.Before k (policy.callTime timer k)
  ok_iff : ∀ a, run.result = .ok a ↔
    0 < run.callTimes.length ∧ script run.callTimes.length = .ok a
  executor_iff : ∀ o e, run.result = .error (.executor o e) ↔
    o = operation ∧ 0 < run.callTimes.length ∧ script run.callTimes.length = .error e ∧
      (e.isRetryable = false ∨ run.callTimes.length = max 1 policy.maxAttempts)
  cancelled_iff : run.result = .error .cancelled ↔
    run.callTimes.length = 0 ∨ ∃ e, script run.callTimes.length = .error e ∧
      e.isRetryable = true ∧ run.callTimes.length ≠ max 1 policy.maxAttempts
  /-- A run is cancelled before its first call or before the wait after its last is over. -/
  cancelled : run.result = .error .cancelled →
    cancel.Before run.callTimes.length (policy.callTime timer run.callTimes.length)

end Ends

/-- What the last round of a run comes to. -/
theorem Repeated.ends (repeated : Repeated timer policy cancel script calls)
    (ends : retryRound timer policy cancel operation script (policy.standing timer calls) = .inl run) :
    ∃ n, Ending timer policy cancel operation script n run.result ∧
      run.callTimes = (List.range n).map (policy.callTime timer) ∧
      n ≤ max 1 policy.maxAttempts ∧ (∀ k, k + 1 < n → k < calls) ∧
      ∀ k < n, ¬cancel.Before k (policy.callTime timer k) := by
  have running (running : cancel.after calls = false) :
      ∀ k < calls + 1, ¬cancel.Before k (policy.callTime timer k) :=
    Nat.forall_lt_succ_right.mpr ⟨repeated.running, repeated.running_now running⟩
  have round := ends ▸ round timer policy cancel operation script (policy.standing timer calls)
  have times := policy.callTimes_succ timer calls
  cases round with
  | withheld cancelled =>
    rcases Nat.eq_zero_or_pos calls with rfl | made
    · exact ⟨0, .withheld (.inl cancelled), rfl, Nat.zero_le _, nofun, nofun⟩
    · exact absurd (.inl cancelled) (repeated.undisturbed made)
  | succeeded uncancelled answer =>
    exact ⟨calls + 1, .succeeded answer, times, repeated.allowed, fun _ => Nat.lt_of_succ_lt_succ,
      running uncancelled⟩
  | @gaveUp e uncancelled answer final =>
    refine ⟨calls + 1, .gaveUp answer ?_, times, repeated.allowed, fun _ => Nat.lt_of_succ_lt_succ,
      running uncancelled⟩
    have allowed := repeated.allowed
    cases passes : e.isRetryable with
    | false => exact .inl rfl
    | true =>
      have spent : ¬calls + 1 < policy.maxAttempts := fun allowed => by
        cases (RetryPolicy.repeats_iff.mpr ⟨passes, allowed⟩).symm.trans final
      right
      omega
  | interrupted t uncancelled answer repeats cancelled =>
    obtain ⟨passes, allowed⟩ := RetryPolicy.repeats_iff.mp repeats
    have less : calls + 1 < policy.maxAttempts := allowed
    exact ⟨calls + 1, .interrupted answer passes (by omega) cancelled, times, repeated.allowed,
      fun _ => Nat.lt_of_succ_lt_succ, running uncancelled⟩

section Endings

variable {n : Nat} {result : Except OrchestrationError α} {a : α} {o : String} {e : ExecutorError}

theorem Ending.ok_iff (ending : Ending timer policy cancel operation script n result) :
    result = .ok a ↔ 0 < n ∧ script n = .ok a := by
  cases ending with
  | withheld => simp
  | succeeded answer | gaveUp answer | interrupted answer => simp [answer]

theorem Ending.executor_iff (ending : Ending timer policy cancel operation script n result) :
    result = .error (.executor o e) ↔ o = operation ∧ 0 < n ∧ script n = .error e ∧
      (e.isRetryable = false ∨ n = max 1 policy.maxAttempts) := by
  cases ending with
  | withheld => simp
  | succeeded answer => simp [answer]
  | gaveUp answer final =>
    constructor
    · rintro ⟨⟩
      exact ⟨rfl, Nat.succ_pos _, answer, final⟩
    · rintro ⟨rfl, -, answer', -⟩
      cases answer.symm.trans answer'
      rfl
  | interrupted answer passes allowed =>
    refine ⟨nofun, ?_⟩
    rintro ⟨-, -, answer', final⟩
    cases answer.symm.trans answer'
    rcases final with lasts | spent
    · cases passes.symm.trans lasts
    · exact absurd spent allowed

theorem Ending.cancelled_iff (ending : Ending timer policy cancel operation script n result) :
    result = .error .cancelled ↔ n = 0 ∨ ∃ e, script n = .error e ∧ e.isRetryable = true ∧
      n ≠ max 1 policy.maxAttempts := by
  cases ending with
  | withheld => simp
  | succeeded answer => simp [answer]
  | gaveUp answer final =>
    refine ⟨nofun, ?_⟩
    rintro (none | ⟨e, answer', passes, allowed⟩)
    · cases none
    cases answer.symm.trans answer'
    rcases final with lasts | spent
    · cases passes.symm.trans lasts
    · exact absurd spent allowed
  | interrupted answer passes allowed => exact iff_of_true rfl (.inr ⟨_, answer, passes, allowed⟩)

theorem Ending.before (ending : Ending timer policy cancel operation script n result)
    (cancelled : result = .error .cancelled) : cancel.Before n (policy.callTime timer n) := by
  cases ending with
  | withheld before | interrupted _ _ _ before => exact before
  | succeeded | gaveUp => cases cancelled

end Endings

/-- On whichever timer a run waits, whatever its policy allows, whatever its calls answer and whenever it
is cancelled, it keeps to the contract. -/
theorem withRetry_contract (timer : Duration → Nat) (policy : RetryPolicy) (cancel : Cancellation)
    (operation : String) (script : Nat → Except ExecutorError α) :
    Contract timer policy cancel operation script
      (withRetry timer policy cancel operation script) := by
  have first : Reached timer policy cancel operation script {} := .start
  obtain ⟨last, reached, ends⟩ := first.last
  obtain ⟨calls, rfl, repeated⟩ := reached.repeated
  obtain ⟨n, ending, times, limited, earlier, running⟩ := repeated.ends ends
  have length : (withRetry timer policy cancel operation script).callTimes.length = n := by
    rw [withRetry, times, List.length_map, List.length_range]
  constructor
  · exact ⟨_, reached, ends⟩
  · intro s reached
    obtain ⟨calls, rfl, repeated⟩ := reached.repeated
    exact repeated.allowed
  · exact length ▸ limited
  · exact length ▸ times
  · intro k positive less
    obtain ⟨k, rfl⟩ := Nat.exists_eq_add_one.mpr positive
    obtain ⟨e, answer, passes⟩ := repeated.failed k (earlier k (length ▸ less))
    obtain ⟨construct, message, rfl⟩ := ExecutorError.isRetryable_iff.mp passes
    exact ⟨construct, message, answer⟩
  · exact length ▸ running
  · exact fun a => length ▸ ending.ok_iff
  · exact fun o e => length ▸ ending.executor_iff
  · exact length ▸ ending.cancelled_iff
  · exact length ▸ ending.before

end Retry

end RestWiring
