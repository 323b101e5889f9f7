import RestWiring.Orchestration.Graph

/-!
# Retrying backend calls

A call that fails in a way that may pass is repeated after a delay, which doubles from attempt to
attempt up to a limit. Delays are counted in 64-bit milliseconds that stop at the greatest number. How
long it takes to wait for a delay is up to the timer.
-/
namespace RestWiring

/-- A span of time in nanoseconds. -/
structure Duration where
  nanoseconds : Nat
  deriving DecidableEq, Repr

namespace Duration

def ofSeconds (s : Nat) : Duration := ⟨s * 1000000000⟩

def ofMilliseconds (ms : Nat) : Duration := ⟨ms * 1000000⟩

def seconds (d : Duration) : Nat := d.nanoseconds / 1000000000

/-- The part beyond whole seconds. -/
def subsecond (d : Duration) : Nat := d.nanoseconds % 1000000000

/-- Whole milliseconds. -/
def milliseconds (d : Duration) : Nat := d.nanoseconds / 1000000

/-- Milliseconds, a begun one counted in full; sleeping is exact to the millisecond. -/
def millisecondsUp (d : Duration) : Nat := (d.nanoseconds + 999999) / 1000000

def min (a b : Duration) : Duration := ⟨Nat.min a.nanoseconds b.nanoseconds⟩

end Duration

structure RetryPolicy where
  /-- How often a call is made at most; a call is always made once. -/
  maxAttempts : Nat := 4
  baseDelay : Duration := .ofMilliseconds 200
  maxDelay : Duration := .ofSeconds 10
  deriving DecidableEq, Repr

namespace RetryPolicy

/-- A policy that repeats nothing. -/
def none : RetryPolicy := { maxAttempts := 1 }

/-- The greatest number of 64 bits. -/
def wordLimit : Nat := Nat.pow 2 64 - 1

/-- A power of two that stops at the greatest number of 64 bits. -/
def cappedPower (n : Nat) : Nat := if n < 64 then Nat.pow 2 n else wordLimit

/-- The delay after a failed attempt; attempts count from one. -/
def backoff (p : RetryPolicy) (attempt : Nat) : Duration :=
  let base := p.baseDelay.milliseconds % Nat.pow 2 64
  (Duration.ofMilliseconds (Nat.min (base * cappedPower (attempt - 1)) wordLimit)).min p.maxDelay

/-- How many milliseconds are waited after a failed attempt. -/
def wait (p : RetryPolicy) (attempt : Nat) : Nat := (p.backoff attempt).millisecondsUp

/-- Whether a call is made again after an attempt that failed. -/
def repeats (p : RetryPolicy) (attempt : Nat) (e : ExecutorError) : Bool :=
  e.isRetryable && attempt < p.maxAttempts

end RetryPolicy

/-- When a run of calls is cancelled: during a call, counted from one, with zero for beforehand, or at
a time in milliseconds. -/
structure Cancellation where
  duringCall : Option Nat := none
  atTime : Option Nat := none
  deriving DecidableEq, Repr

namespace Cancellation

/-- Whether a cancellation has come after so many calls. -/
def after (c : Cancellation) (calls : Nat) : Bool := c.duringCall.any (· ≤ calls)

/-- When a cancellation interrupts a wait after so many calls. One that comes just as the wait ends is
too late for it and interrupts the next one. -/
def interrupts (c : Cancellation) (calls now wake : Nat) : Option Nat :=
  if c.after calls then some now
  else c.atTime.bind fun t => if t < wake then some (Nat.max now t) else none

end Cancellation

/-- How a run of calls went: the times of the calls, the time at its end, and what came of it. -/
structure RetryRun (α : Type) where
  callTimes : List Nat
  elapsed : Nat
  result : Except OrchestrationError α

/-- Where a run stands before call number `attempt`. -/
structure RetryState where
  attempt : Nat := 1
  now : Nat := 0
  callTimes : List Nat := []

section Loop

variable {α : Type} (timer : Duration → Nat) (policy : RetryPolicy) (cancel : Cancellation)
  (operation : String) (script : Nat → Except ExecutorError α)

/-- Makes a call, and waits if it is to be repeated. The run ends, or stands before the next call.
`script` answers the calls by number; `timer` says how long it takes to wait for a delay. -/
def retryRound (s : RetryState) : RetryRun α ⊕ RetryState :=
  if cancel.after (s.attempt - 1) then .inl ⟨s.callTimes, s.now, .error .cancelled⟩
  else
    let times := s.callTimes ++ [s.now]
    match script s.attempt with
    | .ok a => .inl ⟨times, s.now, .ok a⟩
    | .error e =>
      if policy.repeats s.attempt e then
        let wake := s.now + timer (policy.backoff s.attempt)
        match cancel.interrupts s.attempt s.now wake with
        | some t => .inl ⟨times, t, .error .cancelled⟩
        | none => .inr ⟨s.attempt + 1, wake, times⟩
      else .inl ⟨times, s.now, .error (.executor operation e)⟩

variable {timer policy cancel operation script}

/-- There is another round only if another attempt is allowed. -/
theorem retryRound_attempt {s s' : RetryState}
    (again : retryRound timer policy cancel operation script s = .inr s') :
    s.attempt < policy.maxAttempts ∧ s'.attempt = s.attempt + 1 := by
  unfold retryRound at again
  split at again
  · cases again
  · dsimp only at again
    split at again
    · cases again
    · split at again
      · rename_i repeated
        split at again
        · cases again
        · cases again
          simp only [RetryPolicy.repeats, Bool.and_eq_true, decide_eq_true_eq] at repeated
          exact ⟨repeated.2, rfl⟩
      · cases again

variable (timer policy cancel operation script)

/-- The rounds of a run from one on. -/
def retryFrom (s : RetryState) : RetryRun α :=
  match _ : retryRound timer policy cancel operation script s with
  | .inl run => run
  | .inr s' => retryFrom s'
termination_by policy.maxAttempts - s.attempt
decreasing_by
  rename_i again
  obtain ⟨allowed, advanced⟩ := retryRound_attempt again
  omega

/-- Makes a call, and repeats it as the policy says. -/
def withRetry : RetryRun α := retryFrom timer policy cancel operation script {}

end Loop

end RestWiring
