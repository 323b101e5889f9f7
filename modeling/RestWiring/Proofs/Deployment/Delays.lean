import Mathlib.Algebra.GroupWithZero.Nat
import Mathlib.Order.Monotone.Basic
import RestWiring.Proofs.Deployment.Retrying

/-!
# Delays between calls

A delay is the base delay in milliseconds, doubled for every attempt but the first, up to the limit.
Numbers end at 64 bits in three places: in the base, in the power and in the product. In the last two
this never shows as long as 64 bits can hold the limit. In the first it does: of the base only whole
milliseconds count, and of these only what 64 bits keep. If nothing is kept there is no delay at all,
and a call that fails is made again on the spot.
-/
namespace RestWiring

namespace RetryPolicy

variable (p : RetryPolicy)

/-- What is kept of the base delay in milliseconds. -/
def keptBase : Nat := p.baseDelay.milliseconds % 2 ^ 64

/-! ## How delays grow -/

theorem cappedPower_eq (n : Nat) : cappedPower n = min (2 ^ n) wordLimit := by
  unfold cappedPower
  split
  · rename_i small
    have power : 2 ^ n < 2 ^ 64 := Nat.pow_lt_pow_right (by decide) small
    exact (Nat.min_eq_left (Nat.le_pred_of_lt power)).symm
  · rename_i large
    have power : 2 ^ 64 ≤ 2 ^ n := Nat.pow_le_pow_right (by decide) (Nat.le_of_not_lt large)
    exact (Nat.min_eq_right ((Nat.pred_le _).trans power)).symm

/-- A product that ends at a bound is the same if a factor ends there, too. -/
theorem min_mul_min (a b bound : Nat) : min (a * min b bound) bound = min (a * b) bound := by
  rcases Nat.le_total b bound with below | above
  · rw [Nat.min_eq_left below]
  rw [Nat.min_eq_right above]
  -- Both products are beyond the bound, unless there is nothing to multiply.
  rcases Nat.eq_zero_or_pos a with rfl | positive
  · simp
  have reached : bound ≤ a * bound := Nat.le_mul_of_pos_left bound positive
  have passed : bound ≤ a * b := reached.trans (Nat.mul_le_mul_left a above)
  rw [Nat.min_eq_right reached, Nat.min_eq_right passed]

/-- A delay ends at the greatest number of milliseconds and at the limit, and nowhere else. -/
theorem backoff_nanoseconds (n : Nat) :
    (p.backoff n).nanoseconds =
      min (min (p.keptBase * 2 ^ (n - 1)) wordLimit * 1000000) p.maxDelay.nanoseconds := by
  rw [← min_mul_min p.keptBase, ← cappedPower_eq]
  rfl

theorem backoff_le_maxDelay (n : Nat) : (p.backoff n).nanoseconds ≤ p.maxDelay.nanoseconds := by
  rw [backoff_nanoseconds]
  exact Nat.min_le_right ..

theorem backoff_mono {m n : Nat} (le : m ≤ n) :
    (p.backoff m).nanoseconds ≤ (p.backoff n).nanoseconds := by
  have power : 2 ^ (m - 1) ≤ 2 ^ (n - 1) :=
    Nat.pow_le_pow_right (by decide) (Nat.sub_le_sub_right le 1)
  have product := Nat.mul_le_mul_left p.keptBase power
  rw [backoff_nanoseconds, backoff_nanoseconds]
  omega

variable {p}

theorem keptBase_ofMilliseconds {ms : Nat} (whole : p.baseDelay = .ofMilliseconds ms)
    (fits : ms < 2 ^ 64) : p.keptBase = ms := by
  have read : p.baseDelay.milliseconds = ms := by
    rw [whole]
    exact Nat.mul_div_cancel ms (by decide)
  rw [keptBase, read, Nat.mod_eq_of_lt fits]

/-- The doubled base delay may be taken without a bound, as long as 64 bits can hold the limit. -/
theorem backoff_eq {ms : Nat} (whole : p.baseDelay = .ofMilliseconds ms) (fits : ms < 2 ^ 64)
    (limit : p.maxDelay.nanoseconds ≤ (Duration.ofMilliseconds (2 ^ 64 - 1)).nanoseconds) (n : Nat) :
    p.backoff n = Duration.min ⟨p.baseDelay.nanoseconds * 2 ^ (n - 1)⟩ p.maxDelay := by
  have base : p.baseDelay.nanoseconds = ms * 1000000 := congrArg Duration.nanoseconds whole
  have product : ms * 2 ^ (n - 1) * 1000000 = ms * 1000000 * 2 ^ (n - 1) := Nat.mul_right_comm ..
  have word : wordLimit = 2 ^ 64 - 1 := rfl
  have exact_product : (p.backoff n).nanoseconds =
      min (p.baseDelay.nanoseconds * 2 ^ (n - 1)) p.maxDelay.nanoseconds := by
    rw [backoff_nanoseconds, keptBase_ofMilliseconds whole fits, base, ← product, word]
    simp only [Duration.ofMilliseconds] at limit
    omega
  exact congrArg Duration.mk exact_product

/-- Delays double up to the limit. They never get shorter and never longer than the limit. -/
theorem backoff_growth (p : RetryPolicy) :
    (∀ ms, p.baseDelay = .ofMilliseconds ms → ms < 2 ^ 64 →
      p.maxDelay.nanoseconds ≤ (Duration.ofMilliseconds (2 ^ 64 - 1)).nanoseconds →
      ∀ n, 1 ≤ n →
        p.backoff n = Duration.min ⟨p.baseDelay.nanoseconds * 2 ^ (n - 1)⟩ p.maxDelay) ∧
      (∀ m n, m ≤ n → (p.backoff m).nanoseconds ≤ (p.backoff n).nanoseconds) ∧
      ∀ n, (p.backoff n).nanoseconds ≤ p.maxDelay.nanoseconds :=
  ⟨fun _ whole fits limit n _ => backoff_eq whole fits limit n, fun _ _ => p.backoff_mono,
    p.backoff_le_maxDelay⟩

/-- Its limit is the longest one that 64 bits can hold. -/
def patient : RetryPolicy :=
  { baseDelay := .ofMilliseconds 3, maxDelay := .ofMilliseconds (2 ^ 64 - 1) }

/-- At attempt 65 the power ends at 64 bits; the limit has been reached before. -/
theorem backoff_growth_patient :
    patient.baseDelay = .ofMilliseconds 3 ∧ 3 < 2 ^ 64 ∧
      patient.maxDelay.nanoseconds ≤ (Duration.ofMilliseconds (2 ^ 64 - 1)).nanoseconds ∧
      patient.backoff 63 = .ofMilliseconds (3 * 2 ^ 62) ∧
      patient.backoff 65 = .ofMilliseconds (2 ^ 64 - 1) := by
  have delays := (backoff_growth patient).1 3 rfl (by decide) (Nat.le_refl _)
  refine ⟨rfl, by decide, Nat.le_refl _, ?_, ?_⟩
  · rw [delays 63 (by decide)]
    decide +kernel
  · rw [delays 65 (by decide)]
    decide +kernel

/-! ## What is lost of the base delay -/

/-- Delays that are never shorter than the base delay, unless the limit is. -/
def KeepsBase (p : RetryPolicy) : Prop :=
  ∀ n, 1 ≤ n → min p.baseDelay.nanoseconds p.maxDelay.nanoseconds ≤ (p.backoff n).nanoseconds

theorem keptBase_le (p : RetryPolicy) : p.keptBase * 1000000 ≤ p.baseDelay.nanoseconds :=
  (Nat.mul_le_mul_right _ (Nat.mod_le ..)).trans (Nat.div_mul_le_self ..)

theorem keptBase_eq_iff :
    p.keptBase * 1000000 = p.baseDelay.nanoseconds ↔
      ∃ ms < 2 ^ 64, p.baseDelay = .ofMilliseconds ms := by
  constructor
  · intro kept
    exact ⟨p.keptBase, Nat.mod_lt _ (by decide), congrArg Duration.mk kept.symm⟩
  · rintro ⟨ms, fits, whole⟩
    rw [keptBase_ofMilliseconds whole fits, whole]
    rfl

/-- The first delay is what is kept of the base delay, up to the limit. -/
theorem backoff_one (p : RetryPolicy) :
    (p.backoff 1).nanoseconds = min (p.keptBase * 1000000) p.maxDelay.nanoseconds := by
  have fits : p.keptBase ≤ wordLimit := Nat.le_pred_of_lt (Nat.mod_lt _ (by decide))
  rw [backoff_nanoseconds, Nat.pow_zero, Nat.mul_one, Nat.min_eq_left fits]

/-- The base delay is kept if it is a number of milliseconds, or if what is kept of it goes beyond the
limit anyway. -/
theorem keepsBase_iff :
    p.KeepsBase ↔ (∃ ms < 2 ^ 64, p.baseDelay = .ofMilliseconds ms) ∨
      p.maxDelay.nanoseconds ≤ p.keptBase * 1000000 := by
  -- No delay is shorter than the first, so that it decides alone.
  have first_delay : p.KeepsBase ↔
      min p.baseDelay.nanoseconds p.maxDelay.nanoseconds ≤ (p.backoff 1).nanoseconds :=
    ⟨fun keeps => keeps 1 (Nat.le_refl 1), fun kept _ later => kept.trans (p.backoff_mono later)⟩
  have lost := p.keptBase_le
  rw [first_delay, backoff_one, ← keptBase_eq_iff]
  omega

/-- If there is a first delay, there is one after every attempt. -/
theorem backoff_eq_zero_iff {n : Nat} :
    (p.backoff n).nanoseconds = 0 ↔ p.keptBase = 0 ∨ p.maxDelay.nanoseconds = 0 := by
  have product : p.keptBase * 2 ^ (n - 1) = 0 ↔ p.keptBase = 0 :=
    Nat.mul_eq_zero.trans (or_iff_left (Nat.two_pow_pos _).ne')
  have word : 0 < wordLimit := by decide
  rw [backoff_nanoseconds, ← product]
  omega

/-! ## Calls in a row -/

/-- Whether waiting for a delay takes time, however short the delay is, unless there is none. -/
def Punctual (timer : Duration → Nat) : Prop :=
  ∀ delay, timer delay = 0 ↔ delay.nanoseconds = 0

theorem punctual_millisecondsUp : Punctual Duration.millisecondsUp := by
  intro delay
  rw [Duration.millisecondsUp]
  omega

variable {timer : Duration → Nat}

theorem callTime_strictMono (punctual : Punctual timer) (kept : p.keptBase ≠ 0)
    (limit : p.maxDelay.nanoseconds ≠ 0) : StrictMono (p.callTime timer) := by
  refine strictMono_nat_of_lt_succ fun calls => ?_
  have waits : timer (p.backoff (calls + 1)) ≠ 0 := fun none =>
    (backoff_eq_zero_iff.mp ((punctual _).mp none)).elim kept limit
  exact Nat.lt_add_of_pos_right (Nat.pos_of_ne_zero waits)

theorem callTime_eq_zero (punctual : Punctual timer)
    (lost : p.keptBase = 0 ∨ p.maxDelay.nanoseconds = 0) (calls : Nat) :
    p.callTime timer calls = 0 := by
  induction calls with
  | zero => rfl
  | succ calls ih =>
    have none : timer (p.backoff (calls + 1)) = 0 := (punctual _).mpr (backoff_eq_zero_iff.mpr lost)
    rw [callTime, ih, none]

theorem exists_callTimes {α : Type} (timer : Duration → Nat) (p : RetryPolicy)
    (cancel : Cancellation) (operation : String) (script : Nat → Except ExecutorError α) :
    ∃ calls, (withRetry timer p cancel operation script).callTimes =
      (List.range calls).map (p.callTime timer) := by
  have first : Retry.Reached timer p cancel operation script {} := .start
  obtain ⟨_, reached, ends⟩ := first.last
  obtain ⟨_, rfl, repeated⟩ := reached.repeated
  obtain ⟨calls, -, times, -⟩ := repeated.ends ends
  exact ⟨calls, times⟩

/-- A delay may be shorter than base delay and limit, but only where a part of the base delay is lost.
Where something is kept of it, time goes by between any two calls; where nothing is kept, all calls are
made at once. -/
theorem backoff_floor (p : RetryPolicy) :
    (p.KeepsBase ↔ (∃ ms < 2 ^ 64, p.baseDelay = .ofMilliseconds ms) ∨
      p.maxDelay.nanoseconds ≤ p.keptBase * 1000000) ∧
      (∀ n, 1 ≤ n →
        ((p.backoff n).nanoseconds = 0 ↔ p.keptBase = 0 ∨ p.maxDelay.nanoseconds = 0)) ∧
      ∀ (timer : Duration → Nat) {α : Type} (cancel : Cancellation) (operation : String)
        (script : Nat → Except ExecutorError α), Punctual timer →
        (p.keptBase ≠ 0 → p.maxDelay.nanoseconds ≠ 0 →
          (withRetry timer p cancel operation script).callTimes.Pairwise (· < ·)) ∧
        (p.keptBase = 0 ∨ p.maxDelay.nanoseconds = 0 →
          ∀ time ∈ (withRetry timer p cancel operation script).callTimes, time = 0) := by
  refine ⟨keepsBase_iff, fun _ _ => backoff_eq_zero_iff,
    fun timer _ cancel operation script punctual => ?_⟩
  obtain ⟨calls, times⟩ := exists_callTimes timer p cancel operation script
  rw [times]
  constructor
  · intro kept limit
    exact List.pairwise_lt_range.map _ fun _ _ earlier =>
      callTime_strictMono punctual kept limit earlier
  · intro lost time made
    obtain ⟨call, -, rfl⟩ := List.mem_map.mp made
    exact callTime_eq_zero punctual lost call

/-- What every call of a run answers that is to be repeated. -/
def throttled : Nat → Except ExecutorError Unit :=
  fun _ => .error (.backend "users" "throttled" true)

/-- Of its base delay, half a millisecond is lost. -/
def uneven : RetryPolicy := { baseDelay := ⟨1500000⟩ }

/-- The first delay is too short, and yet the calls are made one after another. -/
theorem backoff_floor_uneven :
    uneven.keptBase ≠ 0 ∧ uneven.maxDelay.nanoseconds ≠ 0 ∧ ¬uneven.KeepsBase ∧
      (uneven.backoff 1).nanoseconds ≠ 0 ∧
      (withRetry Duration.millisecondsUp uneven {} "register" throttled).callTimes.Pairwise (· < ·) := by
  obtain ⟨keeps_iff, zero_iff, calls⟩ := backoff_floor uneven
  have kept : uneven.keptBase ≠ 0 := by decide
  have limit : uneven.maxDelay.nanoseconds ≠ 0 := by decide
  have apart := (calls _ {} "register" throttled punctual_millisecondsUp).1 kept limit
  refine ⟨kept, limit, fun keeps => ?_, fun none => ?_, apart⟩
  · rcases keeps_iff.mp keeps with ⟨ms, -, whole⟩ | short
    · have odd : 1500000 = ms * 1000000 := congrArg Duration.nanoseconds whole
      omega
    · exact absurd short (by decide)
  · exact ((zero_iff 1 (Nat.le_refl 1)).mp none).elim kept limit

/-- Its base delay and its limit are half a millisecond. -/
def hasty : RetryPolicy := { baseDelay := ⟨500000⟩, maxDelay := ⟨500000⟩ }

/-- Each of four calls is made at once when the one before it has failed. -/
theorem hasty_waits_for_nothing :
    ¬hasty.KeepsBase ∧ hasty.baseDelay.nanoseconds ≠ 0 ∧ hasty.maxDelay.nanoseconds ≠ 0 ∧
      (withRetry Duration.millisecondsUp hasty {} "register" throttled).callTimes = [0, 0, 0, 0] := by
  refine ⟨fun keeps => ?_, by decide, by decide, by decide +kernel⟩
  exact absurd (keeps 1 (Nat.le_refl 1)) (by decide +kernel)

end RetryPolicy

end RestWiring
