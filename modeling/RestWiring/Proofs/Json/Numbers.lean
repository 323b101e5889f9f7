import Mathlib.Algebra.GroupWithZero.Nat
import Mathlib.Algebra.Ring.Int.Defs
import Mathlib.Data.List.Basic
import Mathlib.Data.List.TakeWhile
import RestWiring.Json.Document
import RestWiring.Json.Text

/-!
# Numbers in texts

A number that is read is a double or fits into 64 bits, and an integer that fits reads back from its
text. What a number is read from ends where a character follows that no number is written with.
-/
namespace RestWiring

open Json (numberText numberToken numberValue digitValue Significand)

/-- Whether a number is one that a text can be read as: integers that do not fit into 64 bits are
read as doubles. -/
def Number.InRange : Number → Prop
  | .int i => -(2 ^ 63) ≤ i ∧ i < 2 ^ 64
  | .double _ => True

/-- Whether a number reads back from its text. -/
def Number.ReadsBack (n : Number) : Prop := numberToken (numberText n) = some (some n, [])

/-- Whether a double reads back from its text. -/
def Double.ReadsBack (d : Double) : Prop :=
  numberToken d.shortText = some (some (.double d), [])

namespace Json

/-! ## Integers -/

/-- Digits that fit are all kept. -/
theorem foldl_push_kept (digits : List Char) (value : Nat)
    (fits : Nat.ofDigitChars 10 digits value < 2 ^ 64) :
    digits.foldl (Significand.push 0 1) ⟨value, 0, false⟩ =
      ⟨Nat.ofDigitChars 10 digits value, 0, false⟩ := by
  induction digits generalizing value with
  | nil => rfl
  | cons c digits ih =>
    rw [Nat.ofDigitChars_cons] at fits ⊢
    have next : value * 10 + digitValue c = 10 * value + (c.toNat - '0'.toNat) := by
      rw [digitValue, Nat.mul_comm]
      rfl
    have kept : ¬ 2 ^ 64 ≤ 10 * value + (c.toNat - '0'.toNat) := by
      rw [Nat.ofDigitChars_eq_ofDigitChars_zero] at fits
      have grows : 10 * value + (c.toNat - '0'.toNat) ≤
          10 ^ digits.length * (10 * value + (c.toNat - '0'.toNat)) :=
        Nat.le_mul_of_pos_left _ (Nat.pow_pos (by decide))
      omega
    have pushed : Significand.push 0 1 ⟨value, 0, false⟩ c =
        ⟨10 * value + (c.toNat - '0'.toNat), 0, false⟩ := by
      simp only [Significand.push, next, Bool.false_or]
      rw [if_neg (by simpa using kept)]
      rfl
    rw [List.foldl_cons, pushed, ih _ fits]

/-- Only zero is written with a zero first. -/
theorem toDigits_head_zero {n : Nat} (first : (Nat.toDigits 10 n).head? = some '0') : n = 0 := by
  induction n using Nat.strongRecOn with
  | ind n ih =>
    by_cases small : n < 10
    · have digits : ∀ n < 10, [n.digitChar].head? = some '0' → n = 0 := by decide
      rw [Nat.toDigits_of_lt_base small] at first
      exact digits n small first
    · rw [Nat.toDigits_of_base_le (by decide) (by omega),
        List.head?_append_of_ne_nil _ Nat.toDigits_ne_nil] at first
      have zero := ih (n / 10) (by omega) first
      omega

theorem toDigits_isDigit (n : Nat) : ∀ c ∈ Nat.toDigits 10 n, c.isDigit = true := fun _ =>
  Nat.isDigit_of_mem_toDigits (by decide) (by decide)

/-! ## The parts of a number -/

/-- Whether a text goes on with a character that a number can be written with. -/
def ContinuesNumber (c : Char) : Bool :=
  c.isDigit || c = '.' || c = 'e' || c = 'E' || c = '+' || c = '-'

/-- Whether a number that stands before a text ends there. -/
def EndsNumber (rest : List Char) : Prop := ∀ c ∈ rest.head?, ContinuesNumber c = false

/-- What a number has for its sign, and the text behind it. -/
def signOf : List Char → Bool × List Char
  | '-' :: rest => (true, rest)
  | cs => (false, cs)

/-- What a number has for its fraction, if it has one. -/
def fractionOf : List Char → Option (List Char)
  | '.' :: rest => some (rest.takeWhile Char.isDigit)
  | _ => none

def pastFraction : List Char → List Char
  | '.' :: rest => rest.dropWhile Char.isDigit
  | cs => cs

/-- The sign of the exponent and the text behind it, if there is an exponent. -/
def exponentOf : List Char → Option (Bool × List Char)
  | e :: rest =>
    if e = 'e' || e = 'E' then
      match rest with
      | '+' :: rest => some (false, rest)
      | '-' :: rest => some (true, rest)
      | rest => some (false, rest)
    else none
  | [] => none

/-- A number read part by part. -/
theorem numberToken_eq (cs : List Char) :
    numberToken cs =
      let (negative, cs) := signOf cs
      let whole := cs.takeWhile Char.isDigit
      let cs := cs.dropWhile Char.isDigit
      if whole.isEmpty || (whole.head? == some '0' && 1 < whole.length) then none
      else if fractionOf cs == some [] then none
      else
        match exponentOf (pastFraction cs) with
        | none => some (numberValue negative whole (fractionOf cs) none, pastFraction cs)
        | some (down, rest) =>
          let digits := rest.takeWhile Char.isDigit
          if digits.isEmpty then none
          else
            some (numberValue negative whole (fractionOf cs) (some (down, digits)),
              rest.dropWhile Char.isDigit) := by
  rfl

section Ends

variable {rest : List Char}

theorem EndsNumber.nil : EndsNumber [] := by
  rintro c ⟨⟩

theorem EndsNumber.head {c : Char} {cs : List Char} (ends : EndsNumber (c :: cs)) :
    c.isDigit = false ∧ c ≠ '.' ∧ c ≠ 'e' ∧ c ≠ 'E' ∧ c ≠ '+' ∧ c ≠ '-' := by
  have other := ends c rfl
  simp only [ContinuesNumber, Bool.or_eq_false_iff, decide_eq_false_iff_not] at other
  obtain ⟨⟨⟨⟨⟨digit, point⟩, small⟩, large⟩, plus⟩, minus⟩ := other
  exact ⟨digit, point, small, large, plus, minus⟩

theorem takeWhile_isDigit_append (ends : EndsNumber rest) (cs : List Char) :
    (cs ++ rest).takeWhile Char.isDigit = cs.takeWhile Char.isDigit := by
  have stops : rest.takeWhile Char.isDigit = [] := by
    cases rest with
    | nil => rfl
    | cons c cs => rw [List.takeWhile_cons, ends.head.1]; rfl
  rw [List.takeWhile_append, stops, List.append_nil]
  split
  · rename_i all
    exact (List.IsPrefix.eq_of_length (List.takeWhile_prefix _) all).symm
  · rfl

theorem dropWhile_isDigit_append (ends : EndsNumber rest) (cs : List Char) :
    (cs ++ rest).dropWhile Char.isDigit = cs.dropWhile Char.isDigit ++ rest := by
  have stops : rest.dropWhile Char.isDigit = rest := by
    cases rest with
    | nil => rfl
    | cons c cs => rw [List.dropWhile_cons, ends.head.1]; rfl
  rw [List.dropWhile_append, stops]
  split
  · rename_i nothing
    rw [List.isEmpty_iff.mp nothing, List.nil_append]
  · rfl

theorem signOf_append (ends : EndsNumber rest) (cs : List Char) :
    signOf (cs ++ rest) = ((signOf cs).1, (signOf cs).2 ++ rest) := by
  unfold signOf
  cases cs with
  | cons c cs => split <;> simp_all
  | nil =>
    cases rest with
    | nil => rfl
    | cons c rest => split <;> simp_all [ends.head]

theorem fractionOf_append (ends : EndsNumber rest) (cs : List Char) :
    fractionOf (cs ++ rest) = fractionOf cs := by
  cases cs with
  | cons c cs =>
    by_cases point : c = '.'
    · subst point
      exact congrArg some (takeWhile_isDigit_append ends cs)
    · simp [fractionOf, point]
  | nil =>
    cases rest with
    | nil => rfl
    | cons c rest => simp [fractionOf, ends.head]

theorem pastFraction_append (ends : EndsNumber rest) (cs : List Char) :
    pastFraction (cs ++ rest) = pastFraction cs ++ rest := by
  cases cs with
  | cons c cs =>
    by_cases point : c = '.'
    · subst point
      exact dropWhile_isDigit_append ends cs
    · simp [pastFraction, point]
  | nil =>
    cases rest with
    | nil => rfl
    | cons c rest => simp [pastFraction, ends.head]

theorem exponentOf_append (ends : EndsNumber rest) (cs : List Char) :
    exponentOf (cs ++ rest) = (exponentOf cs).map fun e => (e.1, e.2 ++ rest) := by
  cases cs with
  | cons c cs =>
    unfold exponentOf
    simp only [List.cons_append]
    split
    · cases cs with
      | nil =>
        cases rest with
        | nil => rfl
        | cons d rest => simp [ends.head]
      | cons d cs =>
        by_cases plus : d = '+'
        · simp [plus]
        · by_cases minus : d = '-' <;> simp [plus, minus]
    · rfl
  | nil =>
    cases rest with
    | nil => rfl
    | cons c rest => simp [exponentOf, ends.head]

/-- A number that stands before a text reads as it does alone. -/
theorem numberToken_append (ends : EndsNumber rest) (cs : List Char) :
    numberToken (cs ++ rest) = (numberToken cs).map fun token => (token.1, token.2 ++ rest) := by
  rw [numberToken_eq, numberToken_eq, signOf_append ends]
  dsimp only
  rw [takeWhile_isDigit_append ends, dropWhile_isDigit_append ends, fractionOf_append ends,
    pastFraction_append ends, exponentOf_append ends]
  split
  · rfl
  · split
    · rfl
    · cases exponentOf (pastFraction ((signOf cs).2.dropWhile Char.isDigit)) with
      | none => rfl
      | some e =>
        simp only [Option.map_some]
        rw [takeWhile_isDigit_append ends, dropWhile_isDigit_append ends]
        split <;> rfl

end Ends

/-! ## Reading numbers -/

/-- What is kept of digits fits into 64 bits. -/
theorem push_fits {step dropped : Int} {s : Significand} (fits : s.value < 2 ^ 64) (c : Char) :
    (s.push step dropped c).value < 2 ^ 64 := by
  unfold Significand.push
  dsimp only
  split
  · exact fits
  · rename_i kept
    simp only [Bool.or_eq_true, decide_eq_true_eq, not_or] at kept
    exact Nat.lt_of_not_le kept.2

theorem foldl_push_fits {step dropped : Int} {s : Significand} (fits : s.value < 2 ^ 64)
    (digits : List Char) : (digits.foldl (Significand.push step dropped) s).value < 2 ^ 64 := by
  induction digits generalizing s with
  | nil => exact fits
  | cons c digits ih => exact ih (push_fits fits c)

theorem map_double_inRange {d : Option Double} {n : Number} (read : d.map .double = some n) :
    n.InRange := by
  obtain ⟨d, -, rfl⟩ := Option.map_eq_some_iff.mp read
  exact trivial

theorem numberValue_inRange {negative : Bool} {whole : List Char} {fraction : Option (List Char)}
    {exponent : Option (Bool × List Char)} {n : Number}
    (read : numberValue negative whole fraction exponent = some n) : n.InRange := by
  have fits : (whole.foldl (Significand.push 0 1) ⟨0, 0, false⟩).value < 2 ^ 64 :=
    foldl_push_fits (by decide) whole
  unfold numberValue at read
  dsimp only at read
  generalize whole.foldl (Significand.push 0 1) ⟨0, 0, false⟩ = s at fits read
  split at read
  · split_ifs at read with full positive zero
    · exact map_double_inRange read
    · cases read
      exact ⟨by omega, by omega⟩
    · cases read
      exact trivial
    · cases read
      simp only [Bool.or_eq_true, decide_eq_true_eq, not_or] at zero
      have large : s.value ≤ 2 ^ 63 := Nat.le_of_not_lt zero.2
      exact ⟨by omega, by omega⟩
  · split at read
    · exact map_double_inRange read
    · split_ifs at read
      · cases read
        exact trivial
      all_goals exact map_double_inRange read

theorem numberToken_inRange {cs rest : List Char} {n : Number}
    (read : numberToken cs = some (some n, rest)) : n.InRange := by
  rw [numberToken_eq] at read
  dsimp only at read
  split_ifs at read
  split at read
  · exact numberValue_inRange (congrArg Prod.fst (Option.some.inj read))
  · split_ifs at read
    exact numberValue_inRange (congrArg Prod.fst (Option.some.inj read))

/-- A number begins with a digit or a sign. -/
theorem numberToken_head {cs : List Char} {token : Option Number × List Char}
    (read : numberToken cs = some token) :
    ∃ c rest, cs = c :: rest ∧ (c = '-' || c.isDigit) = true := by
  cases cs with
  | nil => cases read
  | cons c rest =>
    refine ⟨c, rest, rfl, ?_⟩
    by_contra other
    simp only [Bool.or_eq_true, decide_eq_true_eq, not_or] at other
    rw [numberToken_eq] at read
    simp [signOf, other] at read

/-- Digits, with a sign or without, are read as one whole number. -/
theorem numberToken_digits {negative : Bool} {cs : List Char} {n : Nat} (fits : n < 2 ^ 64)
    (sign : signOf cs = (negative, Nat.toDigits 10 n)) :
    numberToken cs = some
      (if !negative then some (.int n)
        else if n = 0 || Nat.pow 2 63 < n then some (.double (Double.ofInt n).neg)
        else some (.int (-n)), []) := by
  have digits := toDigits_isDigit n
  have whole : (Nat.toDigits 10 n).takeWhile Char.isDigit = Nat.toDigits 10 n :=
    List.takeWhile_eq_self_iff.mpr digits
  have left : (Nat.toDigits 10 n).dropWhile Char.isDigit = [] :=
    List.dropWhile_eq_nil_iff.mpr digits
  have idle : ((Nat.toDigits 10 n).isEmpty ||
      ((Nat.toDigits 10 n).head? == some '0' && 1 < (Nat.toDigits 10 n).length)) = false := by
    have something : (Nat.toDigits 10 n).isEmpty = false := by simp
    rw [something, Bool.false_or, Bool.and_eq_false_iff]
    by_cases zero : n = 0
    · subst zero
      exact .inr rfl
    · exact .inl (by simpa using fun first => zero (toDigits_head_zero first))
  have value : (Nat.toDigits 10 n).foldl (Significand.push 0 1) ⟨0, 0, false⟩ = ⟨n, 0, false⟩ := by
    have read : Nat.ofDigitChars 10 (Nat.toDigits 10 n) 0 = n := Nat.ofDigitChars_ten_toDigits
    rw [foldl_push_kept _ 0 (by rwa [read]), read]
  rw [numberToken_eq, sign]
  dsimp only
  rw [whole, left, idle]
  simp only [fractionOf, pastFraction, exponentOf, numberValue, value]
  rfl

end Json

/-- An integer that fits into 64 bits reads back from its text. -/
theorem Number.ReadsBack.of_int {i : Int} (inRange : (Number.int i).InRange) :
    (Number.int i).ReadsBack := by
  obtain ⟨least, most⟩ := inRange
  simp only [ReadsBack, numberText]
  by_cases below : i < 0
  · have sign : Json.signOf ('-' :: Nat.toDigits 10 i.natAbs) = (true, Nat.toDigits 10 i.natAbs) :=
      rfl
    rw [if_pos below, Json.numberToken_digits (by omega) sign]
    have kept : ¬ (i.natAbs = 0 || Nat.pow 2 63 < i.natAbs) = true := by
      simp only [Bool.or_eq_true, decide_eq_true_eq, not_or]
      exact ⟨by omega, Nat.not_lt.mpr (show i.natAbs ≤ 2 ^ 63 by omega)⟩
    rw [if_neg kept, show -(i.natAbs : Int) = i by omega]
    rfl
  · have sign : Json.signOf (Nat.toDigits 10 i.natAbs) = (false, Nat.toDigits 10 i.natAbs) := by
      unfold Json.signOf
      split
      · rename_i rest equal
        have digit := Json.toDigits_isDigit i.natAbs '-' (equal ▸ List.mem_cons_self)
        cases digit
      · rfl
    rw [if_neg below, Json.numberToken_digits (by omega) sign]
    rw [show (i.natAbs : Int) = i by omega]
    rfl

end RestWiring
