/-!
# Finite binary64 numbers

A `Double` is a sign, a mantissa below `2 ^ 53` and a binary exponent from `-1074` to `971`; its
magnitude is `mantissa * 2 ^ exponent`. Every operation takes the exact rational result and rounds
it once, to the nearest number and to the even mantissa on a tie. Infinities and NaN are not
represented: an operation that leaves the finite range gives `none`.
-/
namespace RestWiring

structure Double where
  negative : Bool
  mantissa : Nat
  exponent : Int
  deriving DecidableEq, Repr

namespace Double

def zero (negative : Bool := false) : Double := ⟨negative, 0, 0⟩

def isZero (d : Double) : Bool := d.mantissa == 0

def neg (d : Double) : Double := { d with negative := !d.negative }

/-- The nearest natural number to a quotient, the even one on a tie. -/
def nearest (num den : Nat) : Nat :=
  let q := num / den
  let r := num % den
  if 2 * r < den then q
  else if den < 2 * r then q + 1
  else if q % 2 = 0 then q else q + 1

/-- The binary exponent at which `num / den` keeps 53 bits, or the least one there is. -/
def scaleOf (num den : Nat) : Int :=
  let guess : Int := max ((num.log2 : Int) - den.log2 - 53) (-1074)
  if num * Nat.pow 2 (-guess).toNat < Nat.pow 2 53 * (den * Nat.pow 2 guess.toNat) then guess else guess + 1

/-- Rounds `num / den`; `none` if it is too large. -/
def ofRatio (negative : Bool) (num den : Nat) : Option Double :=
  if num = 0 then some (zero negative)
  else
    let e := scaleOf num den
    let m := nearest (num * Nat.pow 2 (-e).toNat) (den * Nat.pow 2 e.toNat)
    let (m, e) := if m = Nat.pow 2 53 then (Nat.pow 2 52, e + 1) else (m, e)
    if e > 971 then none
    else if m = 0 then some (zero negative)
    else some ⟨negative, m, e⟩

/-- The magnitude as a numerator and a denominator. -/
def ratio (d : Double) : Nat × Nat :=
  (d.mantissa * Nat.pow 2 d.exponent.toNat, Nat.pow 2 (-d.exponent).toNat)

def ofInt (i : Int) : Double :=
  (ofRatio (i < 0) i.natAbs 1).getD (zero (i < 0))

/-- The decimal `digits * 10 ^ exp10`, rounded once. -/
def ofDecimal (negative : Bool) (digits : Nat) (exp10 : Int) : Option Double :=
  ofRatio negative (digits * Nat.pow 10 exp10.toNat) (Nat.pow 10 (-exp10).toNat)

def mul (a b : Double) : Option Double :=
  let (an, ad) := a.ratio
  let (bn, bd) := b.ratio
  ofRatio (a.negative != b.negative) (an * bn) (ad * bd)

/-- The quotient; `none` also for a divisor that is zero. -/
def div (a b : Double) : Option Double :=
  let (an, ad) := a.ratio
  let (bn, bd) := b.ratio
  if bn = 0 then none else ofRatio (a.negative != b.negative) (an * bd) (ad * bn)

/-- The exact value times a common power of two, with its sign. -/
def scaled (d : Double) (shift : Int) : Int :=
  let m : Int := (d.mantissa * Nat.pow 2 (d.exponent - shift).toNat : Nat)
  if d.negative then -m else m

def add (a b : Double) : Option Double :=
  let shift := min a.exponent b.exponent
  let sum := a.scaled shift + b.scaled shift
  if sum = 0 then some (zero (a.negative && b.negative))
  else ofRatio (sum < 0) (sum.natAbs * Nat.pow 2 shift.toNat) (Nat.pow 2 (-shift).toNat)

def sub (a b : Double) : Option Double := a.add b.neg

/-- Comparison by value: the two zeros are equal. -/
def same (a b : Double) : Bool :=
  (a.isZero && b.isZero) || a == b

def le (a b : Double) : Bool :=
  let shift := min a.exponent b.exponent
  a.scaled shift ≤ b.scaled shift

/-- The integer a double equals, if it equals one. -/
def toInt? (d : Double) : Option Int :=
  let (n, den) := d.ratio
  if n % den = 0 then some (if d.negative then -((n / den : Nat) : Int) else ((n / den : Nat) : Int)) else none

end Double

end RestWiring
