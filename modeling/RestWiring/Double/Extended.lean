import RestWiring.Double

/-!
# Binary64 numbers with infinities and NaN

What leaves the range of the doubles is an infinity here, and what has no value is NaN. There is one
NaN. Every operation is exact up to one rounding.
-/
namespace RestWiring.Double

inductive Extended where
  | finite (value : Double)
  | infinity (negative : Bool)
  | nan
  deriving DecidableEq, Repr

namespace Extended

def ofInt (i : Int) : Extended :=
  match Double.ofRatio (i < 0) i.natAbs 1 with
  | some d => .finite d
  | none => .infinity (i < 0)

/-- The decimal `digits * 10 ^ exp10`, rounded once. Exponents far beyond the range are not computed. -/
def ofDecimal (digits : Nat) (exp10 : Int) : Extended :=
  let size : Int := (Nat.toDigits 10 digits).length
  if digits = 0 || exp10 + size < -400 then .finite (Double.zero false)
  else if 400 < exp10 + size then .infinity false
  else
    match Double.ofDecimal false digits exp10 with
    | some d => .finite d
    | none => .infinity false

def neg : Extended → Extended
  | .finite d => .finite d.neg
  | .infinity negative => .infinity !negative
  | .nan => .nan

def add : Extended → Extended → Extended
  | .finite a, .finite b =>
    match a.add b with
    | some d => .finite d
    | none => .infinity a.negative
  | .infinity a, .infinity b => if a = b then .infinity a else .nan
  | .infinity a, .finite _ => .infinity a
  | .finite _, .infinity b => .infinity b
  | _, _ => .nan

def sub (a b : Extended) : Extended := a.add b.neg

def mul : Extended → Extended → Extended
  | .finite a, .finite b =>
    match a.mul b with
    | some d => .finite d
    | none => .infinity (a.negative != b.negative)
  | .infinity a, .infinity b => .infinity (a != b)
  | .infinity a, .finite b => if b.isZero then .nan else .infinity (a != b.negative)
  | .finite a, .infinity b => if a.isZero then .nan else .infinity (a.negative != b)
  | _, _ => .nan

def div : Extended → Extended → Extended
  | .finite a, .finite b =>
    match a.div b with
    | some d => .finite d
    | none => if a.isZero then .nan else .infinity (a.negative != b.negative)
  | .infinity a, .finite b => .infinity (a != b.negative)
  | .finite a, .infinity b => .finite (Double.zero (a.negative != b))
  | _, _ => .nan

/-- What is left of a dividend; it has the sign of the dividend. -/
def rem : Extended → Extended → Extended
  | .finite a, .finite b =>
    if b.isZero then .nan
    else
      let shift := min a.exponent b.exponent
      let rest := (a.scaled shift).natAbs % (b.scaled shift).natAbs
      match Double.ofRatio a.negative (rest * Nat.pow 2 shift.toNat) (Nat.pow 2 (-shift).toNat) with
      | some d => .finite d
      | none => .nan
  | .finite a, .infinity _ => .finite a
  | _, _ => .nan

/-- Drops the fraction. -/
def trunc : Extended → Extended
  | .finite d =>
    let (num, den) := d.ratio
    match Double.ofRatio d.negative (num / den) 1 with
    | some whole => .finite whole
    | none => .finite d
  | x => x

def isZero : Extended → Bool
  | .finite d => d.isZero
  | _ => false

/-- Whether a number lies below zero. -/
def isBelowZero : Extended → Bool
  | .finite d => d.negative && !d.isZero
  | .infinity negative => negative
  | .nan => false

/-- The quotient that leaves a remainder which is not below zero. -/
def divFloor (a b : Extended) : Extended :=
  let q := (a.div b).trunc
  if (a.rem b).isBelowZero then
    if b.isBelowZero then q.add (ofInt 1) else q.sub (ofInt 1)
  else q

/-- Equality by value: the two zeros are equal, and NaN equals nothing. -/
def same : Extended → Extended → Bool
  | .finite a, .finite b => a.same b
  | .infinity a, .infinity b => a == b
  | _, _ => false

/-- The order of all numbers: a negative zero comes before the other one, and NaN comes last. -/
def compare : Extended → Extended → Ordering
  | .nan, .nan => .eq
  | .nan, _ => .gt
  | _, .nan => .lt
  | .infinity a, .infinity b => if a = b then .eq else if a then .lt else .gt
  | .infinity a, .finite _ => if a then .lt else .gt
  | .finite _, .infinity b => if b then .gt else .lt
  | .finite a, .finite b =>
    if a.isZero && b.isZero then Ord.compare b.negative a.negative
    else if !a.le b then .gt
    else if b.le a then .eq
    else .lt

/-- The integer that a number equals, if it equals one. -/
def toInt? : Extended → Option Int
  | .finite d => d.toInt?
  | _ => none

end Extended

end RestWiring.Double
