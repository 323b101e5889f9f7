import RestWiring.Double

/-!
# Shortest decimal text of a double

`Double.shortest` finds the decimal with the fewest digits that reads back as the same number and,
among those, the nearest one. The reals that round to a double form an interval around it, closed
when the mantissa is even; a decimal grid meets the interval exactly if one of the double's two
neighbours on that grid lies in it, so going from coarse grids to fine ones and testing two points
each is enough. `plainText`, `shortText` and `terseText` differ only in where they use an exponent and in whether
one that is not negative has a sign.
-/
namespace RestWiring.Double

/-- The interval of reals that round to a positive double: lower end, value and upper end over one
denominator. -/
def interval (d : Double) : Nat × Nat × Nat × Nat :=
  let scale := Nat.pow 2 d.exponent.toNat
  let below := if d.mantissa = Nat.pow 2 52 ∧ d.exponent ≠ -1074 then 1 else 2
  ((4 * d.mantissa - below) * scale, 4 * d.mantissa * scale, (4 * d.mantissa + 2) * scale,
    4 * Nat.pow 2 (-d.exponent).toNat)

/-- Tries the grids `10 ^ k`, `10 ^ (k - 1)`, … in turn. -/
def searchGrid (d : Double) : Nat → Int → Nat × Int
  | 0, k => (d.mantissa, k)
  | fuel + 1, k =>
    let (lo, v, hi, den) := d.interval
    let up := Nat.pow 10 (-k).toNat
    let unit := den * Nat.pow 10 k.toNat
    let c := v * up / unit
    let inside (x : Nat) : Bool :=
      let y := x * unit
      if d.mantissa % 2 = 0 then lo * up ≤ y && y ≤ hi * up else lo * up < y && y < hi * up
    let (low, high) := (decide (0 < c) && inside c, inside (c + 1))
    if low && high then
      let r := 2 * (v * up - c * unit)
      (if r < unit then c else if unit < r then c + 1 else if c % 2 = 0 then c else c + 1, k)
    else if low then (c, k)
    else if high then (c + 1, k)
    else searchGrid d fuel (k - 1)

/-- Drops the trailing zeros of a decimal. -/
def trimZeros : Nat → Nat × Int → Nat × Int
  | 0, x => x
  | fuel + 1, (c, k) => if c ≠ 0 ∧ c % 10 = 0 then trimZeros fuel (c / 10, k + 1) else (c, k)

/-- The digits and the power of ten of the shortest decimal for the magnitude. -/
def shortest (d : Double) : Nat × Int :=
  if d.isZero then (0, 0)
  else
    let (n, den) := d.ratio
    let top : Int := ((Nat.toDigits 10 n).length : Int) - (Nat.toDigits 10 den).length + 1
    trimZeros 20 (d.searchGrid 40 top)

/-- Positional text with at least one digit on each side of the point. -/
def positional (digits : List Char) (k : Int) : List Char :=
  if 0 ≤ k then digits ++ List.replicate k.toNat '0' ++ ['.', '0']
  else
    let places := (-k).toNat
    let padded := List.replicate (places + 1 - digits.length) '0' ++ digits
    padded.take (padded.length - places) ++ '.' :: padded.drop (padded.length - places)

/-- Text with an exponent. -/
def scientific (plus : Bool) (digits : List Char) (k : Int) : List Char :=
  let e : Int := k + digits.length - 1
  let sign := if e < 0 then ['-'] else if plus then ['+'] else []
  let exponent := sign ++ Nat.toDigits 10 e.natAbs
  match digits with
  | [] => []
  | [c] => c :: 'e' :: exponent
  | c :: rest => c :: '.' :: rest ++ 'e' :: exponent

def signed (d : Double) (text : List Char) : List Char :=
  if d.negative then '-' :: text else text

/-- Positional text for every magnitude. -/
def plainText (d : Double) : List Char :=
  let (c, k) := d.shortest
  d.signed (positional (Nat.toDigits 10 c) k)

/-- Positional text from `10 ^ least` to below `1e16` and for zero, and an exponent elsewhere. -/
def textFrom (least : Int) (plus : Bool) (d : Double) : List Char :=
  let (c, k) := d.shortest
  let digits := Nat.toDigits 10 c
  let e : Int := k + digits.length - 1
  d.signed (if d.isZero || (least ≤ e && e < 16) then positional digits k else scientific plus digits k)

/-- Text such as `0.00001`, `1e-6` and `1e+16`. -/
def shortText : Double → List Char := textFrom (-5) true

/-- Text such as `0.0001`, `1e-5` and `1e16`. -/
def terseText : Double → List Char := textFrom (-4) false

end RestWiring.Double
