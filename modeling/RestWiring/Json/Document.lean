import RestWiring.Json

/-!
# JSON documents as far as they can be read

`Document` is a text read up to its first fault. What stands before the fault is kept, and every
container that the fault cuts off is marked as not closed, so a reader that visits the document
from left to right meets faults of form and faults of shape in the order of the text. A number or
a name whose form is right and whose value does not exist is kept as `none`: it is a fault for a
reader that wants the value and none for a reader that skips it.
-/
namespace RestWiring.Json

inductive Document where
  | broken
  | null
  | bool (value : Bool)
  | number (value : Option Number)
  | string (value : Option String)
  | array (items : List Document) (closed : Bool)
  | object (members : List (Option String × Document)) (closed : Bool)
  deriving Repr, Inhabited

def isBlank (c : Char) : Bool := c = ' ' || c = '\n' || c = '\t' || c = '\r'

def hexValue? (c : Char) : Option Nat :=
  if '0' ≤ c ∧ c ≤ '9' then some (c.toNat - 48)
  else if 'a' ≤ c ∧ c ≤ 'f' then some (c.toNat - 87)
  else if 'A' ≤ c ∧ c ≤ 'F' then some (c.toNat - 55)
  else none

/-- The code unit that four hexadecimal digits name. -/
def codeUnit? (a b c d : Char) : Option Nat := do
  let a ← hexValue? a
  let b ← hexValue? b
  let c ← hexValue? c
  let d ← hexValue? d
  return ((a * 16 + b) * 16 + c) * 16 + d

def isHighSurrogate (n : Nat) : Bool := 0xD800 ≤ n && n < 0xDC00

def isLowSurrogate (n : Nat) : Bool := 0xDC00 ≤ n && n < 0xE000

def simpleEscape? (c : Char) : Option Char :=
  if c = '"' then some '"'
  else if c = '\\' then some '\\'
  else if c = '/' then some '/'
  else if c = 'b' then some (Char.ofNat 8)
  else if c = 'f' then some (Char.ofNat 12)
  else if c = 'n' then some '\n'
  else if c = 'r' then some '\r'
  else if c = 't' then some '\t'
  else none

/-- Reads a string after its opening quote. `valid` says that no code unit so far stood without the
other half of its pair. -/
def stringBody (text : List Char) (valid : Bool) : List Char → Option (Option String × List Char)
  | [] => none
  | '"' :: rest => some (if valid then some (String.ofList text.reverse) else none, rest)
  | '\\' :: 'u' :: a :: b :: c :: d :: rest =>
    match codeUnit? a b c d with
    | none => none
    | some high =>
      if isHighSurrogate high then
        match rest with
        | '\\' :: 'u' :: e :: f :: g :: h :: rest' =>
          match codeUnit? e f g h with
          | some low =>
            if isLowSurrogate low then
              stringBody (Char.ofNat (0x10000 + (high - 0xD800) * 0x400 + (low - 0xDC00)) :: text) valid rest'
            else stringBody text false rest'
          | none => none
        | rest => stringBody text false rest
      else if isLowSurrogate high then stringBody text false rest
      else stringBody (Char.ofNat high :: text) valid rest
  | '\\' :: c :: rest =>
    match simpleEscape? c with
    | some e => stringBody (e :: text) valid rest
    | none => none
  | c :: rest => if c.toNat < 32 then none else stringBody (c :: text) valid rest

/-- The digits read so far as one number, together with the power of ten that digits beyond its
64 bits add. -/
structure Significand where
  value : Nat
  exponent : Int
  full : Bool

def digitValue (c : Char) : Nat := c.toNat - 48

/-- Takes one more digit, with `step` the change of the exponent for a digit that is kept. Once a
digit does not fit, it and those after it are dropped and change the exponent by `dropped`. -/
def Significand.push (step dropped : Int) (s : Significand) (c : Char) : Significand :=
  let next := s.value * 10 + digitValue c
  if s.full || Nat.pow 2 64 ≤ next then { s with exponent := s.exponent + dropped, full := true }
  else { s with value := next, exponent := s.exponent + step }

/-- Multiplies or divides by one rounded power of ten; a power beyond `10 ^ -308` takes several
divisions. -/
def scalePow10 : Nat → Double → Int → Option Double
  | 0, d, _ => some (Double.zero d.negative)
  | fuel + 1, d, e =>
    if e.natAbs ≤ 308 then do
      let pow ← Double.ofDecimal false 1 e.natAbs
      if 0 ≤ e then d.mul pow else d.div pow
    else if d.isZero then some d
    else if 0 ≤ e then none
    else do
      let pow ← Double.ofDecimal false 1 308
      let d ← d.div pow
      scalePow10 fuel d (e + 308)

/-- The double that a significand stands for: rounded first, then scaled and rounded again. -/
def Significand.toDouble? (s : Significand) (negative : Bool) : Option Double :=
  (scalePow10 4 (Double.ofInt s.value) s.exponent).map fun d => { d with negative }

/-- The value of a number from its parts; `none` if it is beyond every double. -/
def numberValue (negative : Bool) (whole : List Char) (fraction : Option (List Char))
    (exponent : Option (Bool × List Char)) : Option Number :=
  let s := whole.foldl (Significand.push 0 1) ⟨0, 0, false⟩
  match fraction, exponent with
  | none, none =>
    if s.full then (s.toDouble? negative).map .double
    else if !negative then some (.int s.value)
    else if s.value = 0 || Nat.pow 2 63 < s.value then some (.double (Double.ofInt s.value).neg)
    else some (.int (-s.value))
  | _, _ =>
    let s := (fraction.getD []).foldl (Significand.push (-1) 0) { s with full := false }
    match exponent with
    | none => (s.toDouble? negative).map .double
    | some (down, digits) =>
      let e := digits.foldl (fun n c => n * 10 + digitValue c) 0
      if Nat.pow 2 31 ≤ e then
        if s.value ≠ 0 ∧ !down then none else some (.double (Double.zero negative))
      else
        ({ s with exponent := if down then s.exponent - e else s.exponent + e }.toDouble? negative).map .double

/-- Reads a number: a whole part without idle zeros, and optionally a fraction and an exponent. -/
def numberToken (cs : List Char) : Option (Option Number × List Char) :=
  let (negative, cs) := match cs with
    | '-' :: rest => (true, rest)
    | cs => (false, cs)
  let whole := cs.takeWhile Char.isDigit
  let cs := cs.dropWhile Char.isDigit
  if whole.isEmpty || (whole.head? == some '0' && 1 < whole.length) then none
  else
    let fraction := match cs with
      | '.' :: rest => some (rest.takeWhile Char.isDigit)
      | _ => none
    let cs := match cs with
      | '.' :: rest => rest.dropWhile Char.isDigit
      | cs => cs
    let exponent := match cs with
      | e :: rest =>
        if e = 'e' || e = 'E' then
          match rest with
          | '+' :: rest => some (false, rest)
          | '-' :: rest => some (true, rest)
          | rest => some (false, rest)
        else none
      | [] => none
    if fraction == some [] then none
    else match exponent with
      | none => some (numberValue negative whole fraction none, cs)
      | some (down, rest) =>
        let digits := rest.takeWhile Char.isDigit
        if digits.isEmpty then none
        else some (numberValue negative whole fraction (some (down, digits)), rest.dropWhile Char.isDigit)

namespace Document

mutual

/-- Reads one value and the text behind it, which is `none` behind a fault. -/
def value : Nat → List Char → Document × Option (List Char)
  | 0, _ => (.broken, none)
  | fuel + 1, cs =>
    match cs.dropWhile isBlank with
    | 'n' :: 'u' :: 'l' :: 'l' :: rest => (.null, some rest)
    | 't' :: 'r' :: 'u' :: 'e' :: rest => (.bool true, some rest)
    | 'f' :: 'a' :: 'l' :: 's' :: 'e' :: rest => (.bool false, some rest)
    | '"' :: rest =>
      match stringBody [] true rest with
      | some (s, rest) => (.string s, some rest)
      | none => (.broken, none)
    | '[' :: rest =>
      match rest.dropWhile isBlank with
      | ']' :: rest => (.array [] true, some rest)
      | rest =>
        let (items, rest) := items fuel rest
        (.array items rest.isSome, rest)
    | '{' :: rest =>
      match rest.dropWhile isBlank with
      | '}' :: rest => (.object [] true, some rest)
      | rest =>
        let (members, rest) := members fuel rest
        (.object members rest.isSome, rest)
    | c :: rest =>
      if c = '-' || c.isDigit then
        match numberToken (c :: rest) with
        | some (n, rest) => (.number n, some rest)
        | none => (.broken, none)
      else (.broken, none)
    | [] => (.broken, none)

/-- Reads the items of an array up to its end. -/
def items : Nat → List Char → List Document × Option (List Char)
  | 0, _ => ([], none)
  | fuel + 1, cs =>
    match value fuel cs with
    | (item, none) => ([item], none)
    | (item, some rest) =>
      match rest.dropWhile isBlank with
      | ']' :: rest => ([item], some rest)
      | ',' :: rest =>
        let (more, rest) := items fuel rest
        (item :: more, rest)
      | _ => ([item], none)

/-- Reads the members of an object up to its end. -/
def members : Nat → List Char → List (Option String × Document) × Option (List Char)
  | 0, _ => ([], none)
  | fuel + 1, cs =>
    match cs.dropWhile isBlank with
    | '"' :: rest =>
      match stringBody [] true rest with
      | none => ([], none)
      | some (name, rest) =>
        match rest.dropWhile isBlank with
        | ':' :: rest =>
          match value fuel rest with
          | (item, none) => ([(name, item)], none)
          | (item, some rest) =>
            match rest.dropWhile isBlank with
            | '}' :: rest => ([(name, item)], some rest)
            | ',' :: rest =>
              let (more, rest) := members fuel rest
              ((name, item) :: more, rest)
            | _ => ([(name, item)], none)
        | _ => ([(name, .broken)], none)
    | _ => ([], none)

end

/-- Reads a text, and tells whether nothing but blanks follows the value. -/
def ofText (text : String) : Document × Bool :=
  let cs := text.toList
  match value (2 * cs.length + 2) cs with
  | (d, some rest) => (d, (rest.dropWhile isBlank).isEmpty)
  | (d, none) => (d, false)

end Document

end RestWiring.Json
