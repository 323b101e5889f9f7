import RestWiring.Json

/-!
# The types of plain YAML scalars

A plain scalar without a tag is null, a boolean, a number or a text by its looks. An integer has a
decimal, hexadecimal, octal or binary form; digits behind a leading zero are a text. A number with a
fraction or an exponent is rounded once, and is a text if it is beyond every double.
-/
namespace RestWiring.Yaml

def isNull (s : String) : Bool := s == "null" || s == "Null" || s == "NULL" || s == "~"

def bool? (s : String) : Option Bool :=
  if s == "true" || s == "True" || s == "TRUE" then some true
  else if s == "false" || s == "False" || s == "FALSE" then some false
  else none

/-- Leaves out a plus sign. -/
def unsigned : List Char → List Char
  | '+' :: cs => cs
  | cs => cs

def digitIn? (base : Nat) (c : Char) : Option Nat :=
  let n :=
    if c.isDigit then c.toNat - 48
    else if 'a' ≤ c ∧ c ≤ 'z' then c.toNat - 87
    else if 'A' ≤ c ∧ c ≤ 'Z' then c.toNat - 55
    else base
  if n < base then some n else none

/-- The number that digits stand for; there has to be one. -/
def digits? (base : Nat) : List Char → Option Nat
  | [] => none
  | cs => cs.foldlM (fun n c => (digitIn? base c).map (n * base + ·)) 0

/-- Whether a scalar consists of digits behind a leading zero. -/
def hasIdleZero (cs : List Char) : Bool :=
  let cs := match cs with
    | '-' :: cs => cs
    | cs => unsigned cs
  match cs with
  | '0' :: rest => !rest.isEmpty && rest.all Char.isDigit
  | _ => false

/-- A number by its form alone, without a sign. -/
def natural? : List Char → Option Nat
  | '0' :: 'x' :: cs => digits? 16 cs
  | '0' :: 'o' :: cs => digits? 8 cs
  | '0' :: 'b' :: cs => digits? 2 cs
  | cs => if hasIdleZero cs then none else digits? 10 cs

/-- An integer. -/
def integer? (cs : List Char) : Option Int :=
  match cs with
  | '-' :: cs => (natural? cs).map fun n => -(n : Int)
  | cs => (natural? (unsigned cs)).map fun n => (n : Int)

/-- The exponent of a number, which may have a sign. -/
def exponent? (cs : List Char) : Option Int :=
  match cs with
  | '-' :: cs => (digits? 10 cs).map fun n => -(n : Int)
  | cs => (digits? 10 (unsigned cs)).map fun n => (n : Int)

/-- A decimal number with digits before or behind its point and maybe an exponent. -/
def decimal? (negative : Bool) (cs : List Char) : Option Double := do
  let whole := cs.takeWhile Char.isDigit
  let cs := cs.dropWhile Char.isDigit
  let (fraction, cs) := match cs with
    | '.' :: cs => (cs.takeWhile Char.isDigit, cs.dropWhile Char.isDigit)
    | cs => ([], cs)
  let digits ← digits? 10 (whole ++ fraction)
  let exponent ← match cs with
    | [] => some 0
    | c :: cs => if c = 'e' || c = 'E' then exponent? cs else none
  let exponent := exponent - fraction.length
  let size : Int := (whole ++ fraction).length
  if digits = 0 then some (Double.zero negative)
  else if 400 < exponent then none
  else if exponent + size < -400 then some (Double.zero negative)
  else Double.ofDecimal negative digits exponent

/-- A number with a fraction, or one of the words for an infinity or for no number, which are
`some none`. -/
def float? (s : String) : Option (Option Double) :=
  let word (w : String) : Bool := s == w
  if [".inf", ".Inf", ".INF", "+.inf", "+.Inf", "+.INF", "-.inf", "-.Inf", "-.INF", ".nan", ".NaN",
      ".NAN"].any word then some none
  else
    let negative := s.toList.head? == some '-'
    let cs := match s.toList with
      | '-' :: cs => cs
      | cs => unsigned cs
    (decimal? negative cs).map some

/-- Whether an integer has so many bits, one of them for the sign if it is negative. -/
def fits (bits : Nat) (i : Int) : Bool :=
  if i < 0 then i.natAbs ≤ Nat.pow 2 (bits - 1) else i.natAbs < Nat.pow 2 bits

/-- What a plain scalar stands for. An integer beyond 128 bits is read as a number with a fraction,
and one beyond 64 bits is `none`: nothing has a place for it. -/
def ofPlain (s : String) : Option Json :=
  let cs := s.toList
  let floating : Json :=
    if hasIdleZero cs then .string s
    else match float? s with
      | some (some d) => .number (.double d)
      | some none => .null
      | none => .string s
  if s.isEmpty || isNull s then some .null
  else
    match bool? s with
    | some b => some (.bool b)
    | none =>
      match integer? cs with
      | some i =>
        if fits 64 i then some (.int i)
        else if fits 128 i then none
        else some floating
      | none => some floating

def standardTag (word : String) : String := "tag:yaml.org,2002:" ++ word

/-- Whether a tag is local to its document and has a name that is text: its octets are UTF-8. -/
def isOwnTag (tag : String) : Bool :=
  match tag.toList with
  | '!' :: octets => (String.fromUTF8? ⟨(octets.map fun c => UInt8.ofNat c.toNat).toArray⟩).isSome
  | _ => false

/-- What a scalar stands for. Tags of the standard types are binding, and other tags mean a text; a tag
of one's own has no meaning, and a local one whose name is no text is as good as none. -/
def ofScalar (tag : Option String) (plain : Bool) (s : String) : Option Json :=
  let untagged := if plain then ofPlain s else some (.string s)
  match tag with
  | none => untagged
  | some t =>
    if isOwnTag t then none
    else if t.toList.head? == some '!' then untagged
    else if t == standardTag "null" then if isNull s then some .null else none
    else if t == standardTag "bool" then (bool? s).map .bool
    else if t == standardTag "int" then
      match integer? s.toList with
      | some i => if fits 64 i then some (.int i) else none
      | none => none
    else if t == standardTag "float" then
      (float? s).map fun
        | some d => .number (.double d)
        | none => .null
    else some (.string s)

end RestWiring.Yaml
