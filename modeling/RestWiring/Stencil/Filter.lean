import RestWiring.Stencil.Operation

/-!
# Filters, tests and functions

What stencils may apply to values by name. The number of arguments is checked before their kinds.
-/
namespace RestWiring.Stencil

namespace Value

/-- Drops one line break at the end, if there is one. -/
def dropLineBreak (text : List Char) : List Char :=
  let text := if text.getLast? = some '\n' then text.dropLast else text
  if text.getLast? = some '\r' then text.dropLast else text

/-- Puts blanks before the lines of a text. A line break at the end is dropped, of the text as it is
given and, if what is left ends in one, once more. -/
def indented (width : Nat) (first blankLines : Bool) (text : List Char) : List Char :=
  let pad (line : List Char) := if line.isEmpty && !blankLines then line else List.replicate width ' ' ++ line
  match Text.splitOn '\n' (dropLineBreak text) with
  | [] => []
  | head :: rest =>
    let lines := (if first then pad head else head) :: rest.map pad
    dropLineBreak (List.intercalate ['\n'] lines ++ ['\n'])

/-- A number that is not negative. -/
def size (v : Value) : Except Fault Nat :=
  match v.int? with
  | some i => if 0 ≤ i && i < (Nat.pow 2 64 : Int) then .ok i.toNat else .error (.unconvertible v.kind "usize")
  | none => .error (.unconvertible v.kind "usize")

/-- A truth value that is false if it is not given. -/
def flag : Option Value → Except Fault Bool
  | none | some .undefined | some .null => .ok false
  | some (.bool b) => .ok b
  | some v => .error (.unconvertible v.kind "bool")

/-- Replaces every occurrence of a text by another one; an empty text occurs around every character.
At most `fuel` characters are gone over. -/
def replaced (old new : List Char) : Nat → List Char → List Char
  | 0, cs => cs
  | _, [] => if old.isEmpty then new else []
  | fuel + 1, c :: cs =>
    if old.isEmpty then new ++ c :: replaced old new fuel cs
    else if old.isPrefixOf (c :: cs) then new ++ replaced old new fuel ((c :: cs).drop old.length)
    else c :: replaced old new fuel cs

/-- Texts one after another; the joint is left out as long as nothing stands before it. -/
def joined (joint : List Char) (texts : List (List Char)) : List Char :=
  texts.foldl (fun before text => if before.isEmpty then text else before ++ joint ++ text) []

/-- Drops characters at both ends. -/
def trimmed (drops : Char → Bool) (cs : List Char) : List Char :=
  ((cs.dropWhile drops).reverse.dropWhile drops).reverse

def upperChar (c : Char) : Char := if 'a' ≤ c ∧ c ≤ 'z' then Char.ofNat (c.toNat - 32) else c

/-- Inserts a value behind those that are not greater. -/
def insertByOrder (v : Value) : List Value → List Value
  | [] => [v]
  | w :: ws => if v.order w == .lt then v :: w :: ws else w :: insertByOrder v ws

def sortItems (items : List Value) : List Value := items.foldl (fun sorted v => insertByOrder v sorted) []

/-- The items of a value that is to become a list. -/
def itemsFor (detail : String) (v : Value) : Except Fault (List Value) :=
  v.visited.mapError fun _ => .invalid detail

/-- An argument by place. -/
def argument (given : List Value) (n : Nat) : Value := given[n]?.getD .undefined

/-- The arguments of a filter or a test, of which there have to be `least` to `most`. -/
def checked (least most : Nat) (arguments : List Value) (k : List Value → Except Fault Value) : Except Fault Value :=
  if most < arguments.length then .error .tooManyArguments
  else if arguments.length < least then .error .missingArgument
  else k arguments

/-- Applies a filter by name. -/
def filter (name : String) (v : Value) (arguments : List Value) : Except Fault Value :=
  let plain (f : Except Fault Value) : Except Fault Value := checked 0 0 arguments fun _ => f
  match name with
  | "tojson" => plain (.ok (.string (String.ofList v.jsonChars) true))
  | "indent" => checked 1 3 arguments fun given => do
    let width ← (argument given 0).size
    let first ← flag given[1]?
    let blankLines ← flag given[2]?
    return ofChars (indented width first blankLines v.shown)
  | "safe" => plain (.ok (.string (String.ofList v.shown) true))
  | "string" => plain <| .ok <| match v with
    | .string .. => v
    | v => ofChars v.shown
  | "lower" => plain (.ok (ofChars (v.shown.map Text.lowerChar)))
  | "upper" => plain (.ok (ofChars (v.shown.map upperChar)))
  | "capitalize" => plain <| .ok <| match v.shown with
    | [] => text ""
    | c :: cs => ofChars (upperChar c :: cs.map Text.lowerChar)
  | "trim" => checked 0 1 arguments fun given =>
    match argument given 0 with
    | .undefined | .null => .ok (ofChars (trimmed Text.isSpace v.shown))
    | w => .ok (ofChars (trimmed w.shown.contains v.shown))
  | "replace" => checked 2 2 arguments fun given =>
    let old := (argument given 0).shown
    let new := (argument given 1).shown
    .ok (ofChars (replaced old new (v.shown.length + 1) v.shown))
  | "join" => checked 0 1 arguments fun given => do
    let joint := match argument given 0 with
      | .undefined | .null => []
      | w => w.shown
    let items ← itemsFor ("cannot join value of type " ++ v.kind.text) v
    return ofChars (joined joint (items.map shown))
  | "length" | "count" => plain <| match v with
    | .string s _ => .ok (nat s.length)
    | .list items => .ok (nat items.length)
    | .map members => .ok (nat members.length)
    | v => .error (.invalid ("cannot calculate length of value of type " ++ v.kind.text))
  | "default" | "d" => checked 0 2 arguments fun given => do
    let lax ← flag given[1]?
    let missing := match v with
      | .undefined => true
      | v => lax && !v.isTrue
    return if missing then given.headD (text "") else v
  | "first" => plain <| match v with
    | .string s _ => .ok (s.toList.head?.elim .undefined fun c => ofChars [c])
    | .list items => .ok (items.headD .undefined)
    | .map members => .ok (members.head?.elim .undefined fun m => text m.1)
    | _ => .error (.invalid "cannot get first item from value")
  | "last" => plain <| match v with
    | .string s _ => .ok (s.toList.getLast?.elim .undefined fun c => ofChars [c])
    | .list items => .ok (items.getLast?.getD .undefined)
    | _ => .error (.invalid "cannot get last item from value")
  | "reverse" => plain <| match v with
    | .string s _ => .ok (ofChars s.toList.reverse)
    | .list items => .ok (.list items.reverse)
    | v => .error (.invalid ("cannot reverse value of type " ++ v.kind.text))
  | "list" => plain (.list <$> itemsFor "cannot convert value to list" v)
  | "items" => plain <| match v with
    | .map members => .ok (.list (members.map fun m => .list [text m.1, m.2]))
    | _ => .error (.invalid "cannot convert value into pair list")
  | "sort" => plain ((fun items => .list (sortItems items)) <$> itemsFor "cannot convert value to list" v)
  | "abs" => plain <| match v with
    | .int i => .ok (.int i.natAbs)
    | .double x => .ok (.double (if x.isBelowZero then x.neg else x))
    | _ => .error (.invalid "cannot get absolute value")
  | "bool" => plain (.ok (.bool v.isTrue))
  | name => .error (.unknownFilter name)

/-- The operator that a test with one argument stands for. -/
def testOperator? : String → Option Operator
  | "eq" | "equalto" => some .equal
  | "ne" => some .notEqual
  | "lt" | "lessthan" => some .less
  | "le" => some .lessEqual
  | "gt" | "greaterthan" => some .greater
  | "ge" => some .greaterEqual
  | "in" => some .isIn
  | _ => none

/-- Applies a test by name. -/
def test (name : String) (v : Value) (arguments : List Value) : Except Fault Value :=
  let plain (b : Bool) : Except Fault Value := checked 0 0 arguments fun _ => .ok (.bool b)
  let withOne (f : Value → Bool) : Except Fault Value :=
    checked 1 1 arguments fun given => .ok (.bool (f (argument given 0)))
  match name with
  | "defined" => plain (v.kind != .undefined)
  | "undefined" => plain (v.kind == .undefined)
  | "none" => plain (v.kind == .none)
  | "boolean" => plain (v.kind == .bool)
  | "number" => plain (v.kind == .number)
  | "string" => plain (v.kind == .string)
  | "sequence" => plain (v.kind == .sequence)
  | "mapping" => plain (v.kind == .map)
  | "iterable" => plain v.visited.toBool
  | "integer" | "int" => plain <| match v with
    | .int _ => true
    | _ => false
  | "float" => plain <| match v with
    | .double _ => true
    | _ => false
  | "true" => plain <| match v with
    | .bool b => b
    | _ => false
  | "false" => plain <| match v with
    | .bool b => !b
    | _ => false
  | "safe" | "escaped" => plain <| match v with
    | .string _ safe => safe
    | _ => false
  | "odd" => plain (v.int?.any fun i => Int.emod i 2 == 1)
  | "even" => plain (v.int?.any fun i => Int.emod i 2 == 0)
  | "divisibleby" => withOne fun w =>
    match v.int?, w.int? with
    | some a, some b => b != 0 && Int.emod a b == 0
    | _, _ => false
  | "startingwith" => withOne fun w => w.shown.isPrefixOf v.shown
  | "endingwith" => withOne fun w => w.shown.isSuffixOf v.shown
  | name =>
    match testOperator? name with
    | some op => checked 1 1 arguments fun given => combine op v (argument given 0)
    | none => .error (.unknownTest name)

/-- The numbers from one up to below another, at most a hundred thousand. -/
def range (arguments : List Value) : Except Fault Value :=
  checked 1 3 arguments fun given => do
    let numbers ← given.mapM fun v =>
      match v.int? with
      | some i => .ok i
      | none => .error (.unconvertible v.kind "u32")
    let (low, high, step) : Int × Int × Int := match numbers with
      | [high] => (0, high, 1)
      | [low, high] => (low, high, 1)
      | low :: high :: step :: _ => (low, high, step)
      | [] => (0, 0, 1)
    if step ≤ 0 then .error (.invalid "cannot create range with step of 0")
    else
      let count := (Int.ediv (high - low + step - 1) step).toNat
      if 100000 < count then .error (.invalid "range has too many elements")
      else return .list ((List.range count).map fun (n : Nat) => .int (low + step * (n : Int)))

/-- Calls a function by name. -/
def call (name : String) (arguments : List Value) : Except Fault Value :=
  match name with
  | "range" => range arguments
  | name => .error (.unknownFunction name)

end Value

end RestWiring.Stencil
