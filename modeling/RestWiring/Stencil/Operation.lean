import RestWiring.Stencil
import RestWiring.Stencil.Fault

/-!
# Operations on values

Truth values count as one and zero among numbers. Integers have 128 bits with a sign; where one operand
is a double, both are taken as doubles.
-/
namespace RestWiring.Stencil

def Operator.sign : Operator → String
  | .add => "+"
  | .sub => "-"
  | .mul => "*"
  | .div => "/"
  | .floorDiv => "//"
  | .rem => "%"
  | .pow => "**"
  | .concat => "~"
  | .equal => "=="
  | .notEqual => "!="
  | .less => "<"
  | .lessEqual => "<="
  | .greater => ">"
  | .greaterEqual => ">="
  | .isIn => "in"
  | .and => "and"
  | .or => "or"

namespace Value

/-- Whether an integer has at most 128 bits, one of them for the sign. -/
def fitsInt (i : Int) : Bool := -(Nat.pow 2 127 : Int) ≤ i && i < (Nat.pow 2 127 : Int)

/-- A value as a number. -/
inductive Numeric where
  | int (value : Int)
  | double (value : Double.Extended)

def Numeric.toDouble : Numeric → Double.Extended
  | .int i => .ofInt i
  | .double x => x

def numeric? : Value → Option Numeric
  | .bool b => some (.int (if b then 1 else 0))
  | .int i => some (.int i)
  | .double x => some (.double x)
  | _ => none

/-- A value as an integer, which doubles without a fraction are too. -/
def int? : Value → Option Int
  | .bool b => some (if b then 1 else 0)
  | .int i => some i
  | .double x => x.toInt?
  | _ => none

/-- An integer and a double are equal if their exact values are. -/
def sameNumber : Numeric → Numeric → Bool
  | .int a, .int b => a == b
  | .int a, .double b => b.toInt? == some a
  | .double a, .int b => a.toInt? == some b
  | .double a, .double b => a.same b

mutual

/-- Equality by value. -/
def same : Value → Value → Bool
  | .list a, .list b => sameItems a b
  | .map a, .map b => sameMembers a b
  | .undefined, .undefined => true
  | .null, .null => true
  | .string a _, .string b _ => a == b
  | a, b =>
    match numeric? a, numeric? b with
    | some a, some b => sameNumber a b
    | _, _ => false

def sameItems : List Value → List Value → Bool
  | [], [] => true
  | a :: as, b :: bs => same a b && sameItems as bs
  | _, _ => false

def sameMembers : List (String × Value) → List (String × Value) → Bool
  | [], [] => true
  | (k, a) :: as, (l, b) :: bs => k == l && same a b && sameMembers as bs
  | _, _ => false

end

def compareNumbers : Numeric → Numeric → Ordering
  | .int a, .int b => compare a b
  | a, b => a.toDouble.compare b.toDouble

mutual

/-- The order of values: first by kind, then by value. Lists and maps are ordered item by item. -/
def order : Value → Value → Ordering
  | .list a, .list b => orderItems a b
  | .map a, .map b => orderMembers a b
  | .string a _, .string b _ => compare a b
  | a, b =>
    match compare a.kind.rank b.kind.rank with
    | .eq =>
      match numeric? a, numeric? b with
      | some a, some b => compareNumbers a b
      | _, _ => .eq
    | other => other

def orderItems : List Value → List Value → Ordering
  | [], [] => .eq
  | [], _ => .lt
  | _, [] => .gt
  | a :: as, b :: bs => (order a b).then (orderItems as bs)

def orderMembers : List (String × Value) → List (String × Value) → Ordering
  | [], [] => .eq
  | [], _ => .lt
  | _, [] => .gt
  | (k, a) :: as, (l, b) :: bs => (compare k l).then ((order a b).then (orderMembers as bs))

end

def unsupported (op : Operator) (l r : Value) : Except Fault Value :=
  .error (.unsupported op.sign l.kind r.kind)

def uncomputable (op : Operator) (l r : Value) : Except Fault Value :=
  .error (.uncomputable (String.ofList l.shown) op.sign (String.ofList r.shown))

/-- Applies an operation on integers or on doubles. -/
def arithmetic (op : Operator) (onInts : Int → Int → Option Int)
    (onDoubles : Double.Extended → Double.Extended → Double.Extended) (l r : Value) : Except Fault Value :=
  match numeric? l, numeric? r with
  | some (.int a), some (.int b) =>
    match onInts a b with
    | some i => if fitsInt i then .ok (.int i) else uncomputable op l r
    | none => uncomputable op l r
  | some a, some b => .ok (.double (onDoubles a.toDouble b.toDouble))
  | _, _ => unsupported op l r

/-- A power; the exponent has to be an integer. -/
def power (l r : Value) : Except Fault Value :=
  match numeric? l, numeric? r with
  | some (.int a), some (.int b) =>
    if b < 0 || (1 < a.natAbs && 128 < b) then uncomputable .pow l r
    else
      let sign : Int := if a < 0 && b % 2 = 1 then -1 else 1
      let size := if a.natAbs ≤ 1 then (if b = 0 then 1 else a.natAbs) else Nat.pow a.natAbs b.toNat
      if fitsInt (sign * size) then .ok (.int (sign * size)) else uncomputable .pow l r
  | some a, some b =>
    match b.toDouble.toInt? with
    | some n =>
      if 1024 < n.natAbs then uncomputable .pow l r
      else
        let product := (List.replicate n.natAbs a.toDouble).foldl Double.Extended.mul (.ofInt 1)
        .ok (.double (if n < 0 then (Double.Extended.ofInt 1).div product else product))
    | none => uncomputable .pow l r
  | _, _ => unsupported .pow l r

/-- A text or a list so many times over. -/
def repeated (many : String) (times : Value) (result : Nat → Value) : Except Fault Value :=
  match times.int? with
  | some n => if n < 0 then .error (.invalid (many ++ " can only be multiplied with integers")) else .ok (result n.toNat)
  | none => .error (.invalid (many ++ " can only be multiplied with integers"))

def product (l r : Value) : Except Fault Value :=
  let ofText (s : String) (n : Nat) : Value := ofChars (List.replicate n s.toList).flatten
  let ofItems (items : List Value) (n : Nat) : Value := .list (List.replicate n items).flatten
  match l, r with
  | .string s _, n => repeated "strings" n (ofText s)
  | n, .string s _ => repeated "strings" n (ofText s)
  | .list items, n => repeated "sequences and iterables" n (ofItems items)
  | n, .list items => repeated "sequences and iterables" n (ofItems items)
  | l, r => arithmetic .mul (fun a b => some (a * b)) Double.Extended.mul l r

/-- The quotient, always as a double. -/
def quotient (l r : Value) : Except Fault Value :=
  match numeric? l, numeric? r with
  | some a, some b => .ok (.double (a.toDouble.div b.toDouble))
  | _, _ => unsupported .div l r

/-- Whether a text has another inside it. -/
def hasInfix (part : List Char) : List Char → Bool
  | [] => part.isEmpty
  | c :: cs => part.isPrefixOf (c :: cs) || hasInfix part cs

/-- Whether a list has an item, a map a member of a name, or a text a part. -/
def contains (container v : Value) : Except Fault Value :=
  match container with
  | .undefined => .ok (.bool false)
  | .string s _ => .ok (.bool (hasInfix v.shown s.toList))
  | .list items => .ok (.bool (items.any fun item => item.same v))
  | .map members =>
    match v with
    | .string name _ => .ok (.bool (members.any (·.1 == name)))
    | _ => .ok (.bool false)
  | _ => .error (.invalid "cannot perform a containment check on this value")

/-- The negative of a number. -/
def negative : Value → Except Fault Value
  | .int i => .ok (.int (-i))
  | .double x => .ok (.double x.neg)
  | _ => .error .notNegatable

/-- Applies an operator to its operands. -/
def combine (op : Operator) (l r : Value) : Except Fault Value :=
  match op with
  | .add =>
    match l, r with
    | .string a _, .string b _ => .ok (text (a ++ b))
    | .list a, .list b => .ok (.list (a ++ b))
    | l, r => arithmetic .add (fun a b => some (a + b)) Double.Extended.add l r
  | .sub => arithmetic .sub (fun a b => some (a - b)) Double.Extended.sub l r
  | .mul => product l r
  | .div => quotient l r
  | .floorDiv =>
    arithmetic .floorDiv (fun a b => if b = 0 then none else some (Int.ediv a b)) Double.Extended.divFloor l r
  | .rem =>
    arithmetic .rem (fun a b => if b = 0 then none else some (Int.emod a b)) Double.Extended.rem l r
  | .pow => power l r
  | .concat => .ok (ofChars (l.shown ++ r.shown))
  | .equal => .ok (.bool (l.same r))
  | .notEqual => .ok (.bool (!l.same r))
  | .less => .ok (.bool (l.order r == .lt))
  | .lessEqual => .ok (.bool (l.order r != .gt))
  | .greater => .ok (.bool (l.order r == .gt))
  | .greaterEqual => .ok (.bool (l.order r != .lt))
  | .isIn => contains r l
  | .and => .ok (if l.isTrue then r else l)
  | .or => .ok (if l.isTrue then l else r)

/-- A member of a map by name. -/
def member (v : Value) (name : String) : Except Fault Value :=
  match v with
  | .undefined => .error .undefined
  | .map members => .ok ((Entries.find? name members).getD .undefined)
  | _ => .ok .undefined

/-- The place in a list of given length that an index means; negative ones count from the end. -/
def place? (length : Nat) (index : Value) : Option Nat :=
  index.int?.bind fun i =>
    if 0 ≤ i then some i.toNat else if i.natAbs ≤ length then some (length - i.natAbs) else none

/-- An item of a list or a character of a text by place, or a member of a map by name. -/
def item (v index : Value) : Except Fault Value :=
  match v, index with
  | .undefined, _ => .error .undefined
  | .list items, i => .ok (((place? items.length i).bind (items[·]?)).getD .undefined)
  | .string s _, i =>
    let cs := s.toList
    .ok (((place? cs.length i).bind (cs[·]?)).elim .undefined fun c => ofChars [c])
  | .map members, .string name _ => .ok ((Entries.find? name members).getD .undefined)
  | _, _ => .ok .undefined

/-- What a loop visits: items, characters or names of members; nothing if there is no value. -/
def visited : Value → Except Fault (List Value)
  | .undefined => .ok []
  | .null => .ok []
  | .list items => .ok items
  | .string s _ => .ok (s.toList.map fun c => ofChars [c])
  | .map members => .ok (members.map fun m => text m.1)
  | v => .error (.notIterable v.kind)

/-- Every item of which the place is a multiple of a step. -/
def everyNth {α : Type} (step : Nat) (items : List α) : List α :=
  items.zipIdx.filterMap fun (a, i) => if i % step = 0 then some a else none

/-- The part of a list between two bounds, which count from the end if they are negative. Steps that go
back take the items from the last to the first. -/
def sliced {α : Type} (start stop : Option Int) (step : Int) (items : List α) : List α :=
  let length : Int := items.length
  let clamp (low high i : Int) : Int := max low (min high (if i < 0 then i + length else i))
  if 0 < step then
    let first := clamp 0 length (start.getD 0)
    let past := clamp 0 length (stop.getD length)
    everyNth step.toNat ((items.take past.toNat).drop first.toNat)
  else
    let first := clamp (-1) (length - 1) (start.getD (length - 1))
    let past := (stop.map (clamp (-1) (length - 1))).getD (-1)
    everyNth (-step).toNat ((items.take (first + 1).toNat).drop (past + 1).toNat).reverse

/-- A bound of a slice. -/
def bound (v : Value) : Except Fault (Option Int) :=
  match v with
  | .null => .ok none
  | v =>
    match v.int? with
    | some i => .ok (some i)
    | none => .error (.unconvertible v.kind "i64")

def slice (v start stop step : Value) : Except Fault Value := do
  let start ← bound start
  let stop ← bound stop
  let step := (← bound step).getD 1
  if step = 0 then .error (.invalid "cannot slice by step size of 0")
  else
    match v with
    | .string s _ => .ok (ofChars (sliced start stop step s.toList))
    | .undefined | .null => .ok (.list [])
    | .list items => .ok (.list (sliced start stop step items))
    | v => .error (.invalid ("value of type " ++ v.kind.text ++ " cannot be sliced"))

end Value

end RestWiring.Stencil
