import RestWiring.Double
import RestWiring.SortedMap

/-!
# JSON values

Numbers keep integers apart from doubles. The members of an object are listed in the order in which
they are written; values that were read, or that went through `Json.sorted`, list them by name.
-/
namespace RestWiring

inductive Number where
  | int (value : Int)
  | double (value : Double)
  deriving DecidableEq, Repr

inductive Json where
  | null
  | bool (value : Bool)
  | number (value : Number)
  | string (value : String)
  | array (items : List Json)
  | object (members : List (String × Json))
  deriving Repr, Inhabited

namespace Number

/-- Comparison by value within one kind: an integer never equals a double. -/
def same : Number → Number → Bool
  | .int a, .int b => a == b
  | .double a, .double b => a.same b
  | _, _ => false

def toDouble : Number → Double
  | .int i => Double.ofInt i
  | .double d => d

end Number

namespace Json

def int (i : Int) : Json := .number (.int i)

def nat (n : Nat) : Json := .number (.int n)

def strings (items : List String) : Json := .array (items.map .string)

mutual

/-- Equality of values; members are compared in the order in which they are listed. -/
def same : Json → Json → Bool
  | .null, .null => true
  | .bool a, .bool b => a == b
  | .number a, .number b => a.same b
  | .string a, .string b => a == b
  | .array a, .array b => sameItems a b
  | .object a, .object b => sameMembers a b
  | _, _ => false

def sameItems : List Json → List Json → Bool
  | [], [] => true
  | a :: as, b :: bs => same a b && sameItems as bs
  | _, _ => false

def sameMembers : List (String × Json) → List (String × Json) → Bool
  | [], [] => true
  | (k, a) :: as, (l, b) :: bs => k == l && same a b && sameMembers as bs
  | _, _ => false

end

instance : BEq Json := ⟨same⟩

mutual

/-- Lists the members of every object by name; of two members with one name the later stays. -/
def sorted : Json → Json
  | .array items => .array (sortedItems items)
  | .object members => .object (Entries.ofList (sortedMembers members))
  | .null => .null
  | .bool b => .bool b
  | .number n => .number n
  | .string s => .string s

def sortedItems : List Json → List Json
  | [] => []
  | j :: js => sorted j :: sortedItems js

def sortedMembers : List (String × Json) → List (String × Json)
  | [] => []
  | (k, j) :: js => (k, sorted j) :: sortedMembers js

end

/-- The member of an object with a given name. -/
def get? : Json → String → Option Json
  | .object members, name => Entries.find? name members
  | _, _ => none

/-- A member that is left out when its value is none. -/
def optional (name : String) : Option Json → List (String × Json)
  | some j => [(name, j)]
  | none => []

/-- A member that is left out under a condition. -/
def omittedIf (omitted : Bool) (name : String) (j : Json) : List (String × Json) :=
  if omitted then [] else [(name, j)]

end Json

end RestWiring
