import RestWiring.Double.Extended
import RestWiring.Json.Text
import RestWiring.Text
import RestWiring.Text.Quoted

/-!
# Values inside stencils

Values are those of JSON, integers of any size, all doubles, and `undefined`, for what has not been
given. Maps list their members by name. This module says what kind a value is of, when it counts as
true and how it is shown.
-/
namespace RestWiring.Stencil

inductive Value where
  | undefined
  | null
  | bool (value : Bool)
  | int (value : Int)
  | double (value : Double.Extended)
  /-- Text that is `safe` is shown as it is, whatever else is escaped. -/
  | string (text : String) (safe : Bool)
  | list (items : List Value)
  | map (members : List (String × Value))
  deriving Repr, Inhabited

namespace Value

def text (s : String) : Value := .string s false

def ofChars (cs : List Char) : Value := text (String.ofList cs)

def nat (n : Nat) : Value := .int n

mutual

def ofJson : Json → Value
  | .null => .null
  | .bool b => .bool b
  | .number (.int i) => .int i
  | .number (.double d) => .double (.finite d)
  | .string s => text s
  | .array items => .list (ofItems items)
  | .object members => .map (Entries.ofList (ofMembers members))

def ofItems : List Json → List Value
  | [] => []
  | j :: js => ofJson j :: ofItems js

def ofMembers : List (String × Json) → List (String × Value)
  | [] => []
  | (k, j) :: js => (k, ofJson j) :: ofMembers js

end

mutual

/-- A value as JSON, where what has no place in it is null. -/
def toJson : Value → Json
  | .undefined => .null
  | .null => .null
  | .bool b => .bool b
  | .int i => .int i
  | .double (.finite d) => .number (.double d)
  | .double _ => .null
  | .string s _ => .string s
  | .list items => .array (toItems items)
  | .map members => .object (toMembers members)

def toItems : List Value → List Json
  | [] => []
  | v :: vs => toJson v :: toItems vs

def toMembers : List (String × Value) → List (String × Json)
  | [] => []
  | (k, v) :: vs => (k, toJson v) :: toMembers vs

end

inductive Kind where
  | undefined | none | bool | number | string | sequence | map
  deriving DecidableEq, Repr

def Kind.text : Kind → String
  | .undefined => "undefined"
  | .none => "none"
  | .bool => "bool"
  | .number => "number"
  | .string => "string"
  | .sequence => "sequence"
  | .map => "map"

def Kind.rank : Kind → Nat
  | .undefined => 0
  | .none => 1
  | .bool => 2
  | .number => 3
  | .string => 4
  | .sequence => 5
  | .map => 6

def kind : Value → Kind
  | .undefined => .undefined
  | .null => .none
  | .bool _ => .bool
  | .int _ | .double _ => .number
  | .string .. => .string
  | .list _ => .sequence
  | .map _ => .map

def isTrue : Value → Bool
  | .undefined => false
  | .null => false
  | .bool b => b
  | .int i => i != 0
  | .double x => !x.isZero
  | .string s _ => !s.isEmpty
  | .list items => !items.isEmpty
  | .map members => !members.isEmpty

def intChars (i : Int) : List Char := Json.numberText (.int i)

/-- A double in one of the notations for finite ones. -/
def doubleChars (finite : Double → List Char) : Double.Extended → List Char
  | .finite d => finite d
  | .infinity negative => if negative then ['-', 'i', 'n', 'f'] else ['i', 'n', 'f']
  | .nan => ['N', 'a', 'N']

mutual

/-- A value inside a list or a map, where strings stand in quotes and doubles far from one have an
exponent. -/
def innerChars : Value → List Char
  | .undefined => ['u', 'n', 'd', 'e', 'f', 'i', 'n', 'e', 'd']
  | .null => ['N', 'o', 'n', 'e']
  | .bool true => ['T', 'r', 'u', 'e']
  | .bool false => ['F', 'a', 'l', 's', 'e']
  | .int i => intChars i
  | .double x => doubleChars Double.terseText x
  | .string s _ => (Text.quoted s).toList
  | .list items => '[' :: innerItems items ++ [']']
  | .map members => '{' :: innerMembers members ++ ['}']

def innerItems : List Value → List Char
  | [] => []
  | [v] => innerChars v
  | v :: vs => innerChars v ++ ',' :: ' ' :: innerItems vs

def innerMembers : List (String × Value) → List Char
  | [] => []
  | [(k, v)] => (Text.quoted k).toList ++ ':' :: ' ' :: innerChars v
  | (k, v) :: vs => (Text.quoted k).toList ++ ':' :: ' ' :: innerChars v ++ ',' :: ' ' :: innerMembers vs

end

/-- How a place shows a value: strings as they are, nothing for what has not been given, doubles in
full. -/
def shown : Value → List Char
  | .undefined => []
  | .string s _ => s.toList
  | .double x => doubleChars Double.plainText x
  | v => innerChars v

/-- Characters that could end a literal or a tag around it are written by number. -/
def guardChar (c : Char) : List Char :=
  if c = '<' then ['\\', 'u', '0', '0', '3', 'c']
  else if c = '>' then ['\\', 'u', '0', '0', '3', 'e']
  else if c = '&' then ['\\', 'u', '0', '0', '2', '6']
  else if c = '\'' then ['\\', 'u', '0', '0', '2', '7']
  else [c]

/-- A value as JSON text that is safe inside other text. -/
def jsonChars (v : Value) : List Char := v.toJson.compactChars.flatMap guardChar

end Value

/-- What becomes of the characters of values. -/
inductive Escaping where
  | off
  | markup
  | json
  deriving DecidableEq, Repr

namespace Escaping

/-- A stencil is escaped by the ending of its name; an ending that tells a stencil from other files is
left out first. -/
def ofName (name : String) : Escaping :=
  let parts := Text.splitOn '.' name.toList
  let isStencilEnding (ending : List Char) : Bool :=
    ["j2", "jinja", "jinja2"].contains (String.ofList ending)
  let ending := match parts.reverse with
    | last :: before :: _ => if isStencilEnding last then before else last
    | parts => parts.headD []
  match String.ofList ending with
  | "html" | "htm" | "xml" => .markup
  | "json" | "json5" | "js" | "yaml" | "yml" => .json
  | _ => .off

def markupChar (c : Char) : List Char :=
  if c = '<' then ['&', 'l', 't', ';']
  else if c = '>' then ['&', 'g', 't', ';']
  else if c = '&' then ['&', 'a', 'm', 'p', ';']
  else if c = '"' then ['&', 'q', 'u', 'o', 't', ';']
  else if c = '\'' then ['&', '#', 'x', '2', '7', ';']
  else if c = '/' then ['&', '#', 'x', '2', 'f', ';']
  else [c]

/-- A value as a place shows it. -/
def shown : Escaping → Value → List Char
  | _, .string s true => s.toList
  | .off, v => v.shown
  | .markup, v => v.shown.flatMap markupChar
  | .json, v => v.toJson.compactChars

end Escaping

end RestWiring.Stencil
