import RestWiring.Json.Document
import RestWiring.Json.Text
import RestWiring.Record
import RestWiring.Text.Quoted

/-!
# Reading values out of JSON documents

A `Reader` visits a document from left to right and stops at the first fault, which is either one of
form (the text is no JSON, or it nests too deeply) or one of shape (the JSON is not what the reader
wants). Records are read from objects, whose members come in any order, and from arrays, whose items
are the fields in order.
-/
namespace RestWiring.Json

inductive Found where
  | null
  | bool (value : Bool)
  | number (value : Number)
  | string (value : String)
  | sequence
  | map
  deriving DecidableEq, Repr

inductive Wanted where
  | null
  | string
  | boolean
  | natural (bits : Nat)
  | pair
  | sequence
  | map
  | record (name : String)
  deriving DecidableEq, Repr

inductive ShapeFault where
  | wrongType (found : Found) (wanted : Wanted)
  | outOfRange (found : Found) (wanted : Wanted)
  | unknownWord (found : String) (words : List String)
  | wrongLength (length : Nat)
  | tooShort (length : Nat) (record : String) (fields : Nat)
  | missingField (name : String)
  | duplicateField (name : String)
  | noVariant (name : String)
  deriving DecidableEq, Repr

inductive ReadFault where
  | form
  | shape (fault : ShapeFault)
  deriving DecidableEq, Repr

def Found.text : Found → String
  | .null => "null"
  | .bool b => "boolean `" ++ (if b then "true" else "false") ++ "`"
  | .number (.int i) => "integer `" ++ String.ofList (numberText (.int i)) ++ "`"
  | .number (.double d) => "floating point `" ++ String.ofList d.shortText ++ "`"
  | .string s => "string " ++ Text.quoted s
  | .sequence => "sequence"
  | .map => "map"

def Wanted.text : Wanted → String
  | .null => "unit"
  | .string => "a string"
  | .boolean => "a boolean"
  | .natural bits => "u" ++ toString bits
  | .pair => "a tuple of size 2"
  | .sequence => "a sequence"
  | .map => "a map"
  | .record name => "struct " ++ name

/-- Words to choose from, as a message lists them. -/
def choice (words : List String) : String :=
  match words.map fun w => "`" ++ w ++ "`" with
  | [w] => w
  | [v, w] => v ++ " or " ++ w
  | ws => "one of " ++ ", ".intercalate ws

def ShapeFault.message : ShapeFault → String
  | .wrongType found wanted => "invalid type: " ++ found.text ++ ", expected " ++ wanted.text
  | .outOfRange found wanted => "invalid value: " ++ found.text ++ ", expected " ++ wanted.text
  | .unknownWord found words => "unknown variant `" ++ found ++ "`, expected " ++ choice words
  | .wrongLength length => "invalid length " ++ toString length ++ ", expected a tuple of size 2"
  | .tooShort length record fields =>
    "invalid length " ++ toString length ++ ", expected struct " ++ record ++ " with " ++
      toString fields ++ (if fields = 1 then " element" else " elements")
  | .missingField name => "missing field `" ++ name ++ "`"
  | .duplicateField name => "duplicate field `" ++ name ++ "`"
  | .noVariant name => "data did not match any variant of untagged enum " ++ name

/-- Reads a value, given how many more levels of containers may be entered. -/
abbrev Reader (α : Type) := Nat → Document → Except ReadFault α

/-- Enters a container. -/
def descend : Nat → Except ReadFault Nat
  | depth + 2 => .ok (depth + 1)
  | _ => .error .form

/-- How many levels of containers a document may have, the outermost counted. -/
def depthLimit : Nat := 128

def wrongType {α : Type} (wanted : Wanted) : Document → Except ReadFault α
  | .null => .error (.shape (.wrongType .null wanted))
  | .bool b => .error (.shape (.wrongType (.bool b) wanted))
  | .number (some n) => .error (.shape (.wrongType (.number n) wanted))
  | .string (some s) => .error (.shape (.wrongType (.string s) wanted))
  | .array _ _ => .error (.shape (.wrongType .sequence wanted))
  | .object _ _ => .error (.shape (.wrongType .map wanted))
  | _ => .error .form

namespace Document

mutual

/-- Whether a document holds no fault, so that it can be skipped. -/
def intact : Document → Bool
  | .broken => false
  | .array items closed => intactItems items && closed
  | .object members closed => intactMembers members && closed
  | _ => true

def intactItems : List Document → Bool
  | [] => true
  | d :: ds => intact d && intactItems ds

def intactMembers : List (Option String × Document) → Bool
  | [] => true
  | (_, d) :: ds => intact d && intactMembers ds

end

mutual

/-- Reads any value. -/
def any (depth : Nat) : Document → Except ReadFault Json
  | .null => .ok .null
  | .bool b => .ok (.bool b)
  | .number (some n) => .ok (.number n)
  | .string (some s) => .ok (.string s)
  | .array items closed => do
    let depth ← descend depth
    let items ← anyItems depth items
    if closed then .ok (.array items) else .error .form
  | .object members closed => do
    let depth ← descend depth
    let members ← anyMembers depth members
    if closed then .ok (.object (Entries.ofList members)) else .error .form
  | _ => .error .form

def anyItems (depth : Nat) : List Document → Except ReadFault (List Json)
  | [] => .ok []
  | d :: ds => do
    let item ← any depth d
    let items ← anyItems depth ds
    .ok (item :: items)

def anyMembers (depth : Nat) : List (Option String × Document) → Except ReadFault (List (String × Json))
  | [] => .ok []
  | (some name, d) :: ds => do
    let item ← any depth d
    let items ← anyMembers depth ds
    .ok ((name, item) :: items)
  | (none, _) :: _ => .error .form

end

mutual

/-- The document that a value is. -/
def ofJson : Json → Document
  | .null => .null
  | .bool b => .bool b
  | .number n => .number (some n)
  | .string s => .string (some s)
  | .array items => .array (ofItems items) true
  | .object members => .object (ofMembers members) true

def ofItems : List Json → List Document
  | [] => []
  | j :: js => ofJson j :: ofItems js

def ofMembers : List (String × Json) → List (Option String × Document)
  | [] => []
  | (k, j) :: js => (some k, ofJson j) :: ofMembers js

end

end Document

namespace Reader

instance : Functor Reader where
  map f read := fun depth d => f <$> read depth d

def any : Reader Json := Document.any

def string : Reader String
  | _, .string (some s) => .ok s
  | _, d => wrongType .string d

def bool : Reader Bool
  | _, .bool b => .ok b
  | _, d => wrongType .boolean d

/-- A natural number of at most so many bits. -/
def natural (bits : Nat) : Reader Nat
  | _, .number (some (.int i)) =>
    if 0 ≤ i ∧ i.toNat < Nat.pow 2 bits then .ok i.toNat
    else .error (.shape (.outOfRange (.number (.int i)) (.natural bits)))
  | _, d => wrongType (.natural bits) d

/-- One of several words, as a text or as the name of an object's only member, which is then null. -/
def word {α : Type} (words : List String) (ofText? : String → Option α) : Reader α :=
  let known (s : String) : Except ReadFault α :=
    match ofText? s with
    | some a => .ok a
    | none => .error (.shape (.unknownWord s words))
  fun depth d =>
    match d with
    | .string (some s) => known s
    | .object members closed => do
      let _ ← descend depth
      match members with
      | [(some name, .null)] => if closed then known name else .error .form
      | [(some name, d)] => do
        let _ ← known name
        wrongType .null d
      | _ => .error .form
    | d => wrongType .string d

/-- A value that may be null. -/
def option {α : Type} (read : Reader α) : Reader (Option α)
  | _, .null => .ok none
  | depth, d => some <$> read depth d

def list {α : Type} (read : Reader α) : Reader (List α)
  | depth, .array items closed => do
    let depth ← descend depth
    let items ← items.mapM (read depth)
    if closed then .ok items else .error .form
  | _, d => wrongType .sequence d

/-- A list of exactly two items. -/
def pair {α β : Type} (first : Reader α) (second : Reader β) : Reader (α × β)
  | depth, .array items closed => do
    let depth ← descend depth
    match items with
    | a :: b :: rest =>
      let a ← first depth a
      let b ← second depth b
      if closed && rest.isEmpty then .ok (a, b) else .error .form
    | _ => if closed then .error (.shape (.wrongLength items.length)) else .error .form
  | _, d => wrongType .pair d

def mapMembers {α : Type} (read : Reader α) (depth : Nat) :
    List (Option String × Document) → Except ReadFault (List (String × α))
  | [] => .ok []
  | (some name, d) :: rest => do
    let item ← read depth d
    let items ← mapMembers read depth rest
    .ok ((name, item) :: items)
  | (none, _) :: _ => .error .form

/-- A map by name; of two members with one name the later wins. -/
def map {α : Type} (read : Reader α) : Reader (SortedMap String α)
  | depth, .object members closed => do
    let depth ← descend depth
    let members ← mapMembers read depth members
    if closed then .ok (.ofList members) else .error .form
  | _, d => wrongType .map d

/-- One of two shapes, the first that fits; a value is read whole before its shape is looked at. -/
def either {α : Type} (name : String) (first second : Reader α) : Reader α := fun depth d => do
  let j ← Document.any depth d
  match first depth (Document.ofJson j) with
  | .ok a => .ok a
  | .error _ =>
    match second depth (Document.ofJson j) with
    | .ok a => .ok a
    | .error _ => .error (.shape (.noVariant name))

/-- Reads members in the order of the text. A name that no field goes by is handed to `other`. -/
def recordMembers {σ : Type} (fields : List (Field Reader σ)) (other : String → Reader (σ → σ)) (depth : Nat) :
    List (Option String × Document) → List String → σ → Except ReadFault (List String × σ)
  | [], seen, s => .ok (seen, s)
  | (none, _) :: _, _, _ => .error .form
  | (some name, d) :: rest, seen, s =>
    match fields.find? (·.goesBy name) with
    | some field => do
      if seen.contains field.name then .error (.shape (.duplicateField field.name))
      let put ← field.read depth d
      recordMembers fields other depth rest (field.name :: seen) (put s)
    | none => do
      let put ← other name depth d
      recordMembers fields other depth rest seen (put s)

/-- Skips a member that no field goes by. -/
def skip {σ : Type} (_ : String) : Reader (σ → σ) := fun _ d =>
  if d.intact then .ok id else .error .form

def fromMembers {σ : Type} (fields : List (Field Reader σ)) (other : String → Reader (σ → σ)) (init : σ)
    (depth : Nat) (members : List (Option String × Document)) (closed : Bool) : Except ReadFault σ := do
  let depth ← descend depth
  let (seen, s) ← recordMembers fields other depth members [] init
  if !closed then .error .form
  match fields.find? fun f => f.required && !seen.contains f.name with
  | some field => .error (.shape (.missingField field.name))
  | none => .ok s

/-- Reads items into the fields in order. -/
def recordItems {σ : Type} (name : String) (total : Nat) (depth : Nat) :
    List (Field Reader σ) → List Document → Bool → σ → Except ReadFault σ
  | [], [], closed, s => if closed then .ok s else .error .form
  | [], _ :: _, _, _ => .error .form
  | _ :: _, [], false, _ => .error .form
  | field :: fields, [], true, s =>
    if field.required then .error (.shape (.tooShort (total - fields.length - 1) name total))
    else recordItems name total depth fields [] true s
  | field :: fields, d :: ds, closed, s => do
    let put ← field.read depth d
    recordItems name total depth fields ds closed (put s)

/-- A record whose further members are skipped. -/
def record {σ : Type} (name : String) (fields : List (Field Reader σ)) (init : σ) : Reader σ
  | depth, .object members closed => fromMembers fields skip init depth members closed
  | depth, .array items closed => do
    let depth ← descend depth
    recordItems name fields.length depth fields items closed init
  | _, d => wrongType (.record name) d

/-- A record that keeps its further members. -/
def openRecord {σ : Type} (name : String) (fields : List (Field Reader σ)) (keep : String → Json → σ → σ)
    (init : σ) : Reader σ
  | depth, .object members closed =>
    fromMembers fields (fun name depth d => keep name <$> Document.any depth d) init depth members closed
  | _, d => wrongType (.record name) d

instance : DataFormat Reader where
  text := string
  any := any
  option := option
  list := list
  dictionary := map
  textOrMap name ofText ofMap := either name (ofText <$> string) (ofMap <$> map any)
  record := record
  openRecord := openRecord

/-- Reads a whole text. -/
def ofText {α : Type} (read : Reader α) (text : String) : Except ReadFault α := do
  let (d, ended) := Document.ofText text
  let a ← read depthLimit d
  if ended then .ok a else .error .form

/-- Reads a value that is already there. -/
def ofJson? {α : Type} (read : Reader α) (j : Json) : Option α :=
  (read depthLimit (Document.ofJson j)).toOption

end Reader

/-- Reads a text as one value. -/
def ofText? (text : String) : Option Json := (Reader.any.ofText text).toOption

end RestWiring.Json
