import RestWiring.Record
import RestWiring.Yaml.Node
import RestWiring.Yaml.Typed

/-!
# Reading values out of YAML documents

A `Reader` takes a node, and how many more levels of collections may be entered. The text of a
scalar is what a reader of texts wants, whatever its type. Where nothing is written a map, a list
and a record are empty. Each visit of an alias is counted, and a document that needs more than a
hundred visits for each of its marks is refused.
-/
namespace RestWiring.Yaml

/-- Reads within a document; the state is how many more aliases may be followed. -/
abbrev Visit := ReaderT Document (StateT Nat Option)

abbrev Reader (α : Type) := Nat → Node → Visit α

namespace Reader

instance : Functor Reader where
  map f read := fun depth n => f <$> read depth n

def refuse {α : Type} : Visit α := fun _ _ => none

def need {α : Type} (a : Option α) : Visit α := fun _ left => a.map (·, left)

/-- The node that an alias means. -/
def follow (n : Node) : Visit Node := fun document left =>
  match n, left with
  | .alias number, left + 1 => (document.anchors.find? number).map (·, left)
  | .alias _, 0 => none
  | n, left => some (n, left)

/-- Enters a collection. -/
def descend : Nat → Visit Nat
  | 0 => refuse
  | depth + 1 => return depth

def string : Reader String := fun _ n => do
  match ← follow n with
  | .scalar _ _ text => return text
  | _ => refuse

/-- Whether nothing is written in the place of a node. -/
def isBlank : Node → Bool
  | .scalar _ plain text => plain && text.isEmpty
  | _ => false

/-- A value that may be left out or null. -/
def option {α : Type} (read : Reader α) : Reader (Option α) := fun depth n => do
  match ← follow n with
  | .scalar none true text =>
    if text.isEmpty || isNull text then return none else some <$> read depth (.scalar none true text)
  | .scalar (some tag) true text =>
    if tag != standardTag "null" then some <$> read depth (.scalar (some tag) true text)
    else if isNull text then return none
    else refuse
  | n => some <$> read depth n

def list {α : Type} (read : Reader α) : Reader (List α) := fun depth n => do
  match ← follow n with
  | .sequence _ items =>
    let depth ← descend depth
    items.mapM (read depth)
  | n => if isBlank n then return [] else refuse

/-- A map by name; of two members with one name the later wins. -/
def map {α : Type} (read : Reader α) : Reader (SortedMap String α) := fun depth n => do
  match ← follow n with
  | .mapping _ members =>
    let depth ← descend depth
    let members ← members.mapM fun (k, v) => do return (← string depth k, ← read depth v)
    return .ofList members
  | n => if isBlank n then return ∅ else refuse

/-- The name of a member of a map. -/
def name (typed : Bool) (n : Node) : Visit String := do
  match ← follow n with
  | .scalar tag plain text =>
    if typed then
      match ofScalar tag plain text with
      | some (.string s) => return s
      | _ => refuse
    else return text
  | _ => refuse

/-- Reads any value. The names of a map are texts whatever their type, unless `typed` demands that
their type is text, too. -/
def value (typed : Bool) : Nat → Node → Visit Json := fun depth n => do
  match ← follow n with
  | .scalar tag plain text => need (ofScalar tag plain text)
  | .sequence tag items =>
    if tag.any isOwnTag then refuse
    else match depth with
      | 0 => refuse
      | depth + 1 => return .array (← items.mapM (value typed depth))
  | .mapping tag members =>
    if tag.any isOwnTag then refuse
    else match depth with
      | 0 => refuse
      | depth + 1 =>
        let members ← members.mapM fun (k, v) => do return (← name typed k, ← value typed depth v)
        return .object (Entries.ofList members)
  | .alias _ => refuse

/-- A value whose names are texts whatever their type. -/
def any : Reader Json := value false

/-- A value whose names have the type of a text. -/
def typed : Reader Json := value true

/-- Reads the members of a record. A field may be given once; a name that no field goes by is handed
to `other`. -/
def recordMembers {σ : Type} (fields : List (Field Reader σ)) (other : String → Reader (σ → σ)) (depth : Nat) :
    List (Node × Node) → List String → σ → Visit σ
  | [], seen, s =>
    if fields.any fun f => f.required && !seen.contains f.name then refuse else return s
  | (k, v) :: rest, seen, s => do
    let name ← string depth k
    match fields.find? (·.goesBy name) with
    | some field =>
      if seen.contains field.name then refuse
      else
        let put ← field.read depth v
        recordMembers fields other depth rest (field.name :: seen) (put s)
    | none =>
      let put ← other name depth v
      recordMembers fields other depth rest seen (put s)

/-- A record whose further members are skipped. -/
def record {σ : Type} (fields : List (Field Reader σ)) (init : σ) : Reader σ := fun depth n => do
  match ← follow n with
  | .mapping _ members =>
    let depth ← descend depth
    recordMembers fields (fun _ _ _ => return id) depth members [] init
  | n => if isBlank n then recordMembers fields (fun _ _ _ => return id) depth [] [] init else refuse

/-- A record that keeps its further members. -/
def openRecord {σ : Type} (fields : List (Field Reader σ)) (keep : String → Json → σ → σ) (init : σ) :
    Reader σ := fun depth n => do
  let other (name : String) : Reader (σ → σ) := fun depth n => keep name <$> typed depth n
  match ← follow n with
  | .mapping _ members =>
    let depth ← descend depth
    recordMembers fields other depth members [] init
  | n => if isBlank n then recordMembers fields other depth [] [] init else refuse

/-- A text, or a map of values; the type of a scalar counts. -/
def textOrMap {α : Type} (ofText : String → α) (ofMap : SortedMap String Json → α) : Reader α :=
  fun depth n => do
    match ← typed depth n with
    | .string s => return ofText s
    | .object members => return ofMap (.ofList members)
    | _ => refuse

instance : DataFormat Reader where
  text := string
  any := any
  option := option
  list := list
  dictionary := map
  textOrMap _ := textOrMap
  record _ := record
  openRecord _ := openRecord

/-- How many levels of collections a document may have. -/
def depthLimit : Nat := 128

/-- Reads a whole text. -/
def ofText? {α : Type} (read : Reader α) (text : String) : Option α := do
  let document ← Document.ofText? text
  let (a, _) ← read depthLimit document.root document (document.root.marks * 100)
  return a

end Reader

end RestWiring.Yaml
