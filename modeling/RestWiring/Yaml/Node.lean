import RestWiring.Yaml.Token

/-!
# YAML documents

`Yaml.Document.ofText?` reads a text that holds at most one document. An alias stays a reference to
the node that bears the anchor, so a document may refer to a node from within that node.

Anchored nodes are numbered by how many names were in use before them, and an alias means the last
node with the number that its name had. A name that is used again keeps its place among the names in
use, so the next new name shares its number.
-/
namespace RestWiring.Yaml

inductive Node where
  | alias (number : Nat)
  | scalar (tag : Option String) (plain : Bool) (text : String)
  | sequence (tag : Option String) (items : List Node)
  | mapping (tag : Option String) (members : List (Node × Node))
  deriving Repr, Inhabited

/-- The node that stands where nothing is written. -/
def Node.empty : Node := .scalar none true ""

mutual

/-- How many marks a node is made of: one for a scalar or an alias, two around a collection. -/
def Node.marks : Node → Nat
  | .alias _ => 1
  | .scalar .. => 1
  | .sequence _ items => 2 + Node.marksOfItems items
  | .mapping _ members => 2 + Node.marksOfMembers members

def Node.marksOfItems : List Node → Nat
  | [] => 0
  | n :: ns => n.marks + Node.marksOfItems ns

def Node.marksOfMembers : List (Node × Node) → Nat
  | [] => 0
  | (k, v) :: rest => k.marks + v.marks + Node.marksOfMembers rest

end

/-- Anchors met so far: the number of each name, the place of the last node with each number, and
the nodes read to their end by place. -/
structure Anchors where
  numbers : List (String × Nat) := []
  places : List (Nat × Nat) := []
  count : Nat := 0
  nodes : List (Nat × Node) := []

namespace Anchors

/-- Announces a node with an anchor, and gives its place. -/
def start (a : Anchors) (name : String) : Nat × Anchors :=
  let number := a.numbers.length
  (a.count,
    { a with
      numbers := (name, number) :: a.numbers.filter (·.1 != name)
      places := (number, a.count) :: a.places, count := a.count + 1 })

def finish (a : Anchors) (place : Nat) (n : Node) : Anchors := { a with nodes := (place, n) :: a.nodes }

/-- The node that an alias means. -/
def find? (a : Anchors) (number : Nat) : Option Node := do
  let place ← a.places.lookup number
  a.nodes.lookup place

end Anchors

structure Document where
  root : Node
  anchors : Anchors := {}

namespace Node

/-- The tokens that are left, the tag handles of the document, and its anchors so far. -/
structure Source where
  tokens : List Token
  handles : List (String × String)
  anchors : Anchors := {}

abbrev Parse := StateT Source Option

def peek : Parse (Option Token) := fun s => some (s.tokens.head?, s)

def advance : Parse Unit := fun s => some ((), { s with tokens := s.tokens.tail })

def malformed {α : Type} : Parse α := fun _ => none

/-- What stands before a node: an anchor and a tag, in either order. -/
def properties : Parse (Option String × Option (String × String)) := do
  match ← peek with
  | some (.anchor name) =>
    advance
    match ← peek with
    | some (.tag handle suffix) => advance; return (some name, some (handle, suffix))
    | _ => return (some name, none)
  | some (.tag handle suffix) =>
    advance
    match ← peek with
    | some (.anchor name) => advance; return (some name, some (handle, suffix))
    | _ => return (none, some (handle, suffix))
  | _ => return (none, none)

/-- The text of a tag: what its handle stands for, and its suffix. -/
def resolveTag : Option (String × String) → Parse (Option String)
  | none => return none
  | some ("", text) => return some text
  | some (handle, suffix) => do
    match (← get).handles.lookup handle with
    | some expansion => return some (expansion ++ suffix)
    | none => malformed

def anchored (anchor : Option String) (read : Parse Node) : Parse Node := do
  match anchor with
  | none => read
  | some name =>
    let place ← modifyGet fun s => let (place, anchors) := s.anchors.start name; (place, { s with anchors })
    let n ← read
    modify fun s => { s with anchors := s.anchors.finish place n }
    return n

/-- Whether a token stands where the node before it is left out. -/
def endsEntry (indentless : Bool) : Option Token → Bool
  | some .blockEntry => true
  | some .key => indentless
  | some .value => indentless
  | some .blockEnd => true
  | _ => false

/-- Whether a token stands where the key or the value before it is left out. -/
def endsMember : Option Token → Bool
  | some .key => true
  | some .value => true
  | some .blockEnd => true
  | _ => false

/-- Whether a token stands where the node before it is left out in a flow. -/
def endsFlowNode (inSequence keys : Bool) : Option Token → Bool
  | some .value => keys
  | some .flowEntry => true
  | some .flowSequenceEnd => inSequence
  | some .flowMappingEnd => !inSequence
  | _ => false

mutual

/-- Reads a node. `block` admits blocks, and `indentless` admits a sequence that is indented no
further than the key before it. -/
def node : Nat → Bool → Bool → Parse Node
  | 0, _, _ => malformed
  | fuel + 1, block, indentless => do
    match ← peek with
    | some (.alias name) =>
      advance
      match (← get).anchors.numbers.lookup name with
      | some number => return .alias number
      | none => malformed
    | _ =>
      let (anchor, tag) ← properties
      let tag ← resolveTag tag
      match ← peek with
      | some (.scalar plain text) =>
        advance
        anchored anchor (return .scalar tag plain text)
      | some .flowSequenceStart =>
        advance
        anchored anchor (.sequence tag <$> flowItems fuel true)
      | some .flowMappingStart =>
        advance
        anchored anchor (.mapping tag <$> flowMembers fuel true)
      | t =>
        match t, block, indentless with
        | some .blockEntry, _, true => anchored anchor (.sequence tag <$> entries fuel true)
        | some .blockSequenceStart, true, _ =>
          advance
          anchored anchor (.sequence tag <$> entries fuel false)
        | some .blockMappingStart, true, _ =>
          advance
          anchored anchor (.mapping tag <$> members fuel)
        | _, _, _ =>
          if anchor.isSome || tag.isSome then anchored anchor (return .scalar tag true "") else malformed

/-- Reads the entries of a block sequence. -/
def entries : Nat → Bool → Parse (List Node)
  | 0, _ => malformed
  | fuel + 1, indentless => do
    match ← peek with
    | some .blockEntry =>
      advance
      let item ← if endsEntry indentless (← peek) then pure Node.empty else node fuel true false
      let items ← entries fuel indentless
      return item :: items
    | some .blockEnd => if indentless then return [] else do advance; return []
    | _ => if indentless then return [] else malformed

/-- Reads the members of a block mapping. -/
def members : Nat → Parse (List (Node × Node))
  | 0 => malformed
  | fuel + 1 => do
    match ← peek with
    | some .key =>
      advance
      let name ← if endsMember (← peek) then pure Node.empty else node fuel true true
      let item ← memberValue fuel
      let rest ← members fuel
      return (name, item) :: rest
    | some .blockEnd => advance; return []
    | _ => malformed

def memberValue : Nat → Parse Node
  | 0 => malformed
  | fuel + 1 => do
    match ← peek with
    | some .value =>
      advance
      if endsMember (← peek) then return Node.empty else node fuel true true
    | _ => return Node.empty

/-- Reads the items of a flow sequence up to its bracket. -/
def flowItems : Nat → Bool → Parse (List Node)
  | 0, _ => malformed
  | fuel + 1, first => do
    match ← peek with
    | some .flowSequenceEnd => advance; return []
    | t =>
      unless first do
        match t with
        | some .flowEntry => advance
        | _ => malformed
      match ← peek with
      | some .flowSequenceEnd => advance; return []
      | some .key =>
        advance
        let name ←
          if endsFlowNode true true (← peek) then do
            advance
            pure Node.empty
          else node fuel false false
        let item ← flowValue fuel true
        let items ← flowItems fuel false
        return .mapping none [(name, item)] :: items
      | _ =>
        let item ← node fuel false false
        let items ← flowItems fuel false
        return item :: items

/-- Reads the members of a flow mapping up to its bracket. -/
def flowMembers : Nat → Bool → Parse (List (Node × Node))
  | 0, _ => malformed
  | fuel + 1, first => do
    match ← peek with
    | some .flowMappingEnd => advance; return []
    | t =>
      unless first do
        match t with
        | some .flowEntry => advance
        | _ => malformed
      match ← peek with
      | some .flowMappingEnd => advance; return []
      | some .key =>
        advance
        let name ← if endsFlowNode false true (← peek) then pure Node.empty else node fuel false false
        let item ← flowValue fuel false
        let rest ← flowMembers fuel false
        return (name, item) :: rest
      | _ =>
        let name ← node fuel false false
        let rest ← flowMembers fuel false
        return (name, Node.empty) :: rest

/-- Reads the value behind a key of a flow. -/
def flowValue : Nat → Bool → Parse Node
  | 0, _ => malformed
  | fuel + 1, inSequence => do
    match ← peek with
    | some .value =>
      advance
      if endsFlowNode inSequence false (← peek) then return Node.empty else node fuel false false
    | _ => return Node.empty

end

end Node

namespace Document

/-- The handles that every document has. -/
def standardHandles : List (String × String) := [("!", "!"), ("!!", "tag:yaml.org,2002:")]

/-- Reads the directives before a document: at most one version, which is 1.1 or 1.2, and at most
one meaning for each handle. -/
def directives (version : Bool) (handles : List (String × String)) :
    List Token → Option (List (String × String) × List Token)
  | .directive (.version major minor) :: rest =>
    if version || major != 1 || (minor != 1 && minor != 2) then none else directives true handles rest
  | .directive (.handle handle expansion) :: rest =>
    if handles.any (·.1 == handle) then none else directives version ((handle, expansion) :: handles) rest
  | rest => some (handles, rest)

def dropEnds : List Token → List Token
  | .documentEnd :: rest => dropEnds rest
  | rest => rest

/-- Reads the node of a document, behind which the text has to end. -/
def content (fuel : Nat) (handles : List (String × String)) (tokens : List Token) : Option Document := do
  let (root, s) ← (Node.node fuel true false).run { tokens, handles }
  if (dropEnds s.tokens).isEmpty then some { root, anchors := s.anchors } else none

/-- Reads a document from its tokens. A text without tokens holds an empty node; a document that
directives precede starts with a mark. -/
def ofTokens? (tokens : List Token) : Option Document := do
  let fuel := 4 * tokens.length + 4
  let (handles, rest) ← directives false [] tokens
  let handles := handles ++ standardHandles
  match rest with
  | .documentStart :: rest =>
    match rest with
    | [] => some { root := .empty }
    | .documentEnd :: rest => if (dropEnds rest).isEmpty then some { root := .empty } else none
    | .documentStart :: _ => none
    | .directive _ :: _ => none
    | rest => content fuel handles rest
  | rest =>
    if rest.length < tokens.length then none
    else if rest.isEmpty then some { root := .empty }
    else content fuel handles rest

def ofText? (text : String) : Option Document := do
  ofTokens? (← Token.ofText? text)

end Document

end RestWiring.Yaml
