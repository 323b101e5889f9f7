import RestWiring.Yaml.Scalar
import RestWiring.Yaml.Tag

/-!
# YAML tokens

`Token.ofText?` turns a text into tokens. Indentation becomes tokens that open and close blocks. A
key that no question mark announces is known only when its colon is met: every token that may start
such a key is remembered, and the tokens that announce the key are then put in front of it.
-/
namespace RestWiring.Yaml

inductive Token where
  | directive (value : Directive)
  | documentStart
  | documentEnd
  | blockSequenceStart
  | blockMappingStart
  | blockEnd
  | flowSequenceStart
  | flowSequenceEnd
  | flowMappingStart
  | flowMappingEnd
  | blockEntry
  | flowEntry
  | key
  | value
  | alias (name : String)
  | anchor (name : String)
  | tag (handle suffix : String)
  | scalar (plain : Bool) (text : String)

/-- A place where a key may have started, before the token of a given number. Where the text has to
go on with a key, the key is required. -/
structure PossibleKey where
  token : Nat
  required : Bool
  index : Nat
  line : Nat
  column : Nat

/-- A token together with what was put in front of it later. -/
structure Slot where
  front : List Token := []
  token : Token

/-- The tokens read so far, the last one first, and what decides about the next one. `margins` are
the columns of the open blocks, the innermost first. `key` belongs to the innermost flow, and
`outerKeys` to the flows around it, of which there is one for each open bracket. -/
structure Lexer where
  cursor : Cursor
  slots : List Slot := []
  count : Nat := 0
  margins : List Nat := []
  key : Option PossibleKey := none
  outerKeys : List (Option PossibleKey) := []
  keyAllowed : Bool := true

namespace Lexer

def inFlow (l : Lexer) : Bool := !l.outerKeys.isEmpty

/-- The column that a line has to reach to belong to the innermost block. -/
def margin (l : Lexer) : Nat :=
  match l.margins with
  | [] => 0
  | column :: _ => column + 1

def push (l : Lexer) (t : Token) : Lexer := { l with slots := ⟨[], t⟩ :: l.slots, count := l.count + 1 }

/-- Puts tokens in front of the token of a given number. -/
def insertBefore (l : Lexer) (number : Nat) (ts : List Token) : Lexer :=
  { l with slots := l.slots.modify (l.count - 1 - number) fun s => { s with front := ts ++ s.front } }

def moveTo (l : Lexer) (rest : List Char) : Lexer := { l with cursor := l.cursor.seek rest }

/-- Goes over so many characters. -/
def skip (l : Lexer) (n : Nat) : Lexer := { l with cursor := l.cursor.skip n }

/-- Opens a block at a column that lies deeper than the innermost block; tells whether it did. -/
def indents (l : Lexer) (column : Nat) : Bool := !l.inFlow && l.margin ≤ column

def enterBlock (l : Lexer) (start : Token) : Lexer :=
  if l.indents l.cursor.column then
    { l.push start with margins := l.cursor.column :: l.margins }
  else l

/-- Closes the blocks that lie deeper than a column; `none` closes all. -/
def closeBlocks (column : Option Nat) : List Nat → Nat × List Nat
  | [] => (0, [])
  | m :: ms =>
    if column.all (· < m) then
      let (n, rest) := closeBlocks column ms
      (n + 1, rest)
    else (0, m :: ms)

def leaveBlocks (l : Lexer) (column : Option Nat) : Lexer :=
  if l.inFlow then l
  else
    let (n, margins) := closeBlocks column l.margins
    (List.replicate n Token.blockEnd).foldl push { l with margins }

/-- Gives up the key that may have started; a required key cannot be given up. -/
def dropKey (l : Lexer) : Option Lexer :=
  if l.key.any (·.required) then none else some { l with key := none }

/-- Remembers that a key may start here. -/
def saveKey (l : Lexer) : Option Lexer :=
  if l.keyAllowed then do
    let l ← l.dropKey
    let k := l.cursor
    let required := !l.inFlow && l.margins.head? == some k.column
    return { l with key := some ⟨l.count, required, k.index, k.line, k.column⟩ }
  else some l

/-- A key ends on its line and within 1024 characters. -/
def isStale (k : Cursor) (key : PossibleKey) : Bool := key.line < k.line || key.index + 1024 < k.index

/-- Gives up the keys that have become too long. -/
def dropStaleKeys (l : Lexer) : Option Lexer :=
  let stale (key : Option PossibleKey) : Bool := key.any (isStale l.cursor)
  let refused (key : Option PossibleKey) : Bool := stale key && key.any (·.required)
  let keep (key : Option PossibleKey) : Option PossibleKey := if stale key then none else key
  if refused l.key || l.outerKeys.any refused then none
  else some { l with key := keep l.key, outerKeys := l.outerKeys.map keep }

/-- Leaves out blanks, comments and line breaks before the next token. At most `fuel` line breaks
are left out. -/
def skipBlanks : Nat → Lexer → Lexer
  | 0, l => l
  | fuel + 1, l =>
    let l := match l.cursor.rest with
      | c :: _ => if l.cursor.column = 0 && c.toNat = 0xFEFF then l.skip 1 else l
      | [] => l
    let tabs := l.inFlow || !l.keyAllowed
    let l := l.moveTo (l.cursor.rest.dropWhile fun c => c = ' ' || (tabs && c = '\t'))
    let l := match l.cursor.rest with
      | '#' :: rest => l.moveTo (rest.dropWhile fun c => !isLineBreak c)
      | _ => l
    match dropLineBreak? l.cursor.rest with
    | some rest =>
      if l.cursor.rest.isEmpty then l
      else
        let l := l.moveTo rest
        skipBlanks fuel { l with keyAllowed := l.keyAllowed || !l.inFlow }
    | none => l

def flowStart (l : Lexer) (t : Token) : Option Lexer := do
  let l ← l.saveKey
  let l := { l with key := none, outerKeys := l.key :: l.outerKeys, keyAllowed := true }
  return (l.push t).skip 1

def flowEnd (l : Lexer) (t : Token) : Option Lexer := do
  let l ← l.dropKey
  let l := match l.outerKeys with
    | key :: outerKeys => { l with key, outerKeys }
    | [] => l
  return ({ l with keyAllowed := false }.push t).skip 1

def flowEntry (l : Lexer) : Option Lexer := do
  let l ← l.dropKey
  return ({ l with keyAllowed := true }.push .flowEntry).skip 1

def blockEntry (l : Lexer) : Option Lexer := do
  if !l.inFlow && !l.keyAllowed then none
  let l ← (l.enterBlock .blockSequenceStart).dropKey
  return ({ l with keyAllowed := true }.push .blockEntry).skip 1

def explicitKey (l : Lexer) : Option Lexer := do
  if !l.inFlow && !l.keyAllowed then none
  let l ← (l.enterBlock .blockMappingStart).dropKey
  return ({ l with keyAllowed := !l.inFlow }.push .key).skip 1

def value (l : Lexer) : Option Lexer := do
  match l.key with
  | some key =>
    let l :=
      if l.indents key.column then
        { l.insertBefore key.token [.blockMappingStart, .key] with margins := key.column :: l.margins }
      else l.insertBefore key.token [.key]
    return ({ l with key := none, keyAllowed := false }.push .value).skip 1
  | none =>
    if !l.inFlow && !l.keyAllowed then none
    let l := l.enterBlock .blockMappingStart
    return ({ l with keyAllowed := !l.inFlow }.push .value).skip 1

/-- The name of an anchor or alias, which a blank or an indicator has to follow. -/
def anchorName (cs : List Char) : Option (String × List Char) :=
  let rest := cs.dropWhile isWordChar
  let ended := atGap rest || rest.head?.any fun c => ['?', ':', ',', ']', '}', '%', '@', '\x60'].contains c
  match cs.takeWhile isWordChar with
  | [] => none
  | name => if ended then some (String.ofList name, rest) else none

/-- A token that may start a key, read by `read` from the text behind its first `n` characters. -/
def content (l : Lexer) (n : Nat) (read : List Char → Option (Token × List Char)) : Option Lexer := do
  let l ← l.saveKey
  let (t, rest) ← read (l.cursor.rest.drop n)
  return ({ l with keyAllowed := false }.push t).moveTo rest

def tagToken (l : Lexer) : Option Lexer :=
  l.content 1 fun cs => do
    let (handle, suffix, rest) ← tag cs
    let ended := atGap rest || (l.inFlow && rest.head? == some ',')
    if ended then some (.tag handle suffix, rest) else none

def plainScalar (l : Lexer) : Option Lexer := do
  let l ← l.saveKey
  let scalar ← plain l.inFlow l.margin .none [] l.cursor.rest
  return ({ l with keyAllowed := scalar.broken }.push (.scalar true scalar.value)).moveTo scalar.rest

def blockScalarToken (l : Lexer) (folded : Bool) : Option Lexer := do
  let l ← l.dropKey
  let (text, rest) ← blockScalar folded l.margin (l.cursor.rest.drop 1)
  return ({ l with keyAllowed := true }.push (.scalar false text)).moveTo rest

def directiveToken (l : Lexer) : Option Lexer := do
  let l ← (l.leaveBlocks none).dropKey
  let (d, rest) ← directive (l.cursor.rest.drop 1)
  let rest ← dropLineBreak? (dropComment rest)
  return ({ l with keyAllowed := false }.push (.directive d)).moveTo rest

def documentMark (l : Lexer) (t : Token) : Option Lexer := do
  let l ← (l.leaveBlocks none).dropKey
  return ({ l with keyAllowed := false }.push t).skip 3

/-- Reads the token that starts at the cursor. -/
def token (l : Lexer) (c : Char) (rest : List Char) : Option Lexer :=
  if l.cursor.column = 0 && c = '%' then l.directiveToken
  else if l.cursor.column = 0 && atDocumentMark (c :: rest) then
    l.documentMark (if c = '-' then .documentStart else .documentEnd)
  else if c = '[' then l.flowStart .flowSequenceStart
  else if c = '{' then l.flowStart .flowMappingStart
  else if c = ']' then l.flowEnd .flowSequenceEnd
  else if c = '}' then l.flowEnd .flowMappingEnd
  else if c = ',' then l.flowEntry
  else if c = '-' && atGap rest then l.blockEntry
  else if c = '?' && (l.inFlow || atGap rest) then l.explicitKey
  else if c = ':' && (l.inFlow || atGap rest) then l.value
  else if c = '*' then l.content 1 fun cs => (anchorName cs).map fun (name, rest) => (.alias name, rest)
  else if c = '&' then l.content 1 fun cs => (anchorName cs).map fun (name, rest) => (.anchor name, rest)
  else if c = '!' then l.tagToken
  else if c = '|' && !l.inFlow then l.blockScalarToken false
  else if c = '>' && !l.inFlow then l.blockScalarToken true
  else if c = '\'' then
    l.content 1 fun cs => (singleQuoted .none [] cs).map fun (text, rest) => (.scalar false text, rest)
  else if c = '"' then
    l.content 1 fun cs => (doubleQuoted .none none [] cs).map fun (text, rest) => (.scalar false text, rest)
  else if isSpaceOrTab c || ['#', '|', '>', '%', '@', '\x60'].contains c then none
  else l.plainScalar

/-- Reads the rest of the text. At most `fuel` tokens are read. -/
def run : Nat → Lexer → Option (List Token)
  | 0, _ => none
  | fuel + 1, l => do
    let l ← (l.skipBlanks (l.cursor.rest.length + 1)).dropStaleKeys
    let l := l.leaveBlocks (some l.cursor.column)
    match l.cursor.rest with
    | c :: rest =>
      let l ← l.token c rest
      run fuel l
    | [] =>
      let l ← (l.leaveBlocks none).dropKey
      return l.slots.reverse.flatMap fun s => s.front ++ [s.token]

end Lexer

/-- The tokens of a text, unless it is malformed. -/
def Token.ofText? (text : String) : Option (List Token) :=
  let cs := text.toList
  if cs.all isAllowed then Lexer.run (cs.length + 1) { cursor := { rest := cs } } else none

end RestWiring.Yaml
