import RestWiring.Yaml.Cursor

/-!
# The text of YAML scalars

The five ways to write a scalar: plain, in single or double quotes, and as a literal or folded
block. Each reader goes through the characters once and gives the value and the text behind the
scalar, or nothing if the scalar is malformed.
-/
namespace RestWiring.Yaml

/-- Blanks inside a scalar: none, on one line, or around line breaks. Behind a break stands the
column of the text that follows; an escaped first break has no value. -/
inductive Gap where
  | none
  | blanks (reversed : List Char)
  | breaks (first : Option Char) (reversed : List Char) (column : Nat)

namespace Gap

def isBroken : Gap → Bool
  | .breaks .. => true
  | _ => false

/-- Adds a blank; behind a break it only moves the column. -/
def blank (g : Gap) (c : Char) : Gap :=
  match g with
  | .none => .blanks [c]
  | .blanks cs => .blanks (c :: cs)
  | .breaks first more column => .breaks first more (column + 1)

def lineBreak (g : Gap) (c : Char) : Gap :=
  match g with
  | .breaks first more _ => .breaks first (c :: more) 0
  | _ => .breaks (some c) [] 0

/-- What a gap contributes to the value, reversed: a single line feed folds into a space. -/
def folded : Gap → List Char
  | .none => []
  | .blanks cs => cs
  | .breaks (some '\n') [] _ => [' ']
  | .breaks (some '\n') more _ => more
  | .breaks (some c) more _ => more ++ [c]
  | .breaks .none more _ => more

/-- Whether the text behind a gap starts with a mark of the document. -/
def meetsDocumentMark (g : Gap) (cs : List Char) : Bool :=
  match g with
  | .breaks _ _ 0 => atDocumentMark cs
  | _ => false

end Gap

/-- Reads a scalar after its opening single quote. -/
def singleQuoted (g : Gap) (text : List Char) : List Char → Option (String × List Char)
  | [] => none
  | '\r' :: '\n' :: rest => singleQuoted (g.lineBreak '\n') text rest
  | '\'' :: '\'' :: rest => singleQuoted .none ('\'' :: (g.folded ++ text)) rest
  | c :: rest =>
    if g.meetsDocumentMark (c :: rest) then none
    else if isLineBreak c then singleQuoted (g.lineBreak (breakValue c)) text rest
    else if isSpaceOrTab c then singleQuoted (g.blank c) text rest
    else if c = '\'' then some (String.ofList (g.folded ++ text).reverse, rest)
    else singleQuoted .none (c :: (g.folded ++ text)) rest

/-- The character that an escape of one character stands for. -/
def escapeValue? (c : Char) : Option Char :=
  match c with
  | '0' => some (Char.ofNat 0x00)
  | 'a' => some (Char.ofNat 0x07)
  | 'b' => some (Char.ofNat 0x08)
  | 't' => some '\t'
  | '\t' => some '\t'
  | 'n' => some '\n'
  | 'v' => some (Char.ofNat 0x0B)
  | 'f' => some (Char.ofNat 0x0C)
  | 'r' => some '\r'
  | 'e' => some (Char.ofNat 0x1B)
  | ' ' => some ' '
  | '"' => some '"'
  | '/' => some '/'
  | '\\' => some '\\'
  | 'N' => some (Char.ofNat 0x85)
  | '_' => some (Char.ofNat 0xA0)
  | 'L' => some (Char.ofNat 0x2028)
  | 'P' => some (Char.ofNat 0x2029)
  | _ => none

/-- How many hexadecimal digits follow the letter of an escape. -/
def escapeDigits? (c : Char) : Option Nat :=
  match c with
  | 'x' => some 2
  | 'u' => some 4
  | 'U' => some 8
  | _ => none

/-- What an escape has to be read to its end: so many more digits after a value so far. -/
structure Escape where
  digits : Nat
  value : Nat

/-- The character with a given number, if there is one. -/
def charOf? (n : Nat) : Option Char :=
  if n < 0xD800 || (0xE000 ≤ n && n ≤ 0x10FFFF) then some (Char.ofNat n) else none

/-- Reads a scalar after its opening double quote. `escape` is an escape whose digits follow. -/
def doubleQuoted (g : Gap) (escape : Option Escape) (text : List Char) :
    List Char → Option (String × List Char)
  | [] => none
  | c :: rest =>
    match escape with
    | some e =>
      if !isHexDigit c then none
      else
        let value := e.value * 16 + hexDigitValue c
        if e.digits = 1 then do
          let c ← charOf? value
          doubleQuoted .none none (c :: text) rest
        else doubleQuoted .none (some ⟨e.digits - 1, value⟩) text rest
    | none =>
      if g.meetsDocumentMark (c :: rest) then none
      else if isLineBreak c then
        match c, rest with
        | '\r', '\n' :: rest => doubleQuoted (g.lineBreak '\n') none text rest
        | _, rest => doubleQuoted (g.lineBreak (breakValue c)) none text rest
      else if isSpaceOrTab c then doubleQuoted (g.blank c) none text rest
      else if c = '"' then some (String.ofList (g.folded ++ text).reverse, rest)
      else if c = '\\' then
        let text := g.folded ++ text
        match rest with
        | '\r' :: '\n' :: rest => doubleQuoted (.breaks none [] 0) none text rest
        | d :: rest =>
          if isLineBreak d then doubleQuoted (.breaks none [] 0) none text rest
          else
            match escapeValue? d, escapeDigits? d with
            | some v, _ => doubleQuoted .none none (v :: text) rest
            | none, some digits => doubleQuoted .none (some ⟨digits, 0⟩) text rest
            | none, none => none
        | [] => none
      else doubleQuoted .none none (c :: (g.folded ++ text)) rest

def isFlowIndicator (c : Char) : Bool := c = ',' || c = '[' || c = ']' || c = '{' || c = '}'

/-- A plain scalar: its value, whether lines were broken behind it, and what follows. -/
structure Plain where
  value : String
  broken : Bool
  rest : List Char

/-- Reads a plain scalar. It ends before a comment, before the colon of a key, before a mark of the
document, in a flow before an indicator of the flow, and in a block before a line whose column is
less than `indent`. -/
def plain (flow : Bool) (indent : Nat) (g : Gap) (text : List Char) : List Char → Option Plain
  | [] => some ⟨String.ofList text.reverse, g.isBroken, []⟩
  | '\r' :: '\n' :: rest => plain flow indent (g.lineBreak '\n') text rest
  | c :: rest =>
    let ended : Option Plain := some ⟨String.ofList text.reverse, g.isBroken, c :: rest⟩
    if isLineBreak c then plain flow indent (g.lineBreak (breakValue c)) text rest
    else if isSpaceOrTab c then
      match g with
      | .breaks _ _ column =>
        if c = '\t' && column < indent then none else plain flow indent (g.blank c) text rest
      | _ => plain flow indent (g.blank c) text rest
    else
      let dedented := match g with
        | .breaks _ _ column => !flow && column < indent
        | _ => false
      let comment := match g with
        | .none => false
        | _ => c = '#'
      if dedented || comment || g.meetsDocumentMark (c :: rest) then ended
      else if c = ':' && flow && (match rest with
          | d :: _ => isFlowIndicator d || d = '?'
          | [] => false) then none
      else if (c = ':' && atGap rest) || (flow && isFlowIndicator c) then ended
      else plain flow indent .none (c :: (g.folded ++ text)) rest

/-- What becomes of the line breaks at the end of a block scalar. -/
inductive Chomping where
  | strip | clip | keep
  deriving DecidableEq

/-- A block scalar whose text is being read. `column` is `none` inside a line, and else how much of
the margin has been read. -/
structure Block where
  folded : Bool
  indent : Nat
  column : Option Nat
  text : List Char := []
  lineBreak : Option Char := none
  emptyLines : List Char := []
  afterBlank : Bool := false

namespace Block

/-- Starts a line with its first character: between two lines that start with no blank a folded
scalar turns one line feed into a space. -/
def startLine (b : Block) (c : Char) : Block :=
  let blank := isSpaceOrTab c
  let joint :=
    if b.folded && b.lineBreak == some '\n' && !b.afterBlank && !blank then
      if b.emptyLines.isEmpty then [' '] else []
    else b.lineBreak.toList
  { b with
    column := none, text := c :: (b.emptyLines ++ (joint ++ b.text)), lineBreak := none
    emptyLines := [], afterBlank := blank }

def endLine (b : Block) (c : Char) : Block :=
  match b.column with
  | none => { b with column := some 0, lineBreak := some c }
  | some _ => { b with column := some 0, emptyLines := c :: b.emptyLines }

def value (b : Block) (chomping : Chomping) : String :=
  let tail := match chomping with
    | .strip => []
    | .clip => b.lineBreak.toList
    | .keep => b.emptyLines ++ b.lineBreak.toList
  String.ofList (tail ++ b.text).reverse

/-- Reads the lines of a block, up to a line with less margin. -/
def lines (b : Block) : List Char → Option (Block × List Char)
  | [] => some (b, [])
  | '\r' :: '\n' :: rest => lines (b.endLine '\n') rest
  | c :: rest =>
    if isLineBreak c then lines (b.endLine (breakValue c)) rest
    else
      match b.column with
      | none => lines { b with text := c :: b.text } rest
      | some column =>
        if column < b.indent then
          if c = ' ' then lines { b with column := some (column + 1) } rest
          else if c = '\t' then none
          else some (b, c :: rest)
        else lines (b.startLine c) rest

/-- The empty lines before the text of a block whose margin is not given: the deepest column, the
column of the first line with text, the line breaks, and what follows. -/
def opening (deepest column : Nat) (emptyLines : List Char) :
    List Char → Option (Nat × Nat × List Char × List Char)
  | [] => some (max deepest column, column, emptyLines, [])
  | ' ' :: rest => opening deepest (column + 1) emptyLines rest
  | '\r' :: '\n' :: rest => opening (max deepest column) 0 ('\n' :: emptyLines) rest
  | c :: rest =>
    if c = '\t' then none
    else if isLineBreak c then opening (max deepest column) 0 (breakValue c :: emptyLines) rest
    else some (max deepest column, column, emptyLines, c :: rest)

end Block

/-- The indicators behind the one that starts a block scalar, in either order. -/
def blockHeader (cs : List Char) : Option (Chomping × Nat × List Char) :=
  let chomping? (c : Char) : Option Chomping :=
    if c = '+' then some .keep else if c = '-' then some .strip else none
  match cs with
  | [] => some (.clip, 0, [])
  | c :: rest =>
    match chomping? c with
    | some chomping =>
      match rest with
      | d :: rest' =>
        if d = '0' then none
        else if d.isDigit then some (chomping, d.toNat - 48, rest')
        else some (chomping, 0, rest)
      | [] => some (chomping, 0, [])
    | none =>
      if c = '0' then none
      else if c.isDigit then
        match rest with
        | d :: rest' =>
          match chomping? d with
          | some chomping => some (chomping, c.toNat - 48, rest')
          | none => some (.clip, c.toNat - 48, rest)
        | [] => some (.clip, c.toNat - 48, [])
      else some (.clip, 0, c :: rest)

/-- Leaves out blanks and a comment. -/
def dropComment (cs : List Char) : List Char :=
  match cs.dropWhile isSpaceOrTab with
  | '#' :: rest => rest.dropWhile fun c => !isLineBreak c
  | rest => rest

/-- Leaves out the line break at the start of a text; nothing else may be there. -/
def dropLineBreak? : List Char → Option (List Char)
  | [] => some []
  | '\r' :: '\n' :: rest => some rest
  | c :: rest => if isLineBreak c then some rest else none

/-- Reads a block scalar after its first indicator. `margin` is the column that its lines have to
pass. -/
def blockScalar (folded : Bool) (margin : Nat) (cs : List Char) : Option (String × List Char) := do
  let (chomping, increment, rest) ← blockHeader cs
  let rest ← dropLineBreak? (dropComment rest)
  let (start, rest) ←
    if increment = 0 then do
      let (deepest, column, emptyLines, rest) ← Block.opening 0 0 [] rest
      let indent := max (max deepest margin) 1
      pure ({ folded, indent, column := some column, emptyLines : Block }, rest)
    else pure ({ folded, indent := margin - 1 + increment, column := some 0 : Block }, rest)
  let (block, rest) ← start.lines rest
  return (block.value chomping, rest)

end RestWiring.Yaml
