import RestWiring.Double.Extended
import RestWiring.Text

/-!
# The marks of written stencils

A stencil is written as text with places between double braces, blocks between a brace and a percent
sign, and remarks between a brace and a hash sign. A block or a remark that stands alone leaves no
trace of its line: blanks before it at the start of the line and the line break after it are dropped.
So is one line break at the end of the whole text. A hyphen beside a mark drops all blanks on that
side, and a plus sign none. What stands between the blocks `raw` and `endraw` is text as it is.
-/
namespace RestWiring.Stencil

inductive Token where
  | text (content : String)
  | openPlace
  | closePlace
  | openBlock
  | closeBlock
  | word (name : String)
  | string (value : String)
  | int (value : Nat)
  | double (value : Double.Extended)
  | sign (mark : String)
  /-- What cannot be read, with what to say of it. -/
  | broken (message : String)
  deriving DecidableEq, Repr

def Token.description : Token → String
  | .text _ => "template-data"
  | .openPlace => "start of variable block"
  | .closePlace => "end of variable block"
  | .openBlock => "start of block"
  | .closeBlock => "end of block"
  | .word _ => "identifier"
  | .string _ => "string"
  | .int _ => "integer"
  | .double _ => "float"
  | .sign mark => "`" ++ mark ++ "`"
  | .broken message => message

/-- A token and the line on which it begins. -/
abbrev Placed := Token × Nat

namespace Lexer

/-- What a mark says of the blanks beside it. -/
inductive Blanks where
  | standard
  | kept
  | dropped
  deriving DecidableEq

def Blanks.ofChar? : Option Char → Blanks
  | some '-' => .dropped
  | some '+' => .kept
  | _ => .standard

/-- Leaves out the sign that said something of the blanks. -/
def Blanks.skip (b : Blanks) (cs : List Char) : List Char := if b = .standard then cs else cs.drop 1

def malformed (message : String) : Token := .broken ("syntax error: " ++ message)

/-- Splits a text before the first mark that opens a place, a block or a remark. -/
def beforeMark : List Char → List Char × List Char
  | [] => ([], [])
  | '{' :: c :: rest =>
    if c = '{' ∨ c = '%' ∨ c = '#' then ([], '{' :: c :: rest)
    else
      let (before, after) := beforeMark (c :: rest)
      ('{' :: before, after)
  | c :: rest =>
    let (before, after) := beforeMark rest
    (c :: before, after)

def lineBreaks (text : List Char) : Nat := text.count '\n'

def isLineBreak (c : Char) : Bool := c = '\n' || c = '\r'

/-- Whether a line is still blank after some text, if it was so before. -/
def staysBlank (blank : Bool) (text : List Char) : Bool :=
  text.foldl (fun blank c => isLineBreak c || (blank && Text.isSpace c)) blank

/-- Drops the blanks at the end of a text if nothing else stands on their line. -/
def dropLineStart (text : List Char) : List Char :=
  let kept := (text.reverse.dropWhile fun c => Text.isSpace c && !isLineBreak c).reverse
  match kept.getLast? with
  | none => []
  | some c => if isLineBreak c then kept else text

/-- Drops the line break at the start of a text, if one is there. -/
def dropFirstBreak (text : List Char) : List Char :=
  let text := if text.head? = some '\r' then text.drop 1 else text
  if text.head? = some '\n' then text.drop 1 else text

/-- The text in front of a mark without the blanks that the mark drops. `blank` says whether nothing
stands on the line in front of the text; marks of places drop nothing by themselves. -/
def beforeBlanks (b : Blanks) (place blank : Bool) (before : List Char) : List Char :=
  match b with
  | .standard => if !place && staysBlank blank before then dropLineStart before else before
  | .kept => before
  | .dropped => Text.trimEnd before

/-- A remark without its end, and what follows it. -/
def remark : List Char → Option (List Char × List Char)
  | '#' :: '}' :: rest => some ([], rest)
  | c :: rest => (remark rest).map fun (body, rest) => (c :: body, rest)
  | [] => none

/-- The blanks that separate tokens inside places and blocks. -/
def isBlank (c : Char) : Bool := c = ' ' || c = '\t' || c = '\n' || c = '\r' || c.toNat = 12

/-- Reads a block that consists of a word after its opening mark. -/
def wordBlock? (word : String) (cs : List Char) : Option (Blanks × List Char) :=
  let cs := cs.dropWhile isBlank
  if word.toList.isPrefixOf cs then
    let cs := (cs.drop word.length).dropWhile isBlank
    let blanks := Blanks.ofChar? cs.head?
    match blanks.skip cs with
    | '%' :: '}' :: rest => some (blanks, rest)
    | _ => none
  else none

/-- Text up to the block that ends it, what the two marks of that block say of blanks, and what follows
it. -/
def untilEnd : List Char → Option (List Char × Blanks × Blanks × List Char)
  | '{' :: '%' :: rest =>
    let before := Blanks.ofChar? rest.head?
    match wordBlock? "endraw" (before.skip rest) with
    | some (after, rest) => some ([], before, after, rest)
    | none => (untilEnd ('%' :: rest)).map fun (body, more) => ('{' :: body, more)
  | c :: rest => (untilEnd rest).map fun (body, more) => (c :: body, more)
  | [] => none

def isWordStart (c : Char) : Bool := c.isAlpha || c = '_'

def isWordChar (c : Char) : Bool := c.isAlphanum || c = '_'

/-- Reads a quoted string up to its closing quote, escapes and all. -/
def quotedString (quote : Char) : List Char → Option (List Char × List Char)
  | [] => none
  | '\\' :: c :: rest => (quotedString quote rest).map fun (body, rest) => ('\\' :: c :: body, rest)
  | c :: rest =>
    if c = quote then some ([], rest) else (quotedString quote rest).map fun (body, rest) => (c :: body, rest)

def hexDigit? (c : Char) : Option Nat :=
  if c.isDigit then some (c.toNat - 48)
  else if 'a' ≤ c ∧ c ≤ 'f' then some (c.toNat - 87)
  else if 'A' ≤ c ∧ c ≤ 'F' then some (c.toNat - 55)
  else none

def hexUnit? (a b c d : Char) : Option Nat :=
  [a, b, c, d].foldlM (fun n c => (hexDigit? c).map (16 * n + ·)) 0

/-- The character that an escape of one letter stands for. -/
def escapeValue? (c : Char) : Option Char :=
  match c with
  | '"' | '\\' | '/' | '\'' => some c
  | 'b' => some (Char.ofNat 8)
  | 'f' => some (Char.ofNat 12)
  | 'n' => some '\n'
  | 'r' => some '\r'
  | 't' => some '\t'
  | _ => none

/-- Resolves the escapes of a string. Two units of 16 bits that belong together make one character;
`high` is the first of two such units. -/
def unescaped (high : Option Nat) : List Char → Option (List Char)
  | '\\' :: 'u' :: a :: b :: c :: d :: rest => do
    let unit ← hexUnit? a b c d
    match high with
    | some h =>
      if 0xDC00 ≤ unit && unit < 0xE000 then
        return Char.ofNat (0x10000 + (h - 0xD800) * 0x400 + (unit - 0xDC00)) :: (← unescaped none rest)
      else none
    | none =>
      if 0xD800 ≤ unit && unit < 0xDC00 then unescaped (some unit) rest
      else if 0xDC00 ≤ unit && unit < 0xE000 then none
      else return Char.ofNat unit :: (← unescaped none rest)
  | '\\' :: c :: rest => do
    if high.isSome then none
    return (← escapeValue? c) :: (← unescaped none rest)
  | c :: rest => do
    if high.isSome then none
    return c :: (← unescaped none rest)
  | [] => if high.isSome then none else some []

def digitsValue (digits : List Char) : Nat := digits.foldl (fun n c => n * 10 + (c.toNat - 48)) 0

def isNumberChar (c : Char) : Bool := c.isDigit || c = '_'

/-- Leaves out the underscores of a number; none may stand at its end. -/
def digitsOnly? (cs : List Char) : Option (List Char) :=
  if cs.getLast? = some '_' then none else some (cs.filter (· != '_'))

/-- An integer of at most 128 bits. -/
def integer (n : Nat) : Token :=
  if n < Nat.pow 2 128 then .int n else malformed "invalid integer (too large)"

/-- Reads an integer in a base that two characters announced. -/
def basedNumber (base : Nat) (cs : List Char) : Token × List Char :=
  let isDigit (c : Char) : Bool := c = '_' || (hexDigit? c).any (· < base)
  match digitsOnly? (cs.takeWhile isDigit) with
  | none => (malformed "'_' may not occur at end of number", [])
  | some [] => (malformed "invalid integer (too large)", [])
  | some digits =>
    (integer (digits.foldl (fun n c => n * base + (hexDigit? c).getD 0) 0), cs.dropWhile isDigit)

/-- Reads a number without a base: digits, and maybe a fraction and an exponent. -/
def decimalNumber (cs : List Char) : Token × List Char :=
  let whole := cs.takeWhile isNumberChar
  let cs := cs.dropWhile isNumberChar
  let (fraction, cs) := match cs with
    | '.' :: cs => (some (cs.takeWhile isNumberChar), cs.dropWhile isNumberChar)
    | cs => (none, cs)
  let (exponent, cs) := match cs with
    | c :: cs =>
      if c = 'e' ∨ c = 'E' then
        let (negative, cs) := match cs with
          | '-' :: cs => (true, cs)
          | '+' :: cs => (false, cs)
          | cs => (false, cs)
        (some (negative, cs.takeWhile isNumberChar), cs.dropWhile isNumberChar)
      else (none, c :: cs)
    | [] => (none, [])
  let written := match exponent, fraction with
    | some (_, e), _ => 'e' :: e
    | none, some f => '.' :: f
    | none, none => whole
  if written.getLast? = some '_' then (malformed "'_' may not occur at end of number", [])
  else
    let digits (cs : List Char) := cs.filter (· != '_')
    match fraction, exponent with
    | none, none => (integer (digitsValue (digits whole)), cs)
    | fraction, exponent =>
      let fraction := digits (fraction.getD [])
      let (negative, power) := exponent.getD (false, ['0'])
      if (digits power).isEmpty then (malformed "invalid float", [])
      else
        let power : Int := if negative then -(digitsValue (digits power) : Int) else digitsValue (digits power)
        (.double (.ofDecimal (digitsValue (digits whole ++ fraction)) (power - fraction.length)), cs)

/-- Reads a number. -/
def number (cs : List Char) : Token × List Char :=
  match cs with
  | '0' :: c :: rest =>
    if c = 'b' ∨ c = 'B' then basedNumber 2 rest
    else if c = 'o' ∨ c = 'O' then basedNumber 8 rest
    else if c = 'x' ∨ c = 'X' then basedNumber 16 rest
    else decimalNumber cs
  | cs => decimalNumber cs

/-- Reads one token inside a place or a block that is not its end. -/
def inner (c : Char) (rest : List Char) : Token × List Char :=
  if (c = '=' ∨ c = '!' ∨ c = '<' ∨ c = '>') ∧ rest.head? = some '=' then
    (.sign (String.ofList [c, '=']), rest.drop 1)
  else if (c = '/' ∨ c = '*') ∧ rest.head? = some c then (.sign (String.ofList [c, c]), rest.drop 1)
  else if ['+', '-', '*', '/', '%', '.', ',', ':', '~', '|', '=', '>', '<', '(', ')', '[', ']', '{', '}'].contains c then
    (.sign (String.ofList [c]), rest)
  else if c = '"' ∨ c = '\'' then
    match quotedString c rest with
    | some (body, after) =>
      match unescaped none body with
      | some value => (.string (String.ofList value), after)
      | none => (.broken "bad string escape", [])
    | none => (malformed "unexpected end of string", [])
  else if c.isDigit then number (c :: rest)
  else if isWordStart c then
    (.word (String.ofList (c :: rest.takeWhile isWordChar)), rest.dropWhile isWordChar)
  else (malformed "unexpected character", [])

/-- Where the reader stands. In the text it knows whether nothing stands on the line so far and
whether blanks are to be dropped; inside a place or a block it knows what closes it and how many
brackets are open. -/
inductive Mode where
  | text (blank dropBlanks : Bool)
  | inside (close : Char) (brackets : Int)

/-- The text behind a closing mark, and how to go on reading it. -/
def afterMark (b : Blanks) (place : Bool) (rest : List Char) : Mode × List Char :=
  match b with
  | .dropped => (.text false true, rest)
  | .kept => (.text false false, rest)
  | .standard =>
    let rest' := if place then rest else dropFirstBreak rest
    (.text (rest'.length != rest.length) false, rest')

/-- The end of a place or a block, if the text starts with one. -/
def closing? (close : Char) (cs : List Char) : Option (Blanks × List Char) :=
  let blanks := Blanks.ofChar? cs.head?
  match blanks.skip cs with
  | c :: '}' :: rest => if c = close then some (blanks, rest) else none
  | _ => none

def bracketChange (mark : Token) : Int :=
  match mark with
  | .sign "(" | .sign "[" | .sign "\x7b" => 1
  | .sign ")" | .sign "]" | .sign "\x7d" => -1
  | _ => 0

def textToken (content : List Char) (line : Nat) : List Placed :=
  if content.isEmpty then [] else [(.text (String.ofList content), line)]

/-- Reads all tokens. Every step consumes a character, so the length of the text bounds the steps. -/
def tokens : Nat → Mode → List Char → Nat → List Placed
  | 0, _, _, _ => []
  | fuel + 1, .text blank dropBlanks, source, line =>
    let dropped := if dropBlanks then source.takeWhile Text.isSpace else []
    let blank := staysBlank blank dropped
    let line := line + lineBreaks dropped
    let (before, after) := beforeMark (source.drop dropped.length)
    match after with
    | _ :: kind :: rest =>
      let blanks := Blanks.ofChar? rest.head?
      let here := textToken (beforeBlanks blanks (kind = '{') blank before) line
      let line := line + lineBreaks before
      let rest := blanks.skip rest
      let goOn (consumed : List Char → List Char) (mode : Mode) (more : List Char) : List Placed :=
        tokens fuel mode more (line + lineBreaks (consumed more))
      let consumed (more : List Char) : List Char := rest.take (rest.length - more.length)
      if kind = '{' then here ++ (.openPlace, line) :: tokens fuel (.inside '}' 0) rest line
      else if kind = '#' then
        match remark rest with
        | some (body, more) =>
          let (mode, more) := afterMark (.ofChar? body.getLast?) false more
          here ++ goOn consumed mode more
        | none => here ++ [(malformed "unexpected end of comment", line)]
      else
        match wordBlock? "raw" rest with
        | some (opening, raw) =>
          match untilEnd raw with
          | some (body, before, ending, more) =>
            let body := match opening with
              | .standard => dropFirstBreak body
              | .kept => body
              | .dropped => body.dropWhile Text.isSpace
            let body := match before with
              | .standard => dropLineStart body
              | .kept => body
              | .dropped => Text.trimEnd body
            let (mode, more) := afterMark ending false more
            here ++ textToken body line ++ goOn consumed mode more
          | none => here ++ [(malformed "unexpected end of raw block", line)]
        | none => here ++ (.openBlock, line) :: tokens fuel (.inside '%' 0) rest line
    | _ => textToken before line
  | fuel + 1, .inside close brackets, source, line =>
    let rest := source.dropWhile isBlank
    let line := line + lineBreaks (source.takeWhile isBlank)
    match rest with
    | [] => []
    | c :: cs =>
      match if brackets = 0 then closing? close rest else none with
      | some (blanks, after) =>
        let (mode, more) := afterMark blanks (close = '}') after
        let next := line + lineBreaks (after.take (after.length - more.length))
        (if close = '%' then .closeBlock else .closePlace, line) :: tokens fuel mode more next
      | none =>
        let (token, after) := inner c cs
        let next := line + lineBreaks (rest.take (rest.length - after.length))
        match token with
        | .broken _ => [(token, line)]
        | _ => (token, line) :: tokens fuel (.inside close (brackets + bracketChange token)) after next

end Lexer

/-- The tokens of a text. -/
def Token.ofText (source : String) : List Placed :=
  let chars := source.toList
  let chars := if chars.getLast? = some '\n' then chars.dropLast else chars
  let chars := if chars.getLast? = some '\r' then chars.dropLast else chars
  Lexer.tokens (2 * chars.length + 2) (.text true false) chars 1

end RestWiring.Stencil
