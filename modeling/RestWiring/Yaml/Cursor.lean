/-!
# Places in a YAML text

The classes of characters that YAML tells apart, and `Cursor`, a place in a text together with its
line and column. A line ends with a carriage return, a line feed, both in this order, a next-line
character, or one of the two Unicode separators; the first four count as a line feed in the values
of scalars.
-/
namespace RestWiring.Yaml

def isSpaceOrTab (c : Char) : Bool := c = ' ' || c = '\t'

def isLineBreak (c : Char) : Bool :=
  c = '\n' || c = '\r' || c.toNat = 0x85 || c.toNat = 0x2028 || c.toNat = 0x2029

/-- The characters of anchors, handles and directive names. -/
def isWordChar (c : Char) : Bool := c.isAlphanum || c = '_' || c = '-'

/-- The characters that a text may hold. -/
def isAllowed (c : Char) : Bool :=
  let n := c.toNat
  n = 0x09 || n = 0x0A || n = 0x0D || (0x20 ≤ n && n ≤ 0x7E) || n = 0x85 || (0xA0 ≤ n && n ≤ 0xFFFD) ||
    0x10000 ≤ n

/-- Whether a text starts with a blank or a line break, or is at its end. -/
def atGap : List Char → Bool
  | [] => true
  | c :: _ => isSpaceOrTab c || isLineBreak c

/-- Whether a line starts with the mark that starts or ends a document. -/
def atDocumentMark : List Char → Bool
  | '-' :: '-' :: '-' :: rest => atGap rest
  | '.' :: '.' :: '.' :: rest => atGap rest
  | _ => false

/-- The character that a line break stands for in the value of a scalar. -/
def breakValue (c : Char) : Char := if c.toNat = 0x2028 || c.toNat = 0x2029 then c else '\n'

def isHexDigit (c : Char) : Bool := c.isDigit || ('a' ≤ c && c ≤ 'f') || ('A' ≤ c && c ≤ 'F')

def hexDigitValue (c : Char) : Nat :=
  if c.isDigit then c.toNat - 48 else if 'a' ≤ c then c.toNat - 87 else c.toNat - 55

/-- A place in a text: what follows it, and how many characters, lines and characters of its line
stand before it. -/
structure Cursor where
  rest : List Char
  index : Nat := 0
  line : Nat := 0
  column : Nat := 0

namespace Cursor

/-- Goes over so many characters. A carriage return just before a line feed is part of its break. -/
def skip : Nat → Cursor → Cursor
  | 0, k => k
  | n + 1, k =>
    match k.rest with
    | [] => k
    | c :: rest =>
      if isLineBreak c && !(c = '\r' && rest.head? == some '\n') then
        skip n ⟨rest, k.index + 1, k.line + 1, 0⟩
      else skip n ⟨rest, k.index + 1, k.line, k.column + 1⟩

/-- Goes to where only a given end of the text follows. -/
def seek (k : Cursor) (rest : List Char) : Cursor := k.skip (k.rest.length - rest.length)

end Cursor

end RestWiring.Yaml
