import RestWiring.Yaml.Cursor

/-!
# YAML tags and directives

A tag is written as a whole between angle brackets, or as a handle and a suffix; a directive gives a
handle the text that it stands for. Tags are held as octets, and each character of a string that holds
one is an octet. A percent sign and two hexadecimal digits write an octet; octets beyond ASCII come in
groups, whose lengths are checked and whose values are not. What a zero octet precedes is ignored.
-/
namespace RestWiring.Yaml

/-- The directives that a document may start with. -/
inductive Directive where
  | version (major minor : Nat)
  | handle (handle expansion : String)

/-- How many octets there are in a group by its first octet. -/
def groupSize? (octet : Nat) : Option Nat :=
  if octet < 0x80 then some 1
  else if octet < 0xC0 then none
  else if octet < 0xE0 then some 2
  else if octet < 0xF0 then some 3
  else if octet < 0xF8 then some 4
  else none

def octet? : List Char → Option (Nat × List Char)
  | '%' :: a :: b :: rest =>
    if isHexDigit a && isHexDigit b then some (hexDigitValue a * 16 + hexDigitValue b, rest) else none
  | _ => none

/-- Reads the octets of a group behind its first one. -/
def trailingOctets : Nat → List Char → Option (List Char × List Char)
  | 0, cs => some ([], cs)
  | n + 1, cs => do
    let (octet, rest) ← octet? cs
    if octet < 0x80 || 0xC0 ≤ octet then none
    else
      let (octets, rest) ← trailingOctets n rest
      return (Char.ofNat octet :: octets, rest)

/-- Reads a group of octets. -/
def octetGroup (cs : List Char) : Option (List Char × List Char) := do
  let (octet, rest) ← octet? cs
  let size ← groupSize? octet
  let (octets, rest) ← trailingOctets (size - 1) rest
  return (Char.ofNat octet :: octets, rest)

/-- What stands before the first zero octet. -/
def beforeZero (octets : List Char) : List Char := octets.takeWhile (· != Char.ofNat 0)

/-- The characters of a tag; a tag between angle brackets may also hold indicators of a flow. -/
def isTagChar (bracketed : Bool) (c : Char) : Bool :=
  isWordChar c || [';', '/', '?', ':', '@', '&', '=', '+', '$', '.', '%', '!', '~', '*', '\'', '(', ')'].contains c ||
    (bracketed && [',', '[', ']'].contains c)

/-- Reads the characters of a tag as octets. At most `fuel` characters and groups are read. -/
def tagText (bracketed : Bool) : Nat → List Char → Option (List Char × List Char)
  | 0, cs => some ([], cs)
  | _, [] => some ([], [])
  | fuel + 1, c :: rest =>
    if !isTagChar bracketed c then some ([], c :: rest)
    else do
      let (octets, rest) ← if c = '%' then octetGroup (c :: rest) else some ([c], rest)
      let (text, rest) ← tagText bracketed fuel rest
      return (octets ++ text, rest)

def tagChars (bracketed : Bool) (cs : List Char) : Option (List Char × List Char) :=
  tagText bracketed cs.length cs

/-- Reads a handle after its exclamation mark: the word, and whether another mark ends it. -/
def handleText (cs : List Char) : List Char × Bool × List Char :=
  match cs.dropWhile isWordChar with
  | '!' :: rest => (cs.takeWhile isWordChar, true, rest)
  | rest => (cs.takeWhile isWordChar, false, rest)

/-- Reads a tag after its exclamation mark, as a handle and a suffix. A whole tag has no handle. -/
def tag (cs : List Char) : Option (String × String × List Char) :=
  match cs with
  | '<' :: rest => do
    let (text, rest) ← tagChars true rest
    if text.isEmpty then none
    else match rest with
      | '>' :: rest => some ("", String.ofList (beforeZero text), rest)
      | _ => none
  | _ =>
    let (word, closed, rest) := handleText cs
    if closed then do
      let (text, rest) ← tagChars false rest
      if text.isEmpty then none
      else some (String.ofList ('!' :: (word ++ ['!'])), String.ofList (beforeZero text), rest)
    else do
      let (text, rest) ← tagChars false rest
      match beforeZero (word ++ text) with
      | [] => some ("", "!", rest)
      | suffix => some ("!", String.ofList suffix, rest)

/-- A number of at most nine digits. -/
def versionNumber (cs : List Char) : Option (Nat × List Char) :=
  let digits := cs.takeWhile Char.isDigit
  if digits.isEmpty || 9 < digits.length then none
  else some (digits.foldl (fun n c => n * 10 + (c.toNat - 48)) 0, cs.dropWhile Char.isDigit)

/-- Reads a directive after its percent sign. -/
def directive (cs : List Char) : Option (Directive × List Char) := do
  let name := String.ofList (cs.takeWhile isWordChar)
  let rest := cs.dropWhile isWordChar
  if !atGap rest then none
  let rest := rest.dropWhile isSpaceOrTab
  if name = "YAML" then
    let (major, rest) ← versionNumber rest
    match rest with
    | '.' :: rest =>
      let (minor, rest) ← versionNumber rest
      return (.version major minor, rest)
    | _ => none
  else if name = "TAG" then
    match rest with
    | '!' :: rest =>
      let (word, closed, rest) := handleText rest
      if !closed && !word.isEmpty then none
      match rest with
      | c :: _ =>
        if !isSpaceOrTab c then none
        let (text, rest) ← tagChars true (rest.dropWhile isSpaceOrTab)
        if text.isEmpty || !atGap rest then none
        let handle := '!' :: (word ++ if closed then ['!'] else [])
        return (.handle (String.ofList handle) (String.ofList (beforeZero text)), rest)
      | [] => none
    | _ => none
  else none

end RestWiring.Yaml
