import RestWiring.Stencil
import RestWiring.Stencil.Token

/-!
# Reading stencils

`Stencil.ofText` reads a stencil from its written form. Expressions have, from loose to tight,
conditions, `or`, `and`, `not`, comparisons, sums, joined texts, products, powers, and operands with a
sign, followed by members, items and calls and then by filters and tests. Arguments go by place. The only
statements are `if` and `for`; any other (`set`, `with`, `macro`, `include` and the like, see `Stencil`) is a
fault here, as is an argument that is given by keyword.
-/
namespace RestWiring

namespace Stencil

/-- Why a text is no stencil, and the line at which that shows. -/
structure SyntaxFault where
  line : Nat
  message : String
  deriving DecidableEq, Repr

namespace Parser

/-- The tokens ahead, the line of the token read last, and how many more levels of nesting there may
be. -/
structure Input where
  rest : List Placed
  line : Nat
  depth : Nat

abbrev Parse (α : Type) := Input → Except SyntaxFault (α × Input)

/-- Takes the next token, if there is one that can be read. -/
def next : Parse (Option Token)
  | ⟨[], line, depth⟩ => .ok (none, ⟨[], line, depth⟩)
  | ⟨(.broken message, line) :: _, _, _⟩ => .error ⟨line, message⟩
  | ⟨(token, line) :: rest, _, depth⟩ => .ok (some token, ⟨rest, line, depth⟩)

def peek (i : Input) : Option Token := i.rest.head?.map (·.1)

def fail {α : Type} (line : Nat) (message : String) : Except SyntaxFault α :=
  .error ⟨line, "syntax error: " ++ message⟩

def unexpected {α : Type} (found : Option Token) (wanted : String) (line : Nat) : Except SyntaxFault α :=
  fail line ("unexpected " ++ (found.map Token.description).getD "end of input" ++ ", expected " ++ wanted)

/-- Takes a token that has to be there. -/
def expect (token : Token) (wanted : String) : Parse Unit := fun i => do
  let (found, i) ← next i
  if found = some token then .ok ((), i) else unexpected found wanted i.line

def name (wanted : String) : Parse String := fun i => do
  let (found, i) ← next i
  match found with
  | some (.word w) => .ok (w, i)
  | other => unexpected other wanted i.line

/-- Reads something that may contain itself; nesting has a limit. -/
def nested {α : Type} (read : Parse α) : Parse α := fun i =>
  if i.depth = 0 then fail i.line "template exceeds maximum recursion limits"
  else do
    let (a, j) ← read { i with depth := i.depth - 1 }
    .ok (a, { j with depth := i.depth })

/-- Whether a mark comes next; it is then taken. -/
def takes (token : Token) : Parse Bool := fun i =>
  if peek i = some token then do
    let (_, i) ← next i
    .ok (true, i)
  else .ok (false, i)

/-- The level of binding of an expression that is no operator's. -/
def unaryLevel : Nat := 8

/-- The operator that a token stands for on one of the levels of binding, from loose to tight. The level
left out here is that of the negation. -/
def operatorAt : Nat → Token → Option Operator
  | 0, .word "or" => some .or
  | 1, .word "and" => some .and
  | 3, .sign "==" => some .equal
  | 3, .sign "!=" => some .notEqual
  | 3, .sign "<" => some .less
  | 3, .sign "<=" => some .lessEqual
  | 3, .sign ">" => some .greater
  | 3, .sign ">=" => some .greaterEqual
  | 3, .word "in" => some .isIn
  | 4, .sign "+" => some .add
  | 4, .sign "-" => some .sub
  | 5, .sign "~" => some .concat
  | 6, .sign "*" => some .mul
  | 6, .sign "/" => some .div
  | 6, .sign "//" => some .floorDiv
  | 6, .sign "%" => some .rem
  | 7, .sign "**" => some .pow
  | _, _ => none

/-- Whether a token may start the argument of a test that has no parentheses. -/
def startsArgument : Token → Bool
  | .word w => !(["and", "or", "else", "is", "if"].contains w)
  | .string _ | .int _ | .double _ => true
  | .sign mark => ["+", "-", "[", "\x7b"].contains mark
  | _ => false

def outOfFuel {α : Type} (i : Input) : Except SyntaxFault α :=
  fail i.line "template exceeds maximum recursion limits"

/-- Reads what may be left out elsewhere. -/
def optional {α : Type} (read : Parse α) : Parse (Option α) := fun i => do
  let (a, i) ← read i
  .ok (some a, i)

/-- Whether a token stands where a bound of a slice is left out. -/
def endsBound : Option Token → Bool
  | some (.sign mark) => mark == "]" || mark == ":"
  | _ => false

mutual

def expression : Nat → Parse Expr
  | 0, i => outOfFuel i
  | fuel + 1, i => nested (conditional fuel) i

/-- An expression that a condition may follow. -/
def conditional : Nat → Parse Expr
  | 0, i => outOfFuel i
  | fuel + 1, i => do
    let (e, i) ← level fuel 0 i
    conditions fuel e i

def conditions : Nat → Expr → Parse Expr
  | 0, _, i => outOfFuel i
  | fuel + 1, e, i => do
    let (found, i) ← takes (.word "if") i
    if !found then .ok (e, i)
    else
      let (condition, i) ← level fuel 0 i
      let (found, i) ← takes (.word "else") i
      if found then
        let (other, i) ← conditional fuel i
        conditions fuel (.choice condition e other) i
      else conditions fuel (.choice condition e (.literal .undefined)) i

/-- An expression of a level of binding. -/
def level : Nat → Nat → Parse Expr
  | 0, _, i => outOfFuel i
  | fuel + 1, n, i =>
    if n = unaryLevel then unary fuel i
    else if n = 2 then do
      let (found, i) ← takes (.word "not") i
      if found then
        let (e, i) ← level fuel 2 i
        .ok (.not e, i)
      else level fuel 3 i
    else do
      let (left, i) ← level fuel (n + 1) i
      operators fuel n left i

/-- The operators of a level after a left operand. -/
def operators : Nat → Nat → Expr → Parse Expr
  | 0, _, _, i => outOfFuel i
  | fuel + 1, n, left, i =>
    if n = 3 ∧ peek i = some (.word "not") then do
      let (_, i) ← next i
      let (_, i) ← expect (.word "in") "in" i
      let (right, i) ← level fuel (n + 1) i
      operators fuel n (.not (.binary .isIn left right)) i
    else
      match (peek i).bind (operatorAt n) with
      | some op => do
        let (_, i) ← next i
        let (right, i) ← level fuel (n + 1) i
        operators fuel n (.binary op left right) i
      | none => .ok (left, i)

/-- An operand with its sign, and then what follows it. -/
def unary : Nat → Parse Expr
  | 0, i => outOfFuel i
  | fuel + 1, i => do
    let (e, i) ← signed fuel i
    let (e, i) ← suffixes fuel e i
    filters fuel e i

def signed : Nat → Parse Expr
  | 0, i => outOfFuel i
  | fuel + 1, i => do
    let (found, i) ← takes (.sign "-") i
    if found then
      let (e, i) ← signed fuel i
      .ok (.neg e, i)
    else nested (operand fuel) i

def operand : Nat → Parse Expr
  | 0, i => outOfFuel i
  | fuel + 1, i => do
    let (found, i) ← next i
    match found with
    | some (.word "true") | some (.word "True") => .ok (.literal (.bool true), i)
    | some (.word "false") | some (.word "False") => .ok (.literal (.bool false), i)
    | some (.word "none") | some (.word "None") => .ok (.literal .null, i)
    | some (.word w) => .ok (.variable w, i)
    | some (.string s) => .ok (.literal (.text s), i)
    | some (.int n) => .ok (.literal (.nat n), i)
    | some (.double x) => .ok (.literal (.double x), i)
    | some (.sign "(") => do
      let (found, i) ← takes (.sign ")") i
      if found then .ok (.list [], i)
      else
        let (e, i) ← expression fuel i
        let (found, i) ← takes (.sign ",") i
        if found then
          let (more, i) ← items fuel ")" true i
          .ok (.list (e :: more), i)
        else
          let (_, i) ← expect (.sign ")") "`)`" i
          .ok (e, i)
    | some (.sign "[") => do
      let (es, i) ← items fuel "]" true i
      .ok (.list es, i)
    | some (.sign "\x7b") => do
      let ((names, values), i) ← entries fuel true i
      .ok (.map names values, i)
    | some token => fail i.line ("unexpected " ++ token.description)
    | none => unexpected none "expression" i.line

/-- Expressions with commas between them, up to a closing bracket. -/
def items : Nat → String → Bool → Parse (List Expr)
  | 0, _, _, i => outOfFuel i
  | fuel + 1, close, first, i => do
    let (found, i) ← takes (.sign close) i
    if found then .ok ([], i)
    else
      let (_, i) ← if first then .ok ((), i) else expect (.sign ",") "`,`" i
      let (found, i) ← if first then .ok (false, i) else takes (.sign close) i
      if found then .ok ([], i)
      else
        let (e, i) ← expression fuel i
        let (es, i) ← items fuel close false i
        .ok (e :: es, i)

/-- The members of a map up to its closing brace. -/
def entries : Nat → Bool → Parse (List Expr × List Expr)
  | 0, _, i => outOfFuel i
  | fuel + 1, first, i => do
    let (found, i) ← takes (.sign "\x7d") i
    if found then .ok (([], []), i)
    else
      let (_, i) ← if first then .ok ((), i) else expect (.sign ",") "`,`" i
      let (found, i) ← if first then .ok (false, i) else takes (.sign "\x7d") i
      if found then .ok (([], []), i)
      else
        let (name, i) ← expression fuel i
        let (_, i) ← expect (.sign ":") "`:`" i
        let (value, i) ← expression fuel i
        let ((names, values), i) ← entries fuel false i
        .ok ((name :: names, value :: values), i)

/-- Members, items, slices and calls after an operand. -/
def suffixes : Nat → Expr → Parse Expr
  | 0, _, i => outOfFuel i
  | fuel + 1, e, i =>
    match peek i with
    | some (.sign ".") => do
      let (_, i) ← next i
      let (w, i) ← name "identifier" i
      suffixes fuel (.member e w) i
    | some (.sign "[") => do
      let (_, i) ← next i
      let (start, i) ← if peek i = some (.sign ":") then .ok (none, i) else optional (expression fuel) i
      let (sliced, i) ← takes (.sign ":") i
      if sliced then
        let (stop, i) ← if endsBound (peek i) then .ok (none, i) else optional (expression fuel) i
        let (stepped, i) ← takes (.sign ":") i
        let (step, i) ← if !stepped || peek i = some (.sign "]") then .ok (none, i) else optional (expression fuel) i
        let (_, i) ← expect (.sign "]") "`]`" i
        let bound (b : Option Expr) : Expr := b.getD (.literal .null)
        suffixes fuel (.slice e (bound start) (bound stop) (bound step)) i
      else
        let (_, i) ← expect (.sign "]") "`]`" i
        match start with
        | some index => suffixes fuel (.item e index) i
        | none => fail i.line "empty subscript"
    | some (.sign "(") => do
      let (_, i) ← next i
      let (given, i) ← items fuel ")" true i
      match e with
      | .variable w => suffixes fuel (.call w given) i
      | .member e w => suffixes fuel (.method e w given) i
      | e => suffixes fuel (.method e "" given) i
    | _ => .ok (e, i)

/-- Filters and tests after an operand. -/
def filters : Nat → Expr → Parse Expr
  | 0, _, i => outOfFuel i
  | fuel + 1, e, i =>
    match peek i with
    | some (.sign "|") => do
      let (_, i) ← next i
      let (w, i) ← name "identifier" i
      let (found, i) ← takes (.sign "(") i
      let (given, i) ← if found then items fuel ")" true i else .ok ([], i)
      filters fuel (.filter w e given) i
    | some (.word "is") => do
      let (_, i) ← next i
      let (negated, i) ← takes (.word "not") i
      let (w, i) ← name "identifier" i
      let (found, i) ← takes (.sign "(") i
      let (given, i) ←
        if found then items fuel ")" true i
        else if (peek i).any startsArgument then do
          let (a, i) ← signed fuel i
          let (a, i) ← suffixes fuel a i
          .ok ([a], i)
        else .ok ([], i)
      let e : Expr := .test w e given
      filters fuel (if negated then .not e else e) i
    | _ => .ok (e, i)

end

/-- Names that nothing can be bound to. -/
def reservedNames : List String := ["true", "True", "false", "False", "none", "None", "loop", "self"]

/-- The names that a loop binds, with commas between them. -/
def loopNames : Nat → Parse (List String × Bool)
  | 0, i => outOfFuel i
  | fuel + 1, i => do
    let (w, i) ← name "identifier" i
    if reservedNames.contains w then fail i.line ("cannot assign to reserved variable name " ++ w)
    let (found, i) ← takes (.sign ",") i
    if !found then .ok (([w], false), i)
    else if peek i = some (.word "in") then .ok (([w], true), i)
    else
      let ((ws, _), i) ← loopNames fuel i
      .ok ((w :: ws, true), i)

/-- The words that end the part being read. -/
def closesWith (ends : List String) : Option Token → Bool
  | some (.word w) => ends.contains w
  | _ => false

mutual

/-- Parts up to a block that begins with one of the given words, or to the end of the text. -/
def segments (fuel : Nat) (ends : List String) : Parse Stencil := fun i =>
  match fuel with
  | 0 => fail i.line "template exceeds maximum recursion limits"
  | fuel + 1 => do
    let (found, j) ← next i
    match found with
    | none => .ok ([], j)
    | some (.text content) => do
      let (more, j) ← segments fuel ends j
      .ok (.text content :: more, j)
    | some .openPlace => do
      let line := j.line
      let (e, j) ← expression fuel j
      let (_, j) ← expect .closePlace "end of variable block" j
      let (more, j) ← segments fuel ends j
      .ok (.emit line e :: more, j)
    | some .openBlock =>
      if j.rest.isEmpty then unexpected none "keyword" j.line
      else if closesWith ends (peek j) then .ok ([], j)
      else do
        let (s, j) ← nested (statement fuel j.line) j
        let (_, j) ← expect .closeBlock "end of block" j
        let (more, j) ← segments fuel ends j
        .ok (s :: more, j)
    | some token => unexpected (some token) "template" j.line

def statement (fuel : Nat) (line : Nat) : Parse Segment := fun i =>
  match fuel with
  | 0 => fail i.line "template exceeds maximum recursion limits"
  | fuel + 1 => do
    let (found, i) ← next i
    match found with
    | some (.word "if") => branch fuel line i
    | some (.word "for") => do
      let ((names, several), i) ← loopNames fuel i
      let names := if several then .several names else .one (names.headD "")
      let (_, i) ← expect (.word "in") "in" i
      let (source, i) ← level fuel 0 i
      let (found, i) ← takes (.word "if") i
      let (condition, i) ← if found then optional (expression fuel) i else .ok (none, i)
      let (_, i) ← expect .closeBlock "end of block" i
      let (body, i) ← segments fuel ["endfor", "else"] i
      let (found, i) ← takes (.word "else") i
      if found then
        let (_, i) ← expect .closeBlock "end of block" i
        let (whenEmpty, i) ← segments fuel ["endfor"] i
        let (_, i) ← next i
        .ok (.loop line names source condition body whenEmpty, i)
      else
        let (_, i) ← next i
        .ok (.loop line names source condition body [], i)
    | some (.word w) => fail i.line ("unknown statement " ++ w)
    | some token => fail i.line ("unknown " ++ token.description ++ ", expected statement")
    | none => unexpected none "block keyword" i.line

/-- A condition, the part under it, and what comes instead. -/
def branch (fuel : Nat) (line : Nat) : Parse Segment := fun i =>
  match fuel with
  | 0 => fail i.line "template exceeds maximum recursion limits"
  | fuel + 1 => do
    let (condition, i) ← expression fuel i
    let (_, i) ← expect .closeBlock "end of block" i
    let (whenTrue, i) ← segments fuel ["endif", "else", "elif"] i
    let (found, i) ← next i
    match found with
    | some (.word "elif") => do
      let (inner, i) ← branch fuel i.line i
      .ok (.branch line condition whenTrue [inner], i)
    | some (.word "else") => do
      let (_, i) ← expect .closeBlock "end of block" i
      let (whenFalse, i) ← segments fuel ["endif"] i
      let (_, i) ← next i
      .ok (.branch line condition whenTrue whenFalse, i)
    | _ => .ok (.branch line condition whenTrue [], i)

end

end Parser

end Stencil

/-- Reads a stencil. No token is read at more than two dozen steps, which bounds the depth of the
recursion; 150 levels of expressions and blocks may be nested. -/
def Stencil.ofText (source : String) : Except Stencil.SyntaxFault Stencil :=
  let tokens := Stencil.Token.ofText source
  Prod.fst <$> Stencil.Parser.segments (24 * tokens.length + 24) [] ⟨tokens, 1, 150⟩

end RestWiring
