/-!
# Arguments of the command line

`Invocation.ofArguments?` reads the arguments of a call. Two options with a value may stand before
or behind the command, once in each place, and the one behind it counts. A single hyphen is a text,
and behind a double hyphen everything is.
-/
namespace RestWiring.CommandLine

inductive Command where
  | validate (template : String)
  | plan (template : String)
  | deploy (template : String) (dryRun : Bool)
  deriving DecidableEq, Repr

/-- The path of the template. -/
def Command.template : Command → String
  | .validate path | .plan path | .deploy path _ => path

/-- The options that every command has. -/
structure Options where
  dataFolder : Option String := none
  logLevel : Option String := none
  deriving DecidableEq, Repr

inductive Invocation where
  | run (command : Option Command) (options : Options)
  | help
  | version
  deriving DecidableEq, Repr

inductive CommandName where
  | validate | plan | deploy
  deriving DecidableEq, Repr

def CommandName.ofText? : String → Option CommandName
  | "validate" => some .validate
  | "plan" => some .plan
  | "deploy" => some .deploy
  | _ => none

/-- What an argument looks like. -/
inductive Word where
  | text (value : String)
  | separator
  /-- A name behind two hyphens, and a value if an equals sign is attached. -/
  | option (name : String) (attached : Option String)
  | short (letters : List Char)
  deriving DecidableEq, Repr

def Word.ofArgument (argument : String) : Word :=
  match argument.toList with
  | ['-', '-'] => .separator
  | '-' :: '-' :: cs =>
    match cs.dropWhile (· != '=') with
    | _ :: value => .option (String.ofList (cs.takeWhile (· != '='))) (some (String.ofList value))
    | [] => .option (String.ofList cs) none
  | '-' :: c :: cs => .short (c :: cs)
  | _ => .text argument

/-- What has been read in one place, before or behind the command. -/
structure Place where
  options : Options := {}
  dryRun : Bool := false
  template : Option String := none

namespace Place

/-- Takes a text as the path of the template, of which there is one. -/
def take? (p : Place) (path : String) : Option Place :=
  if p.template.isSome || path.isEmpty then none else some { p with template := some path }

/-- Sets an option that takes a value; it may be set once. -/
def set? (p : Place) (name value : String) : Option Place :=
  match name with
  | "data-dir" =>
    if p.options.dataFolder.isSome || value.isEmpty then none
    else some { p with options := { p.options with dataFolder := some value } }
  | "log-level" =>
    if p.options.logLevel.isSome then none
    else some { p with options := { p.options with logLevel := some value } }
  | _ => none

end Place

def asksForHelp : Word → Bool
  | .option name none => name == "help"
  | .short letters => letters.head? == some 'h'
  | _ => false

def asksForVersion : Word → Bool
  | .option name none => name == "version"
  | .short letters => letters.head? == some 'V'
  | _ => false

/-- An option, together with its value in the argument behind it if none is attached. -/
def Place.option? (p : Place) (name : String) (attached : Option String) (rest : List String) :
    Option (Place × List String) :=
  match attached, rest with
  | some value, rest => (p.set? name value).map (·, rest)
  | none, value :: rest =>
    match Word.ofArgument value with
    | .text value => (p.set? name value).map (·, rest)
    | _ => none
  | none, [] => none

/-- The options set behind the command, and elsewhere those set before it. -/
def Options.within (inner outer : Options) : Options where
  dataFolder := inner.dataFolder <|> outer.dataFolder
  logLevel := inner.logLevel <|> outer.logLevel

def CommandName.command? (name : CommandName) (p : Place) : Option Command :=
  match name, p.template with
  | _, none => none
  | .validate, some template => some (.validate template)
  | .plan, some template => some (.plan template)
  | .deploy, some template => some (.deploy template p.dryRun)

/-- Reads what stands behind a command. At most `fuel` arguments are read. -/
def commandArguments (name : CommandName) (outer : Options) :
    Nat → Place → List String → Option Invocation
  | _, p, [] => (name.command? p).map fun c => .run (some c) (p.options.within outer)
  | 0, _, _ => none
  | fuel + 1, p, argument :: rest =>
    match Word.ofArgument argument with
    | .text path => (p.take? path).bind (commandArguments name outer fuel · rest)
    | .separator =>
      (rest.foldlM Place.take? p).bind fun p =>
        (name.command? p).map fun c => .run (some c) (p.options.within outer)
    | .option "dry-run" none =>
      if name = .deploy && !p.dryRun then commandArguments name outer fuel { p with dryRun := true } rest
      else none
    | word =>
      if asksForHelp word then some .help
      else match word with
        | .option option attached =>
          (p.option? option attached rest).bind fun (p, rest) => commandArguments name outer fuel p rest
        | _ => none

/-- Reads what stands before the command. At most `fuel` arguments are read. -/
def arguments : Nat → Place → List String → Option Invocation
  | _, p, [] => some (.run none p.options)
  | 0, _, _ => none
  | fuel + 1, p, argument :: rest =>
    match Word.ofArgument argument with
    | .text "help" => if rest.all fun a => (CommandName.ofText? a).isSome then some .help else none
    | .text name => (CommandName.ofText? name).bind (commandArguments · p.options rest.length {} rest)
    | .separator => if rest.isEmpty then some (.run none p.options) else none
    | word =>
      if asksForHelp word then some .help
      else if asksForVersion word then some .version
      else match word with
        | .option option attached =>
          (p.option? option attached rest).bind fun (p, rest) => arguments fuel p rest
        | _ => none

/-- Reads the arguments of a call; `none` if they are none of this program. -/
def Invocation.ofArguments? (args : List String) : Option Invocation := arguments args.length {} args

end RestWiring.CommandLine
