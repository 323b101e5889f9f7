import RestWiring.Stencil.Value

/-!
# Why a stencil cannot be rendered

Every fault of an expression, and what a message says of it.
-/
namespace RestWiring.Stencil

inductive Fault where
  | undefined
  /-- An operation that has no meaning for its operands, with what to say of it. -/
  | invalid (detail : String)
  /-- The negative of what is no number. -/
  | notNegatable
  | notIterable (kind : Value.Kind)
  | unsupported (op : String) (left right : Value.Kind)
  | uncomputable (left op right : String)
  | unconvertible (kind : Value.Kind) (target : String)
  | notUnpackable (detail : String)
  | missingArgument
  | tooManyArguments
  | unknownFilter (name : String)
  | unknownTest (name : String)
  | unknownFunction (name : String)
  | unknownMethod (kind : Value.Kind) (name : String)
  deriving DecidableEq, Repr

def Fault.message : Fault → String
  | .undefined => "undefined value"
  | .invalid detail => "invalid operation: " ++ detail
  | .notNegatable => "invalid operation"
  | .notIterable kind => "invalid operation: " ++ kind.text ++ " is not iterable"
  | .unsupported op left right =>
    "invalid operation: tried to use " ++ op ++ " operator on unsupported types " ++ left.text ++ " and " ++
      right.text
  | .uncomputable left op right =>
    "invalid operation: unable to calculate " ++ left ++ " " ++ op ++ " " ++ right
  | .unconvertible kind target => "invalid operation: cannot convert " ++ kind.text ++ " to " ++ target
  | .notUnpackable detail => "cannot unpack: " ++ detail
  | .missingArgument => "missing argument"
  | .tooManyArguments => "too many arguments"
  | .unknownFilter name => "unknown filter: filter " ++ name ++ " is unknown"
  | .unknownTest name => "unknown test: test " ++ name ++ " is unknown"
  | .unknownFunction name => "unknown function: " ++ name ++ " is unknown"
  | .unknownMethod kind name => "unknown method: " ++ kind.text ++ " has no method named " ++ name

end RestWiring.Stencil
