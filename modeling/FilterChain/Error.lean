/-!
# Errors

What can go wrong inside one operation, and in a chain of them. Data that an operation cannot use
is no error of this kind: such an operation answers with null, and the chain goes on.
-/

namespace FilterChain

inductive OperationError where
  | missingArgument (param : String) (position : Nat)
  | invalidArgument (param value reason : String)
  | unsupportedValue (expected found : String)
  | invalidInput (value reason : String)
  deriving DecidableEq, Repr

def OperationError.message : OperationError → String
  | .missingArgument param position =>
    s!"missing required argument '{param}' (position {position})"
  | .invalidArgument param value reason => s!"invalid argument '{param}' = '{value}': {reason}"
  | .unsupportedValue expected found => s!"unsupported value: expected {expected}, got {found}"
  | .invalidInput value reason => s!"invalid input '{value}': {reason}"

inductive ChainError where
  | malformedStep (position : Nat) (token : String)
  | operationNotFound (name : String)
  | operationFailed (name : String) (cause : OperationError)
  deriving DecidableEq, Repr

namespace ChainError

def message : ChainError → String
  | .malformedStep position token => s!"malformed step #{position}: '{token}'"
  | .operationNotFound name => s!"filter \"{name}\" does not exist"
  | .operationFailed name cause => s!"filter \"{name}\" failed: {cause.message}"

/-- The word that stands for an error in answers to other programs. -/
def kind : ChainError → String
  | .malformedStep _ _ => "malformed_step"
  | .operationNotFound _ => "operation_not_found"
  | .operationFailed _ _ => "operation_failed"

end ChainError

inductive RegistrationError where
  | duplicate (name : String)
  | invalidName (name : String)
  | requiredAfterOptional (name required optional : String)
  deriving DecidableEq, Repr

def RegistrationError.message : RegistrationError → String
  | .duplicate name => s!"operation already registered: {name}"
  | .invalidName name => s!"invalid operation name '{name}'"
  | .requiredAfterOptional name required optional =>
    s!"invalid signature for '{name}': " ++
      s!"required parameter '{required}' follows optional '{optional}'"

end FilterChain
