import FilterChain.Error
import FilterChain.Number.Numeral
import FilterChain.Step
import FilterChain.Text.Blank
import FilterChain.Text.Quoted
import FilterChain.Value

/-!
# Operations

An operation has a name, a signature that declares its parameters, and a body. The arguments of a
step are bound to the signature before the body runs: a required parameter needs an argument, and
an optional one takes its default where the argument is left out or empty. Arguments beyond the
declared parameters are kept, and bodies may ignore them.
-/

namespace FilterChain

/-- A parameter; one without a default is required. -/
structure Param where
  name : String
  default? : Option String
  deriving DecidableEq, Repr

namespace Param

def required (name : String) : Param :=
  ⟨name, none⟩

def optional (name default : String) : Param :=
  ⟨name, some default⟩

def isRequired (param : Param) : Bool :=
  param.default?.isNone

def text (param : Param) : String :=
  match param.default? with
  | some default => s!"{param.name}={default}"
  | none => param.name

end Param

structure Signature where
  params : List Param
  deriving DecidableEq, Repr

structure Args where
  signature : Signature
  raw : List String
  deriving DecidableEq, Repr

namespace Signature

def text (signature : Signature) : String :=
  ", ".intercalate (signature.params.map Param.text)

def misplaced? : (seen? : Option Param) → List Param → Option (Param × Param)
  | _, [] => none
  | seen?, param :: params =>
    match param.isRequired, seen? with
    | true, some seen => some (param, seen)
    | true, none => misplaced? none params
    | false, some seen => misplaced? (some seen) params
    | false, none => misplaced? (some param) params

def validate (operation : String) (signature : Signature) : Except RegistrationError Unit :=
  match misplaced? none signature.params with
  | some (required, optional) =>
    .error (.requiredAfterOptional operation required.name optional.name)
  | none => .ok ()

/-- The first required parameter without an argument, with its position counted from `position`. -/
def missing? (position : Nat) : List Param → List String → Option (Param × Nat)
  | [], _ => none
  | param :: params, [] =>
    if param.isRequired then some (param, position) else missing? (position + 1) params []
  | _ :: params, _ :: raw => missing? (position + 1) params raw

def bind (signature : Signature) (raw : List String) : Except OperationError Args :=
  match missing? 1 signature.params raw with
  | some (param, position) => .error (.missingArgument param.name position)
  | none => .ok ⟨signature, raw⟩

end Signature

namespace Args

def default? (args : Args) (index : Nat) : Option String :=
  args.signature.params[index]?.bind Param.default?

/-- The argument at an index: the one given, or the default where it is missing or empty. -/
def get (args : Args) (index : Nat) : String :=
  match args.raw[index]?, args.default? index with
  | some "", some default => default
  | some arg, _ => arg
  | none, some default => default
  | none, none => ""

def paramName (args : Args) (index : Nat) : String :=
  match args.signature.params[index]? with
  | some param => param.name
  | none => s!"#{index + 1}"

def read {α : Type} (args : Args) (index : Nat) (reader : List Char → Except String α) :
    Except OperationError α :=
  let raw := args.get index
  match reader (Text.trimBy Text.isBlank raw.toList) with
  | .ok a => .ok a
  | .error reason => .error (.invalidArgument (args.paramName index) raw reason)

def readWhole (args : Args) (index : Nat) (bounds : Bounds) : Except OperationError Int :=
  args.read index fun cs => (bounds.read cs).mapError NumeralFault.message

end Args

structure Operation where
  name : String
  signature : Signature
  description : String
  body : Value → Args → Except OperationError Value

namespace Operation

def unary (name description : String) (body : Value → Except OperationError Value) : Operation :=
  ⟨name, ⟨[]⟩, description, fun value _ => body value⟩

def withName (name : String) (operation : Operation) : Operation :=
  { operation with name := name }

def validate (operation : Operation) : Except RegistrationError Unit :=
  if isUsableName operation.name then operation.signature.validate operation.name
  else .error (.invalidName operation.name)

def call (operation : Operation) (value : Value) (raw : List String) :
    Except OperationError Value := do
  let args ← operation.signature.bind raw
  operation.body value args

def table (operations : List Operation) : String :=
  let row (operation : Operation) : String :=
    let params := if operation.signature.params = [] then "-" else operation.signature.text
    s!"| {operation.name} | {params} | {operation.description} |\n"
  "| Operation | Parameters | Description |\n|-----------|------------|-------------|\n" ++
    String.join (operations.map row)

def inspect (operation : Operation) : String :=
  let inspectDefault (default? : Option String) : String :=
    match default? with
    | some default => "Some(" ++ Text.quote default ++ ")"
    | none => "None"
  let inspectParam (param : Param) : String :=
    "Param \x7b name: " ++ Text.quote param.name ++ ", default: " ++
      inspectDefault param.default? ++ " \x7d"
  "Operation \x7b name: " ++ Text.quote operation.name ++ ", signature: Signature \x7b params: [" ++
    ", ".intercalate (operation.signature.params.map inspectParam) ++ "] \x7d, .. \x7d"

end Operation

namespace Value

/-- The text of a scalar: null and false are empty, and true is the digit one. -/
def asText : Value → Except OperationError String
  | .null => .ok ""
  | .bool b => .ok (if b then "1" else "")
  | .number n => .ok (String.ofList n.text)
  | .text s => .ok s
  | v => .error (.unsupportedValue "a scalar" v.kind)

def requireContainer (v : Value) : Except OperationError Unit :=
  if v.isContainer then .ok () else .error (.unsupportedValue "an array or object" v.kind)

mutual

/-- Applies `leaf` to every scalar inside a value, and stops at the first failure. -/
def mapLeaves (leaf : Value → Except OperationError Value) : Value → Except OperationError Value
  | .list items => do return .list (← mapItems leaf items)
  | .record fields => do return .record (← mapFields leaf fields)
  | .null => leaf .null
  | .bool b => leaf (.bool b)
  | .number n => leaf (.number n)
  | .text s => leaf (.text s)

def mapItems (leaf : Value → Except OperationError Value) :
    List Value → Except OperationError (List Value)
  | [] => .ok []
  | v :: vs => do
    let w ← v.mapLeaves leaf
    let ws ← mapItems leaf vs
    return w :: ws

def mapFields (leaf : Value → Except OperationError Value) :
    List (String × Value) → Except OperationError (List (String × Value))
  | [] => .ok []
  | (k, v) :: fs => do
    let w ← v.mapLeaves leaf
    let gs ← mapFields leaf fs
    return (k, w) :: gs

end

end Value

end FilterChain
