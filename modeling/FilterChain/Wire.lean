import FilterChain.Run

/-!
# Wire forms

The JSON values by which steps, records of steps, log entries, requests and responses travel. Their
fields always stand in the order of declaration.
-/

namespace FilterChain

/-- A request to run a specification on a value. Without one, the default of the service is run. -/
structure ApplyRequest where
  filter? : Option String
  value : Value
  trace : Bool
  deriving DecidableEq, Repr

/-- The answer to a request that succeeded. -/
structure ApplyResponse where
  requestId : String
  status : String
  filter : String
  result : Value
  trace? : Option (List StepRecord)
  deriving DecidableEq, Repr

def Value.ofTexts (texts : List String) : Value :=
  .list (texts.map .text)

def Value.ofNat (n : Nat) : Value :=
  .number (.whole n)

def Value.ofText? (text? : Option String) : Value :=
  text?.elim .null .text

def Step.toValue (step : Step) : Value :=
  .record [("name", .text step.name), ("args", .ofTexts step.args)]

def Chain.toValue (chain : Chain) : Value :=
  .record [("steps", .list (chain.steps.map Step.toValue))]

def StepRecord.toValue (record : StepRecord) : Value :=
  .record
    [("index", .ofNat record.index), ("name", .text record.name),
      ("args", .ofTexts record.args), ("input", record.input), ("output", record.output)]

namespace Log

def Level.name : Level → String
  | .info => "info"
  | .success => "success"
  | .warning => "warning"
  | .error => "error"

def Level.ofName? (name : String) : Option Level :=
  [Level.info, .success, .warning, .error].find? (·.name = name)

def Entry.toValue (entry : Entry) : Value :=
  .record
    [("level", .text entry.level.name), ("message", .text entry.message),
      ("indent", .ofNat entry.indent.toNat)]

end Log

def ApplyRequest.toValue (request : ApplyRequest) : Value :=
  .record
    [("filter", .ofText? request.filter?), ("value", request.value),
      ("trace", .bool request.trace)]

namespace ApplyResponse

def ofResult (requestId filter : String) (result : Value) (trace? : Option (List StepRecord)) :
    ApplyResponse :=
  ⟨requestId, "ok", filter, result, trace?⟩

def toValue (response : ApplyResponse) : Value :=
  .record <|
    [("requestId", .text response.requestId), ("status", .text response.status),
      ("filter", .text response.filter), ("result", response.result)] ++
    match response.trace? with
    | some records => [("trace", .list (records.map StepRecord.toValue))]
    | none => []

end ApplyResponse

def failureValue (requestId kind message : String) : Value :=
  .record
    [("requestId", .text requestId), ("status", .text "error"), ("kind", .text kind),
      ("error", .text message)]

def Param.toValue (param : Param) : Value :=
  .record [("name", .text param.name), ("default", .ofText? param.default?)]

def Operation.toValue (operation : Operation) : Value :=
  .record
    [("name", .text operation.name),
      ("params", .list (operation.signature.params.map Param.toValue)),
      ("description", .text operation.description)]

namespace Registry

def describe (registry : Registry) : Value :=
  .list (registry.operations.map Operation.toValue)

def listing (registry : Registry) : Value :=
  .record [("count", .ofNat registry.size), ("operations", registry.describe)]

end Registry

end FilterChain
