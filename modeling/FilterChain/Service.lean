import FilterChain.Wire.Decoder

/-!
# The service

Runs requests for other programs. A request that names no specification gets the default one, if
the service has one; what a request logs starts and ends with entries of its own.
-/

namespace FilterChain

structure Service where
  registry : Registry
  defaultFilter? : Option String

inductive Reply where
  | done (response : ApplyResponse)
  | refused (kind message : String)
  deriving DecidableEq, Repr

namespace Service

def startEntry (chain : Chain) : Log.Entry :=
  .info s!"apply: {chain.text} ({chain.length} steps)"

def doneEntry (chain : Chain) (result : Value) : Log.Entry :=
  .success s!"apply: {chain.text} -> {result.toText}"

/-- The result of a run, with a trace if one is wanted, and its log entries. -/
def run (service : Service) (chain : Chain) (value : Value) (trace : Bool) :
    Except ChainError (Value × Option (List StepRecord)) × List Log.Entry :=
  if trace then
    let report := Run.traced service.registry 0 chain.steps value
    (report.outcome.map fun (result, records) => (result, some records), report.entries)
  else
    let report := Run.plain service.registry chain.steps value
    (report.outcome.map fun result => (result, none), report.entries)

def apply (service : Service) (requestId : String) (request : ApplyRequest) :
    Reply × List Log.Entry :=
  match request.filter?.or service.defaultFilter? with
  | none => (.refused "bad_request" "no filter given and no default filter configured", [])
  | some filter =>
    match Chain.parse filter with
    | .error e => (.refused e.kind e.message, [])
    | .ok chain =>
      match service.run chain request.value request.trace with
      | (.error e, entries) => (.refused e.kind e.message, startEntry chain :: entries)
      | (.ok (result, trace?), entries) =>
        (.done (.ofResult requestId filter result trace?),
          startEntry chain :: entries ++ [doneEntry chain result])

end Service

end FilterChain
