import FilterChain.Chain
import FilterChain.Log
import FilterChain.Registry
import FilterChain.Value.Writer

/-!
# Runs

A run takes a value through the steps of a chain, from left to right, and stops at the first step
that fails. Its report holds the outcome, the log entries and the bodies of operations that were
entered. A traced run also records what every step received and returned.
-/

namespace FilterChain

structure Call where
  name : String
  args : List String
  input : Value
  deriving DecidableEq, Repr

structure StepRecord where
  index : Nat
  name : String
  args : List String
  input : Value
  output : Value
  deriving DecidableEq, Repr

structure Report (α : Type) where
  outcome : Except ChainError α
  entries : List Log.Entry
  calls : List Call

namespace Run

/-- Null and blank texts, whose becoming null is worth no warning. -/
def isBlank : Value → Bool
  | .null => true
  | .text s => Text.trimBy Text.isBlank s.toList = []
  | _ => false

def warnings (step : Step) (input output : Value) : List Log.Entry :=
  if output = .null ∧ !isBlank input then
    [.warning s!"{step.name}: {input.toText} became null"]
  else []

def step (registry : Registry) (step : Step) (input : Value) : Report Value :=
  match registry.get? step.name with
  | none => ⟨.error (.operationNotFound step.name), [], []⟩
  | some operation =>
    match operation.signature.bind step.args with
    | .error cause => ⟨.error (.operationFailed step.name cause), [], []⟩
    | .ok args =>
      let call : Call := ⟨step.name, step.args, input⟩
      match operation.body input args with
      | .error cause => ⟨.error (.operationFailed step.name cause), [], [call]⟩
      | .ok output => ⟨.ok output, warnings step input output, [call]⟩

def plain (registry : Registry) : List Step → Value → Report Value
  | [], value => ⟨.ok value, [], []⟩
  | s :: steps, value =>
    let here := step registry s value
    match here.outcome with
    | .error e => ⟨.error e, here.entries ++ [.error e.message], here.calls⟩
    | .ok output =>
      let rest := plain registry steps output
      ⟨rest.outcome, here.entries ++ rest.entries, here.calls ++ rest.calls⟩

def stepEntry (index : Nat) (step : Step) (input output : Value) : Log.Entry :=
  .infoAt s!"#{index} {step.text}: {input.toText} -> {output.toText}" 1

/-- Runs steps one after the other, with a record of each; the first one has number `index`. -/
def traced (registry : Registry) :
    (index : Nat) → List Step → Value → Report (Value × List StepRecord)
  | _, [], value => ⟨.ok (value, []), [], []⟩
  | index, s :: steps, value =>
    let here := step registry s value
    match here.outcome with
    | .error e =>
      ⟨.error e, here.entries ++ [.error s!"step #{index} {e.message}"], here.calls⟩
    | .ok output =>
      let rest := traced registry (index + 1) steps output
      let record : StepRecord := ⟨index, s.name, s.args, value, output⟩
      ⟨rest.outcome.map fun (last, records) => (last, record :: records),
        here.entries ++ stepEntry index s value output :: rest.entries, here.calls ++ rest.calls⟩

end Run

namespace Registry

/-- Runs a specification on a value. A malformed one runs nothing and logs nothing. -/
def apply (registry : Registry) (spec : String) (value : Value) : Report Value :=
  match Step.parseSpec spec with
  | .error e => ⟨.error e, [], []⟩
  | .ok steps => Run.plain registry steps value

def applyTraced (registry : Registry) (spec : String) (value : Value) :
    Report (Value × List StepRecord) :=
  match Step.parseSpec spec with
  | .error e => ⟨.error e, [], []⟩
  | .ok steps => Run.traced registry 0 steps value

end Registry

end FilterChain
