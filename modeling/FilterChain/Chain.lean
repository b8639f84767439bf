import FilterChain.Step

/-!
# Chains

A chain is a list of steps that has at least one step and only usable names, whether it is read
from a specification or put together from steps.
-/

namespace FilterChain

structure Chain where
  steps : List Step
  ne_nil : steps ≠ []
  usable : ∀ step ∈ steps, isUsableName step.name = true
  deriving DecidableEq, Repr

namespace Chain

def parse (spec : String) : Except ChainError Chain :=
  match h : Step.parseSpec spec with
  | .error fault => .error fault
  | .ok steps =>
    .ok ⟨steps, Step.ne_nil_of_parseSpec h, Step.isUsableName_of_parseSpec h⟩

theorem map_steps_parse (spec : String) :
    (parse spec).map Chain.steps = Step.parseSpec spec := by
  unfold parse
  split
  · next h => exact h.symm
  · next h => exact h.symm

/-- The fault of the first step with an unusable name, where the first one stands at `position`. -/
def firstFault? (position : Nat) : List Step → Option ChainError
  | [] => none
  | step :: steps =>
    if isUsableName step.name then firstFault? (position + 1) steps
    else some (.malformedStep position step.text)

theorem firstFault?_eq_none_iff {position : Nat} {steps : List Step} :
    firstFault? position steps = none ↔ ∀ step ∈ steps, isUsableName step.name = true := by
  induction steps generalizing position with
  | nil => simp [firstFault?]
  | cons step steps ih =>
    unfold firstFault?
    split
    · next h => simp [h, ih]
    · next h => simp [h]

def ofSteps (steps : List Step) : Except ChainError Chain :=
  if hne : steps = [] then .error (.malformedStep 0 "")
  else
    match h : firstFault? 0 steps with
    | some fault => .error fault
    | none => .ok ⟨steps, hne, firstFault?_eq_none_iff.mp h⟩

def length (chain : Chain) : Nat :=
  chain.steps.length

def isEmpty (chain : Chain) : Bool :=
  chain.steps.isEmpty

def text (chain : Chain) : String :=
  Step.specText chain.steps

end Chain

end FilterChain
