import FilterChain.Proofs.Operation.Arguments
import FilterChain.Run

/-!
# One step of a run

A step either takes its input to an output or stops with an error, and it enters the body of its
operation if this is known and has its arguments. A run goes on behind a step that takes its input
to an output, and ends at one that stops.
-/

namespace FilterChain

namespace Registry

/-- The operation of a step, called with its arguments, takes one value to the other. -/
def Takes (registry : Registry) (step : Step) (input output : Value) : Prop :=
  ∃ operation, registry.get? step.name = some operation ∧
    operation.call input step.args = .ok output

/-- A step stops if no operation has its name, or if the call of its operation fails. -/
inductive Stops (registry : Registry) (step : Step) (input : Value) : ChainError → Prop where
  | unknown (hget : registry.get? step.name = none) :
      Stops registry step input (.operationNotFound step.name)
  | failed {operation : Operation} {cause : OperationError}
      (hget : registry.get? step.name = some operation)
      (hcall : operation.call input step.args = .error cause) :
      Stops registry step input (.operationFailed step.name cause)

/-- Whether a step enters a body: its name is registered and its required arguments are there. -/
def enters (registry : Registry) (step : Step) : Bool :=
  match registry.get? step.name with
  | some operation => operation.signature.isSupplied step.args
  | none => false

variable {registry : Registry} {step : Step} {operation : Operation}

theorem enters_of_get?_eq_none (h : registry.get? step.name = none) :
    registry.enters step = false := by
  rw [enters, h]

theorem enters_of_get?_eq_some (h : registry.get? step.name = some operation) :
    registry.enters step = operation.signature.isSupplied step.args := by
  rw [enters, h]

theorem takes_iff_of_get? (hget : registry.get? step.name = some operation)
    {input output : Value} :
    registry.Takes step input output ↔ operation.call input step.args = .ok output := by
  rw [Takes, hget]
  constructor
  · rintro ⟨other, hother, hcall⟩
    obtain rfl := Option.some.inj hother
    exact hcall
  · exact fun hcall => ⟨operation, rfl, hcall⟩

theorem takes_unary_iff {name description : String} {body : Value → Except OperationError Value}
    (hget : registry.get? step.name = some (.unary name description body)) {input output : Value} :
    registry.Takes step input output ↔ body input = .ok output := by
  rw [takes_iff_of_get? hget, Operation.call_unary]

theorem takes_or_stops (registry : Registry) (step : Step) (input : Value) :
    (∃ output, registry.Takes step input output) ∨ ∃ e, registry.Stops step input e := by
  cases hget : registry.get? step.name with
  | none => exact Or.inr ⟨_, .unknown hget⟩
  | some operation =>
    cases hcall : operation.call input step.args with
    | error cause => exact Or.inr ⟨_, .failed hget hcall⟩
    | ok output => exact Or.inl ⟨output, operation, hget, hcall⟩

end Registry

namespace Run

variable {registry : Registry} {s : Step} {value output : Value} {e : ChainError}

theorem step_of_takes (h : registry.Takes s value output) :
    step registry s value = ⟨.ok output, warnings s value output, [⟨s.name, s.args, value⟩]⟩ := by
  obtain ⟨operation, hget, hcall⟩ := h
  have hsupplied := Operation.isSupplied_of_call_eq_ok hcall
  rw [Operation.call_of_isSupplied hsupplied] at hcall
  simp only [step, hget, Signature.bind_of_isSupplied hsupplied, hcall]

theorem step_of_stops (h : registry.Stops s value e) :
    step registry s value =
      ⟨.error e, [], if registry.enters s then [⟨s.name, s.args, value⟩] else []⟩ := by
  cases h with
  | unknown hget => simp [step, hget, Registry.enters_of_get?_eq_none hget]
  | @failed operation cause hget hcall =>
    rw [Registry.enters_of_get?_eq_some hget]
    cases hsupplied : operation.signature.isSupplied s.args with
    | true =>
      rw [Operation.call_of_isSupplied hsupplied] at hcall
      simp [step, hget, Signature.bind_of_isSupplied hsupplied, hcall]
    | false =>
      obtain ⟨other, hbind⟩ := Signature.exists_bind_eq_error hsupplied
      rw [Operation.call_of_bind_eq_error hbind] at hcall
      obtain rfl := Except.error.inj hcall
      simp [step, hget, hbind]

theorem plain_cons_of_takes (h : registry.Takes s value output) (rest : List Step) :
    plain registry (s :: rest) value =
      ⟨(plain registry rest output).outcome,
        warnings s value output ++ (plain registry rest output).entries,
        ⟨s.name, s.args, value⟩ :: (plain registry rest output).calls⟩ := by
  rw [plain, step_of_takes h]
  rfl

theorem plain_cons_of_stops (h : registry.Stops s value e) (rest : List Step) :
    plain registry (s :: rest) value =
      ⟨.error e, [.error e.message],
        if registry.enters s then [⟨s.name, s.args, value⟩] else []⟩ := by
  rw [plain, step_of_stops h]
  rfl

theorem traced_cons_of_takes (h : registry.Takes s value output) (index : Nat)
    (rest : List Step) :
    traced registry index (s :: rest) value =
      ⟨(traced registry (index + 1) rest output).outcome.map fun (last, records) =>
          (last, ⟨index, s.name, s.args, value, output⟩ :: records),
        warnings s value output ++
          stepEntry index s value output :: (traced registry (index + 1) rest output).entries,
        ⟨s.name, s.args, value⟩ :: (traced registry (index + 1) rest output).calls⟩ := by
  rw [traced, step_of_takes h]
  rfl

theorem traced_cons_of_stops (h : registry.Stops s value e) (index : Nat) (rest : List Step) :
    traced registry index (s :: rest) value =
      ⟨.error e, [.error s!"step #{index} {e.message}"],
        if registry.enters s then [⟨s.name, s.args, value⟩] else []⟩ := by
  rw [traced, step_of_stops h]
  rfl

end Run

def Report.refused {α : Type} (e : ChainError) : Report α :=
  ⟨.error e, [], []⟩

namespace Registry

variable {spec : String} {steps : List Step} {e : ChainError}

theorem apply_of_parseSpec_ok (h : Step.parseSpec spec = .ok steps) (registry : Registry)
    (value : Value) : registry.apply spec value = Run.plain registry steps value := by
  rw [apply, h]

theorem apply_of_parseSpec_error (h : Step.parseSpec spec = .error e) (registry : Registry)
    (value : Value) : registry.apply spec value = .refused e := by
  rw [apply, h]
  rfl

theorem applyTraced_of_parseSpec_ok (h : Step.parseSpec spec = .ok steps) (registry : Registry)
    (value : Value) : registry.applyTraced spec value = Run.traced registry 0 steps value := by
  rw [applyTraced, h]

theorem applyTraced_of_parseSpec_error (h : Step.parseSpec spec = .error e) (registry : Registry)
    (value : Value) : registry.applyTraced spec value = .refused e := by
  rw [applyTraced, h]
  rfl

end Registry

end FilterChain
