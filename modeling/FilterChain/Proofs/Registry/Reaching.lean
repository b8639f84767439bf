import FilterChain.Proofs.Registry.Registration
import FilterChain.Proofs.Run.Step
import FilterChain.Proofs.Step.Printing
import Mathlib.Tactic.TFAE

/-!
# Operations in reach of texts

The reader of specifications, the check of operations and the check of steps put together by hand
have the same idea of a usable name. So every operation that is registered can be called by a text:
a step with its name prints, reads back and gets to it, whatever its arguments are, as long as they
hold no bar and no comma.
-/

namespace FilterChain

namespace Step

theorem specText_singleton (step : Step) : specText [step] = step.text :=
  String.ofList_toList

theorem parseSpec_text {step : Step} (hname : ¬ IsUnusableName step.name)
    (hargs : step.HasPlainArgs) : parseSpec step.text = .ok [step] := by
  rw [← specText_singleton, parseSpec_specText_iff (List.cons_ne_nil step [])]
  · simpa using hargs
  · simpa using hname

end Step

namespace Run

theorem outcome_plain_singleton {registry : Registry} {s : Step} {operation : Operation}
    (h : registry.get? s.name = some operation) (value : Value) :
    (plain registry [s] value).outcome =
      (operation.call value s.args).mapError (.operationFailed s.name) := by
  cases hcall : operation.call value s.args with
  | error cause => rw [plain_cons_of_stops (.failed h hcall), Except.mapError]
  | ok output => rw [plain_cons_of_takes ⟨operation, h, hcall⟩, plain, Except.mapError]

end Run

namespace Registry

variable {registry : Registry} {operation : Operation} {args : List String} {name : String}

theorem exists_parseSpec_iff :
    (∃ spec steps, Step.parseSpec spec = .ok steps ∧ ∃ step ∈ steps, step.name = name) ↔
      ¬ IsUnusableName name := by
  constructor
  · rintro ⟨spec, steps, hparse, step, hstep, rfl⟩
    exact isUsableName_eq_true_iff.mp (Step.isUsableName_of_parseSpec hparse step hstep)
  · intro hname
    -- The name alone is a specification of one step.
    have hargs : Step.HasPlainArgs ⟨name, []⟩ := nofun
    exact ⟨_, _, Step.parseSpec_text hname hargs, _, List.mem_cons_self, rfl⟩

theorem exists_ofSteps_singleton_iff (args : List String) :
    (∃ chain, Chain.ofSteps [⟨name, args⟩] = .ok chain) ↔ ¬ IsUnusableName name := by
  constructor
  · rintro ⟨chain, hchain⟩
    have husable := chain.usable ⟨name, args⟩
    rw [Chain.ofSteps_eq_ok_iff.mp hchain] at husable
    exact isUsableName_eq_true_iff.mp (husable List.mem_cons_self)
  · intro hname
    refine ⟨⟨[⟨name, args⟩], List.cons_ne_nil _ _, fun step hstep => ?_⟩, ?_⟩
    · obtain rfl := List.mem_singleton.mp hstep
      exact isUsableName_eq_true_iff.mpr hname
    · exact Chain.ofSteps_eq_ok_iff.mpr rfl

/-- A name can be read in a specification, registered, and put into a chain by hand under the same
condition, which neither parameters nor arguments have a part in. -/
theorem usable_name_tfae (name : String) :
    [¬ IsUnusableName name,
      ∃ spec steps, Step.parseSpec spec = .ok steps ∧ ∃ step ∈ steps, step.name = name,
      ∀ operation : Operation, operation.name = name →
        operation.signature.validate name = .ok () → operation.validate = .ok (),
      ∃ operation : Operation, operation.name = name ∧ operation.validate = .ok (),
      ∀ args, ∃ chain, Chain.ofSteps [⟨name, args⟩] = .ok chain,
      ∃ args chain, Chain.ofSteps [⟨name, args⟩] = .ok chain].TFAE := by
  tfae_have 1 ↔ 2 := exists_parseSpec_iff.symm
  tfae_have 1 → 3 := by
    rintro hname operation rfl hsignature
    exact Operation.validate_eq_ok_iff.mpr ⟨hname, Signature.isOrdered_of_validate hsignature⟩
  tfae_have 3 → 4 := by
    intro h
    have hvalid := h (.unary name "" .ok) rfl rfl
    exact ⟨_, rfl, hvalid⟩
  tfae_have 4 → 1 := by
    rintro ⟨operation, rfl, hvalid⟩
    exact (Operation.validate_eq_ok_iff.mp hvalid).1
  tfae_have 1 → 5 := fun hname args => (exists_ofSteps_singleton_iff args).mpr hname
  tfae_have 5 → 6 := fun h => ⟨[], h []⟩
  tfae_have 6 → 1 := fun ⟨args, h⟩ => (exists_ofSteps_singleton_iff args).mp h
  tfae_finish

theorem IsSound.outcome_apply_text (h : registry.IsSound) (hmem : operation ∈ registry.operations)
    (hargs : Step.HasPlainArgs ⟨operation.name, args⟩) (value : Value) :
    (registry.apply (Step.text ⟨operation.name, args⟩) value).outcome =
      (operation.call value args).mapError (.operationFailed operation.name) := by
  have hparse := Step.parseSpec_text (h.usable operation hmem) hargs
  have hget := (h.keyed operation.name operation).mpr ⟨hmem, rfl⟩
  rw [apply_of_parseSpec_ok hparse, Run.outcome_plain_singleton hget]

/-- The three checks of a name agree. After any run of registrations on the empty registry or on
the built-in one, applying the text of a step with the name of a stored operation is calling this
operation, and its failure comes back under its name. -/
theorem usable_names_reach_operations {start : Registry}
    (hstart : start = empty ∨ start = builtin) (calls : List Registration) :
    (∀ name,
      [¬ IsUnusableName name,
        ∃ spec steps, Step.parseSpec spec = .ok steps ∧ ∃ step ∈ steps, step.name = name,
        ∀ operation : Operation, operation.name = name →
          operation.signature.validate name = .ok () → operation.validate = .ok (),
        ∃ operation : Operation, operation.name = name ∧ operation.validate = .ok (),
        ∀ args, ∃ chain, Chain.ofSteps [⟨name, args⟩] = .ok chain,
        ∃ args chain, Chain.ofSteps [⟨name, args⟩] = .ok chain].TFAE) ∧
    ∀ operation ∈ (start.afterAll calls).operations, ∀ args : List String,
      (∀ arg ∈ args, '|' ∉ arg.toList ∧ ',' ∉ arg.toList) → ∀ value,
        ((start.afterAll calls).apply (Step.text ⟨operation.name, args⟩) value).outcome =
          (operation.call value args).mapError (.operationFailed operation.name) := by
  refine ⟨usable_name_tfae, ?_⟩
  intro operation hmem args hargs value
  exact (isSound_afterAll hstart calls).outcome_apply_text hmem hargs value

def joiningOperation : Operation :=
  ⟨"junta", ⟨[.required "inicio", .optional "fim" "."]⟩, "",
    fun _ args => .ok (.text (args.get 0 ++ args.get 1))⟩

/-- An empty argument and one with a colon get to a new operation, and so does their absence. -/
theorem usable_names_reach_operations_joining :
    ((builtin.afterAll [.direct joiningOperation]).apply "junta:,a:b" .null).outcome =
      .ok (.text "a:b") ∧
    ((builtin.afterAll [.direct joiningOperation]).apply "junta" .null).outcome =
      .error (.operationFailed "junta" (.missingArgument "inicio" 1)) ∧
    ∃ chain, Chain.ofSteps [⟨"junta", ["a|b"]⟩] = .ok chain := by
  have hreach := usable_names_reach_operations (Or.inr rfl) [.direct joiningOperation]
  have hmem : joiningOperation ∈ (builtin.afterAll [.direct joiningOperation]).operations :=
    ((get?_eq_some_iff _ "junta" joiningOperation).mp rfl).1
  have hcall := hreach.2 joiningOperation hmem
  have hname : ¬ IsUnusableName "junta" := isUsableName_eq_true_iff.mp rfl
  have hchain : ∀ args, ∃ chain, Chain.ofSteps [⟨"junta", args⟩] = .ok chain :=
    ((hreach.1 "junta").out 0 4).mp hname
  exact ⟨hcall ["", "a:b"] (by decide) .null, hcall [] (by decide) .null, hchain ["a|b"]⟩

end Registry

end FilterChain
