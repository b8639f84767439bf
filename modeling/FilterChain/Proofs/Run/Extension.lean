import FilterChain.Proofs.Registry.Registration
import FilterChain.Proofs.Run.Trace

/-!
# Runs on a registry that grows

A registry extends another one if it finds all that the other finds. Steps that take their input to
an output do the same on the larger registry, and so do those that stop, unless they stop for want
of a name that is found there. So a run is the same on both, up to its last log entry, if it does
not end at a name that only the larger registry knows.
-/

namespace FilterChain

namespace Registry

def Extends (registry smaller : Registry) : Prop :=
  ∀ name operation, smaller.get? name = some operation → registry.get? name = some operation

variable {registry grown : Registry} {operation : Operation} {s : Step} {value output : Value}
  {e : ChainError} {spec name : String}

theorem extends_of_register (h : registry.register operation = .ok grown) :
    grown.Extends registry := by
  obtain ⟨_, hnew, rfl⟩ := register_eq_ok_iff.mp h
  exact fun _ _ hget => get?_put_of_new hnew hget

theorem Extends.takes (h : grown.Extends registry) (htakes : registry.Takes s value output) :
    grown.Takes s value output := by
  obtain ⟨operation, hget, hcall⟩ := htakes
  exact ⟨operation, h s.name operation hget, hcall⟩

theorem Extends.stops (h : grown.Extends registry) (hstops : registry.Stops s value e)
    (hunknown : ∀ name, e = .operationNotFound name → grown.get? name = none) :
    grown.Stops s value e ∧ grown.enters s = registry.enters s := by
  cases hstops with
  | unknown hget =>
    have hgrown := hunknown s.name rfl
    exact ⟨.unknown hgrown, by rw [enters_of_get?_eq_none hgrown, enters_of_get?_eq_none hget]⟩
  | failed hget hcall =>
    have hgrown := h s.name _ hget
    exact ⟨.failed hgrown hcall,
      by rw [enters_of_get?_eq_some hgrown, enters_of_get?_eq_some hget]⟩

end Registry

namespace Run

variable {registry grown : Registry} {start : Nat} {steps : List Step} {value last : Value}
  {records : List StepRecord} {name : String}

theorem IsTrace.of_extends (h : grown.Extends registry)
    (htrace : IsTrace registry start steps value records last) :
    IsTrace grown start steps value records last :=
  { htrace with taken := fun record hrecord => h.takes (htrace.taken record hrecord) }

/-- A run that ends at no name but those that the larger registry does not know either is the same
on it, with its entries, its calls and its records. -/
theorem eq_of_extends (h : grown.Extends registry) (start : Nat)
    (hunknown : ∀ name, (plain registry steps value).outcome = .error (.operationNotFound name) →
      grown.get? name = none) :
    plain grown steps value = plain registry steps value ∧
      traced grown start steps value = traced registry start steps value := by
  obtain ⟨completed, rest, records, last, rfl, htrace, hhalts⟩ :=
    exists_isTrace registry start steps value
  have hgrown := htrace.of_extends h
  cases rest with
  | nil =>
    rw [List.append_nil, plain_of_isTrace htrace, plain_of_isTrace hgrown,
      traced_of_isTrace htrace, traced_of_isTrace hgrown]
    exact ⟨rfl, rfl⟩
  | cons s rest =>
    obtain ⟨e, hstops⟩ := hhalts s rfl
    rw [plain_of_stops htrace hstops] at hunknown
    obtain ⟨hstopsGrown, henters⟩ :=
      h.stops hstops fun name hname => hunknown name (congrArg Except.error hname)
    rw [plain_of_stops htrace hstops, plain_of_stops hgrown hstopsGrown,
      traced_of_stops htrace hstops, traced_of_stops hgrown hstopsGrown, henters]
    exact ⟨rfl, rfl⟩

theorem get?_eq_none_of_outcome
    (h : (plain registry steps value).outcome = .error (.operationNotFound name)) :
    registry.get? name = none := by
  obtain ⟨completed, rest, records, last, rfl, htrace, hhalts⟩ :=
    exists_isTrace registry 0 steps value
  cases rest with
  | nil =>
    rw [List.append_nil, plain_of_isTrace htrace] at h
    cases h
  | cons s rest =>
    obtain ⟨e, hstops⟩ := hhalts s rfl
    rw [plain_of_stops htrace hstops] at h
    obtain rfl := Except.error.inj h
    cases hstops with
    | unknown hget => exact hget

end Run

namespace Registry

variable {registry grown : Registry} {operation : Operation} {value : Value} {e : ChainError}
  {spec name : String}

theorem outcome_applyTraced_eq_error_iff :
    (registry.applyTraced spec value).outcome = .error e ↔
      (registry.apply spec value).outcome = .error e := by
  cases hspec : Step.parseSpec spec with
  | error fault =>
    rw [apply_of_parseSpec_error hspec, applyTraced_of_parseSpec_error hspec]
    simp [Report.refused]
  | ok steps =>
    rw [apply_of_parseSpec_ok hspec, applyTraced_of_parseSpec_ok hspec]
    exact Run.outcome_traced_eq_error_iff

theorem Extends.apply_eq (h : grown.Extends registry)
    (hunknown : ∀ name, (registry.apply spec value).outcome = .error (.operationNotFound name) →
      grown.get? name = none) :
    grown.apply spec value = registry.apply spec value ∧
      grown.applyTraced spec value = registry.applyTraced spec value := by
  cases hspec : Step.parseSpec spec with
  | error fault =>
    simp only [apply_of_parseSpec_error hspec, applyTraced_of_parseSpec_error hspec, and_self]
  | ok steps =>
    rw [apply_of_parseSpec_ok hspec] at hunknown
    simp only [apply_of_parseSpec_ok hspec, applyTraced_of_parseSpec_ok hspec]
    exact Run.eq_of_extends h 0 hunknown

theorem get?_eq_none_of_outcome_apply
    (h : (registry.apply spec value).outcome = .error (.operationNotFound name)) :
    registry.get? name = none := by
  cases hspec : Step.parseSpec spec with
  | error fault =>
    rw [apply_of_parseSpec_error hspec] at h
    obtain rfl := Except.error.inj h
    rw [Step.parseSpec_eq_parseAll, Step.parseAll_eq_error_iff] at hspec
    obtain ⟨_, _, _, hfault⟩ := hspec
    cases hfault
  | ok steps =>
    rw [apply_of_parseSpec_ok hspec] at h
    exact Run.get?_eq_none_of_outcome h

/-- Where a name is added to a registry, the runs that change are those that stopped for want of
this name, and no others. All others have the same outcome, log entries, calls and records. -/
theorem extension_is_conservative (h : registry.register operation = .ok grown) (spec : String)
    (value : Value) :
    (grown.apply spec value = registry.apply spec value ↔
      (registry.apply spec value).outcome ≠ .error (.operationNotFound operation.name)) ∧
    (grown.applyTraced spec value = registry.applyTraced spec value ↔
      (registry.applyTraced spec value).outcome ≠
        .error (.operationNotFound operation.name)) := by
  obtain ⟨_, _, hgrown⟩ := register_eq_ok_iff.mp h
  have hunchanged (hother : (registry.apply spec value).outcome ≠
      .error (.operationNotFound operation.name)) :
      grown.apply spec value = registry.apply spec value ∧
        grown.applyTraced spec value = registry.applyTraced spec value := by
    refine (extends_of_register h).apply_eq fun name houtcome => ?_
    have hne : operation.name ≠ name := by
      rintro rfl
      exact hother houtcome
    rw [hgrown, get?_put, if_neg hne]
    exact get?_eq_none_of_outcome_apply houtcome
  -- The larger registry knows the name, so no run on it stops for want of it.
  have hfound : (grown.apply spec value).outcome ≠ .error (.operationNotFound operation.name) := by
    intro houtcome
    have hnone := get?_eq_none_of_outcome_apply houtcome
    rw [hgrown, get?_put, if_pos rfl] at hnone
    cases hnone
  refine ⟨⟨fun hsame => ?_, fun hother => (hunchanged hother).1⟩,
    ⟨fun hsame => ?_, fun hother => (hunchanged ?_).2⟩⟩
  · rwa [← hsame]
  · rwa [← hsame, ne_eq, outcome_applyTraced_eq_error_iff]
  · rwa [ne_eq, ← outcome_applyTraced_eq_error_iff]

/-- An operation behind a step that fails changes nothing, and one that a run stopped for does. -/
theorem extension_is_conservative_failing_step :
    ∃ grown, builtin.register (.unary "novo" "" .ok) = .ok grown ∧
      grown.apply "trim|limitar:x|novo" (.text " a ") =
        builtin.apply "trim|limitar:x|novo" (.text " a ") ∧
      grown.applyTraced "trim|novo" (.text " a ") ≠
        builtin.applyTraced "trim|novo" (.text " a ") := by
  have hregister : builtin.register (.unary "novo" "" .ok) =
      .ok (builtin.put (.unary "novo" "" .ok)) :=
    register_eq_ok_iff.mpr ⟨by decide, by decide, rfl⟩
  have hfailing := extension_is_conservative hregister "trim|limitar:x|novo" (.text " a ")
  have hmissing := extension_is_conservative hregister "trim|novo" (.text " a ")
  refine ⟨_, hregister, hfailing.1.mpr (by decide), fun hsame => ?_⟩
  exact hmissing.2.mp hsame rfl

end Registry

end FilterChain
