import FilterChain.Proofs.Run.Step
import FilterChain.Proofs.Step.Joining

/-!
# Runs one after another

Running the steps of one list and then, from the result, those of another is running the two lists
as one. Log entries and calls of the first run stand before those of the second, which is left out
if the first run fails. In a traced run the second half is numbered on from the first.
-/

namespace FilterChain

def StepRecord.behind (count : Nat) (record : StepRecord) : StepRecord :=
  { record with index := record.index + count }

namespace Report

variable {α β : Type}

def map (f : α → β) (report : Report α) : Report β :=
  ⟨report.outcome.map f, report.entries, report.calls⟩

/-- A report and, if it is a success, the next report behind it. -/
def andThen (report : Report α) (next : α → Report β) : Report β :=
  match report.outcome with
  | .error e => ⟨.error e, report.entries, report.calls⟩
  | .ok a =>
    ⟨(next a).outcome, report.entries ++ (next a).entries, report.calls ++ (next a).calls⟩

theorem map_eq_self {f : α → α} (h : ∀ a, f a = a) (report : Report α) : report.map f = report := by
  obtain ⟨outcome, entries, calls⟩ := report
  cases outcome with
  | error e => rfl
  | ok a => simp [map, Except.map, h]

theorem success_andThen (a : α) (next : α → Report β) :
    (Report.mk (.ok a) [] []).andThen next = next a :=
  rfl

end Report

namespace Run

theorem plain_append (registry : Registry) (front back : List Step) (value : Value) :
    plain registry (front ++ back) value =
      (plain registry front value).andThen (plain registry back) := by
  induction front generalizing value with
  | nil => rfl
  | cons s front ih =>
    rcases registry.takes_or_stops s value with ⟨output, htakes⟩ | ⟨e, hstops⟩
    · rw [List.cons_append, plain_cons_of_takes htakes, plain_cons_of_takes htakes, ih]
      cases houtcome : (plain registry front output).outcome <;>
        simp [Report.andThen, houtcome]
    · rw [List.cons_append, plain_cons_of_stops hstops, plain_cons_of_stops hstops]
      rfl

theorem traced_append (registry : Registry) (index : Nat) (front back : List Step)
    (value : Value) :
    traced registry index (front ++ back) value =
      (traced registry index front value).andThen fun (middle, records) =>
        (traced registry (index + front.length) back middle).map fun (last, more) =>
          (last, records ++ more) := by
  induction front generalizing index value with
  | nil =>
    rw [List.nil_append, traced, Report.success_andThen]
    exact (Report.map_eq_self (fun _ => rfl) _).symm
  | cons s front ih =>
    have hlength : index + 1 + front.length = index + (s :: front).length := by
      rw [List.length_cons]
      omega
    rcases registry.takes_or_stops s value with ⟨output, htakes⟩ | ⟨e, hstops⟩
    · rw [List.cons_append, traced_cons_of_takes htakes, traced_cons_of_takes htakes, ih, hlength]
      cases houtcome : (traced registry (index + 1) front output).outcome with
      | error e => simp [Report.andThen, houtcome, Except.map]
      | ok result =>
        cases hback : (traced registry (index + (s :: front).length) back result.1).outcome <;>
          simp_all [Report.andThen, Report.map, Except.map]
    · rw [List.cons_append, traced_cons_of_stops hstops, traced_cons_of_stops hstops]
      rfl

/-- A run that is numbered from later on has the same outcome, but for the numbers. -/
theorem outcome_traced_add (registry : Registry) (index count : Nat) (steps : List Step)
    (value : Value) :
    (traced registry (index + count) steps value).outcome =
      (traced registry index steps value).outcome.map fun (last, records) =>
        (last, records.map (·.behind count)) := by
  induction steps generalizing index value with
  | nil => rfl
  | cons s steps ih =>
    rcases registry.takes_or_stops s value with ⟨output, htakes⟩ | ⟨e, hstops⟩
    · rw [traced_cons_of_takes htakes, traced_cons_of_takes htakes, Nat.add_right_comm, ih]
      cases (traced registry (index + 1) steps output).outcome <;> rfl
    · rw [traced_cons_of_stops hstops, traced_cons_of_stops hstops]
      rfl

theorem outcome_traced_append (registry : Registry) (front back : List Step) (value : Value) :
    (traced registry 0 (front ++ back) value).outcome = do
      let (middle, records) ← (traced registry 0 front value).outcome
      let (last, more) ← (traced registry 0 back middle).outcome
      return (last, records ++ more.map (·.behind front.length)) := by
  rw [traced_append, Report.andThen]
  cases (traced registry 0 front value).outcome with
  | error e => rfl
  | ok result =>
    have hbehind := outcome_traced_add registry 0 front.length back result.1
    show ((traced registry (0 + front.length) back result.1).outcome.map fun (last, more) =>
      (last, result.2 ++ more)) =
        (traced registry 0 back result.1).outcome.bind fun (last, more) =>
          .ok (last, result.2 ++ more.map (·.behind front.length))
    rw [hbehind]
    cases (traced registry 0 back result.1).outcome <;> rfl

end Run

namespace Registry

/-- A bar between two specifications composes them: the fault of the first comes first, then that
of the second at its place behind the first, and without a fault the second runs on the result of
the first, with its entries, its calls and its renumbered records behind those of the first. -/
theorem apply_join (registry : Registry) (s₁ s₂ : String) (value : Value) :
    (∀ e, Step.parseSpec s₁ = .error e →
      registry.apply (s₁ ++ "|" ++ s₂) value = .refused e ∧
        registry.applyTraced (s₁ ++ "|" ++ s₂) value = .refused e) ∧
    (∀ first e, Step.parseSpec s₁ = .ok first → Step.parseSpec s₂ = .error e →
      ∃ position token, e = .malformedStep position token ∧
        registry.apply (s₁ ++ "|" ++ s₂) value =
          .refused (.malformedStep (position + first.length) token) ∧
        registry.applyTraced (s₁ ++ "|" ++ s₂) value =
          .refused (.malformedStep (position + first.length) token)) ∧
    ∀ first second, Step.parseSpec s₁ = .ok first → Step.parseSpec s₂ = .ok second →
      registry.apply (s₁ ++ "|" ++ s₂) value =
        (registry.apply s₁ value).andThen (registry.apply s₂) ∧
      (registry.applyTraced (s₁ ++ "|" ++ s₂) value).outcome = (do
        let (middle, records) ← (registry.applyTraced s₁ value).outcome
        let (last, more) ← (registry.applyTraced s₂ middle).outcome
        return (last, records ++ more.map (·.behind first.length))) ∧
      registry.applyTraced (s₁ ++ "|" ++ s₂) value =
        (registry.applyTraced s₁ value).andThen fun (middle, records) =>
          (Run.traced registry first.length second middle).map fun (last, more) =>
            (last, records ++ more) := by
  have hjoin := Step.parseSpec_join s₁ s₂
  refine ⟨?_, ?_, ?_⟩
  · intro e hfirst
    rw [hfirst] at hjoin
    exact ⟨apply_of_parseSpec_error hjoin registry value,
      applyTraced_of_parseSpec_error hjoin registry value⟩
  · intro first e hfirst hsecond
    rw [hfirst, hsecond] at hjoin
    rw [Step.parseSpec_eq_parseAll, Step.parseAll_eq_error_iff] at hsecond
    obtain ⟨k, token, _, rfl⟩ := hsecond
    exact ⟨0 + k, token, rfl, apply_of_parseSpec_error hjoin registry value,
      applyTraced_of_parseSpec_error hjoin registry value⟩
  · intro first second hfirst hsecond
    rw [hfirst, hsecond] at hjoin
    refine ⟨?_, ?_, ?_⟩
    · rw [apply_of_parseSpec_ok hjoin, apply_of_parseSpec_ok hfirst, Run.plain_append]
      congr 1
      funext middle
      exact (apply_of_parseSpec_ok hsecond registry middle).symm
    · simp only [applyTraced_of_parseSpec_ok hjoin, applyTraced_of_parseSpec_ok hfirst,
        applyTraced_of_parseSpec_ok hsecond]
      exact Run.outcome_traced_append registry first second value
    · rw [applyTraced_of_parseSpec_ok hjoin, applyTraced_of_parseSpec_ok hfirst, Run.traced_append,
        Nat.zero_add]

theorem apply_join_builtin :
    builtin.apply ("trim||digitos" ++ "|" ++ ":x") (.text " 1a23 ") =
        .refused (.malformedStep 1 "") ∧
      builtin.apply ("trim|digitos" ++ "|" ++ "limitar:2|:x") (.text " 1a23 ") =
        .refused (.malformedStep 3 ":x") ∧
      builtin.apply ("trim|digitos" ++ "|" ++ "limitar:2") (.text " 1a23 ") =
        (builtin.apply "trim|digitos" (.text " 1a23 ")).andThen (builtin.apply "limitar:2") := by
  refine ⟨((apply_join builtin _ _ _).1 _ rfl).1, ?_,
    ((apply_join builtin _ _ _).2.2 _ _ rfl rfl).1⟩
  obtain ⟨position, token, he, happly, _⟩ :=
    (apply_join builtin "trim|digitos" "limitar:2|:x" (.text " 1a23 ")).2.1 _ _ rfl rfl
  obtain ⟨rfl, rfl⟩ := ChainError.malformedStep.inj he
  exact happly

end Registry

end FilterChain
