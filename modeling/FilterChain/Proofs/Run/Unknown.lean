import FilterChain.Proofs.Registry.Registration
import FilterChain.Proofs.Run.Trace

/-!
# Unknown names

The names in a chain that a registry does not know can be listed before anything runs. If there
are none, a run fails only where an operation does. Otherwise no run succeeds: it gets to the first
unknown name and stops there, or an operation in front of it fails.
-/

namespace FilterChain

namespace Registry

variable {registry : Registry} {steps : List Step}

theorem unknown_eq_map_filter (registry : Registry) (steps : List Step) :
    registry.unknown steps =
      (steps.filter fun s => (registry.get? s.name).isNone).map Step.name := by
  have hcontains : (fun name => !registry.contains name) ∘ Step.name =
      fun s => (registry.get? s.name).isNone :=
    funext fun s => Option.not_isSome (registry.get? s.name)
  rw [unknown, List.filter_map, hcontains]

theorem get?_ne_none_of_unknown_eq_nil (h : registry.unknown steps = []) :
    ∀ s ∈ steps, registry.get? s.name ≠ none := by
  rw [unknown_eq_map_filter, List.map_eq_nil_iff, List.filter_eq_nil_iff] at h
  intro s hs
  simpa using h s hs

theorem exists_first_unknown {name : String} {others : List String}
    (h : registry.unknown steps = name :: others) :
    ∃ front s back, steps = front ++ s :: back ∧
      (∀ t ∈ front, registry.get? t.name ≠ none) ∧ registry.get? s.name = none ∧
        s.name = name := by
  rw [unknown_eq_map_filter, List.map_eq_cons_iff] at h
  obtain ⟨s, rest, hfilter, hname, _⟩ := h
  obtain ⟨front, back, hsplit, hfront, hs, _⟩ := List.filter_eq_cons_iff.mp hfilter
  refine ⟨front, s, back, hsplit, fun t ht => ?_, Option.isNone_iff_eq_none.mp hs, hname⟩
  simpa using hfront t ht

end Registry

namespace Run

/-- One of the steps is reached, and the call of its operation fails. -/
inductive FailsWithin (registry : Registry) (steps : List Step) (value : Value) :
    ChainError → Prop where
  | intro {before after : List Step} {s : Step} {records : List StepRecord} {current : Value}
      {operation : Operation} {cause : OperationError} (hsteps : steps = before ++ s :: after)
      (hreached : IsTrace registry 0 before value records current)
      (hget : registry.get? s.name = some operation)
      (hcall : operation.call current s.args = .error cause) :
      FailsWithin registry steps value (.operationFailed s.name cause)

variable {registry : Registry} {steps : List Step} {value : Value} {e : ChainError}

theorem FailsWithin.ne_operationNotFound (h : FailsWithin registry steps value e) (name : String) :
    e ≠ .operationNotFound name := by
  cases h
  simp

/-- What stands behind a failing step has no influence on the run. -/
theorem FailsWithin.outcomes (h : FailsWithin registry steps value e) (more : List Step) :
    (plain registry (steps ++ more) value).outcome = .error e ∧
      (traced registry 0 (steps ++ more) value).outcome = .error e := by
  cases h with
  | intro hsteps hreached hget hcall =>
    have hstops := Registry.Stops.failed hget hcall
    rw [hsteps, List.append_assoc, List.cons_append, plain_of_stops hreached hstops,
      traced_of_stops hreached hstops]
    exact ⟨rfl, rfl⟩

theorem exists_isTrace_or_failsWithin
    (h : ∀ s ∈ steps, registry.get? s.name ≠ none) (value : Value) :
    (∃ records last, IsTrace registry 0 steps value records last) ∨
      ∃ e, FailsWithin registry steps value e := by
  obtain ⟨completed, rest, records, last, rfl, htrace, hhalts⟩ :=
    exists_isTrace registry 0 steps value
  cases rest with
  | nil =>
    rw [List.append_nil]
    exact Or.inl ⟨records, last, htrace⟩
  | cons s rest =>
    have hknown : registry.get? s.name ≠ none :=
      h s (List.mem_append_right _ List.mem_cons_self)
    obtain ⟨e, hstops⟩ := hhalts s rfl
    cases hstops with
    | unknown hget => exact absurd hget hknown
    | failed hget hcall => exact Or.inr ⟨_, .intro rfl htrace hget hcall⟩

theorem outcomes_ne_operationNotFound (h : ∀ s ∈ steps, registry.get? s.name ≠ none)
    (value : Value) (name : String) :
    (plain registry steps value).outcome ≠ .error (.operationNotFound name) ∧
      (traced registry 0 steps value).outcome ≠ .error (.operationNotFound name) := by
  rcases exists_isTrace_or_failsWithin h value with ⟨records, last, htrace⟩ | ⟨e, hfails⟩
  · rw [plain_of_isTrace htrace, traced_of_isTrace htrace]
    exact ⟨nofun, nofun⟩
  · -- Nothing stands behind the steps here, so their failure is the outcome.
    have houtcomes := hfails.outcomes []
    rw [List.append_nil] at houtcomes
    have hne := hfails.ne_operationNotFound name
    rw [houtcomes.1, houtcomes.2]
    exact ⟨fun h => hne (Except.error.inj h), fun h => hne (Except.error.inj h)⟩

theorem exists_outcomes_of_unknown {front : List Step} {s : Step}
    (hfront : ∀ t ∈ front, registry.get? t.name ≠ none) (hs : registry.get? s.name = none)
    (back : List Step) (value : Value) :
    ∃ e, (plain registry (front ++ s :: back) value).outcome = .error e ∧
      (traced registry 0 (front ++ s :: back) value).outcome = .error e ∧
      (e = .operationNotFound s.name ∨ FailsWithin registry front value e) := by
  rcases exists_isTrace_or_failsWithin hfront value with ⟨records, last, htrace⟩ | ⟨e, hfails⟩
  · refine ⟨_, ?_, ?_, Or.inl rfl⟩
    · rw [plain_of_stops htrace (.unknown hs)]
    · rw [traced_of_stops htrace (.unknown hs)]
  · have houtcomes := hfails.outcomes (s :: back)
    exact ⟨e, houtcomes.1, houtcomes.2, Or.inr hfails⟩

/-- The unknown names of a chain foretell its runs on any value. Without one, no run reports an
unknown name. With one, no run succeeds, and it reports the first of them or the failure of an
operation in front of it. -/
theorem unknown_foretells_outcome (registry : Registry) (chain : Chain) (value : Value) :
    registry.unknown chain.steps =
      (chain.steps.filter fun s => (registry.get? s.name).isNone).map Step.name ∧
    (registry.unknown chain.steps = [] → ∀ name,
      (plain registry chain.steps value).outcome ≠ .error (.operationNotFound name) ∧
        (traced registry 0 chain.steps value).outcome ≠ .error (.operationNotFound name)) ∧
    ∀ name others, registry.unknown chain.steps = name :: others →
      ∃ front s back e, chain.steps = front ++ s :: back ∧
        (∀ t ∈ front, registry.get? t.name ≠ none) ∧ registry.get? s.name = none ∧
        s.name = name ∧ (plain registry chain.steps value).outcome = .error e ∧
        (traced registry 0 chain.steps value).outcome = .error e ∧
        (e = .operationNotFound name ∨ FailsWithin registry front value e) := by
  refine ⟨registry.unknown_eq_map_filter chain.steps, ?_, ?_⟩
  · intro hnone
    exact outcomes_ne_operationNotFound (Registry.get?_ne_none_of_unknown_eq_nil hnone) value
  · intro name others hunknown
    obtain ⟨front, s, back, hsplit, hfront, hs, rfl⟩ := Registry.exists_first_unknown hunknown
    obtain ⟨e, hplain, htraced, he⟩ := exists_outcomes_of_unknown hfront hs back value
    rw [← hsplit] at hplain htraced
    exact ⟨front, s, back, e, hsplit, hfront, hs, rfl, hplain, htraced, he⟩

theorem unknown_foretells_outcome_two_unknown :
    Registry.builtin.unknown [⟨"decimal", []⟩, ⟨"foo", []⟩, ⟨"bar", ["1"]⟩] = ["foo", "bar"] ∧
      (∃ front e, (plain Registry.builtin [⟨"decimal", []⟩, ⟨"foo", []⟩, ⟨"bar", ["1"]⟩]
          (.text "x")).outcome = .error e ∧
        (e = .operationNotFound "foo" ∨ FailsWithin Registry.builtin front (.text "x") e)) ∧
      Registry.builtin.unknown [⟨"decimal", []⟩] = [] ∧
      (plain Registry.builtin [⟨"decimal", []⟩] (.text "x")).outcome ≠
        .error (.operationNotFound "decimal") := by
  have hforetold := unknown_foretells_outcome Registry.builtin
    ⟨[⟨"decimal", []⟩, ⟨"foo", []⟩, ⟨"bar", ["1"]⟩], by decide, by decide⟩ (.text "x")
  obtain ⟨front, _, _, e, _, _, _, _, hplain, _, he⟩ := hforetold.2.2 "foo" ["bar"] (by decide)
  have hknown := unknown_foretells_outcome Registry.builtin
    ⟨[⟨"decimal", []⟩], by decide, by decide⟩ (.text "x")
  exact ⟨by decide, ⟨front, e, hplain, he⟩, by decide, (hknown.2.1 (by decide) "decimal").1⟩

end Run

end FilterChain
