import FilterChain.Proofs.Registry.Registration
import FilterChain.Proofs.Run.Trace
import Mathlib.Data.List.Forall2

/-!
# Aliases

An operation can be stored a second time under another name. Steps may then go by either name: the
run takes the same values through the same steps, and stops at the same step with the same cause.
What tells the two apart are the names in its records and in its error, which are those of the
steps that were run.
-/

namespace FilterChain

/-- A step as it was or, if it has the first name, under the second one. -/
def Step.IsRenamed (original other : String) (s t : Step) : Prop :=
  t = s ∨ s.name = original ∧ t = { s with name := other }

/-- The second name stands for a copy of what is stored under the first. -/
def Registry.HoldsAlias (registry : Registry) (original other : String) : Prop :=
  ∃ operation, registry.get? original = some operation ∧
    registry.get? other = some (operation.withName other)

theorem Operation.call_withName (operation : Operation) (name : String) (value : Value)
    (raw : List String) : (operation.withName name).call value raw = operation.call value raw :=
  rfl

namespace Run

/-- Two steps stop for the same reason, each under its own name. -/
inductive IsSameFault (s t : Step) : ChainError → ChainError → Prop where
  | unknown (name : String) : IsSameFault s t (.operationNotFound name) (.operationNotFound name)
  | failed (cause : OperationError) :
      IsSameFault s t (.operationFailed s.name cause) (.operationFailed t.name cause)

/-- Two runs end alike: in results that `rename` takes to each other, or for the same reason at
steps that stand in the same place. -/
inductive EndsAlike {α : Type} (steps others : List Step) (k : Nat) (rename : α → α) :
    Except ChainError α → Except ChainError α → Prop where
  | done (a : α) : EndsAlike steps others k rename (.ok a) (.ok (rename a))
  | stopped {s t : Step} {e f : ChainError} (hs : steps[k]? = some s) (ht : others[k]? = some t)
      (hfault : IsSameFault s t e f) : EndsAlike steps others k rename (.error e) (.error f)

def namedAfter (steps : List Step) (records : List StepRecord) : List StepRecord :=
  records.zipWith (fun record s => { record with name := s.name }) steps

theorem namedAfter_take (steps : List Step) (records : List StepRecord) :
    namedAfter (steps.take records.length) records = namedAfter steps records := by
  induction records generalizing steps with
  | nil => rfl
  | cons record records ih =>
    cases steps with
    | nil => rfl
    | cons s steps =>
      simp only [namedAfter] at ih
      simp [namedAfter, ih]

end Run

namespace Registry

variable {registry grown : Registry} {operation : Operation} {original other : String}
  {s t : Step} {value output : Value} {e : ChainError}

theorem holdsAlias_of_register (hget : registry.get? original = some operation)
    (h : registry.register (operation.withName other) = .ok grown) :
    grown.HoldsAlias original other := by
  obtain ⟨_, hnew, rfl⟩ := register_eq_ok_iff.mp h
  refine ⟨operation, get?_put_of_new hnew hget, ?_⟩
  rw [get?_put, Operation.withName, if_pos rfl]

theorem HoldsAlias.call_of_get? (h : registry.HoldsAlias original other)
    (hst : Step.IsRenamed original other s t) (hget : registry.get? s.name = some operation) :
    ∃ copy, registry.get? t.name = some copy ∧
      ∀ value, copy.call value t.args = operation.call value s.args := by
  rcases hst with rfl | ⟨rfl, rfl⟩
  · exact ⟨operation, hget, fun _ => rfl⟩
  · obtain ⟨stored, hstored, hcopy⟩ := h
    obtain rfl := Option.some.inj (hget.symm.trans hstored)
    exact ⟨_, hcopy, fun value => operation.call_withName other value s.args⟩

theorem HoldsAlias.takes (h : registry.HoldsAlias original other)
    (hst : Step.IsRenamed original other s t) (htakes : registry.Takes s value output) :
    registry.Takes t value output := by
  obtain ⟨operation, hget, hcall⟩ := htakes
  obtain ⟨copy, hcopy, hsame⟩ := h.call_of_get? hst hget
  exact ⟨copy, hcopy, (hsame value).trans hcall⟩

theorem HoldsAlias.stops (h : registry.HoldsAlias original other)
    (hst : Step.IsRenamed original other s t) (hstops : registry.Stops s value e) :
    ∃ f, registry.Stops t value f ∧ Run.IsSameFault s t e f := by
  cases hstops with
  | unknown hget =>
    rcases hst with rfl | ⟨rfl, rfl⟩
    · exact ⟨_, .unknown hget, .unknown _⟩
    · -- The first name is stored, so no step with this name is unknown.
      obtain ⟨stored, hstored, _⟩ := h
      rw [hstored] at hget
      cases hget
  | failed hget hcall =>
    obtain ⟨copy, hcopy, hsame⟩ := h.call_of_get? hst hget
    exact ⟨_, .failed hcopy ((hsame value).trans hcall), .failed _⟩

end Registry

namespace Run

variable {registry : Registry} {original other : String} {steps others : List Step}

theorem IsTrace.renamed {start : Nat} {value last : Value} {records : List StepRecord}
    (h : registry.HoldsAlias original other)
    (hsteps : List.Forall₂ (Step.IsRenamed original other) steps others)
    (htrace : IsTrace registry start steps value records last) :
    IsTrace registry start others value (namedAfter others records) last := by
  induction hsteps generalizing start value records with
  | nil =>
    obtain rfl := List.map_eq_nil_iff.mp htrace.steps_eq
    exact htrace
  | @cons s t steps others hst _ ih =>
    cases records with
    | nil => cases htrace.steps_eq
    | cons record records =>
      obtain ⟨rest, hrest, hrecord, htakes, htail⟩ := htrace.uncons
      obtain ⟨rfl, rfl⟩ := List.cons.inj hrest
      have hargs : t.args = record.args := by rcases hst with rfl | ⟨_, rfl⟩ <;> rfl
      have hcons := (ih htail).cons (h.takes hst htakes)
      rw [hargs] at hcons
      rw [hrecord]
      exact hcons

theorem HaltsAt.renamed {k : Nat} {value current : Value} {records : List StepRecord}
    (h : registry.HoldsAlias original other)
    (hsteps : List.Forall₂ (Step.IsRenamed original other) steps others)
    (hhalts : HaltsAt registry steps value k records current) :
    HaltsAt registry others value k (namedAfter others records) current where
  le_length := by
    rw [← hsteps.length_eq]
    exact hhalts.le_length
  completes := by
    have hcompletes := hhalts.completes.renamed h (List.forall₂_take k hsteps)
    have hlength := hhalts.length_records
    rw [← namedAfter_take, hlength]
    exact hcompletes
  halts := by
    intro t ht
    have hdrop := List.forall₂_drop k hsteps
    cases hrest : steps.drop k with
    | nil =>
      rw [hrest, List.forall₂_nil_left_iff] at hdrop
      rw [hdrop] at ht
      cases ht
    | cons s rest =>
      rw [hrest, List.forall₂_cons_left_iff] at hdrop
      obtain ⟨_, _, hst, _, hothers⟩ := hdrop
      rw [hothers] at ht
      obtain rfl := Option.some.inj ht
      obtain ⟨e, hstops⟩ := hhalts.halts s (by rw [hrest]; rfl)
      obtain ⟨f, hstopsOther, _⟩ := h.stops hst hstops
      exact ⟨f, hstopsOther⟩

theorem HaltsAt.endsAlike {k : Nat} {value current : Value} {records : List StepRecord}
    (h : registry.HoldsAlias original other)
    (hsteps : List.Forall₂ (Step.IsRenamed original other) steps others)
    (hhalts : HaltsAt registry steps value k records current) :
    EndsAlike steps others k id
        (plain registry steps value).outcome (plain registry others value).outcome ∧
      EndsAlike steps others k (Prod.map id (namedAfter others))
        (traced registry 0 steps value).outcome (traced registry 0 others value).outcome := by
  have hhaltsOther := hhalts.renamed h hsteps
  have hdrop := List.forall₂_drop k hsteps
  cases hrest : steps.drop k with
  | nil =>
    rw [hrest, List.forall₂_nil_left_iff] at hdrop
    obtain ⟨hplain, htraced⟩ := hhalts.reports_of_drop_eq_nil hrest
    obtain ⟨hplainOther, htracedOther⟩ := hhaltsOther.reports_of_drop_eq_nil hdrop
    rw [hplain, htraced, hplainOther, htracedOther]
    exact ⟨.done current, .done (current, records)⟩
  | cons s rest =>
    rw [hrest, List.forall₂_cons_left_iff] at hdrop
    obtain ⟨t, restOther, hst, _, hrestOther⟩ := hdrop
    obtain ⟨e, hstops⟩ := hhalts.halts s (by rw [hrest]; rfl)
    obtain ⟨f, hstopsOther, hfault⟩ := h.stops hst hstops
    obtain ⟨hplain, htraced⟩ := hhalts.reports_of_drop_eq_cons hrest hstops
    obtain ⟨hplainOther, htracedOther⟩ :=
      hhaltsOther.reports_of_drop_eq_cons hrestOther hstopsOther
    have hs : steps[k]? = some s := by rw [← List.head?_drop, hrest, List.head?_cons]
    have ht : others[k]? = some t := by rw [← List.head?_drop, hrestOther, List.head?_cons]
    rw [hplain, htraced, hplainOther, htracedOther]
    exact ⟨.stopped hs ht hfault, .stopped hs ht hfault⟩

/-- Under an alias, any of the steps that have the original name may go by the other one. The run
then completes as many steps on the same values, with the same records but for these names, and it
ends in the same value or stops for the same reason, told under the name of the step that it stops
at. The built-in operation that squeezes blanks has an alias. -/
theorem alias_is_indistinguishable :
    (∀ (registry : Registry) (original other : String), registry.HoldsAlias original other →
      ∀ steps others : List Step, List.Forall₂ (Step.IsRenamed original other) steps others →
        ∀ value, ∃ k records current,
          HaltsAt registry steps value k records current ∧
          HaltsAt registry others value k (namedAfter others records) current ∧
          EndsAlike steps others k id
            (plain registry steps value).outcome (plain registry others value).outcome ∧
          EndsAlike steps others k (Prod.map id (namedAfter others))
            (traced registry 0 steps value).outcome (traced registry 0 others value).outcome) ∧
    Registry.builtin.HoldsAlias "revomeEspacoDuplicado" "removeEspacoDuplicado" := by
  refine ⟨?_, Filters.squeezeOperation, rfl, rfl⟩
  intro registry original other h steps others hsteps value
  obtain ⟨k, records, current, hhalts⟩ := exists_haltsAt registry steps value
  exact ⟨k, records, current, hhalts, hhalts.renamed h hsteps, hhalts.endsAlike h hsteps⟩

theorem alias_is_indistinguishable_one_of_two :
    (∃ k, EndsAlike [⟨"revomeEspacoDuplicado", []⟩, ⟨"revomeEspacoDuplicado", []⟩]
        [⟨"revomeEspacoDuplicado", []⟩, ⟨"removeEspacoDuplicado", []⟩] k
        (Prod.map id
          (namedAfter [⟨"revomeEspacoDuplicado", []⟩, ⟨"removeEspacoDuplicado", []⟩]))
        (traced Registry.builtin 0
          [⟨"revomeEspacoDuplicado", []⟩, ⟨"revomeEspacoDuplicado", []⟩] (.text "a  b")).outcome
        (traced Registry.builtin 0
          [⟨"revomeEspacoDuplicado", []⟩, ⟨"removeEspacoDuplicado", []⟩] (.text "a  b")).outcome) ∧
      ∃ grown,
        Registry.builtin.register (Filters.squeezeOperation.withName "umEspaco") = .ok grown ∧
        ∃ k, EndsAlike [⟨"revomeEspacoDuplicado", []⟩] [⟨"umEspaco", []⟩] k id
          (plain grown [⟨"revomeEspacoDuplicado", []⟩] (.list [])).outcome
          (plain grown [⟨"umEspaco", []⟩] (.list [])).outcome := by
  have hregister : Registry.builtin.register (Filters.squeezeOperation.withName "umEspaco") =
      .ok (Registry.builtin.put (Filters.squeezeOperation.withName "umEspaco")) :=
    Registry.register_eq_ok_iff.mpr ⟨by decide, by decide, rfl⟩
  have hgrown : (Registry.builtin.put (Filters.squeezeOperation.withName "umEspaco")).HoldsAlias
      "revomeEspacoDuplicado" "umEspaco" :=
    Registry.holdsAlias_of_register rfl hregister
  have hkept : List.Forall₂ (Step.IsRenamed "revomeEspacoDuplicado" "removeEspacoDuplicado")
      [⟨"revomeEspacoDuplicado", []⟩, ⟨"revomeEspacoDuplicado", []⟩]
      [⟨"revomeEspacoDuplicado", []⟩, ⟨"removeEspacoDuplicado", []⟩] :=
    .cons (Or.inl rfl) (.cons (Or.inr ⟨rfl, rfl⟩) .nil)
  have hrenamed : List.Forall₂ (Step.IsRenamed "revomeEspacoDuplicado" "umEspaco")
      [⟨"revomeEspacoDuplicado", []⟩] [⟨"umEspaco", []⟩] :=
    .cons (Or.inr ⟨rfl, rfl⟩) .nil
  obtain ⟨halike, hbuiltin⟩ := alias_is_indistinguishable
  obtain ⟨k, _, _, _, _, _, hsqueezed⟩ := halike _ _ _ hbuiltin _ _ hkept (.text "a  b")
  obtain ⟨i, _, _, _, _, hrefused, _⟩ := halike _ _ _ hgrown _ _ hrenamed (.list [])
  exact ⟨⟨k, hsqueezed⟩, _, hregister, i, hrefused⟩

end Run

end FilterChain
