import FilterChain.Operation

/-!
# Ordered signatures

The parameters of a signature are in order if the required ones come first. A signature is valid
exactly if its parameters are in order, and otherwise the first required parameter that is out of
place is blamed, together with the first optional one.
-/

namespace FilterChain.Signature

/-- No required parameter stands behind an optional one. -/
def IsOrdered (signature : Signature) : Prop :=
  signature.params.Pairwise fun earlier later =>
    later.isRequired = true → earlier.isRequired = true

/-- The first required parameter behind an optional one, and the first optional one. -/
def IsMisplaced (signature : Signature) (required optional : Param) : Prop :=
  ∃ front middle back, signature.params = front ++ optional :: (middle ++ required :: back) ∧
    (∀ param ∈ front, param.isRequired = true) ∧ optional.isRequired = false ∧
    (∀ param ∈ middle, param.isRequired = false) ∧ required.isRequired = true

theorem misplaced?_some (seen : Param) (params : List Param) :
    misplaced? (some seen) params =
      (params.find? Param.isRequired).map fun param => (param, seen) := by
  induction params with
  | nil => rfl
  | cons param params ih =>
    cases hrequired : param.isRequired with
    | false => simp only [misplaced?, hrequired, List.find?_cons, ih]
    | true => simp only [misplaced?, hrequired, List.find?_cons, Option.map_some]

theorem misplaced?_cons_of_required {param : Param} (h : param.isRequired = true)
    (params : List Param) : misplaced? none (param :: params) = misplaced? none params := by
  simp only [misplaced?, h]

theorem misplaced?_cons_of_optional {param : Param} (h : param.isRequired = false)
    (params : List Param) :
    misplaced? none (param :: params) =
      (params.find? Param.isRequired).map fun required => (required, param) := by
  simp only [misplaced?, h, misplaced?_some]

theorem misplaced?_eq_none_of_isOrdered {signature : Signature} (h : signature.IsOrdered) :
    misplaced? none signature.params = none := by
  obtain ⟨params⟩ := signature
  simp only [IsOrdered] at h ⊢
  induction params with
  | nil => rfl
  | cons param params ih =>
    obtain ⟨hparam, hrest⟩ := List.pairwise_cons.mp h
    cases hrequired : param.isRequired with
    | true => rw [misplaced?_cons_of_required hrequired, ih hrest]
    | false =>
      have hnone : params.find? Param.isRequired = none := by
        rw [List.find?_eq_none]
        intro later hlater hlaterRequired
        rw [hparam later hlater hlaterRequired] at hrequired
        cases hrequired
      rw [misplaced?_cons_of_optional hrequired, hnone, Option.map_none]

theorem misplaced?_of_isMisplaced {signature : Signature} {required optional : Param}
    (h : signature.IsMisplaced required optional) :
    misplaced? none signature.params = some (required, optional) := by
  obtain ⟨front, middle, back, hparams, hfront, hoptional, hmiddle, hrequired⟩ := h
  have hfind : (middle ++ required :: back).find? Param.isRequired = some required := by
    refine List.find?_eq_some_iff_append.mpr ⟨hrequired, middle, back, rfl, fun param hparam => ?_⟩
    rw [hmiddle param hparam, Bool.not_false]
  rw [hparams]
  clear hparams
  induction front with
  | nil => rw [List.nil_append, misplaced?_cons_of_optional hoptional, hfind, Option.map_some]
  | cons param front ih =>
    rw [List.cons_append, misplaced?_cons_of_required (hfront param List.mem_cons_self)]
    exact ih fun other hother => hfront other (List.mem_cons_of_mem _ hother)

theorem isOrdered_or_isMisplaced (signature : Signature) :
    signature.IsOrdered ∨ ∃ required optional, signature.IsMisplaced required optional := by
  obtain ⟨params⟩ := signature
  induction params with
  | nil => exact Or.inl List.Pairwise.nil
  | cons param params ih =>
    cases hparam : param.isRequired with
    | true =>
      rcases ih with hordered | ⟨required, optional, front, middle, back, hparams, hfront, hrest⟩
      · exact Or.inl (List.pairwise_cons.mpr ⟨fun _ _ _ => hparam, hordered⟩)
      · refine Or.inr ⟨required, optional, param :: front, middle, back, ?_, ?_, hrest⟩
        · simpa using hparams
        · intro other hother
          rcases List.mem_cons.mp hother with rfl | hother
          · exact hparam
          · exact hfront other hother
    | false =>
      cases hfind : params.find? Param.isRequired with
      | some required =>
        obtain ⟨hrequired, middle, back, hsplit, hmiddle⟩ := List.find?_eq_some_iff_append.mp hfind
        refine Or.inr ⟨required, param, [], middle, back, ?_, by simp, hparam, ?_, hrequired⟩
        · simpa using hsplit
        · simpa using hmiddle
      | none =>
        have hoptional := List.find?_eq_none.mp hfind
        refine Or.inl (List.pairwise_cons.mpr ⟨?_, List.pairwise_of_forall_mem_list ?_⟩)
        · exact fun later hlater hrequired => absurd hrequired (hoptional later hlater)
        · exact fun _ _ later hlater hrequired => absurd hrequired (hoptional later hlater)

theorem validate_of_isOrdered {signature : Signature} (h : signature.IsOrdered) (name : String) :
    signature.validate name = .ok () := by
  rw [validate, misplaced?_eq_none_of_isOrdered h]

theorem validate_of_isMisplaced {signature : Signature} {required optional : Param}
    (h : signature.IsMisplaced required optional) (name : String) :
    signature.validate name = .error (.requiredAfterOptional name required.name optional.name) := by
  rw [validate, misplaced?_of_isMisplaced h]

theorem isOrdered_of_validate {signature : Signature} {name : String}
    (h : signature.validate name = .ok ()) : signature.IsOrdered := by
  rcases signature.isOrdered_or_isMisplaced with hordered | ⟨required, optional, hmisplaced⟩
  · exact hordered
  · rw [validate_of_isMisplaced hmisplaced] at h
    cases h

end FilterChain.Signature
