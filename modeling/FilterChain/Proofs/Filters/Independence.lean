import FilterChain.Proofs.Filters.Blanks
import FilterChain.Proofs.Filters.Families
import FilterChain.Proofs.Filters.Faults
import FilterChain.Proofs.Registry.Reaching
import FilterChain.Proofs.Run.Sequence

/-!
# Scalars and names of fields

A conversion of names looks at no scalar, and a filter on the scalars inside a value looks at no
name. Each field that survives a conversion is one that was there before, so it makes no difference
whether the scalars of a record are changed before its fields are put together or behind.
-/

namespace FilterChain

namespace Registry

theorem outcome_apply_join {registry : Registry} {s₁ s₂ : String} {value middle last : Value}
    (hfirst : (registry.apply s₁ value).outcome = .ok middle)
    (hsecond : (registry.apply s₂ middle).outcome = .ok last) :
    (registry.apply (s₁ ++ "|" ++ s₂) value).outcome = .ok last := by
  have hjoin := Step.parseSpec_join s₁ s₂
  cases h₁ : Step.parseSpec s₁ with
  | error e =>
    rw [apply_of_parseSpec_error h₁] at hfirst
    cases hfirst
  | ok first =>
    cases h₂ : Step.parseSpec s₂ with
    | error e =>
      rw [apply_of_parseSpec_error h₂] at hsecond
      cases hsecond
    | ok second =>
      rw [h₁, h₂] at hjoin
      rw [apply_of_parseSpec_ok h₁] at hfirst
      rw [apply_of_parseSpec_ok h₂] at hsecond
      rw [apply_of_parseSpec_ok hjoin, Run.plain_append, Report.andThen, hfirst]
      exact hsecond

end Registry

namespace Filters

open Value (KeepsScalars)

variable {leaf f : Value → Except OperationError Value} {v w : Value}

/-- Changing scalars and converting names can be done in either order. -/
theorem mapLeaves_renameKeys (hleaf : KeepsScalars leaf) (case : KeyCase) (v : Value) :
    (renameKeys case v).mapLeaves leaf = renameKeys case <$> v.mapLeaves leaf := by
  choose outcome houtcome using hleaf.exists_mapLeaves_eq_ok
  rw [houtcome, houtcome]
  refine congrArg Except.ok ?_
  induction v using Value.induction with
  | scalar v hv =>
    have hscalar : (outcome v).isContainer = false := by
      refine hleaf.isContainer_eq_false hv ?_
      rw [← houtcome v, Value.mapLeaves_of_not_isContainer hv]
    rw [renameKeys_of_not_isContainer case hv, renameKeys_of_not_isContainer case hscalar]
  | list items ih =>
    rw [renameKeys_list, Value.outcome_list houtcome, Value.outcome_list houtcome,
      renameKeys_list, List.map_map, List.map_map]
    exact congrArg Value.list (List.map_congr_left ih)
  | record fields ih =>
    have hfields : (renameFields case fields).map (Prod.map id outcome) =
        renameFields case (fields.map (Prod.map id outcome)) := by
      rw [renameFields_eq_map, renameFields_eq_map, List.map_map, List.map_map]
      refine List.map_congr_left fun field hfield => ?_
      exact congrArg (case.apply field.1, ·) (ih field hfield)
    have hofList : (Fields.ofList (renameFields case fields)).map (Prod.map id outcome) =
        Fields.ofList ((renameFields case fields).map (Prod.map id outcome)) :=
      Fields.map_ofList fun _ _ _ _ heq => heq
    rw [renameKeys_record, Value.outcome_record houtcome, Value.outcome_record houtcome,
      renameKeys_record, hofList, hfields]

theorem KeyCase.mem_keyCallbacks_of_read {callback : String} {case : KeyCase}
    (h : KeyCase.read callback = .ok case) : callback ∈ keyCallbacks := by
  by_contra hbad
  obtain ⟨reason, hreason⟩ := KeyCase.exists_read_eq_error hbad
  rw [hreason] at h
  cases h

theorem outcome_apply_operation {operation : Operation} {name : String} {args : List String}
    (hget : Registry.builtin.get? name = some operation) (hargs : Step.HasPlainArgs ⟨name, args⟩)
    (hcall : operation.call v args = .ok w) :
    (Registry.builtin.apply (Step.text ⟨name, args⟩) v).outcome = .ok w := by
  obtain ⟨hmem, rfl⟩ := (Registry.get?_eq_some_iff _ _ _).mp hget
  rw [Registry.isSound_builtin.outcome_apply_text hmem hargs, hcall]
  rfl

theorem outcome_apply_name {operation : Operation} {name : String}
    (hget : Registry.builtin.get? name = some operation) (hcall : operation.call v [] = .ok w) :
    (Registry.builtin.apply name v).outcome = .ok w := by
  have htext : Step.text ⟨name, []⟩ = name := rfl
  rw [← htext]
  exact outcome_apply_operation hget nofun hcall

theorem outcome_apply_convertKeys {callback : String} {case : KeyCase}
    (h : KeyCase.read callback = .ok case) (hv : v.isContainer = true) :
    (Registry.builtin.apply ("array_convert_key_case:" ++ callback) v).outcome =
      .ok (renameKeys case v) := by
  have hcallback := KeyCase.mem_keyCallbacks_of_read h
  have hplain : ∀ callback ∈ keyCallbacks, '|' ∉ callback.toList ∧ ',' ∉ callback.toList := by
    decide
  have hstrip : ∀ callback ∈ keyCallbacks,
      Text.strip (firstOr "strtolower" [callback]) = callback := by decide
  have htext : Step.text ⟨"array_convert_key_case", [callback]⟩ =
      "array_convert_key_case:" ++ callback := by
    rw [← String.toList_inj, Step.toList_text_of_args_ne_nil (List.cons_ne_nil _ _)]
    simp [Text.glue]
  rw [← htext]
  refine outcome_apply_operation rfl ?_ ?_
  · exact List.forall_mem_singleton.mpr (hplain callback hcallback)
  · rw [Operation.call_of_isSupplied (Signature.isSupplied_of_optional (by decide) _)]
    have hread : Args.read ⟨⟨[.optional "callback" "strtolower"]⟩, [callback]⟩ 0
        (fun cs => KeyCase.read (String.ofList cs)) = .ok case := by
      refine Args.read_of_ok ?_
      rw [Args.get_optional, hstrip callback hcallback, String.ofList_toList, h]
    dsimp only
    rw [hread]
    exact convertKeys_of_isContainer case hv

/-- A filter, called by its operation or directly, in front of a conversion of names or behind it:
the result is the same. -/
def CommutesWithKeys (name : String) (f : Value → Except OperationError Value) (case : KeyCase)
    (v : Value) : Prop :=
  ∃ w, (convertKeys case v >>= f) = .ok w ∧ (f v >>= convertKeys case) = .ok w ∧
    ∀ callback, KeyCase.read callback = .ok case →
      let step := "array_convert_key_case:" ++ callback
      (Registry.builtin.apply (step ++ "|" ++ name) v).outcome = .ok w ∧
        (Registry.builtin.apply (name ++ "|" ++ step) v).outcome = .ok w

theorem commutesWithKeys_of_mapLeaves {name : String} (hleaf : KeepsScalars leaf)
    (hf : ∀ v, v.isContainer = true → f v = v.mapLeaves leaf)
    (hname : ∀ v w, f v = .ok w → (Registry.builtin.apply name v).outcome = .ok w)
    (case : KeyCase) (hv : v.isContainer = true) : CommutesWithKeys name f case v := by
  obtain ⟨middle, hmiddle⟩ := hleaf.exists_mapLeaves_eq_ok v
  have hcontainer := isContainer_of_mapLeaves_eq_ok hv hmiddle
  have hfirst : f v = .ok middle := (hf v hv).trans hmiddle
  have hsecond : f (renameKeys case v) = .ok (renameKeys case middle) := by
    rw [hf _ ((isContainer_renameKeys case v).trans hv), mapLeaves_renameKeys hleaf, hmiddle]
    rfl
  refine ⟨renameKeys case middle, ?_, ?_, fun callback hcallback => ⟨?_, ?_⟩⟩
  · rw [convertKeys_of_isContainer case hv]
    exact hsecond
  · rw [hfirst]
    exact convertKeys_of_isContainer case hcontainer
  · exact Registry.outcome_apply_join (outcome_apply_convertKeys hcallback hv) (hname _ _ hsecond)
  · exact Registry.outcome_apply_join (hname _ _ hfirst)
      (outcome_apply_convertKeys hcallback hcontainer)

/-- On a list or a record, trimming the scalars inside and putting null for the blank ones can both
trade places with any conversion of names, whichever names meet. -/
theorem leaves_and_keys_are_independent (case : KeyCase) (v : Value) (hv : v.isContainer = true) :
    CommutesWithKeys "trim_array" trimLeaves case v ∧
      CommutesWithKeys "null_array" nullBlankLeaves case v := by
  constructor
  · refine commutesWithKeys_of_mapLeaves keepsScalars_trim
      (fun _ => trimLeaves_of_isContainer) (fun v w h => ?_) case hv
    change (Registry.builtin.apply (Step.text ⟨"trim_array", []⟩) v).outcome = .ok w
    exact outcome_apply_operation rfl nofun h
  · refine commutesWithKeys_of_mapLeaves keepsScalars_nullIfBlank
      (fun _ => nullBlankLeaves_of_isContainer) (fun v w h => ?_) case hv
    change (Registry.builtin.apply (Step.text ⟨"null_array", []⟩) v).outcome = .ok w
    exact outcome_apply_operation rfl nofun h

theorem leaves_and_keys_are_independent_colliding :
    let v := Value.record [("A", .text " x"), ("a", .list [.text " ", .bool true])]
    let w := Value.record [("a", .list [.text "", .text "1"])]
    v.isContainer = true ∧
      (Registry.builtin.apply "array_convert_key_case:strtolower|trim_array" v).outcome = .ok w ∧
      (Registry.builtin.apply "trim_array|array_convert_key_case:strtolower" v).outcome = .ok w := by
  intro v w
  obtain ⟨⟨result, hresult, -, hspecs⟩, -⟩ := leaves_and_keys_are_independent .lower v rfl
  have hw : (convertKeys .lower v >>= trimLeaves) = .ok w := by decide
  obtain rfl : result = w := Except.ok.inj (hresult.symm.trans hw)
  exact ⟨rfl, hspecs "strtolower" rfl⟩

end Filters

end FilterChain
