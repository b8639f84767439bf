import FilterChain.Filters
import FilterChain.Proofs.Calendar.Spelling
import FilterChain.Proofs.Value.Leaves

/-!
# What filters accept

A filter on texts accepts every scalar and refuses every list and record, and a filter on nested
values does the opposite. Inside of a nested value a text filter meets scalars only, so it never
refuses there what it would refuse outside.
-/

namespace FilterChain

namespace Value

theorem asText_of_isContainer {v : Value} (h : v.isContainer = true) :
    v.asText = .error (.unsupportedValue "a scalar" v.kind) := by
  cases v with
  | null | bool | number | text => cases h
  | list | record => rfl

theorem exists_asText_eq_ok {v : Value} (h : v.isContainer = false) : ∃ s, v.asText = .ok s := by
  cases v with
  | null | bool | number | text => exact ⟨_, rfl⟩
  | list | record => cases h

theorem requireContainer_of_not_isContainer {v : Value} (h : v.isContainer = false) :
    v.requireContainer = .error (.unsupportedValue "an array or object" v.kind) := by
  rw [requireContainer, h]
  rfl

theorem requireContainer_of_isContainer {v : Value} (h : v.isContainer = true) :
    v.requireContainer = .ok () := by
  rw [requireContainer, h]
  rfl

end Value

namespace Filters

/-- A filter that refuses lists and records, and nothing else. -/
structure AcceptsScalars (f : Value → Except OperationError Value) : Prop where
  refuses : ∀ v, v.isContainer = true → f v = .error (.unsupportedValue "a scalar" v.kind)
  accepts : ∀ v, v.isContainer = false → ∃ w, f v = .ok w

/-- A filter that refuses scalars, and nothing else. -/
structure AcceptsContainers (f : Value → Except OperationError Value) : Prop where
  refuses : ∀ v, v.isContainer = false →
    f v = .error (.unsupportedValue "an array or object" v.kind)
  accepts : ∀ v, v.isContainer = true → ∃ w, f v = .ok w

theorem acceptsScalars_of_asText {f : Value → Except OperationError Value}
    (g : Value → String → Value) (h : ∀ v, f v = v.asText.map (g v)) : AcceptsScalars f where
  refuses v hv := by
    rw [h, Value.asText_of_isContainer hv]
    rfl
  accepts v hv := by
    obtain ⟨s, hs⟩ := Value.exists_asText_eq_ok hv
    rw [h, hs]
    exact ⟨g v s, rfl⟩

theorem bind_pure_eq_map {α β ε : Type} (outcome : Except ε α) (f : α → β) :
    (outcome >>= fun a => pure (f a)) = outcome.map f := by
  cases outcome <;> rfl

theorem onText_of_asText {v : Value} {s : String} (hs : v.asText = .ok s)
    (f : List Char → List Char) : onText f v = .ok (.text (String.ofList (f s.toList))) := by
  rw [onText, hs]
  rfl

theorem acceptsScalars_onText (f : List Char → List Char) : AcceptsScalars (onText f) :=
  acceptsScalars_of_asText (fun _ s => .text (String.ofList (f s.toList)))
    fun _ => bind_pure_eq_map _ _

theorem acceptsScalars_nullIfBlank : AcceptsScalars nullIfBlank :=
  acceptsScalars_of_asText (fun v s => if Text.trimBy isTrimmed s.toList = [] then .null else v)
    fun _ => bind_pure_eq_map _ _

theorem acceptsScalars_checkEmail : AcceptsScalars checkEmail :=
  acceptsScalars_of_asText (fun v s => if Text.isEmail s.toList then v else .null)
    fun _ => bind_pure_eq_map _ _

theorem acceptsScalars_splitWords : AcceptsScalars splitWords :=
  acceptsScalars_of_asText
    (fun _ s => .list ((Text.words s.toList).map fun word => .text (String.ofList word)))
    fun _ => bind_pure_eq_map _ _

theorem acceptsScalars_plainAmount : AcceptsScalars plainAmount :=
  acceptsScalars_of_asText (fun _ s => .text (String.ofList (pointForComma s.toList)))
    fun _ => bind_pure_eq_map _ _

/-- Since every layout is supported, only the value can be refused. -/
theorem acceptsScalars_reformatDate (source target : String) :
    AcceptsScalars (reformatDate source target) := by
  refine acceptsScalars_of_asText (fun _ s =>
    (Calendar.readDateTime? source (Text.strip s)).elim .null
      fun t => .text (Calendar.writeDateTime target t)) fun v => ?_
  cases hs : v.asText with
  | error e => simp only [reformatDate, hs, Except.map, bind, Except.bind]
  | ok s =>
    simp only [reformatDate, readDate, hs, Calendar.checkLayout_eq_ok, Except.map, bind,
      Except.bind, pure, Except.pure]
    cases Calendar.readDateTime? source (Text.strip s) <;> rfl

theorem acceptsContainers_of_total {f g : Value → Except OperationError Value}
    (hf : ∀ v, f v = v.requireContainer.bind fun _ => g v) (hg : ∀ v, ∃ w, g v = .ok w) :
    AcceptsContainers f where
  refuses v hv := by
    rw [hf, Value.requireContainer_of_not_isContainer hv]
    rfl
  accepts v hv := by
    rw [hf, Value.requireContainer_of_isContainer hv]
    exact hg v

theorem acceptsContainers_nullBlankLeaves : AcceptsContainers nullBlankLeaves :=
  acceptsContainers_of_total (fun _ => rfl)
    (Value.exists_mapLeaves_eq_ok acceptsScalars_nullIfBlank.accepts)

theorem acceptsContainers_trimLeaves : AcceptsContainers trimLeaves :=
  acceptsContainers_of_total (fun _ => rfl)
    (Value.exists_mapLeaves_eq_ok (acceptsScalars_onText _).accepts)

theorem acceptsContainers_convertKeys (case : KeyCase) : AcceptsContainers (convertKeys case) :=
  acceptsContainers_of_total (fun _ => rfl) fun v => ⟨renameKeys case v, rfl⟩

end Filters

end FilterChain
