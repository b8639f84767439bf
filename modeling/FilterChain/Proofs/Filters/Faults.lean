import FilterChain.Proofs.Document.Numbers
import FilterChain.Proofs.Filters.Scalars
import FilterChain.Proofs.Number.Literal
import FilterChain.Proofs.Operation.Arguments

/-!
# When built-in operations fail

A call of a built-in operation fails for what is wrong with its arguments, and only then for what
is wrong with its value. Both kinds of fault are listed here, and a call without one succeeds. An
argument counts as it is read: a missing or empty one is the default, and blanks at both ends are
left out.
-/

namespace FilterChain

namespace Filters

def keyCallbacks : List String :=
  ["strtolower", "strtoupper", "ucfirst", "lcfirst"]

def containerFilters : List String :=
  ["null_array", "trim_array", "array_convert_key_case"]

def scalarRefusers : List String :=
  "decimal" :: "dinheiro" :: containerFilters

def argumentRefusers : List String :=
  ["mascara", "limitar", "decimal", "array_convert_key_case"]

/-- What an operation finds wrong with its arguments. -/
inductive ArgumentFault (name : String) (raw : List String) : OperationError → Prop where
  | noMask (hname : name = "mascara") (hraw : raw = []) :
      ArgumentFault name raw (.missingArgument "mask" 1)
  | noLimit (hname : name = "limitar") (hraw : raw = []) :
      ArgumentFault name raw (.missingArgument "limit" 1)
  | badLimit {arg : String} {rest : List String} (fault : NumeralFault) (hname : name = "limitar")
      (hraw : raw = arg :: rest)
      (hbad : ¬ ∃ n, Bounds.signed.IsNumeral (Text.strip arg).toList n) :
      ArgumentFault name raw (.invalidArgument "limit" arg fault.message)
  | badPlaces (fault : NumeralFault) (hname : name = "decimal")
      (hbad : ¬ ∃ n, Bounds.size.IsNumeral (Text.strip (firstOr "2" raw)).toList n) :
      ArgumentFault name raw (.invalidArgument "places" (firstOr "2" raw) fault.message)
  | manyPlaces {n : Int} (hname : name = "decimal")
      (hplaces : Bounds.size.IsNumeral (Text.strip (firstOr "2" raw)).toList n) (hmany : 64 < n) :
      ArgumentFault name raw (.invalidArgument "places" (toString n) "at most 64 places")
  | badCallback {reason : String} (hname : name = "array_convert_key_case")
      (hbad : Text.strip (firstOr "strtolower" raw) ∉ keyCallbacks) :
      ArgumentFault name raw (.invalidArgument "callback" (firstOr "strtolower" raw) reason)

/-- What an operation finds wrong with its value. -/
inductive ValueFault (name : String) (value : Value) : OperationError → Prop where
  | container (hname : name ∉ containerFilters) (hvalue : value.isContainer = true) :
      ValueFault name value
        (.unsupportedValue (if name = "dinheiro" then "a number" else "a scalar") value.kind)
  | scalar (hname : name ∈ containerFilters) (hvalue : value.isContainer = false) :
      ValueFault name value (.unsupportedValue "an array or object" value.kind)
  | noDigits {s : String} (hname : name = "decimal") (hvalue : value.asText = .ok s)
      (hdigits : ∀ c ∈ s.toList, Text.isAsciiDigit c = false) :
      ValueFault name value (.invalidInput s "no digits to scale")
  | noNumber {s shown : String} (hname : name = "dinheiro") (hvalue : value = .text s)
      (hbad : ¬ IsFiniteLiteral (Text.strip s).toList)
      (hshown : shown ∈ [s, "inf", "-inf", "NaN"]) :
      ValueFault name value (.invalidInput shown "not a number")

/-- How a call of an operation ends: what is wrong with the arguments is blamed before what is wrong
with the value, and if nothing is wrong there is an output. -/
inductive Ends (name : String) (raw : List String) (value : Value) :
    Except OperationError Value → Prop where
  | blamesArguments {e : OperationError} (hfault : ArgumentFault name raw e) :
      Ends name raw value (.error e)
  | blamesValue {e : OperationError} (harguments : ∀ e, ¬ ArgumentFault name raw e)
      (hfault : ValueFault name value e) : Ends name raw value (.error e)
  | succeeds {output : Value} (harguments : ∀ e, ¬ ArgumentFault name raw e)
      (hvalue : ∀ e, ¬ ValueFault name value e) : Ends name raw value (.ok output)

variable {name : String} {raw : List String} {value : Value}

theorem ArgumentFault.name_mem {e : OperationError} (h : ArgumentFault name raw e) :
    name ∈ argumentRefusers := by
  cases h with
  | noMask hname _ | noLimit hname _ | badLimit _ hname _ _ | badPlaces _ hname _
  | manyPlaces hname _ _ | badCallback hname _ =>
    rw [hname]
    decide

theorem ValueFault.isContainer {e : OperationError} (h : ValueFault name value e)
    (hname : name ∉ scalarRefusers) : value.isContainer = true := by
  cases h with
  | container _ hvalue => exact hvalue
  | scalar hcontainers _ =>
    exact absurd (List.mem_cons_of_mem _ (List.mem_cons_of_mem _ hcontainers)) hname
  | noDigits hother _ _ | noNumber hother _ _ _ =>
    rw [hother] at hname
    exact absurd (by decide) hname

theorem AcceptsScalars.ends {f : Value → Except OperationError Value} (hf : AcceptsScalars f)
    (hname : name ∉ scalarRefusers)
    (harguments : ∀ e, ¬ ArgumentFault name raw e) : Ends name raw value (f value) := by
  cases hvalue : value.isContainer with
  | true =>
    obtain ⟨-, hmoney, hscalars⟩ :
        name ≠ "decimal" ∧ name ≠ "dinheiro" ∧ name ∉ containerFilters := by
      simpa only [scalarRefusers, List.mem_cons, not_or] using hname
    have hfault := ValueFault.container hscalars hvalue
    rw [if_neg hmoney] at hfault
    rw [hf.refuses value hvalue]
    exact .blamesValue harguments hfault
  | false =>
    obtain ⟨output, houtput⟩ := hf.accepts value hvalue
    rw [houtput]
    refine .succeeds harguments fun e hfault => ?_
    rw [hfault.isContainer hname] at hvalue
    cases hvalue

theorem AcceptsContainers.ends {f : Value → Except OperationError Value}
    (hf : AcceptsContainers f) (hname : name ∈ containerFilters)
    (harguments : ∀ e, ¬ ArgumentFault name raw e) : Ends name raw value (f value) := by
  cases hvalue : value.isContainer with
  | false =>
    rw [hf.refuses value hvalue]
    exact .blamesValue harguments (.scalar hname hvalue)
  | true =>
    obtain ⟨output, houtput⟩ := hf.accepts value hvalue
    rw [houtput]
    refine .succeeds harguments fun e hfault => ?_
    cases hfault with
    | container hscalars _ => exact hscalars hname
    | scalar _ hscalar => exact absurd (hvalue.symm.trans hscalar) (by decide)
    | noDigits hother _ _ | noNumber hother _ _ _ =>
      rw [hother] at hname
      exact absurd hname (by decide)

def EndsAsTold (operation : Operation) : Prop :=
  ∀ (raw : List String) (value : Value), value.FitsWord →
    Ends operation.name raw value (operation.call value raw)

theorem AcceptsScalars.endsAsTold_unary {f : Value → Except OperationError Value}
    (hf : AcceptsScalars f) (description : String)
    (hname : name ∉ argumentRefusers ++ scalarRefusers) :
    EndsAsTold (.unary name description f) := by
  intro raw value _
  rw [Operation.call_unary]
  obtain ⟨harguments, hscalars⟩ := not_or.mp (mt List.mem_append.mpr hname)
  exact hf.ends hscalars fun _ hfault => harguments hfault.name_mem

theorem AcceptsContainers.endsAsTold_unary {f : Value → Except OperationError Value}
    (hf : AcceptsContainers f) (description : String) (hname : name ∈ containerFilters)
    (harguments : name ∉ argumentRefusers) : EndsAsTold (.unary name description f) := by
  intro raw value _
  rw [Operation.call_unary]
  exact hf.ends hname fun _ hfault => harguments hfault.name_mem

theorem ends_mask (arg : String) : Ends "mascara" (arg :: raw) value (mask arg value) := by
  refine (acceptsScalars_onText _).ends (by decide) fun e hfault => ?_
  cases hfault with
  | noMask _ hraw => cases hraw
  | noLimit hname _ | badLimit _ hname _ _ | badPlaces _ hname _ | manyPlaces hname _ _
  | badCallback hname _ => exact absurd hname (by decide)

theorem endsAsTold_mask (description : String) :
    EndsAsTold ⟨"mascara", ⟨[.required "mask"]⟩, description,
      fun v args => mask (args.get 0) v⟩ := by
  intro raw value _
  cases raw with
  | nil => exact .blamesArguments (.noMask rfl rfl)
  | cons arg raw =>
    rw [Operation.call_of_isSupplied (Signature.isSupplied_required _ _ _)]
    dsimp only
    rw [Args.get_required]
    exact ends_mask arg

theorem ends_limit {arg : String} {n : Int}
    (hn : Bounds.signed.IsNumeral (Text.strip arg).toList n) :
    Ends "limitar" (arg :: raw) value (limit n value) := by
  refine (acceptsScalars_onText _).ends (by decide) fun e hfault => ?_
  cases hfault with
  | noLimit _ hraw => cases hraw
  | badLimit _ _ hraw hbad =>
    obtain ⟨rfl, rfl⟩ := List.cons.inj hraw
    exact hbad ⟨n, hn⟩
  | noMask hname _ | badPlaces _ hname _ | manyPlaces hname _ _ | badCallback hname _ =>
    exact absurd hname (by decide)

theorem endsAsTold_limit (description : String) :
    EndsAsTold ⟨"limitar", ⟨[.required "limit"]⟩, description,
      fun v args => do limit (← args.readWhole 0 .signed) v⟩ := by
  intro raw value _
  cases raw with
  | nil => exact .blamesArguments (.noLimit rfl rfl)
  | cons arg raw =>
    rw [Operation.call_of_isSupplied (Signature.isSupplied_required _ _ _)]
    have hread := Args.readWhole_eq_ok_or_error ⟨⟨[.required "limit"]⟩, arg :: raw⟩ 0
      (by decide : Bounds.signed.low ≤ 0) (by decide)
    rw [Args.get_required] at hread
    dsimp only
    rcases hread with ⟨n, hn, hread⟩ | ⟨hbad, fault, hread⟩
    · rw [hread]
      exact ends_limit hn
    · rw [hread]
      exact .blamesArguments (.badLimit fault rfl rfl hbad)

theorem endsAsTold_textOperations : ∀ operation ∈ textOperations, EndsAsTold operation := by
  have htext (f : List Char → List Char) {name : String} (description : String)
      (hname : name ∉ argumentRefusers ++ scalarRefusers) :
      EndsAsTold (.unary name description (onText f)) :=
    (acceptsScalars_onText f).endsAsTold_unary description hname
  simp only [textOperations, List.forall_mem_cons, List.not_mem_nil, false_imp_iff, implies_true,
    and_true]
  refine ⟨acceptsScalars_nullIfBlank.endsAsTold_unary _ ?_, htext _ _ ?_, htext _ _ ?_,
    htext _ _ ?_, htext _ _ ?_, htext _ _ ?_, htext _ _ ?_, endsAsTold_mask _, endsAsTold_limit _,
    htext _ _ ?_, acceptsScalars_checkEmail.endsAsTold_unary _ ?_,
    acceptsScalars_splitWords.endsAsTold_unary _ ?_, htext _ _ ?_, htext _ _ ?_⟩
  all_goals decide

theorem ends_scale {n : Int}
    (hn : Bounds.size.IsNumeral (Text.strip (firstOr "2" raw)).toList n) (hmax : n ≤ maxPlaces) :
    Ends "decimal" raw value (scale n.toNat value) := by
  have harguments (e : OperationError) : ¬ ArgumentFault "decimal" raw e := by
    intro hfault
    cases hfault with
    | badPlaces _ _ hbad => exact hbad ⟨n, hn⟩
    | manyPlaces _ hplaces hmany =>
      obtain rfl := hn.unique (by decide) (by decide) hplaces
      exact absurd hmany (not_lt.mpr hmax)
    | noMask hname _ | noLimit hname _ | badLimit _ hname _ _ | badCallback hname _ =>
      exact absurd hname (by decide)
  cases hvalue : value.isContainer with
  | true =>
    rw [scale, Value.asText_of_isContainer hvalue]
    exact .blamesValue harguments (.container (by decide) hvalue)
  | false =>
    obtain ⟨s, hs⟩ := Value.exists_asText_eq_ok hvalue
    simp only [scale, hs, bind, Except.bind]
    split
    · next hnil =>
      refine .blamesValue harguments (.noDigits rfl hs ?_)
      simpa using List.filter_eq_nil_iff.mp hnil
    · next d ds hdigits =>
      refine .succeeds harguments fun e hfault => ?_
      cases hfault with
      | container _ hcontainer => exact absurd (hvalue.symm.trans hcontainer) (by decide)
      | scalar hname _ | noNumber hname _ _ _ => exact absurd hname (by decide)
      | noDigits _ hsame hnone =>
        obtain rfl := Except.ok.inj (hs.symm.trans hsame)
        obtain ⟨hmem, hdigit⟩ := List.mem_filter.mp (hdigits ▸ List.mem_cons_self)
        rw [hnone d hmem] at hdigit
        cases hdigit

theorem endsAsTold_scale (description : String) :
    EndsAsTold ⟨"decimal", ⟨[.optional "places" "2"]⟩, description, fun v args => do
      let places ← args.readWhole 0 .size
      if maxPlaces < places then
        .error (.invalidArgument (args.paramName 0) (toString places) "at most 64 places")
      else scale places.toNat v⟩ := by
  intro raw value _
  have hsupplied : Signature.isSupplied ⟨[.optional "places" "2"]⟩ raw = true :=
    Signature.isSupplied_of_optional (by decide) raw
  rw [Operation.call_of_isSupplied hsupplied]
  have hread := Args.readWhole_eq_ok_or_error ⟨⟨[.optional "places" "2"]⟩, raw⟩ 0
    (by decide : Bounds.size.low ≤ 0) (by decide)
  rw [Args.get_optional] at hread
  dsimp only
  rcases hread with ⟨n, hn, hread⟩ | ⟨hbad, fault, hread⟩
  · simp only [hread, bind, Except.bind]
    split
    · next hmany => exact .blamesArguments (.manyPlaces rfl hn hmany)
    · next hmax => exact ends_scale hn (not_lt.mp hmax)
  · rw [hread]
    exact .blamesArguments (.badPlaces fault rfl hbad)

theorem asNumber_text_of_isFiniteLiteral {s : String}
    (h : IsFiniteLiteral (Text.strip s).toList) : ∃ x, asNumber (.text s) = .ok x := by
  obtain ⟨x, hx⟩ := Quantity.exists_read?_eq_finite_iff.mpr h
  rw [Text.strip, String.toList_ofList] at hx
  exact ⟨x, by simp only [asNumber, hx]⟩

theorem asNumber_text_of_not_isFiniteLiteral {s : String}
    (h : ¬ IsFiniteLiteral (Text.strip s).toList) :
    ∃ shown ∈ [s, "inf", "-inf", "NaN"], asNumber (.text s) = .error (notANumber shown) := by
  rw [← Quantity.exists_read?_eq_finite_iff, Text.strip, String.toList_ofList] at h
  cases hread : Quantity.read? (Text.trimBy Text.isBlank s.toList) with
  | none => exact ⟨s, by simp, by simp only [asNumber, hread]⟩
  | some quantity =>
    cases quantity with
    | finite x => exact absurd ⟨x, hread⟩ h
    | infinite negative =>
      refine ⟨if negative then "-inf" else "inf", ?_, by simp only [asNumber, hread]⟩
      cases negative <;> simp
    | undefined => exact ⟨"NaN", by simp, by simp only [asNumber, hread]⟩

theorem ends_money (hword : value.FitsWord) : Ends "dinheiro" raw value (money value) := by
  have harguments (e : OperationError) : ¬ ArgumentFault "dinheiro" raw e :=
    fun hfault => absurd hfault.name_mem (by decide)
  have hnumber {x : Binary64} (hscalar : value.isContainer = false)
      (hliteral : ∀ s, value = .text s → IsFiniteLiteral (Text.strip s).toList)
      (h : asNumber value = .ok x) : Ends "dinheiro" raw value (money value) := by
    rw [money, h]
    refine .succeeds harguments fun e hfault => ?_
    cases hfault with
    | container _ hcontainer => exact absurd (hscalar.symm.trans hcontainer) (by decide)
    | scalar hname _ | noDigits hname _ _ => exact absurd hname (by decide)
    | noNumber _ htext hbad _ => exact hbad (hliteral _ htext)
  cases value with
  | null => exact hnumber rfl (by simp) rfl
  | bool b => exact hnumber rfl (by simp) rfl
  | number n =>
    obtain ⟨x, hx⟩ := Number.exists_toBinary?_eq_some hword
    exact hnumber (x := x) rfl (by simp) (by simp only [asNumber, hx])
  | text s =>
    by_cases hliteral : IsFiniteLiteral (Text.strip s).toList
    · obtain ⟨x, hx⟩ := asNumber_text_of_isFiniteLiteral hliteral
      refine hnumber rfl (fun t ht => ?_) hx
      rwa [← Value.text.inj ht]
    · obtain ⟨shown, hshown, herror⟩ := asNumber_text_of_not_isFiniteLiteral hliteral
      rw [money, herror]
      exact .blamesValue harguments (.noNumber rfl rfl hliteral hshown)
  | list items => exact .blamesValue harguments (.container (by decide) rfl)
  | record fields => exact .blamesValue harguments (.container (by decide) rfl)

theorem endsAsTold_amountOperations : ∀ operation ∈ amountOperations, EndsAsTold operation := by
  simp only [amountOperations, List.forall_mem_cons, List.not_mem_nil, false_imp_iff, implies_true,
    and_true]
  refine ⟨endsAsTold_scale _, acceptsScalars_plainAmount.endsAsTold_unary _ (by decide), ?_⟩
  intro raw value hword
  rw [Operation.call_unary]
  exact ends_money hword

theorem endsAsTold_dateOperations : ∀ operation ∈ dateOperations, EndsAsTold operation := by
  simp only [dateOperations, List.forall_mem_cons, List.not_mem_nil, false_imp_iff, implies_true,
    and_true]
  intro raw value _
  rw [Operation.call_of_isSupplied (Signature.isSupplied_of_optional (by decide) raw)]
  exact (acceptsScalars_reformatDate _ _).ends (by decide) fun _ hfault =>
    absurd hfault.name_mem (by decide)

theorem KeyCase.exists_read_eq_ok {name : String} (h : name ∈ keyCallbacks) :
    ∃ case, KeyCase.read name = .ok case := by
  simp only [keyCallbacks, List.mem_cons, List.not_mem_nil, or_false] at h
  rcases h with rfl | rfl | rfl | rfl <;> exact ⟨_, rfl⟩

theorem KeyCase.exists_read_eq_error {name : String} (h : name ∉ keyCallbacks) :
    ∃ reason, KeyCase.read name = .error reason := by
  simp only [keyCallbacks, List.mem_cons, List.not_mem_nil, or_false, not_or] at h
  obtain ⟨hlower, hupper, hupperFirst, hlowerFirst⟩ := h
  rw [KeyCase.read, if_neg hlower, if_neg hupper, if_neg hupperFirst, if_neg hlowerFirst]
  exact ⟨_, rfl⟩

theorem ends_convertKeys (case : KeyCase)
    (hcallback : Text.strip (firstOr "strtolower" raw) ∈ keyCallbacks) :
    Ends "array_convert_key_case" raw value (convertKeys case value) := by
  refine (acceptsContainers_convertKeys case).ends (by decide) fun e hfault => ?_
  cases hfault with
  | badCallback _ hbad => exact hbad hcallback
  | noMask hname _ | noLimit hname _ | badLimit _ hname _ _ | badPlaces _ hname _
  | manyPlaces hname _ _ => exact absurd hname (by decide)

theorem endsAsTold_convertKeys (description : String) :
    EndsAsTold ⟨"array_convert_key_case", ⟨[.optional "callback" "strtolower"]⟩, description,
      fun v args => do
        let case ← args.read 0 fun cs => KeyCase.read (String.ofList cs)
        convertKeys case v⟩ := by
  intro raw value _
  have hsupplied : Signature.isSupplied ⟨[.optional "callback" "strtolower"]⟩ raw = true :=
    Signature.isSupplied_of_optional (by decide) raw
  rw [Operation.call_of_isSupplied hsupplied]
  dsimp only
  have hget := Args.get_optional "callback" "strtolower" raw
  by_cases hcallback : Text.strip (firstOr "strtolower" raw) ∈ keyCallbacks
  · obtain ⟨case, hcase⟩ := KeyCase.exists_read_eq_ok hcallback
    rw [Args.read_of_ok (by rwa [hget, String.ofList_toList])]
    exact ends_convertKeys case hcallback
  · obtain ⟨reason, hreason⟩ := KeyCase.exists_read_eq_error hcallback
    rw [Args.read_of_error (by rwa [hget, String.ofList_toList]), hget]
    exact .blamesArguments (.badCallback rfl hcallback)

theorem endsAsTold_nestedOperations : ∀ operation ∈ nestedOperations, EndsAsTold operation := by
  simp only [nestedOperations, List.forall_mem_cons, List.not_mem_nil, false_imp_iff, implies_true,
    and_true]
  exact ⟨acceptsContainers_nullBlankLeaves.endsAsTold_unary _ (by decide) (by decide),
    acceptsContainers_trimLeaves.endsAsTold_unary _ (by decide) (by decide),
    endsAsTold_convertKeys _⟩

theorem endsAsTold_builtins : ∀ operation ∈ builtins, EndsAsTold operation := by
  simp only [builtins, List.forall_mem_append]
  exact ⟨⟨⟨endsAsTold_textOperations, endsAsTold_amountOperations⟩, endsAsTold_dateOperations⟩,
    endsAsTold_nestedOperations⟩

/-- No whole number that is read from a text lies beyond a machine word, so on every value that is
read a built-in operation ends as its faults tell. -/
theorem ends_of_read {operation : Operation} (hbuiltin : operation ∈ builtins) (raw : List String)
    {s : String} {value : Value} (hread : Value.read s = .ok value) :
    Ends operation.name raw value (operation.call value raw) :=
  endsAsTold_builtins operation hbuiltin raw value (Value.fitsWord_of_read hread)

/-- Every call of a built-in operation ends as its faults tell. The two operations that answer with
null for what they cannot use accept every scalar. -/
theorem builtin_calls_end_as_told {operation : Operation} (hbuiltin : operation ∈ builtins)
    (raw : List String) {value : Value} (hword : value.FitsWord) :
    Ends operation.name raw value (operation.call value raw) ∧
      (operation.name ∈ ["formata_data", "emailValidator"] → value.isContainer = false →
        ∃ output, operation.call value raw = .ok output) := by
  have hends := endsAsTold_builtins operation hbuiltin raw value hword
  refine ⟨hends, fun hname hscalar => ?_⟩
  have hlenient : ∀ name ∈ ["formata_data", "emailValidator"],
      name ∉ argumentRefusers ∧ name ∉ scalarRefusers := by decide
  obtain ⟨harguments, hother⟩ := hlenient operation.name hname
  cases hcall : operation.call value raw with
  | ok output => exact ⟨output, rfl⟩
  | error e =>
    rw [hcall] at hends
    cases hends with
    | blamesArguments hfault => exact absurd hfault.name_mem harguments
    | blamesValue _ hfault =>
      rw [hfault.isContainer hother] at hscalar
      cases hscalar

/-- A bad limit is blamed before a list in place of a text, and no pattern is a bad one. -/
theorem builtin_calls_end_as_told_limit_and_date :
    builtins[8].name = "limitar" ∧
      Ends "limitar" ["x"] (.list []) (builtins[8].call (.list []) ["x"]) ∧
      builtins[8].call (.list []) ["x"] =
        .error (.invalidArgument "limit" "x" "invalid digit found in string") ∧
      builtins[17].name = "formata_data" ∧
      ∃ output, builtins[17].call (.text "x") ["%"] = .ok output := by
  have hlist : (Value.list []).FitsWord := trivial
  have htext : (Value.text "x").FitsWord := trivial
  have hlimit := builtin_calls_end_as_told (List.getElem_mem (by decide : 8 < builtins.length))
    ["x"] hlist
  have hdate := builtin_calls_end_as_told (List.getElem_mem (by decide : 17 < builtins.length))
    ["%"] htext
  exact ⟨rfl, hlimit.1, rfl, rfl, hdate.2 (by decide) rfl⟩

end Filters

end FilterChain
