import FilterChain.Filters
import FilterChain.Proofs.Operation.Arguments
import FilterChain.Proofs.Operation.Signature

/-!
# What parameters get

If the required parameters come first, arguments bind exactly if there are enough for these, and
otherwise the first parameter behind the arguments is blamed. Bound arguments give every declared
parameter a text of its own: an argument or a default. The built-in operations see nothing else of
their arguments, so that each call can as well be made with these texts.
-/

namespace FilterChain

namespace Param

/-- What a parameter gets: its argument, or its default in place of a missing or empty one. -/
def argument (param : Param) (given? : Option String) : String :=
  match given? with
  | some arg => if arg = "" then param.default?.getD "" else arg
  | none => param.default?.getD ""

variable {param : Param} {given? : Option String}

theorem default?_of_isRequired (h : param.isRequired = true) : param.default? = none :=
  Option.isNone_iff_eq_none.mp h

theorem exists_default?_of_not_isRequired (h : param.isRequired = false) :
    ∃ default, param.default? = some default :=
  Option.isSome_iff_exists.mp (Option.isNone_eq_false_iff.mp h)

theorem argument_of_given {arg : String} (h : arg ≠ "" ∨ param.isRequired = true) :
    param.argument (some arg) = arg := by
  by_cases harg : arg = ""
  · have hrequired : param.isRequired = true := h.resolve_left (not_not_intro harg)
    rw [argument, if_pos harg, default?_of_isRequired hrequired, harg]
    rfl
  · rw [argument, if_neg harg]

theorem argument_of_default {default : String} (hdefault : param.default? = some default)
    (h : ∀ arg, given? = some arg → arg = "") : param.argument given? = default := by
  cases given? with
  | none => rw [argument, hdefault, Option.getD_some]
  | some arg => rw [argument, if_pos (h arg rfl), hdefault, Option.getD_some]

theorem argument_argument (param : Param) (given? : Option String) :
    param.argument (some (param.argument given?)) = param.argument given? := by
  by_cases hempty : param.argument given? = ""
  · have hdefault : param.default?.getD "" = "" := by
      cases given? with
      | none => exact hempty
      | some arg =>
        rw [argument] at hempty
        split at hempty
        · exact hempty
        · next hne => exact absurd hempty hne
    rw [hempty, argument, if_pos rfl, hdefault]
  · exact argument_of_given (Or.inl hempty)

end Param

namespace Signature

/-- One text for every declared parameter, and none for anything else. -/
def normalise (signature : Signature) (raw : List String) : List String :=
  signature.params.mapIdx fun i param => param.argument raw[i]?

theorem length_normalise (signature : Signature) (raw : List String) :
    (signature.normalise raw).length = signature.params.length :=
  List.length_mapIdx

theorem getElem?_normalise {signature : Signature} {i : Nat} {param : Param}
    (h : signature.params[i]? = some param) (raw : List String) :
    (signature.normalise raw)[i]? = some (param.argument raw[i]?) := by
  rw [normalise, List.getElem?_mapIdx, h, Option.map_some]

theorem isSupplied_normalise (signature : Signature) (raw : List String) :
    signature.isSupplied (signature.normalise raw) = true := by
  rw [isSupplied, length_normalise, List.drop_length]
  rfl

variable {params : List Param}

theorem countP_isRequired_of_optional {param : Param} (hparam : param.isRequired = false)
    (h : (param :: params).Pairwise fun earlier later =>
      later.isRequired = true → earlier.isRequired = true) :
    params.countP Param.isRequired = 0 := by
  refine List.countP_eq_zero.mpr fun later hlater hrequired => ?_
  rw [(List.pairwise_cons.mp h).1 later hlater hrequired] at hparam
  cases hparam

theorem missing?_of_pairwise
    (h : params.Pairwise fun earlier later => later.isRequired = true → earlier.isRequired = true)
    (position : Nat) (raw : List String) :
    missing? position params raw =
      if raw.length < params.countP Param.isRequired then
        params[raw.length]?.map fun param => (param, position + raw.length)
      else none := by
  -- The required parameters are a first part of the list: each takes one argument and one from the
  -- count, and behind the first optional one the count is zero.
  induction params generalizing position raw with
  | nil => rfl
  | cons param params ih =>
    have hrest := (List.pairwise_cons.mp h).2
    cases hparam : param.isRequired with
    | true =>
      have hcount : (param :: params).countP Param.isRequired =
          params.countP Param.isRequired + 1 := List.countP_cons_of_pos hparam
      cases raw with
      | nil => simp [missing?, hparam, hcount]
      | cons arg raw =>
        rw [missing?, ih hrest, hcount, List.length_cons, List.getElem?_cons_succ]
        simp only [Nat.add_lt_add_iff_right, Nat.add_right_comm position 1, Nat.add_assoc]
    | false =>
      have hnone := countP_isRequired_of_optional hparam h
      have hcount : (param :: params).countP Param.isRequired = 0 := by
        rw [List.countP_cons_of_neg (by simp [hparam]), hnone]
      cases raw with
      | nil => simp [missing?, hparam, ih hrest, hnone, hcount]
      | cons arg raw => simp [missing?, ih hrest, hnone, hcount]

theorem exists_isRequired_of_lt {i : Nat}
    (h : params.Pairwise fun earlier later => later.isRequired = true → earlier.isRequired = true)
    (hlt : i < params.countP Param.isRequired) :
    ∃ param, params[i]? = some param ∧ param.isRequired = true := by
  induction params generalizing i with
  | nil => exact absurd hlt (Nat.not_lt_zero i)
  | cons param params ih =>
    cases hparam : param.isRequired with
    | true =>
      cases i with
      | zero => exact ⟨param, rfl, hparam⟩
      | succ i =>
        rw [List.countP_cons_of_pos hparam] at hlt
        exact ih (List.pairwise_cons.mp h).2 (Nat.lt_of_succ_lt_succ hlt)
    | false =>
      rw [List.countP_cons_of_neg (by simp [hparam]), countP_isRequired_of_optional hparam h] at hlt
      exact absurd hlt (Nat.not_lt_zero i)

variable {signature : Signature} {raw : List String}

theorem bind_of_countP_le (h : signature.IsOrdered)
    (hle : signature.params.countP Param.isRequired ≤ raw.length) :
    signature.bind raw = .ok ⟨signature, raw⟩ := by
  rw [bind, missing?_of_pairwise h, if_neg (Nat.not_lt.mpr hle)]

theorem exists_bind_of_lt_countP (h : signature.IsOrdered)
    (hlt : raw.length < signature.params.countP Param.isRequired) :
    ∃ param, signature.params[raw.length]? = some param ∧ param.isRequired = true ∧
      signature.bind raw = .error (.missingArgument param.name (raw.length + 1)) := by
  obtain ⟨param, hparam, hrequired⟩ := exists_isRequired_of_lt h hlt
  refine ⟨param, hparam, hrequired, ?_⟩
  have hmissing := missing?_of_pairwise h 1 raw
  rw [if_pos hlt, hparam, Option.map_some] at hmissing
  rw [bind, hmissing, Nat.add_comm 1]

theorem exists_bind_eq_error_iff (h : signature.IsOrdered) :
    (∃ cause, signature.bind raw = .error cause) ↔
      raw.length < signature.params.countP Param.isRequired := by
  constructor
  · rintro ⟨cause, hbind⟩
    refine Nat.lt_of_not_le fun hle => ?_
    rw [bind_of_countP_le h hle] at hbind
    cases hbind
  · intro hlt
    obtain ⟨_, _, _, hbind⟩ := exists_bind_of_lt_countP h hlt
    exact ⟨_, hbind⟩

theorem exists_param_of_bind_eq_error (h : signature.IsOrdered) {cause : OperationError}
    (hbind : signature.bind raw = .error cause) :
    ∃ param, signature.params[raw.length]? = some param ∧ param.isRequired = true ∧
      cause = .missingArgument param.name (raw.length + 1) := by
  have hlt := (exists_bind_eq_error_iff h).mp ⟨cause, hbind⟩
  obtain ⟨param, hparam, hrequired, hmissing⟩ := exists_bind_of_lt_countP h hlt
  exact ⟨param, hparam, hrequired, Except.error.inj (hbind.symm.trans hmissing)⟩

theorem eq_of_bind_eq_ok {args : Args} (h : signature.bind raw = .ok args) :
    args = ⟨signature, raw⟩ := by
  unfold bind at h
  split at h
  · cases h
  · exact (Except.ok.inj h).symm

theorem isSupplied_of_bind_eq_ok {args : Args} (h : signature.bind raw = .ok args) :
    signature.isSupplied raw = true := by
  cases hsupplied : signature.isSupplied raw with
  | true => rfl
  | false =>
    obtain ⟨cause, herror⟩ := exists_bind_eq_error hsupplied
    rw [herror] at h
    cases h

theorem not_isRequired_of_bind_eq_ok {args : Args} (h : signature.bind raw = .ok args) {i : Nat}
    {param : Param} (hparam : signature.params[i]? = some param) (hraw : raw[i]? = none) :
    param.isRequired = false := by
  have hall := List.all_eq_true.mp (isSupplied_of_bind_eq_ok h)
  have hle : raw.length ≤ i := List.getElem?_eq_none_iff.mp hraw
  have hmem : param ∈ signature.params.drop raw.length := by
    refine List.mem_iff_getElem?.mpr ⟨i - raw.length, ?_⟩
    rw [List.getElem?_drop, Nat.add_sub_cancel' hle, hparam]
  simpa using hall param hmem

end Signature

namespace Args

variable {args : Args} {i : Nat} {param : Param}

theorem get_eq_argument (h : args.signature.params[i]? = some param) :
    args.get i = param.argument args.raw[i]? := by
  have hdefault : args.default? i = param.default? := by rw [default?, h, Option.bind_some]
  unfold get Param.argument
  rw [hdefault]
  cases args.raw[i]? with
  | none => cases param.default? <;> rfl
  | some arg => by_cases harg : arg = "" <;> cases param.default? <;> simp [harg]

theorem get_of_given (hparam : args.signature.params[i]? = some param) {arg : String}
    (harg : args.raw[i]? = some arg) (h : arg ≠ "" ∨ param.isRequired = true) :
    args.get i = arg := by
  rw [get_eq_argument hparam, harg, Param.argument_of_given h]

theorem exists_get_eq_default {signature : Signature} {raw : List String}
    (hbind : signature.bind raw = .ok args) (hparam : signature.params[i]? = some param)
    (hnot : ∀ arg, raw[i]? = some arg → ¬ (arg ≠ "" ∨ param.isRequired = true)) :
    ∃ default, param.default? = some default ∧ args.get i = default := by
  obtain rfl := Signature.eq_of_bind_eq_ok hbind
  have hoptional : param.isRequired = false := by
    cases harg : raw[i]? with
    | none => exact Signature.not_isRequired_of_bind_eq_ok hbind hparam harg
    | some arg => exact Bool.eq_false_iff.mpr (not_or.mp (hnot arg harg)).2
  obtain ⟨default, hdefault⟩ := Param.exists_default?_of_not_isRequired hoptional
  refine ⟨default, hdefault, ?_⟩
  rw [get_eq_argument hparam]
  refine Param.argument_of_default hdefault fun arg harg => ?_
  exact Classical.not_not.mp (not_or.mp (hnot arg harg)).1

theorem get_normalise (signature : Signature) (raw : List String)
    (h : i < signature.params.length) :
    get ⟨signature, signature.normalise raw⟩ i = get ⟨signature, raw⟩ i := by
  have hparam : signature.params[i]? = some signature.params[i] := List.getElem?_eq_getElem h
  calc
    get ⟨signature, signature.normalise raw⟩ i =
        signature.params[i].argument (signature.normalise raw)[i]? := get_eq_argument hparam
    _ = signature.params[i].argument (some (signature.params[i].argument raw[i]?)) := by
      rw [Signature.getElem?_normalise hparam]
    _ = signature.params[i].argument raw[i]? := Param.argument_argument _ _
    _ = get ⟨signature, raw⟩ i := (@get_eq_argument ⟨signature, raw⟩ i _ hparam).symm

theorem read_congr {α : Type} {signature : Signature} {raw other : List String}
    (h : get ⟨signature, raw⟩ i = get ⟨signature, other⟩ i)
    (reader : List Char → Except String α) :
    read ⟨signature, raw⟩ i reader = read ⟨signature, other⟩ i reader := by
  simp only [read, paramName, h]

theorem readWhole_congr {signature : Signature} {raw other : List String}
    (h : get ⟨signature, raw⟩ i = get ⟨signature, other⟩ i) (bounds : Bounds) :
    readWhole ⟨signature, raw⟩ i bounds = readWhole ⟨signature, other⟩ i bounds :=
  read_congr h _

end Args

namespace Operation

/-- The body makes no difference between arguments that give every declared parameter the same. -/
def ReadsDeclared (operation : Operation) : Prop :=
  ∀ (value : Value) (raw other : List String),
    (∀ i < operation.signature.params.length,
      Args.get ⟨operation.signature, raw⟩ i = Args.get ⟨operation.signature, other⟩ i) →
    operation.body value ⟨operation.signature, raw⟩ =
      operation.body value ⟨operation.signature, other⟩

theorem readsDeclared_unary (name description : String)
    (body : Value → Except OperationError Value) : ReadsDeclared (.unary name description body) :=
  fun _ _ _ _ => rfl

theorem ReadsDeclared.call_normalise {operation : Operation} (h : operation.ReadsDeclared)
    {raw : List String} (hsupplied : operation.signature.isSupplied raw = true) (value : Value) :
    operation.call value (operation.signature.normalise raw) = operation.call value raw := by
  rw [call_of_isSupplied hsupplied, call_of_isSupplied (Signature.isSupplied_normalise _ _)]
  exact h value _ _ fun _ hi => Args.get_normalise _ _ hi

end Operation

namespace Filters

theorem readsDeclared_mask (description : String) :
    Operation.ReadsDeclared ⟨"mascara", ⟨[.required "mask"]⟩, description,
      fun v args => mask (args.get 0) v⟩ := by
  intro value raw other hget
  dsimp only at hget ⊢
  rw [hget 0 Nat.one_pos]

theorem readsDeclared_limit (description : String) :
    Operation.ReadsDeclared ⟨"limitar", ⟨[.required "limit"]⟩, description,
      fun v args => do limit (← args.readWhole 0 .signed) v⟩ := by
  intro value raw other hget
  dsimp only at hget ⊢
  rw [Args.readWhole_congr (hget 0 Nat.one_pos)]

theorem readsDeclared_textOperations : ∀ operation ∈ textOperations, operation.ReadsDeclared := by
  have hunary := Operation.readsDeclared_unary
  simp only [textOperations, List.forall_mem_cons, List.not_mem_nil, false_imp_iff, implies_true,
    and_true]
  exact ⟨hunary _ _ _, hunary _ _ _, hunary _ _ _, hunary _ _ _, hunary _ _ _, hunary _ _ _,
    hunary _ _ _, readsDeclared_mask _, readsDeclared_limit _, hunary _ _ _, hunary _ _ _,
    hunary _ _ _, hunary _ _ _, hunary _ _ _⟩

theorem readsDeclared_amountOperations :
    ∀ operation ∈ amountOperations, operation.ReadsDeclared := by
  have hunary := Operation.readsDeclared_unary
  simp only [amountOperations, List.forall_mem_cons, List.not_mem_nil, false_imp_iff, implies_true,
    and_true]
  refine ⟨?_, hunary _ _ _, hunary _ _ _⟩
  intro value raw other hget
  dsimp only at hget ⊢
  rw [Args.readWhole_congr (hget 0 Nat.one_pos)]
  rfl

theorem readsDeclared_dateOperations : ∀ operation ∈ dateOperations, operation.ReadsDeclared := by
  simp only [dateOperations, List.forall_mem_cons, List.not_mem_nil, false_imp_iff, implies_true,
    and_true]
  intro value raw other hget
  dsimp only at hget ⊢
  rw [hget 0 Nat.two_pos, hget 1 Nat.one_lt_two]

theorem readsDeclared_nestedOperations :
    ∀ operation ∈ nestedOperations, operation.ReadsDeclared := by
  have hunary := Operation.readsDeclared_unary
  simp only [nestedOperations, List.forall_mem_cons, List.not_mem_nil, false_imp_iff, implies_true,
    and_true]
  refine ⟨hunary _ _ _, hunary _ _ _, ?_⟩
  intro value raw other hget
  dsimp only at hget ⊢
  rw [Args.read_congr (hget 0 Nat.one_pos)]

theorem readsDeclared_builtins : ∀ operation ∈ builtins, operation.ReadsDeclared := by
  simp only [builtins, List.forall_mem_append]
  exact ⟨⟨⟨readsDeclared_textOperations, readsDeclared_amountOperations⟩,
    readsDeclared_dateOperations⟩, readsDeclared_nestedOperations⟩

end Filters

namespace Signature

/-- Arguments bind to a valid signature exactly if there is one for each required parameter, and
the first parameter behind them is blamed otherwise. If they bind, every parameter gets its
argument, or its default if it is optional and the argument is missing or empty, and every call of
a built-in operation is the same with just these texts for arguments. -/
theorem arguments_follow_signature :
    (∀ (signature : Signature) (name : String), signature.validate name = .ok () →
      ∀ raw : List String,
        ((∃ cause, signature.bind raw = .error cause) ↔
          raw.length < signature.params.countP Param.isRequired) ∧
        (∀ cause, signature.bind raw = .error cause →
          ∃ param, signature.params[raw.length]? = some param ∧ param.isRequired = true ∧
            cause = .missingArgument param.name (raw.length + 1)) ∧
        ∀ args, signature.bind raw = .ok args →
          (signature.normalise raw).length = signature.params.length ∧
          ∀ i param, signature.params[i]? = some param →
            (signature.normalise raw)[i]? = some (args.get i) ∧
            (∀ arg, raw[i]? = some arg → arg ≠ "" ∨ param.isRequired = true → args.get i = arg) ∧
            ((∀ arg, raw[i]? = some arg → ¬ (arg ≠ "" ∨ param.isRequired = true)) →
              ∃ default, param.default? = some default ∧ args.get i = default)) ∧
    ∀ operation ∈ Filters.builtins, ∀ (value : Value) (raw : List String) (args : Args),
      operation.signature.bind raw = .ok args →
        operation.call value (operation.signature.normalise raw) = operation.call value raw := by
  constructor
  · intro signature name hvalid raw
    have hordered := isOrdered_of_validate hvalid
    refine ⟨exists_bind_eq_error_iff hordered,
      fun cause hbind => exists_param_of_bind_eq_error hordered hbind, ?_⟩
    intro args hbind
    refine ⟨length_normalise signature raw, fun i param hparam => ⟨?_, ?_, ?_⟩⟩
    · obtain rfl := eq_of_bind_eq_ok hbind
      rw [getElem?_normalise hparam, Args.get_eq_argument hparam]
    · intro arg harg hgiven
      obtain rfl := eq_of_bind_eq_ok hbind
      exact Args.get_of_given hparam harg hgiven
    · exact Args.exists_get_eq_default hbind hparam
  · intro operation hbuiltin value raw args hbind
    exact (Filters.readsDeclared_builtins operation hbuiltin).call_normalise
      (isSupplied_of_bind_eq_ok hbind) value

/-- An empty text is an argument for a required parameter and none for an optional one. -/
theorem arguments_follow_signature_empty_texts :
    (∃ cause, bind ⟨[.required "mask", .optional "from" "0"]⟩ [] = .error cause) ∧
      Args.get ⟨⟨[.required "mask", .optional "from" "0"]⟩, ["", "", "x"]⟩ 0 = "" ∧
      Args.get ⟨⟨[.required "mask", .optional "from" "0"]⟩, ["", "", "x"]⟩ 1 = "0" ∧
      Filters.builtins[14].name = "decimal" ∧
      Filters.builtins[14].call (.text "R$ 5") ["2"] =
        Filters.builtins[14].call (.text "R$ 5") ["", "x"] := by
  have hsignature := arguments_follow_signature.1 ⟨[.required "mask", .optional "from" "0"]⟩ "" rfl
  have hbound := ((hsignature ["", "", "x"]).2.2 _ rfl).2
  refine ⟨(hsignature []).1.mpr (by decide), (hbound 0 _ rfl).2.1 "" rfl (Or.inr rfl), ?_, rfl, ?_⟩
  · obtain ⟨default, hdefault, hget⟩ := (hbound 1 _ rfl).2.2 fun arg harg => by
      obtain rfl := Option.some.inj harg
      decide
    obtain rfl := Option.some.inj hdefault
    exact hget
  · exact arguments_follow_signature.2 _ (List.getElem_mem (by decide : 14 < _)) _ ["", "x"] _ rfl

end Signature

end FilterChain
