import FilterChain.Operation
import FilterChain.Proofs.Number.Numeral

/-!
# Binding arguments

Arguments bind to a signature exactly if every required parameter has one. Extra arguments never
hinder, and the operation's body is entered only behind a successful binding. What it then reads is
the argument, or the default of a parameter whose argument is missing or empty, without the blanks
at both ends.
-/

namespace FilterChain

/-- No required parameter is left without an argument. -/
def Signature.isSupplied (signature : Signature) (raw : List String) : Bool :=
  (signature.params.drop raw.length).all fun param => !param.isRequired

namespace Signature

theorem missing?_eq_none_iff {position : Nat} {params : List Param} {raw : List String} :
    missing? position params raw = none ↔
      (params.drop raw.length).all (fun param => !param.isRequired) = true := by
  induction params generalizing position raw with
  | nil => simp [missing?]
  | cons param params ih =>
    cases raw with
    | nil =>
      have hrest := @ih (position + 1) []
      unfold missing?
      split
      · next hrequired => simp [hrequired]
      · next hoptional => simpa [hoptional] using hrest
    | cons arg raw =>
      have hrest := @ih (position + 1) raw
      simpa [missing?] using hrest

theorem bind_of_isSupplied {signature : Signature} {raw : List String}
    (h : signature.isSupplied raw = true) : signature.bind raw = .ok ⟨signature, raw⟩ := by
  rw [bind, missing?_eq_none_iff.mpr h]

theorem isSupplied_of_optional {signature : Signature}
    (h : ∀ param ∈ signature.params, param.isRequired = false) (raw : List String) :
    signature.isSupplied raw = true := by
  refine List.all_eq_true.mpr fun param hparam => ?_
  rw [h param (List.mem_of_mem_drop hparam), Bool.not_false]

theorem isSupplied_required (name arg : String) (raw : List String) :
    isSupplied ⟨[.required name]⟩ (arg :: raw) = true := by
  simp [isSupplied]

theorem exists_bind_eq_error {signature : Signature} {raw : List String}
    (h : signature.isSupplied raw = false) : ∃ cause, signature.bind raw = .error cause := by
  cases hmissing : missing? 1 signature.params raw with
  | none =>
    have hsupplied : signature.isSupplied raw = true := missing?_eq_none_iff.mp hmissing
    rw [h] at hsupplied
    cases hsupplied
  | some found =>
    refine ⟨.missingArgument found.1.name found.2, ?_⟩
    rw [bind, hmissing]

end Signature

namespace Operation

theorem call_of_isSupplied {operation : Operation} {raw : List String}
    (h : operation.signature.isSupplied raw = true) (value : Value) :
    operation.call value raw = operation.body value ⟨operation.signature, raw⟩ := by
  rw [call, Signature.bind_of_isSupplied h]
  rfl

theorem call_of_bind_eq_error {operation : Operation} {raw : List String} {cause : OperationError}
    (h : operation.signature.bind raw = .error cause) (value : Value) :
    operation.call value raw = .error cause := by
  rw [call, h]
  rfl

theorem isSupplied_of_call_eq_ok {operation : Operation} {raw : List String} {value output : Value}
    (h : operation.call value raw = .ok output) : operation.signature.isSupplied raw = true := by
  cases hsupplied : operation.signature.isSupplied raw with
  | true => rfl
  | false =>
    obtain ⟨cause, hbind⟩ := Signature.exists_bind_eq_error hsupplied
    rw [call_of_bind_eq_error hbind] at h
    cases h

theorem call_unary (name description : String) (body : Value → Except OperationError Value)
    (value : Value) (raw : List String) :
    (unary name description body).call value raw = body value :=
  call_of_isSupplied (Signature.isSupplied_of_optional (by simp [unary]) raw) value

end Operation

/-- The first argument, or the default if it is missing or empty. -/
def firstOr (default : String) : List String → String
  | [] => default
  | arg :: _ => if arg = "" then default else arg

namespace Args

theorem get_required (name arg : String) (raw : List String) :
    get ⟨⟨[.required name]⟩, arg :: raw⟩ 0 = arg := by
  simp only [get, default?, Param.required, List.getElem?_cons_zero, Option.bind_some]

theorem get_optional (name default : String) (raw : List String) :
    get ⟨⟨[.optional name default]⟩, raw⟩ 0 = firstOr default raw := by
  cases raw with
  | nil => rfl
  | cons arg raw =>
    simp only [get, default?, Param.optional, firstOr, List.getElem?_cons_zero, Option.bind_some]
    split <;> simp_all

variable {α : Type} {args : Args} {index : Nat}

theorem read_of_ok {reader : List Char → Except String α} {a : α}
    (h : reader (Text.strip (args.get index)).toList = .ok a) :
    args.read index reader = .ok a := by
  rw [Text.strip, String.toList_ofList] at h
  rw [read, h]

theorem read_of_error {reader : List Char → Except String α} {reason : String}
    (h : reader (Text.strip (args.get index)).toList = .error reason) :
    args.read index reader =
      .error (.invalidArgument (args.paramName index) (args.get index) reason) := by
  rw [Text.strip, String.toList_ofList] at h
  rw [read, h]

theorem readWhole_of_isNumeral {bounds : Bounds} {n : Int} (hlow : bounds.low ≤ 0)
    (hhigh : 0 ≤ bounds.high) (hn : bounds.IsNumeral (Text.strip (args.get index)).toList n) :
    args.readWhole index bounds = .ok n := by
  refine read_of_ok ?_
  rw [(Bounds.read_eq_ok_iff hlow hhigh).mpr hn]
  rfl

/-- A whole number is read exactly if the argument spells one that lies in the bounds. -/
theorem readWhole_eq_ok_or_error (args : Args) (index : Nat) {bounds : Bounds}
    (hlow : bounds.low ≤ 0) (hhigh : 0 ≤ bounds.high) :
    (∃ n, bounds.IsNumeral (Text.strip (args.get index)).toList n ∧
        args.readWhole index bounds = .ok n) ∨
      (¬ ∃ n, bounds.IsNumeral (Text.strip (args.get index)).toList n) ∧
        ∃ fault : NumeralFault, args.readWhole index bounds =
          .error (.invalidArgument (args.paramName index) (args.get index) fault.message) := by
  cases hread : bounds.read (Text.strip (args.get index)).toList with
  | ok n =>
    have hn := (Bounds.read_eq_ok_iff hlow hhigh).mp hread
    exact Or.inl ⟨n, hn, readWhole_of_isNumeral hlow hhigh hn⟩
  | error fault =>
    refine Or.inr ⟨?_, fault, read_of_error ?_⟩
    · rintro ⟨n, hn⟩
      rw [(Bounds.read_eq_ok_iff hlow hhigh).mpr hn] at hread
      cases hread
    · rw [hread]
      rfl

end Args

end FilterChain
