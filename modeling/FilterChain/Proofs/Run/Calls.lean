import FilterChain.Proofs.Run.Trace

/-!
# Which bodies a run enters

A run enters the bodies of the steps that it completes, once each and in order, and that of the
step it stops at if this has its arguments. Nothing else about the bodies can change the run: it
is the same in every registry that agrees with this one on names, signatures and those calls.
-/

namespace FilterChain

/-- The other registry has the same names and signatures, and its operations answer the given calls
in the same way. -/
structure Registry.AgreesOn (registry other : Registry) (calls : List Call) : Prop where
  signatures : ∀ name,
    (other.get? name).map Operation.signature = (registry.get? name).map Operation.signature
  answers : ∀ c ∈ calls, ∀ a b, registry.get? c.name = some a → other.get? c.name = some b →
    b.call c.input c.args = a.call c.input c.args

namespace Registry

variable {registry other : Registry} {s : Step} {value output : Value} {e : ChainError}
  {calls more : List Call}

theorem AgreesOn.mono (h : registry.AgreesOn other calls) (hsub : ∀ c ∈ more, c ∈ calls) :
    registry.AgreesOn other more :=
  ⟨h.signatures, fun c hc => h.answers c (hsub c hc)⟩

theorem AgreesOn.enters_eq (h : registry.AgreesOn other calls) (s : Step) :
    other.enters s = registry.enters s := by
  have hsignature := h.signatures s.name
  cases hget : registry.get? s.name with
  | none =>
    rw [hget, Option.map_none, Option.map_eq_none_iff] at hsignature
    rw [enters_of_get?_eq_none hget, enters_of_get?_eq_none hsignature]
  | some a =>
    rw [hget, Option.map_some, Option.map_eq_some_iff] at hsignature
    obtain ⟨b, hother, hsame⟩ := hsignature
    rw [enters_of_get?_eq_some hget, enters_of_get?_eq_some hother, hsame]

theorem AgreesOn.takes (h : registry.AgreesOn other calls)
    (hmem : (⟨s.name, s.args, value⟩ : Call) ∈ calls) (htakes : registry.Takes s value output) :
    other.Takes s value output := by
  obtain ⟨a, hget, hcall⟩ := htakes
  have hsignature := h.signatures s.name
  rw [hget, Option.map_some, Option.map_eq_some_iff] at hsignature
  obtain ⟨b, hother, _⟩ := hsignature
  exact ⟨b, hother, (h.answers _ hmem a b hget hother).trans hcall⟩

theorem AgreesOn.stops (h : registry.AgreesOn other calls)
    (hmem : registry.enters s = true → (⟨s.name, s.args, value⟩ : Call) ∈ calls)
    (hstops : registry.Stops s value e) : other.Stops s value e := by
  have hsignature := h.signatures s.name
  cases hstops with
  | unknown hget =>
    rw [hget, Option.map_none, Option.map_eq_none_iff] at hsignature
    exact .unknown hsignature
  | @failed a cause hget hcall =>
    rw [hget, Option.map_some, Option.map_eq_some_iff] at hsignature
    obtain ⟨b, hother, hsame⟩ := hsignature
    cases hsupplied : a.signature.isSupplied s.args with
    | true =>
      have henters := (enters_of_get?_eq_some hget).trans hsupplied
      exact .failed hother ((h.answers _ (hmem henters) a b hget hother).trans hcall)
    | false =>
      -- The arguments do not bind, so neither body is entered and the signatures alone decide.
      obtain ⟨missing, hbind⟩ := Signature.exists_bind_eq_error hsupplied
      rw [Operation.call_of_bind_eq_error hbind] at hcall
      obtain rfl := Except.error.inj hcall
      rw [← hsame] at hbind
      exact .failed hother (Operation.call_of_bind_eq_error hbind value)

end Registry

namespace Run

variable {registry other : Registry}

theorem calls_traced (registry : Registry) (index : Nat) (steps : List Step) (value : Value) :
    (traced registry index steps value).calls = (plain registry steps value).calls := by
  obtain ⟨completed, rest, records, last, rfl, htrace, hhalts⟩ :=
    exists_isTrace registry index steps value
  cases rest with
  | nil => rw [List.append_nil, plain_of_isTrace htrace, traced_of_isTrace htrace]
  | cons s rest =>
    obtain ⟨e, hstops⟩ := hhalts s rfl
    rw [plain_of_stops htrace hstops, traced_of_stops htrace hstops]

theorem eq_of_agreesOn (steps : List Step) (index : Nat) (value : Value)
    (h : registry.AgreesOn other (plain registry steps value).calls) :
    plain other steps value = plain registry steps value ∧
      traced other index steps value = traced registry index steps value := by
  induction steps generalizing index value with
  | nil => exact ⟨rfl, rfl⟩
  | cons s steps ih =>
    rcases registry.takes_or_stops s value with ⟨output, htakes⟩ | ⟨e, hstops⟩
    · have hcalls := congrArg Report.calls (plain_cons_of_takes htakes steps)
      rw [hcalls] at h
      have hother := h.takes List.mem_cons_self htakes
      obtain ⟨hplain, htraced⟩ :=
        ih (index + 1) output (h.mono fun _ hc => List.mem_cons_of_mem _ hc)
      rw [plain_cons_of_takes htakes, plain_cons_of_takes hother, hplain,
        traced_cons_of_takes htakes, traced_cons_of_takes hother, htraced]
      exact ⟨rfl, rfl⟩
    · have hcalls := congrArg Report.calls (plain_cons_of_stops hstops steps)
      rw [hcalls] at h
      have hother :=
        h.stops (fun henters => by rw [if_pos henters]; exact List.mem_cons_self) hstops
      rw [plain_cons_of_stops hstops, plain_cons_of_stops hother, traced_cons_of_stops hstops,
        traced_cons_of_stops hother, h.enters_eq]
      exact ⟨rfl, rfl⟩

theorem calls_of_haltsAt {steps : List Step} {value current : Value} {k : Nat}
    {records : List StepRecord} (h : HaltsAt registry steps value k records current) :
    (plain registry steps value).calls = records.map StepRecord.call ++
      (((steps.drop k).take 1).filter registry.enters).map fun s => ⟨s.name, s.args, current⟩ := by
  rcases h.reports with ⟨hrest, hplain, -⟩ | ⟨s, rest, e, hrest, -, hplain, -⟩
  · rw [hplain, hrest]
    simp
  · rw [hplain, hrest]
    cases henters : registry.enters s <;> simp [henters]

end Run

namespace Registry

/-- A malformed specification enters no body. Otherwise the run enters the bodies of the steps in
front of the first one that stops, and that of this step if its name is known and its arguments
are there, once each and in order; a spy's counter grows by the spies among them. What other bodies
would do, or these on other values, has no influence on the run. -/
theorem calls_of_apply (registry : Registry) (spec : String) (value : Value) :
    (∀ e, Step.parseSpec spec = .error e → (registry.apply spec value).calls = []) ∧
    (∀ steps, Step.parseSpec spec = .ok steps →
      (∃ k records current, Run.HaltsAt registry steps value k records current) ∧
      ∀ k records current, Run.HaltsAt registry steps value k records current →
        (registry.apply spec value).calls = records.map StepRecord.call ++
          (((steps.drop k).take 1).filter registry.enters).map
            (fun s => ⟨s.name, s.args, current⟩) ∧
        ∀ isSpy : String → Bool,
          (registry.apply spec value).calls.countP (fun c => isSpy c.name) =
            (steps.take k ++ ((steps.drop k).take 1).filter registry.enters).countP
              (fun s => isSpy s.name)) ∧
    (registry.applyTraced spec value).calls = (registry.apply spec value).calls ∧
    ∀ other, registry.AgreesOn other (registry.apply spec value).calls →
      other.apply spec value = registry.apply spec value ∧
        other.applyTraced spec value = registry.applyTraced spec value := by
  cases hspec : Step.parseSpec spec with
  | error e =>
    have happly := fun r : Registry => apply_of_parseSpec_error hspec r value
    have htraced := fun r : Registry => applyTraced_of_parseSpec_error hspec r value
    refine ⟨?_, ?_, ?_, ?_⟩
    · intro _ _
      rw [happly]
      rfl
    · intro steps h
      cases h
    · rw [happly, htraced]
      rfl
    · intro other _
      exact ⟨(happly other).trans (happly registry).symm,
        (htraced other).trans (htraced registry).symm⟩
  | ok steps =>
    have happly := fun r : Registry => apply_of_parseSpec_ok hspec r value
    have htraced := fun r : Registry => applyTraced_of_parseSpec_ok hspec r value
    rw [happly, htraced]
    refine ⟨?_, ?_, Run.calls_traced registry 0 steps value, ?_⟩
    · intro e h
      cases h
    · intro steps' h
      obtain rfl := Except.ok.inj h
      refine ⟨Run.exists_haltsAt registry steps value, ?_⟩
      intro k records current hhalts
      have hcalls := Run.calls_of_haltsAt hhalts
      refine ⟨hcalls, fun isSpy => ?_⟩
      rw [hcalls, ← hhalts.completes.steps_eq]
      simp only [List.countP_append, List.countP_map]
      rfl
    · intro other hagrees
      rw [happly, htraced]
      exact Run.eq_of_agreesOn steps 0 value hagrees

def twoSpies (last : Value → Except OperationError Value) : Registry :=
  (empty.put (.unary "antes" "" .ok)).put (.unary "depois" "" last)

/-- A spy in front of an unknown name is called once, and what the spy behind it does is all the
same to the run. -/
theorem calls_of_apply_unknown_name :
    ((twoSpies .ok).apply "antes||depois" (.text "x")).calls = [] ∧
      ((twoSpies .ok).apply "antes|naoExiste|depois" (.text "x")).calls =
        [⟨"antes", [], .text "x"⟩] ∧
      (twoSpies fun _ => .error (.invalidInput "" "")).apply "antes|naoExiste|depois" (.text "x") =
        (twoSpies .ok).apply "antes|naoExiste|depois" (.text "x") := by
  have hspec : Step.parseSpec "antes|naoExiste|depois" =
      .ok [⟨"antes", []⟩, ⟨"naoExiste", []⟩, ⟨"depois", []⟩] := rfl
  have hfirst : (twoSpies .ok).Takes ⟨"antes", []⟩ (.text "x") (.text "x") := ⟨_, rfl, rfl⟩
  have hhalts : Run.HaltsAt (twoSpies .ok) [⟨"antes", []⟩, ⟨"naoExiste", []⟩, ⟨"depois", []⟩]
      (.text "x") 1 [⟨0, "antes", [], .text "x", .text "x"⟩] (.text "x") := by
    refine ⟨by decide, (Run.IsTrace.nil _ 1 _).cons hfirst, ?_⟩
    intro s hs
    obtain rfl := Option.some.inj hs
    exact ⟨_, .unknown rfl⟩
  refine ⟨(calls_of_apply (twoSpies .ok) "antes||depois" (.text "x")).1 _ rfl,
    (((calls_of_apply (twoSpies .ok) _ (.text "x")).2.1 _ hspec).2 1 _ _ hhalts).1, ?_⟩
  refine ((calls_of_apply (twoSpies .ok) _ (.text "x")).2.2.2 _ ⟨?_, ?_⟩).1
  · intro name
    show (List.find? (·.name = name) [_, _]).map Operation.signature =
      (List.find? (·.name = name) [_, _]).map Operation.signature
    simp only [List.find?_cons, Operation.unary]
    cases decide ("antes" = name) <;> cases decide ("depois" = name) <;> rfl
  · intro c hc a b ha hb
    obtain rfl := List.mem_singleton.mp hc
    obtain rfl := Option.some.inj ha
    obtain rfl := Option.some.inj hb
    rfl

end Registry

end FilterChain
