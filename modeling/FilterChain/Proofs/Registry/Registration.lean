import FilterChain.Proofs.Operation.Signature
import FilterChain.Proofs.Step.Grammar
import FilterChain.Registry

/-!
# Registrations

Whatever is registered, in whatever order, a registry holds operations that a specification can
name and whose required parameters come first, each under its own name. A registration that is
refused leaves no trace, and one that succeeds adds one name and changes no other.
-/

namespace FilterChain

/-- A call that adds an operation to a registry: the operation itself, a body under a name, or an
operation under another name. -/
inductive Registration where
  | direct (operation : Operation)
  | function (name : String) (signature : Signature)
      (body : Value → Args → Except OperationError Value)
  | alias (operation : Operation) (name : String)

def Registration.added : Registration → Operation
  | .direct operation => operation
  | .function name signature body => ⟨name, signature, "", body⟩
  | .alias operation name => operation.withName name

theorem Operation.validate_eq_ok_iff {operation : Operation} :
    operation.validate = .ok () ↔
      ¬ IsUnusableName operation.name ∧ operation.signature.IsOrdered := by
  rw [validate, ← isUsableName_eq_true_iff]
  constructor
  · intro h
    split at h
    · next hname => exact ⟨hname, Signature.isOrdered_of_validate h⟩
    · cases h
  · rintro ⟨hname, hordered⟩
    rw [if_pos hname, Signature.validate_of_isOrdered hordered]

namespace Registry

def attempt (registry : Registry) (call : Registration) :
    Except RegistrationError Unit × Registry :=
  match registry.register call.added with
  | .error e => (.error e, registry)
  | .ok grown => (.ok (), grown)

def afterAll (registry : Registry) (calls : List Registration) : Registry :=
  calls.foldl (fun registry call => (registry.attempt call).2) registry

/-- Every operation of the registry is found under its own name and no other, its name can be part
of a specification, and its required parameters come first. -/
structure IsSound (registry : Registry) : Prop where
  keyed : ∀ name operation, registry.get? name = some operation ↔
    operation ∈ registry.operations ∧ operation.name = name
  usable : ∀ operation ∈ registry.operations, ¬ IsUnusableName operation.name
  ordered : ∀ operation ∈ registry.operations, operation.signature.IsOrdered

/-- The answer that an operation gets: the first of three faults that applies, or none. -/
inductive Judges (registry : Registry) (operation : Operation) :
    Except RegistrationError Unit → Prop where
  | invalidName (hname : IsUnusableName operation.name) :
      Judges registry operation (.error (.invalidName operation.name))
  | invalidSignature {required optional : Param} (hname : ¬ IsUnusableName operation.name)
      (hsignature : operation.signature.IsMisplaced required optional) :
      Judges registry operation
        (.error (.requiredAfterOptional operation.name required.name optional.name))
  | duplicate (hname : ¬ IsUnusableName operation.name)
      (hsignature : operation.signature.IsOrdered)
      (hstored : registry.contains operation.name = true) :
      Judges registry operation (.error (.duplicate operation.name))
  | accepted (hname : ¬ IsUnusableName operation.name)
      (hsignature : operation.signature.IsOrdered)
      (hnew : registry.contains operation.name = false) :
      Judges registry operation (.ok ())

variable {registry : Registry} {operation : Operation} {call : Registration} {name : String}

theorem find?_insert (operations : List Operation) (operation : Operation) (name : String) :
    (insert operation operations).find? (·.name = name) =
      if operation.name = name then some operation else operations.find? (·.name = name) := by
  induction operations with
  | nil => by_cases h : operation.name = name <;> simp [insert, h]
  | cons head rest ih =>
    unfold insert
    split
    · next heq => by_cases h : operation.name = name <;> simp [h, ← heq]
    · next hne =>
      split
      · by_cases h : operation.name = name <;> simp [h]
      · by_cases hhead : head.name = name
        · have h : ¬ operation.name = name := fun h => hne (h.trans hhead.symm)
          simp [hhead, h]
        · simp [hhead, ih]

theorem get?_put (registry : Registry) (operation : Operation) (name : String) :
    (registry.put operation).get? name =
      if operation.name = name then some operation else registry.get? name :=
  find?_insert registry.operations operation name

theorem length_insert_of_new {operations : List Operation}
    (h : ∀ stored ∈ operations, stored.name ≠ operation.name) :
    (insert operation operations).length = operations.length + 1 := by
  induction operations with
  | nil => rfl
  | cons head rest ih =>
    have hne : ¬ operation.name = head.name := Ne.symm (h head List.mem_cons_self)
    have hrest := ih fun stored hstored => h stored (List.mem_cons_of_mem _ hstored)
    unfold insert
    rw [if_neg hne]
    split
    · rfl
    · rw [List.length_cons, hrest, List.length_cons]

theorem contains_eq_false_iff : registry.contains name = false ↔ registry.get? name = none := by
  rw [contains, Option.isSome_eq_false_iff, Option.isNone_iff_eq_none]

theorem get?_put_of_new {stored : Operation} (hnew : registry.contains operation.name = false)
    (h : registry.get? name = some stored) : (registry.put operation).get? name = some stored := by
  have hne : operation.name ≠ name := by
    rintro rfl
    rw [contains_eq_false_iff.mp hnew] at h
    cases h
  rw [get?_put, if_neg hne, h]

theorem ne_of_contains_eq_false (h : registry.contains name = false) :
    ∀ stored ∈ registry.operations, stored.name ≠ name := by
  intro stored hstored
  have hnone := List.find?_eq_none.mp (contains_eq_false_iff.mp h) stored hstored
  simpa using hnone

theorem size_put_of_new (h : registry.contains operation.name = false) :
    (registry.put operation).size = registry.size + 1 :=
  length_insert_of_new (ne_of_contains_eq_false h)

theorem eq_of_name_eq {operations : List Operation} (h : operations.Pairwise Operation.Precedes)
    {a b : Operation} (ha : a ∈ operations) (hb : b ∈ operations) (hname : a.name = b.name) :
    a = b := by
  induction operations with
  | nil => cases ha
  | cons head rest ih =>
    obtain ⟨hhead, hrest⟩ := List.pairwise_cons.mp h
    have hne : ∀ other ∈ rest, head.name ≠ other.name := by
      intro other hother heq
      have hprecedes := hhead other hother
      rw [Operation.Precedes, heq] at hprecedes
      exact List.lt_irrefl _ hprecedes
    rcases List.mem_cons.mp ha with rfl | harest
    · rcases List.mem_cons.mp hb with rfl | hbrest
      · rfl
      · exact absurd hname (hne b hbrest)
    · rcases List.mem_cons.mp hb with rfl | hbrest
      · exact absurd hname.symm (hne a harest)
      · exact ih hrest harest hbrest

theorem get?_eq_some_iff (registry : Registry) (name : String) (operation : Operation) :
    registry.get? name = some operation ↔
      operation ∈ registry.operations ∧ operation.name = name := by
  constructor
  · intro h
    exact ⟨List.mem_of_find?_eq_some h, by simpa using List.find?_some h⟩
  · rintro ⟨hmem, rfl⟩
    cases hfind : registry.get? operation.name with
    | none => exact absurd rfl (ne_of_contains_eq_false (contains_eq_false_iff.mpr hfind) _ hmem)
    | some other =>
      have hother : other ∈ registry.operations := List.mem_of_find?_eq_some hfind
      have hname : other.name = operation.name := by simpa using List.find?_some hfind
      rw [eq_of_name_eq registry.sorted hother hmem hname]

theorem register_of_judges {outcome : Except RegistrationError Unit}
    (h : registry.Judges operation outcome) :
    registry.register operation = outcome.map fun _ => registry.put operation := by
  cases h with
  | invalidName hname =>
    rw [register, Operation.validate, isUsableName_eq_false_iff.mpr hname]
    rfl
  | invalidSignature hname hsignature =>
    rw [register, Operation.validate, isUsableName_eq_true_iff.mpr hname, if_pos rfl,
      Signature.validate_of_isMisplaced hsignature]
    rfl
  | duplicate hname hsignature hstored =>
    rw [register, Operation.validate, isUsableName_eq_true_iff.mpr hname, if_pos rfl,
      Signature.validate_of_isOrdered hsignature, hstored]
    rfl
  | accepted hname hsignature hnew =>
    rw [register, Operation.validate, isUsableName_eq_true_iff.mpr hname, if_pos rfl,
      Signature.validate_of_isOrdered hsignature, hnew]
    rfl

theorem exists_judges (registry : Registry) (operation : Operation) :
    ∃ outcome, registry.Judges operation outcome := by
  by_cases hname : IsUnusableName operation.name
  · exact ⟨_, .invalidName hname⟩
  · rcases operation.signature.isOrdered_or_isMisplaced with hordered | ⟨_, _, hmisplaced⟩
    · cases hstored : registry.contains operation.name with
      | true => exact ⟨_, .duplicate hname hordered hstored⟩
      | false => exact ⟨_, .accepted hname hordered hstored⟩
    · exact ⟨_, .invalidSignature hname hmisplaced⟩

theorem register_eq_ok_iff {grown : Registry} :
    registry.register operation = .ok grown ↔
      operation.validate = .ok () ∧ registry.contains operation.name = false ∧
        grown = registry.put operation := by
  rw [Operation.validate_eq_ok_iff]
  constructor
  · intro h
    obtain ⟨outcome, houtcome⟩ := registry.exists_judges operation
    rw [register_of_judges houtcome] at h
    cases houtcome with
    | invalidName | invalidSignature | duplicate => cases h
    | accepted hname hsignature hnew =>
      exact ⟨⟨hname, hsignature⟩, hnew, (Except.ok.inj h).symm⟩
  · rintro ⟨⟨hname, hsignature⟩, hnew, rfl⟩
    exact register_of_judges (.accepted hname hsignature hnew)

theorem attempt_of_judges {outcome : Except RegistrationError Unit}
    (h : registry.Judges call.added outcome) :
    registry.attempt call =
      (outcome, match outcome with
        | .error _ => registry
        | .ok _ => registry.put call.added) := by
  rw [attempt, register_of_judges h]
  cases outcome <;> rfl

theorem fst_attempt_eq_iff {outcome : Except RegistrationError Unit} :
    (registry.attempt call).1 = outcome ↔ registry.Judges call.added outcome := by
  constructor
  · rintro rfl
    obtain ⟨outcome, houtcome⟩ := registry.exists_judges call.added
    rwa [attempt_of_judges houtcome]
  · intro h
    rw [attempt_of_judges h]

theorem snd_attempt_of_error {e : RegistrationError} (h : (registry.attempt call).1 = .error e) :
    (registry.attempt call).2 = registry := by
  rw [attempt_of_judges (fst_attempt_eq_iff.mp h)]

theorem snd_attempt_of_ok (h : (registry.attempt call).1 = .ok ()) :
    (registry.attempt call).2 = registry.put call.added := by
  rw [attempt_of_judges (fst_attempt_eq_iff.mp h)]

theorem IsSound.attempt (h : registry.IsSound) (call : Registration) :
    (registry.attempt call).2.IsSound := by
  obtain ⟨outcome, houtcome⟩ := registry.exists_judges call.added
  rw [attempt_of_judges houtcome]
  cases houtcome with
  | invalidName | invalidSignature | duplicate => exact h
  | accepted hname hsignature _ =>
    refine ⟨get?_eq_some_iff _, fun operation hmem => ?_, fun operation hmem => ?_⟩
    · rcases mem_insert hmem with rfl | hmem
      · exact hname
      · exact h.usable operation hmem
    · rcases mem_insert hmem with rfl | hmem
      · exact hsignature
      · exact h.ordered operation hmem

theorem get?_attempt_of_get?_eq_some (h : registry.get? name = some operation)
    (call : Registration) : (registry.attempt call).2.get? name = some operation := by
  obtain ⟨outcome, houtcome⟩ := registry.exists_judges call.added
  rw [attempt_of_judges houtcome]
  cases houtcome with
  | invalidName | invalidSignature | duplicate => exact h
  | accepted _ _ hnew => exact get?_put_of_new hnew h

theorem IsSound.afterAll (h : registry.IsSound) (calls : List Registration) :
    (registry.afterAll calls).IsSound := by
  induction calls generalizing registry with
  | nil => exact h
  | cons call calls ih => exact ih (h.attempt call)

theorem get?_afterAll_of_get?_eq_some (h : registry.get? name = some operation)
    (calls : List Registration) : (registry.afterAll calls).get? name = some operation := by
  induction calls generalizing registry with
  | nil => exact h
  | cons call calls ih => exact ih (get?_attempt_of_get?_eq_some h call)

theorem isSound_empty : empty.IsSound where
  keyed := get?_eq_some_iff empty
  usable _ h := by cases h
  ordered _ h := by cases h

theorem mem_operations_foldl_put {operations : List Operation} {start : Registry}
    (h : operation ∈
      (operations.foldl (fun registry added => registry.put added) start).operations) :
    operation ∈ operations ∨ operation ∈ start.operations := by
  induction operations generalizing start with
  | nil => exact Or.inr h
  | cons added operations ih =>
    rcases ih h with h | h
    · exact Or.inl (List.mem_cons_of_mem _ h)
    · rcases mem_insert h with rfl | h
      · exact Or.inl List.mem_cons_self
      · exact Or.inr h

theorem mem_builtins_of_mem_builtin (h : operation ∈ builtin.operations) :
    operation ∈ Filters.builtins := by
  rcases mem_operations_foldl_put h with h | h
  · exact h
  · cases h

/-- The built-in operations are put in their places without a check, but all of them would pass. -/
theorem validate_of_mem_builtins : ∀ operation ∈ Filters.builtins, operation.validate = .ok () := by
  decide

theorem isSound_builtin : builtin.IsSound where
  keyed := get?_eq_some_iff builtin
  usable operation h :=
    (Operation.validate_eq_ok_iff.mp
      (validate_of_mem_builtins operation (mem_builtins_of_mem_builtin h))).1
  ordered operation h :=
    (Operation.validate_eq_ok_iff.mp
      (validate_of_mem_builtins operation (mem_builtins_of_mem_builtin h))).2

theorem isSound_afterAll {start : Registry} (hstart : start = empty ∨ start = builtin)
    (calls : List Registration) : (start.afterAll calls).IsSound := by
  rcases hstart with rfl | rfl
  · exact isSound_empty.afterAll calls
  · exact isSound_builtin.afterAll calls

/-- After any run of registrations on the empty registry or on the built-in one, the registry is
sound. Each further registration is answered with the first fault that its operation has, and then
changes nothing, or adds this operation and changes no other name. What is stored once stays. -/
theorem registrations_are_atomic {start : Registry} (hstart : start = empty ∨ start = builtin)
    (calls : List Registration) :
    (start.afterAll calls).IsSound ∧
    (∀ call,
      (∀ outcome, ((start.afterAll calls).attempt call).1 = outcome ↔
        (start.afterAll calls).Judges call.added outcome) ∧
      (∀ e, ((start.afterAll calls).attempt call).1 = .error e →
        ((start.afterAll calls).attempt call).2 = start.afterAll calls) ∧
      (((start.afterAll calls).attempt call).1 = .ok () →
        ((start.afterAll calls).attempt call).2.size = (start.afterAll calls).size + 1 ∧
        ((start.afterAll calls).attempt call).2.get? call.added.name = some call.added ∧
        ∀ name, name ≠ call.added.name →
          ((start.afterAll calls).attempt call).2.get? name = (start.afterAll calls).get? name)) ∧
    ∀ more name operation, (start.afterAll calls).get? name = some operation →
      ((start.afterAll calls).afterAll more).get? name = some operation := by
  have hsound : start.IsSound := by
    rcases hstart with rfl | rfl
    · exact isSound_empty
    · exact isSound_builtin
  refine ⟨hsound.afterAll calls, ?_, fun more _ _ h => get?_afterAll_of_get?_eq_some h more⟩
  generalize start.afterAll calls = registry
  intro call
  refine ⟨fun _ => fst_attempt_eq_iff, fun _ => snd_attempt_of_error, fun hok => ?_⟩
  rw [snd_attempt_of_ok hok]
  cases fst_attempt_eq_iff.mp hok with
  | accepted _ _ hnew =>
    refine ⟨size_put_of_new hnew, ?_, fun name hname => ?_⟩
    · rw [get?_put, if_pos rfl]
    · rw [get?_put, if_neg hname.symm]

/-- A second name for a built-in operation is accepted, but not in the place of another one. -/
theorem registrations_are_atomic_alias :
    (builtin.afterAll [.alias Filters.squeezeOperation "umEspaco"]).IsSound ∧
      ((builtin.afterAll [.alias Filters.squeezeOperation "umEspaco"]).attempt
        (.alias Filters.squeezeOperation "trim")).1 = .error (.duplicate "trim") := by
  have h := registrations_are_atomic (Or.inr rfl) [.alias Filters.squeezeOperation "umEspaco"]
  refine ⟨h.1, ((h.2.1 (.alias Filters.squeezeOperation "trim")).1 _).mpr (.duplicate ?_ ?_ ?_)⟩
  · exact isUsableName_eq_true_iff.mp (by decide)
  · exact List.Pairwise.nil
  · decide

end Registry

end FilterChain
