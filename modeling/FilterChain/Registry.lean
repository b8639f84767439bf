import FilterChain.Filters

/-!
# Registries

A registry maps names to operations. Its operations are kept in the order of their names, so that
the order of registration leaves no trace, and no two of them share a name. Names are told apart
by case, and their order is that of their bytes in UTF-8.
-/

namespace FilterChain

def nameBytes (name : String) : List UInt8 :=
  name.toUTF8.data.toList

theorem nameBytes_injective {a b : String} (h : nameBytes a = nameBytes b) : a = b :=
  String.toByteArray_inj.mp (ByteArray.ext (Array.toList_inj.mp h))

/-- Of two different names, one comes first. -/
theorem nameBytes_lt_of_not_lt {a b : String} (hne : a ≠ b) (h : ¬ nameBytes a < nameBytes b) :
    nameBytes b < nameBytes a := by
  have hle : nameBytes b ≤ nameBytes a := List.not_lt.mp h
  rcases List.le_iff_lt_or_eq.mp hle with hlt | heq
  · exact hlt
  · exact absurd (nameBytes_injective heq).symm hne

def Operation.Precedes (a b : Operation) : Prop :=
  nameBytes a.name < nameBytes b.name

structure Registry where
  operations : List Operation
  sorted : operations.Pairwise Operation.Precedes

namespace Registry

def empty : Registry :=
  ⟨[], .nil⟩

/-- Puts an operation in its place by name, where it replaces one of the same name. -/
def insert (operation : Operation) : List Operation → List Operation
  | [] => [operation]
  | head :: rest =>
    if operation.name = head.name then operation :: rest
    else if nameBytes operation.name < nameBytes head.name then operation :: head :: rest
    else head :: insert operation rest

theorem mem_insert {operation other : Operation} {operations : List Operation}
    (h : other ∈ insert operation operations) : other = operation ∨ other ∈ operations := by
  induction operations with
  | nil => simpa [insert] using h
  | cons head rest ih =>
    unfold insert at h
    split at h
    · rcases List.mem_cons.mp h with rfl | h
      · exact Or.inl rfl
      · exact Or.inr (List.mem_cons_of_mem _ h)
    · split at h
      · exact List.mem_cons.mp h
      · rcases List.mem_cons.mp h with rfl | h
        · exact Or.inr List.mem_cons_self
        · rcases ih h with rfl | h
          · exact Or.inl rfl
          · exact Or.inr (List.mem_cons_of_mem _ h)

theorem pairwise_insert (operation : Operation) {operations : List Operation}
    (h : operations.Pairwise Operation.Precedes) :
    (insert operation operations).Pairwise Operation.Precedes := by
  induction operations with
  | nil => simp [insert]
  | cons head rest ih =>
    obtain ⟨hhead, hrest⟩ := List.pairwise_cons.mp h
    unfold insert
    split
    · next heq =>
      refine List.pairwise_cons.mpr ⟨fun other hother => ?_, hrest⟩
      have hlt := hhead other hother
      rwa [Operation.Precedes, heq]
    · next hne =>
      split
      · next hlt =>
        refine List.pairwise_cons.mpr ⟨fun other hother => ?_, h⟩
        rcases List.mem_cons.mp hother with rfl | hother
        · exact hlt
        · exact List.lt_trans hlt (hhead other hother)
      · next hnlt =>
        refine List.pairwise_cons.mpr ⟨fun other hother => ?_, ih hrest⟩
        rcases mem_insert hother with rfl | hother
        · exact nameBytes_lt_of_not_lt hne hnlt
        · exact hhead other hother

def put (operation : Operation) (registry : Registry) : Registry :=
  ⟨insert operation registry.operations, pairwise_insert operation registry.sorted⟩

def builtin : Registry :=
  Filters.builtins.foldl (fun registry operation => registry.put operation) empty

def get? (registry : Registry) (name : String) : Option Operation :=
  registry.operations.find? (·.name = name)

def contains (registry : Registry) (name : String) : Bool :=
  (registry.get? name).isSome

def size (registry : Registry) : Nat :=
  registry.operations.length

def isEmpty (registry : Registry) : Bool :=
  registry.operations.isEmpty

/-- Adds an operation. It must be valid, and its name new. -/
def register (operation : Operation) (registry : Registry) :
    Except RegistrationError Registry := do
  operation.validate
  if registry.contains operation.name then throw (.duplicate operation.name)
  return registry.put operation

def unknown (registry : Registry) (steps : List Step) : List String :=
  (steps.map Step.name).filter fun name => !registry.contains name

end Registry

def operationsHelp : String :=
  "Available filters:\n\n" ++ Operation.table Registry.builtin.operations ++
    "\nExample: trim|minusculo|mascara:###.###.###-##"

end FilterChain
