import FilterChain.Proofs.Registry.Registration
import FilterChain.Proofs.Value.Fields
import FilterChain.Wire

/-!
# The order of registrations

A registry is told by what it stores: two of them that hold the same operations are one, and its
listing is what sorting by name makes of these, whatever order they are taken in. So operations
that can be registered in one order can be registered in any, and nothing that is asked of the
registry afterwards tells the orders apart.
-/

namespace FilterChain

namespace Operation

theorem Precedes.name_ne {a b : Operation} (h : a.Precedes b) : a.name ≠ b.name := by
  intro hname
  rw [Precedes, hname] at h
  exact List.lt_irrefl _ h

def inOrder (a b : Operation) : Bool :=
  nameBytes a.name ≤ nameBytes b.name

theorem Precedes.inOrder {a b : Operation} (h : a.Precedes b) : a.inOrder b = true :=
  decide_eq_true (List.le_of_lt h)

theorem name_eq_of_inOrder {a b : Operation} (hab : a.inOrder b = true)
    (hba : b.inOrder a = true) : a.name = b.name :=
  nameBytes_injective (List.le_antisymm (of_decide_eq_true hab) (of_decide_eq_true hba))

def sortByName (operations : List Operation) : List Operation :=
  operations.mergeSort inOrder

theorem pairwise_sortByName (operations : List Operation) :
    (sortByName operations).Pairwise fun a b => a.inOrder b = true := by
  refine List.pairwise_mergeSort (fun a b c hab hbc => ?_) (fun a b => ?_) operations
  · exact decide_eq_true (List.le_trans (of_decide_eq_true hab) (of_decide_eq_true hbc))
  · rcases List.le_total (nameBytes a.name) (nameBytes b.name) with h | h
    · simp [inOrder, h]
    · simp [inOrder, h]

end Operation

namespace Registry

def registerAll (registry : Registry) (operations : List Operation) :
    Except RegistrationError Registry :=
  operations.foldlM (fun registry operation => registry.register operation) registry

/-- A list has every stored operation once, by increasing names, and is what sorting makes of the
stored operations, in whatever order these are taken out. -/
structure IsListing (registry : Registry) (listed : List Operation) : Prop where
  mem_iff : ∀ operation, operation ∈ listed ↔ registry.get? operation.name = some operation
  increasing : listed.Pairwise fun a b => nameBytes a.name < nameBytes b.name
  length_eq : listed.length = registry.size
  sorted : ∀ stored : List Operation, stored.Nodup →
    (∀ operation, operation ∈ stored ↔ registry.get? operation.name = some operation) →
      Operation.sortByName stored = listed
  counted : ∀ names : List String, names.Nodup →
    (∀ name, name ∈ names ↔ registry.contains name = true) → names.length = registry.size

structure ShowsParam (described : Value) (param : Param) : Prop where
  name : described.field? "name" = some (.text param.name)
  default : described.field? "default" = some (param.default?.elim .null .text)

/-- What a listing says of an operation: its name, its parameters and its description. -/
structure Shows (described : Value) (operation : Operation) : Prop where
  name : described.field? "name" = some (.text operation.name)
  params : ∃ params, described.field? "params" = some (.list params) ∧
    List.Forall₂ ShowsParam params operation.signature.params
  description : described.field? "description" = some (.text operation.description)

def listedNames : Value → List String
  | .list entries => entries.filterMap fun entry =>
    match entry.field? "name" with
    | some (.text name) => some name
    | _ => none
  | _ => []

/-- A value shows the operations of a registry in order, each stored name once and no other, by
increasing names. -/
structure IsDescription (registry : Registry) (described : Value) : Prop where
  entries : ∃ entries, described = .list entries ∧
    List.Forall₂ Shows entries registry.operations
  mem_iff : ∀ name, name ∈ listedNames described ↔ registry.contains name = true
  increasing : (listedNames described).Pairwise fun a b => nameBytes a < nameBytes b
  length_eq : (listedNames described).length = registry.size

variable {registry : Registry} {operation : Operation} {operations : List Operation}

theorem nodup_operations (registry : Registry) : registry.operations.Nodup :=
  registry.sorted.imp fun h heq => h.name_ne (congrArg Operation.name heq)

theorem nodup_names (registry : Registry) :
    (registry.operations.map Operation.name).Nodup :=
  List.pairwise_map.mpr (registry.sorted.imp Operation.Precedes.name_ne)

theorem eq_of_perm {a b : Registry} (h : a.operations.Perm b.operations) : a = b := by
  have hsame : a.operations = b.operations := by
    refine h.eq_of_pairwise (fun x y _ _ hxy hyx => ?_) a.sorted b.sorted
    exact absurd (List.lt_trans hxy hyx) (List.lt_irrefl _)
  obtain ⟨_, _⟩ := a
  obtain ⟨_, _⟩ := b
  obtain rfl := hsame
  rfl

theorem mem_operations_iff (registry : Registry) (operation : Operation) :
    operation ∈ registry.operations ↔ registry.get? operation.name = some operation := by
  rw [get?_eq_some_iff, and_iff_left rfl]

theorem mem_names_iff (registry : Registry) (name : String) :
    name ∈ registry.operations.map Operation.name ↔ registry.contains name = true := by
  rw [List.mem_map, contains, Option.isSome_iff_exists]
  exact exists_congr fun operation => (registry.get?_eq_some_iff name operation).symm

theorem sortByName_of_perm {stored : List Operation} (h : stored.Perm registry.operations) :
    Operation.sortByName stored = registry.operations := by
  have hperm : (Operation.sortByName stored).Perm registry.operations :=
    (List.mergeSort_perm stored _).trans h
  refine hperm.eq_of_pairwise (fun a b ha hb hab hba => ?_)
    (Operation.pairwise_sortByName stored) (registry.sorted.imp Operation.Precedes.inOrder)
  exact eq_of_name_eq registry.sorted (hperm.mem_iff.mp ha) hb
    (Operation.name_eq_of_inOrder hab hba)

theorem isListing_operations (registry : Registry) : registry.IsListing registry.operations where
  mem_iff := registry.mem_operations_iff
  increasing := registry.sorted
  length_eq := rfl
  sorted stored hnodup hstored := by
    refine sortByName_of_perm ((List.perm_ext_iff_of_nodup hnodup registry.nodup_operations).mpr ?_)
    intro operation
    rw [hstored, registry.mem_operations_iff]
  counted names hnodup hnames := by
    have hperm : names.Perm (registry.operations.map Operation.name) := by
      refine (List.perm_ext_iff_of_nodup hnodup registry.nodup_names).mpr fun name => ?_
      rw [hnames, registry.mem_names_iff]
    rw [hperm.length_eq, List.length_map, size]

theorem shows_toValue (operation : Operation) : Shows operation.toValue operation where
  name := rfl
  params := by
    refine ⟨_, rfl, List.forall₂_map_left_iff.mpr (List.forall₂_same.mpr fun param _ => ?_)⟩
    exact ⟨rfl, rfl⟩
  description := rfl

theorem listedNames_describe (registry : Registry) :
    listedNames registry.describe = registry.operations.map Operation.name := by
  rw [describe, listedNames, List.filterMap_map]
  exact congrFun (List.filterMap_eq_map (f := Operation.name)) registry.operations

theorem isDescription_describe (registry : Registry) :
    registry.IsDescription registry.describe where
  entries := by
    refine ⟨_, rfl, List.forall₂_map_left_iff.mpr (List.forall₂_same.mpr fun operation _ => ?_)⟩
    exact shows_toValue operation
  mem_iff name := by rw [listedNames_describe, registry.mem_names_iff]
  increasing := by
    rw [listedNames_describe]
    exact List.pairwise_map.mpr registry.sorted
  length_eq := by rw [listedNames_describe, List.length_map, size]

theorem perm_insert_of_new (h : ∀ stored ∈ operations, stored.name ≠ operation.name) :
    (insert operation operations).Perm (operation :: operations) := by
  induction operations with
  | nil => exact .refl _
  | cons head rest ih =>
    have hne : ¬ operation.name = head.name := (h head List.mem_cons_self).symm
    have hrest := ih fun stored hstored => h stored (List.mem_cons_of_mem _ hstored)
    unfold insert
    rw [if_neg hne]
    split
    · exact .refl _
    · exact (hrest.cons head).trans (.swap operation head rest)

theorem exists_registerAll_eq_ok (hvalid : ∀ operation ∈ operations, operation.validate = .ok ())
    (hdistinct : (operations.map Operation.name).Nodup)
    (hnew : ∀ operation ∈ operations, registry.contains operation.name = false) :
    ∃ grown, registry.registerAll operations = .ok grown ∧
      grown.operations.Perm (operations ++ registry.operations) := by
  induction operations generalizing registry with
  | nil => exact ⟨registry, rfl, .refl _⟩
  | cons operation rest ih =>
    rw [List.map_cons, List.nodup_cons] at hdistinct
    obtain ⟨hhead, hrest⟩ := hdistinct
    have hfree := hnew operation List.mem_cons_self
    have hregister : registry.register operation = .ok (registry.put operation) :=
      register_eq_ok_iff.mpr ⟨hvalid operation List.mem_cons_self, hfree, rfl⟩
    have hnew' : ∀ other ∈ rest, (registry.put operation).contains other.name = false := by
      intro other hother
      have hne : operation.name ≠ other.name :=
        fun heq => hhead (List.mem_map.mpr ⟨other, hother, heq.symm⟩)
      rw [contains, get?_put, if_neg hne]
      exact hnew other (List.mem_cons_of_mem _ hother)
    obtain ⟨grown, hgrown, hperm⟩ :=
      ih (fun other hother => hvalid other (List.mem_cons_of_mem _ hother)) hrest hnew'
    refine ⟨grown, ?_, ?_⟩
    · rw [registerAll, List.foldlM_cons, hregister]
      exact hgrown
    · have hinsert : (registry.put operation).operations.Perm (operation :: registry.operations) :=
        perm_insert_of_new (ne_of_contains_eq_false hfree)
      exact hperm.trans ((hinsert.append_left rest).trans List.perm_middle)

/-- Valid operations with new names of their own can be registered in any order, and all orders
lead to one registry, which has them beside what was stored before. The operations of a registry
and their description list what is stored once each, by the bytes of the names, and the description
shows the name of each operation with its parameters. -/
theorem registration_order_leaves_no_trace :
    (∀ (start : Registry) (operations : List Operation),
      (∀ operation ∈ operations, operation.validate = .ok ()) →
      (operations.map Operation.name).Nodup →
      (∀ operation ∈ operations, start.contains operation.name = false) →
      ∃ grown : Registry,
        (∀ order : List Operation, order.Perm operations →
          start.registerAll order = .ok grown) ∧
        grown.size = start.size + operations.length ∧
        ∀ name operation, grown.get? name = some operation ↔
          start.get? name = some operation ∨ operation ∈ operations ∧ operation.name = name) ∧
    ∀ registry : Registry, registry.IsListing registry.operations ∧
      registry.IsDescription registry.describe := by
  refine ⟨?_, fun registry => ⟨registry.isListing_operations, registry.isDescription_describe⟩⟩
  intro start operations hvalid hdistinct hnew
  obtain ⟨grown, hgrown, hperm⟩ := exists_registerAll_eq_ok hvalid hdistinct hnew
  refine ⟨grown, ?_, ?_, ?_⟩
  · intro order horder
    have hfree : ∀ operation ∈ order, start.contains operation.name = false :=
      fun operation hmem => hnew operation (horder.mem_iff.mp hmem)
    obtain ⟨other, hother, hpermOther⟩ :=
      exists_registerAll_eq_ok (fun operation hmem => hvalid operation (horder.mem_iff.mp hmem))
        ((horder.map Operation.name).nodup_iff.mpr hdistinct) hfree
    have hsame : other = grown :=
      eq_of_perm ((hpermOther.trans (horder.append_right _)).trans hperm.symm)
    rw [hother, hsame]
  · rw [size, hperm.length_eq, List.length_append, size, Nat.add_comm]
  · intro name operation
    rw [get?_eq_some_iff, get?_eq_some_iff, hperm.mem_iff, List.mem_append, or_and_right, or_comm]

/-- A name in front of all the built-in ones and a name behind them, both ways round. -/
theorem registration_order_leaves_no_trace_two_ends :
    ∃ grown,
      builtin.registerAll [.unary "A" "" .ok, .unary "~" "" .ok] = .ok grown ∧
      builtin.registerAll [.unary "~" "" .ok, .unary "A" "" .ok] = .ok grown ∧
      grown.size = builtin.size + 2 ∧
      grown.get? "~" = some (.unary "~" "" .ok) := by
  obtain ⟨grown, horders, hsize, hget⟩ := registration_order_leaves_no_trace.1 builtin
    [.unary "A" "" .ok, .unary "~" "" .ok] (by decide) (by decide) (by decide)
  refine ⟨grown, horders _ (.refl _), horders _ (.swap _ _ _), hsize, ?_⟩
  exact (hget "~" _).mpr (Or.inr ⟨List.mem_cons_of_mem _ List.mem_cons_self, rfl⟩)

end Registry

end FilterChain
