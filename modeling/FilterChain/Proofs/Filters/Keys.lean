import FilterChain.Proofs.Filters.Scalars

/-!
# Names of fields in another case

A conversion of names can give one name to several fields of a record. They become one field, in
the place of the first and with the value of the last of them, at every level of a nested value.
Where no names meet, only the names change.
-/

namespace FilterChain

namespace Filters

open Value (IsInside)

variable {case : KeyCase} {fields others : List (String × Value)} {v w : Value}

theorem renameKeys_of_not_isContainer (case : KeyCase) (h : v.isContainer = false) :
    renameKeys case v = v := by
  cases v with
  | null | bool | number | text => rfl
  | list | record => cases h

theorem renameKeys_list (case : KeyCase) (items : List Value) :
    renameKeys case (.list items) = .list (items.map (renameKeys case)) := by
  rw [renameKeys]
  congr 1
  induction items with
  | nil => rfl
  | cons v vs ih => rw [renameItems, ih, List.map_cons]

theorem renameFields_eq_map (case : KeyCase) (fields : List (String × Value)) :
    renameFields case fields =
      fields.map fun field => (case.apply field.1, renameKeys case field.2) := by
  induction fields with
  | nil => rfl
  | cons field fields ih => rw [renameFields, ih, List.map_cons]

theorem renameKeys_record (case : KeyCase) (fields : List (String × Value)) :
    renameKeys case (.record fields) = .record (Fields.ofList (renameFields case fields)) := by
  rw [renameKeys]

theorem names_renameFields (case : KeyCase) (fields : List (String × Value)) :
    Fields.names (renameFields case fields) = (Fields.names fields).map case.apply := by
  rw [renameFields_eq_map]
  simp [Fields.names]

def IsLast (case : KeyCase) (fields : List (String × Value)) (key : String)
    (field : String × Value) : Prop :=
  ∃ front back, fields = front ++ field :: back ∧ case.apply field.1 = key ∧
    ∀ later ∈ back, case.apply later.1 ≠ key

theorem IsLast.mem {key : String} {field : String × Value} (h : IsLast case fields key field) :
    field ∈ fields := by
  obtain ⟨front, back, rfl, -, -⟩ := h
  simp

theorem IsLast.lookup {key : String} {field : String × Value}
    (h : IsLast case fields key field) :
    (renameFields case fields).reverse.lookup key = some (renameKeys case field.2) := by
  obtain ⟨front, back, rfl, rfl, hback⟩ := h
  rw [List.lookup_eq_some_iff, renameFields_eq_map]
  refine ⟨(renameFields case back).reverse, (renameFields case front).reverse, ?_, ?_⟩
  · simp [renameFields_eq_map]
  · intro later hlater
    rw [List.mem_reverse, renameFields_eq_map] at hlater
    obtain ⟨field, hfield, rfl⟩ := List.mem_map.mp hlater
    simpa using (hback field hfield).symm

theorem exists_isLast {key : String} {value : Value}
    (h : (renameFields case fields).reverse.lookup key = some value) :
    ∃ field, IsLast case fields key field ∧ renameKeys case field.2 = value := by
  obtain ⟨back, front, hsplit, hback⟩ := List.lookup_eq_some_iff.mp h
  rw [List.reverse_eq_iff, renameFields_eq_map, List.reverse_append, List.reverse_cons,
    List.append_assoc, List.singleton_append] at hsplit
  obtain ⟨front, rest, rfl, -, hrest⟩ := List.map_eq_append_iff.mp hsplit
  obtain ⟨field, later, rfl, hfield, hlater⟩ := List.map_eq_cons_iff.mp hrest
  obtain ⟨hkey, hvalue⟩ := Prod.mk.inj hfield
  refine ⟨field, ⟨front, later, rfl, hkey, fun other hother heq => ?_⟩, hvalue⟩
  have hmem : (case.apply other.1, renameKeys case other.2) ∈ back := by
    rw [← List.mem_reverse, ← hlater]
    exact List.mem_map_of_mem hother
  simpa [heq] using hback _ hmem

/-- The second value has the lists and scalars of the first, and in the place of each record the
record of the converted names, each where it comes first, with the values of the fields that get
it last. -/
inductive Converted (case : KeyCase) : Value → Value → Prop where
  | scalar {v : Value} (hv : v.isContainer = false) : Converted case v v
  | list {items others : List Value} (hitems : List.Forall₂ (Converted case) items others) :
      Converted case (.list items) (.list others)
  | record {fields others : List (String × Value)} (source : String × Value → String × Value)
      (hnames : Fields.names others = ((Fields.names fields).map case.apply).eraseDups)
      (hsource : ∀ other ∈ others, IsLast case fields other.1 (source other))
      (hvalues : ∀ other ∈ others, Converted case (source other).2 other.2) :
      Converted case (.record fields) (.record others)

theorem converted_renameKeys (case : KeyCase) (v : Value) :
    Converted case v (renameKeys case v) := by
  induction v using Value.induction with
  | scalar v hv =>
    rw [renameKeys_of_not_isContainer case hv]
    exact .scalar hv
  | list items ih =>
    rw [renameKeys_list]
    refine .list (List.forall₂_map_right_iff.mpr ?_)
    exact List.forall₂_same.mpr ih
  | record fields ih =>
    -- The source of each field is chosen, so that the induction applies to what it holds.
    have hlast : ∀ other ∈ Fields.ofList (renameFields case fields),
        ∃ field, IsLast case fields other.1 field ∧ renameKeys case field.2 = other.2 :=
      fun other hother => exists_isLast (Fields.lookup_reverse_of_mem_ofList hother)
    choose! source hsource hvalue using hlast
    rw [renameKeys_record]
    refine .record source ?_ hsource fun other hother => ?_
    · rw [Fields.names_ofList, names_renameFields]
    · rw [← hvalue other hother]
      exact ih _ (hsource other hother).mem

theorem Converted.eq_renameKeys (h : Converted case v w) : w = renameKeys case v := by
  induction v using Value.induction generalizing w with
  | scalar v hv =>
    rw [renameKeys_of_not_isContainer case hv]
    cases h with
    | scalar => rfl
    | list | record => cases hv
  | list items ih =>
    rw [renameKeys_list]
    cases h with
    | scalar hv => cases hv
    | list hitems => rw [eq_map_of_forall₂ hitems fun v hv w => ih v hv]
  | record fields ih =>
    rw [renameKeys_record]
    cases h with
    | scalar hv => cases hv
    | @record _ others source hnames hsource hvalues =>
      have hnew : Fields.names others =
          Fields.names (Fields.ofList (renameFields case fields)) := by
        rw [hnames, Fields.names_ofList, names_renameFields]
      refine congrArg Value.record (Fields.eq_of_names_eq
        (fun name => (renameFields case fields).reverse.lookup name) hnew ?_
        fun _ => Fields.lookup_reverse_of_mem_ofList)
      intro other hother
      have hlast := hsource other hother
      rw [hlast.lookup, ih _ hlast.mem (hvalues other hother)]

theorem converted_iff : Converted case v w ↔ w = renameKeys case v := by
  constructor
  · exact Converted.eq_renameKeys
  · rintro rfl
    exact converted_renameKeys case v

theorem leaves_renameKeys_subset (case : KeyCase) (v : Value) :
    (renameKeys case v).leaves ⊆ v.leaves := by
  induction v using Value.induction with
  | scalar v hv => simp [renameKeys_of_not_isContainer case hv]
  | list items ih =>
    rw [renameKeys_list, Value.leaves_list, Value.leaves_list]
    intro x hx
    obtain ⟨_, hmem, hx⟩ := List.mem_flatMap.mp hx
    obtain ⟨v, hv, rfl⟩ := List.mem_map.mp hmem
    exact List.mem_flatMap.mpr ⟨v, hv, ih v hv hx⟩
  | record fields ih =>
    rw [renameKeys_record, Value.leaves_record, Value.leaves_record]
    intro x hx
    obtain ⟨other, hother, hx⟩ := List.mem_flatMap.mp hx
    obtain ⟨field, hlast, hvalue⟩ := exists_isLast (Fields.lookup_reverse_of_mem_ofList hother)
    rw [← hvalue] at hx
    exact List.mem_flatMap.mpr ⟨field, hlast.mem, ih field hlast.mem hx⟩

/-- No two names of one record, at any depth, become the same. -/
def KeepsApart (case : KeyCase) (v : Value) : Prop :=
  ∀ fields, IsInside (.record fields) v → ((Fields.names fields).map case.apply).Nodup

/-- The second value is the first with other names. -/
inductive Respelled (case : KeyCase) : Value → Value → Prop where
  | scalar {v : Value} (hv : v.isContainer = false) : Respelled case v v
  | list {items others : List Value} (hitems : List.Forall₂ (Respelled case) items others) :
      Respelled case (.list items) (.list others)
  | record {fields others : List (String × Value)}
      (hnames : Fields.names others = (Fields.names fields).map case.apply)
      (hvalues : List.Forall₂ (Respelled case) (fields.map Prod.snd) (others.map Prod.snd)) :
      Respelled case (.record fields) (.record others)

theorem keepsApart_of_not_isContainer (h : v.isContainer = false) : KeepsApart case v :=
  Value.forall_record_of_not_isContainer h

theorem keepsApart_list_iff {items : List Value} :
    KeepsApart case (.list items) ↔ ∀ v ∈ items, KeepsApart case v :=
  Value.forall_record_list_iff

theorem keepsApart_record_iff :
    KeepsApart case (.record fields) ↔
      ((Fields.names fields).map case.apply).Nodup ∧
        ∀ field ∈ fields, KeepsApart case field.2 :=
  Value.forall_record_record_iff

theorem renameKeys_record_of_nodup (h : ((Fields.names fields).map case.apply).Nodup) :
    renameKeys case (.record fields) = .record (renameFields case fields) := by
  rw [← names_renameFields] at h
  rw [renameKeys_record, Fields.ofList_of_nodup h]

theorem respelled_renameKeys (h : KeepsApart case v) : Respelled case v (renameKeys case v) := by
  induction v using Value.induction with
  | scalar v hv =>
    rw [renameKeys_of_not_isContainer case hv]
    exact .scalar hv
  | list items ih =>
    rw [renameKeys_list]
    refine .list (List.forall₂_map_right_iff.mpr (List.forall₂_same.mpr fun v hv => ?_))
    exact ih v hv (keepsApart_list_iff.mp h v hv)
  | record fields ih =>
    obtain ⟨hnames, hvalues⟩ := keepsApart_record_iff.mp h
    rw [renameKeys_record_of_nodup hnames]
    refine .record (names_renameFields case fields) ?_
    rw [renameFields_eq_map, List.map_map, List.forall₂_map_left_iff, List.forall₂_map_right_iff]
    exact List.forall₂_same.mpr fun field hfield => ih field hfield (hvalues field hfield)

theorem leaves_renameKeys (h : KeepsApart case v) : (renameKeys case v).leaves = v.leaves := by
  induction v using Value.induction with
  | scalar v hv => rw [renameKeys_of_not_isContainer case hv]
  | list items ih =>
    rw [renameKeys_list, Value.leaves_list, Value.leaves_list, List.flatMap_map]
    exact List.flatMap_congr fun v hv => ih v hv (keepsApart_list_iff.mp h v hv)
  | record fields ih =>
    obtain ⟨hnames, hvalues⟩ := keepsApart_record_iff.mp h
    rw [renameKeys_record_of_nodup hnames, Value.leaves_record, Value.leaves_record,
      renameFields_eq_map, List.flatMap_map]
    exact List.flatMap_congr fun field hfield => ih field hfield (hvalues field hfield)

theorem convertKeys_of_isContainer (case : KeyCase) (hv : v.isContainer = true) :
    convertKeys case v = .ok (renameKeys case v) := by
  rw [convertKeys, Value.requireContainer_of_isContainer hv]
  rfl

/-- A conversion of the names in a list or a record succeeds. At every depth, each record becomes
the record of its converted names, in the order in which they come first and with the values of
the fields that get them last, and all else stays. Where no names of one record meet, at any
depth, the names are all that changes. -/
theorem convertKeys_merges_fields (case : KeyCase) (v : Value) (hv : v.isContainer = true) :
    ∃ w, convertKeys case v = .ok w ∧ (∀ u, Converted case v u ↔ u = w) ∧
      w.leaves ⊆ v.leaves ∧
      (KeepsApart case v → Respelled case v w ∧ w.leaves = v.leaves) := by
  refine ⟨renameKeys case v, convertKeys_of_isContainer case hv, fun u => converted_iff,
    leaves_renameKeys_subset case v, fun h => ?_⟩
  exact ⟨respelled_renameKeys h, leaves_renameKeys h⟩

/-- Three fields that become one, inside of another such field, and names that stay apart. -/
theorem convertKeys_merges_fields_nested :
    convertKeys .lower (.record [("A", .null), ("b", .text "x"),
        ("a", .list [.record [("K", .bool true), ("L", .null), ("k", .bool false)]])]) =
      .ok (.record [("a", .list [.record [("k", .bool false), ("l", .null)]]),
        ("b", .text "x")]) ∧
    Respelled .upperFirst (.record [("a", .list [.null])]) (.record [("A", .list [.null])]) := by
  constructor
  · obtain ⟨w, hw, hunique, -, -⟩ := convertKeys_merges_fields .lower (.record [("A", .null),
      ("b", .text "x"),
      ("a", .list [.record [("K", .bool true), ("L", .null), ("k", .bool false)]])]) rfl
    rw [hw, ← (hunique _).mp (converted_renameKeys _ _)]
    decide
  · obtain ⟨w, hw, -, -, hapart⟩ :=
      convertKeys_merges_fields .upperFirst (.record [("a", .list [.null])]) rfl
    obtain rfl := Except.ok.inj hw
    refine (hapart (keepsApart_record_iff.mpr ⟨by decide, ?_⟩)).1
    simpa [keepsApart_list_iff] using keepsApart_of_not_isContainer rfl

end Filters

end FilterChain
