import FilterChain.Operation
import FilterChain.Proofs.Outcome
import FilterChain.Proofs.Value.Fields

/-!
# The scalars inside a value

A traversal applies a function to every scalar inside a value and keeps all else: lists have as
many items as before, and records the same names in the same order. It is stopped by the first
scalar that the function fails on, in the order in which the value would be written.
-/

namespace FilterChain

variable {α β γ : Type}

namespace Value

mutual

/-- The scalars inside a value, in the order in which it is written. -/
def leaves : Value → List Value
  | .list items => leavesOfItems items
  | .record fields => leavesOfFields fields
  | .null => [.null]
  | .bool b => [.bool b]
  | .number n => [.number n]
  | .text s => [.text s]

def leavesOfItems : List Value → List Value
  | [] => []
  | v :: vs => v.leaves ++ leavesOfItems vs

def leavesOfFields : List (String × Value) → List Value
  | [] => []
  | (_, v) :: fs => v.leaves ++ leavesOfFields fs

end

/-- What holds of scalars, and of lists and records if it holds of what is in them, holds of all
values. -/
@[elab_as_elim]
theorem induction {motive : Value → Prop}
    (scalar : ∀ v : Value, v.isContainer = false → motive v)
    (list : ∀ items : List Value, (∀ v ∈ items, motive v) → motive (.list items))
    (record : ∀ fields : List (String × Value), (∀ field ∈ fields, motive field.2) →
      motive (.record fields))
    (v : Value) : motive v :=
  match v with
  | .list items => list items fun v _ => induction scalar list record v
  | .record fields => record fields fun field _ => induction scalar list record field.2
  | .null => scalar .null rfl
  | .bool b => scalar (.bool b) rfl
  | .number n => scalar (.number n) rfl
  | .text s => scalar (.text s) rfl
termination_by sizeOf v
decreasing_by
  · have hlt := List.sizeOf_lt_of_mem ‹_ ∈ items›
    simp only [Value.list.sizeOf_spec]
    omega
  · obtain ⟨name, v⟩ := field
    have hlt := List.sizeOf_lt_of_mem ‹_ ∈ fields›
    simp only [Value.record.sizeOf_spec, Prod.mk.sizeOf_spec] at hlt ⊢
    omega

variable {leaf f g : Value → Except OperationError Value} {v w : Value}

theorem leaves_of_not_isContainer (h : v.isContainer = false) : v.leaves = [v] := by
  cases v with
  | null | bool | number | text => rfl
  | list | record => cases h

theorem leaves_list (items : List Value) : (Value.list items).leaves = items.flatMap leaves := by
  rw [leaves]
  induction items with
  | nil => rfl
  | cons v vs ih => rw [leavesOfItems, List.flatMap_cons, ih]

theorem leaves_record (fields : List (String × Value)) :
    (Value.record fields).leaves = fields.flatMap fun field => field.2.leaves := by
  rw [leaves]
  induction fields with
  | nil => rfl
  | cons field fs ih => rw [leavesOfFields, List.flatMap_cons, ih]

/-- A value is inside of itself, and inside of a list or a record if it is inside of an item or of
the value of a field. -/
inductive IsInside (x : Value) : Value → Prop where
  | self : IsInside x x
  | item {items : List Value} {v : Value} (hv : v ∈ items) (h : IsInside x v) :
      IsInside x (.list items)
  | field {fields : List (String × Value)} {field : String × Value} (hfield : field ∈ fields)
      (h : IsInside x field.2) : IsInside x (.record fields)

section Records

variable {P : List (String × Value) → Prop}

theorem forall_record_of_not_isContainer (h : v.isContainer = false) :
    ∀ fields, IsInside (.record fields) v → P fields := by
  rintro fields (_ | _ | _) <;> cases h

theorem forall_record_list_iff {items : List Value} :
    (∀ fields, IsInside (.record fields) (.list items) → P fields) ↔
      ∀ v ∈ items, ∀ fields, IsInside (.record fields) v → P fields := by
  constructor
  · exact fun h v hv fields hfields => h fields (.item hv hfields)
  · rintro h fields (_ | ⟨hv, hfields⟩)
    exact h _ hv fields hfields

theorem forall_record_record_iff {outer : List (String × Value)} :
    (∀ fields, IsInside (.record fields) (.record outer) → P fields) ↔
      P outer ∧ ∀ field ∈ outer, ∀ fields, IsInside (.record fields) field.2 → P fields := by
  constructor
  · exact fun h => ⟨h outer .self, fun field hfield inner hinner => h inner (.field hfield hinner)⟩
  · rintro ⟨houter, hvalues⟩ inner (_ | _ | ⟨hfield, hinner⟩)
    · exact houter
    · exact hvalues _ hfield inner hinner

end Records

theorem mem_leaves_iff {x : Value} : x ∈ v.leaves ↔ x.isContainer = false ∧ IsInside x v := by
  induction v using Value.induction with
  | scalar v hv =>
    rw [leaves_of_not_isContainer hv, List.mem_singleton]
    constructor
    · rintro rfl
      exact ⟨hv, .self⟩
    · rintro ⟨_, _ | _ | _⟩
      · rfl
      · cases hv
      · cases hv
  | list items ih =>
    rw [leaves_list, List.mem_flatMap]
    constructor
    · rintro ⟨v, hv, hx⟩
      obtain ⟨hscalar, hinside⟩ := (ih v hv).mp hx
      exact ⟨hscalar, .item hv hinside⟩
    · rintro ⟨hscalar, _ | ⟨hv, hinside⟩⟩
      · cases hscalar
      · exact ⟨_, hv, (ih _ hv).mpr ⟨hscalar, hinside⟩⟩
  | record fields ih =>
    rw [leaves_record, List.mem_flatMap]
    constructor
    · rintro ⟨field, hfield, hx⟩
      obtain ⟨hscalar, hinside⟩ := (ih field hfield).mp hx
      exact ⟨hscalar, .field hfield hinside⟩
    · rintro ⟨hscalar, _ | _ | ⟨hfield, hinside⟩⟩
      · cases hscalar
      · exact ⟨_, hfield, (ih _ hfield).mpr ⟨hscalar, hinside⟩⟩

theorem mapLeaves_of_not_isContainer (h : v.isContainer = false) : v.mapLeaves leaf = leaf v := by
  cases v with
  | null | bool | number | text => rfl
  | list | record => cases h

theorem mapItems_eq_mapM (leaf : Value → Except OperationError Value) (items : List Value) :
    mapItems leaf items = items.mapM (mapLeaves leaf) := by
  induction items with
  | nil => rfl
  | cons v vs ih => rw [mapItems, List.mapM_cons, ih]

theorem mapFields_eq_mapM (leaf : Value → Except OperationError Value)
    (fields : List (String × Value)) :
    mapFields leaf fields =
      fields.mapM fun field => (field.1, ·) <$> field.2.mapLeaves leaf := by
  induction fields with
  | nil => rfl
  | cons field fs ih =>
    rw [mapFields, List.mapM_cons, ih]
    cases field.2.mapLeaves leaf <;> rfl

theorem mapLeaves_list (leaf : Value → Except OperationError Value) (items : List Value) :
    (Value.list items).mapLeaves leaf = .list <$> items.mapM (mapLeaves leaf) := by
  rw [mapLeaves, mapItems_eq_mapM]
  cases items.mapM (mapLeaves leaf) <;> rfl

theorem mapLeaves_record (leaf : Value → Except OperationError Value)
    (fields : List (String × Value)) :
    (Value.record fields).mapLeaves leaf =
      .record <$> fields.mapM fun field => (field.1, ·) <$> field.2.mapLeaves leaf := by
  rw [mapLeaves, mapFields_eq_mapM]
  cases fields.mapM fun field => (field.1, ·) <$> field.2.mapLeaves leaf <;> rfl

theorem findSome?_flatMap {xs : List α} {f : α → List Value} {p : Value → Option OperationError}
    {q : α → Option OperationError} (h : ∀ x ∈ xs, q x = (f x).findSome? p) :
    xs.findSome? q = (xs.flatMap f).findSome? p := by
  induction xs with
  | nil => rfl
  | cons x xs ih =>
    obtain ⟨hx, hxs⟩ := List.forall_mem_cons.mp h
    rw [List.flatMap_cons, List.findSome?_append, List.findSome?_cons, hx, ih hxs]
    cases (f x).findSome? p <;> rfl

theorem fault?_mapLeaves (leaf : Value → Except OperationError Value) (v : Value) :
    fault? (v.mapLeaves leaf) = v.leaves.findSome? fun x => fault? (leaf x) := by
  induction v using Value.induction with
  | scalar v hv =>
    rw [mapLeaves_of_not_isContainer hv, leaves_of_not_isContainer hv, List.findSome?_singleton]
  | list items ih => rw [mapLeaves_list, fault?_map, fault?_mapM, leaves_list, findSome?_flatMap ih]
  | record fields ih =>
    rw [mapLeaves_record, fault?_map, fault?_mapM, leaves_record]
    refine findSome?_flatMap fun field hfield => ?_
    rw [fault?_map, ih field hfield]

theorem exists_mapLeaves_eq_ok_iff :
    (∃ w, v.mapLeaves leaf = .ok w) ↔ ∀ x ∈ v.leaves, ∃ y, leaf x = .ok y := by
  rw [← fault?_eq_none_iff, fault?_mapLeaves, List.findSome?_eq_none_iff]
  exact forall₂_congr fun x _ => fault?_eq_none_iff

/-- The error of a traversal is that of the first scalar that has one. -/
theorem mapLeaves_eq_error_iff {e : OperationError} :
    v.mapLeaves leaf = .error e ↔
      ∃ front x back, v.leaves = front ++ x :: back ∧ (∀ y ∈ front, ∃ z, leaf y = .ok z) ∧
        leaf x = .error e := by
  rw [← fault?_eq_some_iff, fault?_mapLeaves, List.findSome?_eq_some_iff]
  simp only [fault?_eq_some_iff, fault?_eq_none_iff, and_comm]

theorem exists_mapLeaves_eq_ok (hleaf : ∀ v, v.isContainer = false → ∃ w, leaf v = .ok w)
    (v : Value) : ∃ w, v.mapLeaves leaf = .ok w :=
  exists_mapLeaves_eq_ok_iff.mpr fun x hx => hleaf x (mem_leaves_iff.mp hx).1

/-- The second value has the lists and records of the first, with as many items and the same names
in the same order, and in the place of each scalar what `leaf` makes of it. -/
inductive Mirrors (leaf : Value → Except OperationError Value) : Value → Value → Prop where
  | scalar {v w : Value} (hv : v.isContainer = false) (hleaf : leaf v = .ok w) :
      Mirrors leaf v w
  | list {items others : List Value} (hitems : List.Forall₂ (Mirrors leaf) items others) :
      Mirrors leaf (.list items) (.list others)
  | record {fields others : List (String × Value)}
      (hnames : Fields.names others = Fields.names fields)
      (hvalues : List.Forall₂ (Mirrors leaf) (fields.map Prod.snd) (others.map Prod.snd)) :
      Mirrors leaf (.record fields) (.record others)

theorem forall₂_fields_iff {R : Value → Value → Prop} {fields others : List (String × Value)} :
    List.Forall₂ (fun field other => other.1 = field.1 ∧ R field.2 other.2) fields others ↔
      Fields.names others = Fields.names fields ∧
        List.Forall₂ R (fields.map Prod.snd) (others.map Prod.snd) := by
  induction fields generalizing others with
  | nil => simp [Fields.names]
  | cons field fields ih =>
    cases others with
    | nil => simp [Fields.names]
    | cons other others =>
      simp only [Fields.names] at ih
      simp [Fields.names, ih, and_and_and_comm]

theorem mapField_eq_ok_iff {field other : String × Value} :
    (field.1, ·) <$> field.2.mapLeaves leaf = .ok other ↔
      other.1 = field.1 ∧ field.2.mapLeaves leaf = .ok other.2 := by
  obtain ⟨name, w⟩ := other
  cases field.2.mapLeaves leaf <;> simp [eq_comm]

theorem mapLeaves_eq_ok_iff : v.mapLeaves leaf = .ok w ↔ Mirrors leaf v w := by
  induction v using Value.induction generalizing w with
  | scalar v hv =>
    rw [mapLeaves_of_not_isContainer hv]
    constructor
    · exact .scalar hv
    · rintro (⟨_, hleaf⟩ | _ | _)
      · exact hleaf
      · cases hv
      · cases hv
  | list items ih =>
    rw [mapLeaves_list, map_eq_ok_iff]
    simp only [mapM_eq_ok_iff, forall₂_congr_of_mem fun v hv w => ih v hv]
    constructor
    · rintro ⟨others, hothers, rfl⟩
      exact .list hothers
    · rintro (⟨hv, _⟩ | hothers)
      · cases hv
      · exact ⟨_, hothers, rfl⟩
  | record fields ih =>
    rw [mapLeaves_record, map_eq_ok_iff]
    have hfields (others : List (String × Value)) :
        (fields.mapM fun field => (field.1, ·) <$> field.2.mapLeaves leaf) = .ok others ↔
          Fields.names others = Fields.names fields ∧
            List.Forall₂ (Mirrors leaf) (fields.map Prod.snd) (others.map Prod.snd) := by
      rw [mapM_eq_ok_iff, ← forall₂_fields_iff]
      refine forall₂_congr_of_mem fun field hfield other => ?_
      rw [mapField_eq_ok_iff, ih field hfield]
    simp only [hfields]
    constructor
    · rintro ⟨others, ⟨hnames, hvalues⟩, rfl⟩
      exact .record hnames hvalues
    · rintro (⟨hv, _⟩ | _ | ⟨hnames, hvalues⟩)
      · cases hv
      · exact ⟨_, ⟨hnames, hvalues⟩, rfl⟩

theorem mapLeaves_ok (v : Value) : v.mapLeaves .ok = .ok v := by
  induction v using Value.induction with
  | scalar v hv => rw [mapLeaves_of_not_isContainer hv]
  | list items ih =>
    rw [mapLeaves_list, map_eq_ok_iff]
    exact ⟨items, mapM_eq_ok_iff.mpr (List.forall₂_same.mpr ih), rfl⟩
  | record fields ih =>
    rw [mapLeaves_record, map_eq_ok_iff]
    refine ⟨fields, mapM_eq_ok_iff.mpr (List.forall₂_same.mpr fun field hfield => ?_), rfl⟩
    exact mapField_eq_ok_iff.mpr ⟨rfl, ih field hfield⟩

theorem mapLeaves_of_mapLeaves_eq_ok
    (hf : ∀ x y, x.isContainer = false → f x = .ok y → y.isContainer = false)
    (h : v.mapLeaves f = .ok w) :
    w.mapLeaves g = v.mapLeaves fun x => f x >>= g := by
  induction v using Value.induction generalizing w with
  | scalar v hv =>
    rw [mapLeaves_of_not_isContainer hv] at h ⊢
    rw [mapLeaves_of_not_isContainer (hf v w hv h), h]
    rfl
  | list items ih =>
    rw [mapLeaves_list, map_eq_ok_iff] at h
    obtain ⟨others, hothers, rfl⟩ := h
    rw [mapLeaves_list, mapLeaves_list, mapM_of_mapM_eq_ok hothers fun v hv w => ih v hv]
  | record fields ih =>
    rw [mapLeaves_record, map_eq_ok_iff] at h
    obtain ⟨others, hothers, rfl⟩ := h
    have hsecond : ∀ field ∈ fields, ∀ other, (field.1, ·) <$> field.2.mapLeaves f = .ok other →
        (other.1, ·) <$> other.2.mapLeaves g =
          (field.1, ·) <$> field.2.mapLeaves fun x => f x >>= g := by
      intro field hfield other h
      obtain ⟨hname, hvalue⟩ := mapField_eq_ok_iff.mp h
      rw [hname, ih field hfield hvalue]
    rw [mapLeaves_record, mapLeaves_record, mapM_of_mapM_eq_ok hothers hsecond]

theorem mapLeaves_bind
    (hf : ∀ x, x.isContainer = false → ∃ y, f x = .ok y ∧ y.isContainer = false) (v : Value) :
    v.mapLeaves f >>= mapLeaves g = v.mapLeaves fun x => f x >>= g := by
  have hscalar : ∀ x y, x.isContainer = false → f x = .ok y → y.isContainer = false := by
    intro x y hx hxy
    obtain ⟨z, hxz, hz⟩ := hf x hx
    obtain rfl := Except.ok.inj (hxz.symm.trans hxy)
    exact hz
  obtain ⟨w, hw⟩ := exists_mapLeaves_eq_ok (fun x hx => (hf x hx).imp fun _ h => h.1) v
  rw [← mapLeaves_of_mapLeaves_eq_ok hscalar hw, hw]
  rfl

/-- A traversal succeeds if the function does at every scalar inside the value, and what it gives
then has the shape of the value, with the outcome for each scalar in its place; otherwise it fails
as the function does at the first scalar that it fails on. Nothing is lost where the new fields of
a record are put together. The function that changes nothing leaves all values alone, and
two traversals make one, if the first puts scalars for scalars. -/
theorem mapLeaves_keeps_shape (f : Value → Except OperationError Value) (v : Value) :
    ((∃ w, v.mapLeaves f = .ok w) ↔
      ∀ x, x.isContainer = false → IsInside x v → ∃ y, f x = .ok y) ∧
    (∀ w, v.mapLeaves f = .ok w ↔ Mirrors f v w) ∧
    (∀ e, v.mapLeaves f = .error e ↔
      ∃ front x back, v.leaves = front ++ x :: back ∧ (∀ y ∈ front, ∃ z, f y = .ok z) ∧
        f x = .error e) ∧
    (v.isContainer = false → v.leaves = [v]) ∧
    (v = .list [] ∨ v = .record [] → v.mapLeaves f = .ok v) ∧
    (∀ fields others, v = .record fields → (Fields.names fields).Nodup →
      v.mapLeaves f = .ok (.record others) → Fields.ofList others = others) ∧
    v.mapLeaves .ok = .ok v ∧
    ∀ g : Value → Except OperationError Value,
      (∀ x, x.isContainer = false → ∃ y, f x = .ok y ∧ y.isContainer = false) →
        v.mapLeaves f >>= mapLeaves g = v.mapLeaves fun x => f x >>= g := by
  refine ⟨?_, fun _ => mapLeaves_eq_ok_iff, fun _ => mapLeaves_eq_error_iff,
    leaves_of_not_isContainer, ?_, ?_, mapLeaves_ok v, fun _ hf => mapLeaves_bind hf v⟩
  · rw [exists_mapLeaves_eq_ok_iff]
    simp only [mem_leaves_iff, and_imp]
  · rintro (rfl | rfl) <;> rfl
  · rintro fields others rfl hdistinct h
    cases mapLeaves_eq_ok_iff.mp h with
    | scalar hv => cases hv
    | record hnames _ =>
      rw [← hnames] at hdistinct
      exact Fields.ofList_of_nodup hdistinct

def spell (v : Value) : Except OperationError Value :=
  .text <$> v.asText

/-- Of the scalars that are spelt inside a record, the first one without a text of its own stops a
traversal that refuses such texts. -/
theorem mapLeaves_keeps_shape_spelling :
    Value.null.leaves = [.null] ∧
    (Value.list []).mapLeaves spell = .ok (.list []) ∧
    Fields.ofList [("b", Value.text "1"), ("a", .list [.text ""])] =
      [("b", .text "1"), ("a", .list [.text ""])] ∧
    (Value.record [("b", .bool true), ("a", .list [.null])]).mapLeaves spell >>=
        mapLeaves (fun v => if v = .text "" then .error (.invalidInput "" "") else .ok v) =
      .error (.invalidInput "" "") := by
  have hspell : ∀ x : Value, x.isContainer = false →
      ∃ y, spell x = .ok y ∧ y.isContainer = false := by
    intro x hx
    cases x with
    | null | bool | number | text => exact ⟨_, rfl, rfl⟩
    | list | record => cases hx
  obtain ⟨-, -, -, -, -, hnames, -, hbind⟩ :=
    mapLeaves_keeps_shape spell (.record [("b", .bool true), ("a", .list [.null])])
  refine ⟨(mapLeaves_keeps_shape spell .null).2.2.2.1 rfl,
    (mapLeaves_keeps_shape spell (.list [])).2.2.2.2.1 (Or.inl rfl), ?_, ?_⟩
  · exact hnames _ _ rfl (by decide) rfl
  · rw [hbind _ hspell, (mapLeaves_keeps_shape _ _).2.2.1]
    refine ⟨[.bool true], .null, [], rfl, fun y hy => ?_, rfl⟩
    obtain rfl := List.mem_singleton.mp hy
    exact ⟨_, rfl⟩

end Value

end FilterChain
