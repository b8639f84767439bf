import FilterChain.Document
import FilterChain.Proofs.Value.Leaves

/-!
# Documents of values

A document that denotes a value denotes one in which no record has two fields of one name. Every
such value is denoted by a document without faults, which is the value again.
-/

namespace FilterChain

namespace Value

/-- No record has two fields of one name, at any depth. This holds of all that documents denote. -/
def HasDistinctNames (v : Value) : Prop :=
  ∀ fields, IsInside (.record fields) v → (Fields.names fields).Nodup

variable {v : Value}

theorem hasDistinctNames_of_not_isContainer (h : v.isContainer = false) : v.HasDistinctNames :=
  forall_record_of_not_isContainer h

theorem hasDistinctNames_list_iff {items : List Value} :
    (Value.list items).HasDistinctNames ↔ ∀ v ∈ items, v.HasDistinctNames :=
  forall_record_list_iff

theorem hasDistinctNames_record_iff {fields : List (String × Value)} :
    (Value.record fields).HasDistinctNames ↔
      (Fields.names fields).Nodup ∧ ∀ field ∈ fields, field.2.HasDistinctNames :=
  forall_record_record_iff

end Value

namespace Document

theorem ofItems_eq_map (items : List Value) : ofItems items = items.map ofValue := by
  induction items with
  | nil => rfl
  | cons v vs ih => rw [ofItems, ih, List.map_cons]

theorem firstCutOfItems?_ofItems {items : List Value}
    (h : ∀ v ∈ items, (ofValue v).firstCut? = none) : firstCutOfItems? (ofItems items) = none := by
  induction items with
  | nil => rfl
  | cons v vs ih =>
    obtain ⟨hv, hvs⟩ := List.forall_mem_cons.mp h
    rw [ofItems, firstCutOfItems?, hv, ih hvs, Option.none_or]

theorem firstCutOfFields?_ofFields {fields : List (String × Value)}
    (h : ∀ field ∈ fields, (ofValue field.2).firstCut? = none) :
    firstCutOfFields? (ofFields fields) = none := by
  induction fields with
  | nil => rfl
  | cons field fs ih =>
    obtain ⟨hv, hfs⟩ := List.forall_mem_cons.mp h
    rw [ofFields, firstCutOfFields?, hv, ih hfs, Option.none_or]

theorem firstCut?_ofValue (v : Value) : (ofValue v).firstCut? = none := by
  induction v using Value.induction with
  | scalar v hv =>
    cases v with
    | null | bool | number | text => rfl
    | list | record => cases hv
  | list items ih => exact firstCutOfItems?_ofItems ih
  | record fields ih => exact firstCutOfFields?_ofFields ih

theorem itemValues_ofItems {items : List Value} (h : ∀ v ∈ items, (ofValue v).toValue = .ok v) :
    itemValues (ofItems items) = .ok items := by
  induction items with
  | nil => rfl
  | cons v vs ih =>
    obtain ⟨hv, hvs⟩ := List.forall_mem_cons.mp h
    rw [ofItems, itemValues, hv, ih hvs]
    rfl

theorem fieldValues_ofFields {fields : List (String × Value)}
    (h : ∀ field ∈ fields, (ofValue field.2).toValue = .ok field.2) :
    fieldValues (ofFields fields) = .ok fields := by
  induction fields with
  | nil => rfl
  | cons field fs ih =>
    obtain ⟨hv, hfs⟩ := List.forall_mem_cons.mp h
    rw [ofFields, fieldValues, hv, ih hfs]
    rfl

theorem toValue_ofValue {v : Value} (h : v.HasDistinctNames) : (ofValue v).toValue = .ok v := by
  induction v using Value.induction with
  | scalar v hv =>
    cases v with
    | null | bool | number | text => rfl
    | list | record => cases hv
  | list items ih =>
    have hitems := Value.hasDistinctNames_list_iff.mp h
    rw [ofValue, toValue, itemValues_ofItems fun v hv => ih v hv (hitems v hv)]
    rfl
  | record fields ih =>
    obtain ⟨hnames, hvalues⟩ := Value.hasDistinctNames_record_iff.mp h
    rw [ofValue, toValue, fieldValues_ofFields fun f hf => ih f hf (hvalues f hf)]
    exact congrArg (Except.ok ∘ Value.record) (Fields.ofList_of_nodup hnames)

theorem hasDistinctNames_ofList {fields : List (String × Value)}
    (h : ∀ field ∈ fields, field.2.HasDistinctNames) :
    (Value.record (Fields.ofList fields)).HasDistinctNames := by
  refine Value.hasDistinctNames_record_iff.mpr ⟨Fields.nodup_names_ofList fields, ?_⟩
  exact fun field hfield => h field (Fields.mem_of_mem_ofList hfield)

mutual

theorem hasDistinctNames_of_toValue (d : Document) {v : Value} (h : d.toValue = .ok v) :
    v.HasDistinctNames := by
  cases d with
  | null | bool | number | text =>
    cases h
    exact Value.hasDistinctNames_of_not_isContainer rfl
  | list items =>
    obtain ⟨vs, hvs, rfl⟩ := map_eq_ok_iff.mp h
    exact Value.hasDistinctNames_list_iff.mpr (hasDistinctNames_of_itemValues items hvs)
  | record fields =>
    obtain ⟨fs, hfs, rfl⟩ := map_eq_ok_iff.mp h
    exact hasDistinctNames_ofList (hasDistinctNames_of_fieldValues fields hfs)
  | flawed | cut => cases h

theorem hasDistinctNames_of_itemValues (items : List Document) {vs : List Value}
    (h : itemValues items = .ok vs) : ∀ v ∈ vs, v.HasDistinctNames := by
  cases items with
  | nil =>
    cases h
    exact List.forall_mem_nil _
  | cons d ds =>
    obtain ⟨v, hv, h⟩ := bind_eq_ok_iff.mp h
    obtain ⟨vs, hvs, h⟩ := bind_eq_ok_iff.mp h
    cases h
    exact List.forall_mem_cons.mpr
      ⟨hasDistinctNames_of_toValue d hv, hasDistinctNames_of_itemValues ds hvs⟩

theorem hasDistinctNames_of_fieldValues (fields : List (Key × Document))
    {fs : List (String × Value)} (h : fieldValues fields = .ok fs) :
    ∀ field ∈ fs, field.2.HasDistinctNames := by
  cases fields with
  | nil =>
    cases h
    exact List.forall_mem_nil _
  | cons field ds =>
    obtain ⟨⟨k, flaw?⟩, d⟩ := field
    cases flaw? with
    | some fault => cases h
    | none =>
      obtain ⟨v, hv, h⟩ := bind_eq_ok_iff.mp h
      obtain ⟨fs, hfs, h⟩ := bind_eq_ok_iff.mp h
      cases h
      exact List.forall_mem_cons.mpr
        ⟨hasDistinctNames_of_toValue d hv, hasDistinctNames_of_fieldValues ds hfs⟩

end

end Document

end FilterChain
