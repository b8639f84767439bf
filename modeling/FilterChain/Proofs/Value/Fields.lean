import FilterChain.Value
import Mathlib.Data.List.Induction
import Mathlib.Data.List.Nodup

/-!
# Fields of records

Fields are put together one after the other. A name that comes again keeps its first position and
takes the new value, so what is put together has each name once, and is left as it is when it is put
together again. Fields that are not put together can be taken apart by their names, with the values
of each name in order.
-/

namespace FilterChain.Fields

variable {α β : Type} {a b fields : List (String × α)}

theorem put_of_not_mem {name : String} {fields : List (String × α)} (h : name ∉ names fields)
    (a : α) : put name a fields = fields ++ [(name, a)] := by
  induction fields with
  | nil => rfl
  | cons field fields ih =>
    simp only [names, List.map_cons, List.mem_cons, not_or] at h ih
    rw [put, if_neg (Ne.symm h.1), ih h.2, List.cons_append]

theorem foldl_put_of_nodup {front fields : List (String × α)}
    (h : (names (front ++ fields)).Nodup) :
    fields.foldl (fun acc field => put field.1 field.2 acc) front = front ++ fields := by
  induction fields generalizing front with
  | nil => simp
  | cons field fields ih =>
    have hnew : field.1 ∉ names front := by
      simp only [names, List.map_append, List.map_cons] at h ⊢
      intro hmem
      exact (List.nodup_append.mp h).2.2 _ hmem _ List.mem_cons_self rfl
    have hassoc : front ++ field :: fields = front ++ [(field.1, field.2)] ++ fields := by simp
    rw [hassoc] at h ⊢
    rw [List.foldl_cons, put_of_not_mem hnew, ih h]

theorem ofList_of_nodup {fields : List (String × α)} (h : (names fields).Nodup) :
    ofList fields = fields :=
  foldl_put_of_nodup h

theorem ofList_append_singleton (fields : List (String × α)) (field : String × α) :
    ofList (fields ++ [field]) = put field.1 field.2 (ofList fields) := by
  rw [ofList, List.foldl_append]
  rfl

theorem eraseDups_append_singleton (names : List String) (name : String) :
    (names ++ [name]).eraseDups =
      if name ∈ names then names.eraseDups else names.eraseDups ++ [name] := by
  rw [List.eraseDups_append]
  by_cases h : name ∈ names <;> simp [h, List.removeAll, List.eraseDups_cons]

/-- The names of fields that are put together, each in the place where it came first. -/
theorem names_ofList (fields : List (String × α)) :
    names (ofList fields) = (names fields).eraseDups := by
  induction fields using List.reverseRecOn with
  | nil => rfl
  | append_singleton fields field ih =>
    have hnames : names (fields ++ [field]) = names fields ++ [field.1] := by simp [names]
    rw [ofList_append_singleton, names_put, hnames, eraseDups_append_singleton, ih]
    simp only [List.mem_eraseDups]

theorem nodup_names_ofList (fields : List (String × α)) : (names (ofList fields)).Nodup := by
  induction fields using List.reverseRecOn with
  | nil => exact List.nodup_nil
  | append_singleton fields field ih =>
    rw [ofList_append_singleton, names_put]
    split
    · exact ih
    · next h =>
      refine List.nodup_append.mpr ⟨ih, List.pairwise_singleton _ _, ?_⟩
      rintro name hname _ hfield rfl
      exact h (List.mem_singleton.mp hfield ▸ hname)

theorem lookup_ofList (fields : List (String × α)) (name : String) :
    (ofList fields).lookup name = fields.reverse.lookup name := by
  induction fields using List.reverseRecOn with
  | nil => rfl
  | append_singleton fields field ih =>
    obtain ⟨key, value⟩ := field
    rw [ofList_append_singleton, List.reverse_append, List.reverse_singleton,
      List.singleton_append, List.lookup_cons]
    by_cases h : name = key
    · rw [h, lookup_put_self, beq_self_eq_true]
    · rw [lookup_put_of_ne h, ih, beq_eq_false_iff_ne.mpr h]

theorem lookup_of_mem (hfields : (names fields).Nodup) {field : String × α} (h : field ∈ fields) :
    fields.lookup field.1 = some field.2 := by
  induction fields with
  | nil => cases h
  | cons head rest ih =>
    obtain ⟨hnew, hrest⟩ := List.nodup_cons.mp hfields
    rw [List.lookup_cons]
    rcases List.mem_cons.mp h with rfl | h
    · rw [beq_self_eq_true]
    · have hne : field.1 ≠ head.1 := fun heq => hnew (heq ▸ List.mem_map_of_mem h)
      rw [beq_eq_false_iff_ne.mpr hne]
      exact ih hrest h

/-- Each field has the value that came last for its name. -/
theorem lookup_reverse_of_mem_ofList {field : String × α} (h : field ∈ ofList fields) :
    fields.reverse.lookup field.1 = some field.2 := by
  rw [← lookup_ofList]
  exact lookup_of_mem (nodup_names_ofList fields) h

theorem mem_of_mem_ofList {field : String × α} (h : field ∈ ofList fields) : field ∈ fields := by
  obtain ⟨front, back, hfields, -⟩ :=
    List.lookup_eq_some_iff.mp (lookup_reverse_of_mem_ofList h)
  have hmem : field ∈ fields.reverse := by
    rw [hfields]
    exact List.mem_append_right _ List.mem_cons_self
  exact List.mem_reverse.mp hmem

/-- Fields are told by their names and by a value for each name. -/
theorem eq_of_names_eq (value : String → Option α) (hnames : names a = names b)
    (ha : ∀ field ∈ a, value field.1 = some field.2)
    (hb : ∀ field ∈ b, value field.1 = some field.2) : a = b := by
  induction a generalizing b with
  | nil => exact (List.map_eq_nil_iff.mp hnames.symm).symm
  | cons first as ih =>
    cases b with
    | nil => cases hnames
    | cons second bs =>
      obtain ⟨hname, hrest⟩ := List.cons.inj hnames
      obtain ⟨hfirst, has⟩ := List.forall_mem_cons.mp ha
      obtain ⟨hsecond, hbs⟩ := List.forall_mem_cons.mp hb
      rw [hname, hsecond] at hfirst
      rw [ih hrest has hbs, Prod.ext hname (Option.some.inj hfirst).symm]

theorem ofList_ofList (fields : List (String × α)) : ofList (ofList fields) = ofList fields :=
  ofList_of_nodup (nodup_names_ofList fields)

variable {name : String}

def valuesOf (name : String) (fields : List (String × α)) : List α :=
  (fields.filter (·.1 = name)).map Prod.snd

theorem valuesOf_cons_self (name : String) (a : α) (fields : List (String × α)) :
    valuesOf name ((name, a) :: fields) = a :: valuesOf name fields := by
  simp [valuesOf]

theorem valuesOf_cons_of_ne {field : String × α} (h : field.1 ≠ name) :
    valuesOf name (field :: fields) = valuesOf name fields := by
  simp [valuesOf, h]

theorem valuesOf_append (name : String) (front fields : List (String × α)) :
    valuesOf name (front ++ fields) = valuesOf name front ++ valuesOf name fields := by
  rw [valuesOf, List.filter_append, List.map_append]
  rfl

theorem valuesOf_perm (h : a.Perm b) (name : String) :
    (valuesOf name a).Perm (valuesOf name b) :=
  (h.filter _).map _

theorem valuesOf_of_not_mem (h : name ∉ names fields) : valuesOf name fields = [] := by
  have hnone : ∀ field ∈ fields, ¬ field.1 = name := fun field hfield heq =>
    h (heq ▸ List.mem_map_of_mem hfield)
  rw [valuesOf, List.filter_eq_nil_iff.mpr (by simpa using hnone), List.map_nil]

theorem mem_valuesOf_iff {value : α} : value ∈ valuesOf name fields ↔ (name, value) ∈ fields := by
  simp only [valuesOf, List.mem_map, List.mem_filter, decide_eq_true_eq]
  constructor
  · rintro ⟨field, ⟨hfield, rfl⟩, rfl⟩
    exact hfield
  · intro h
    exact ⟨(name, value), ⟨h, rfl⟩, rfl⟩

theorem lookup_eq_head?_valuesOf (name : String) (fields : List (String × α)) :
    fields.lookup name = (valuesOf name fields).head? := by
  induction fields with
  | nil => rfl
  | cons field fields ih =>
    obtain ⟨key, value⟩ := field
    by_cases h : key = name
    · subst h
      rw [List.lookup_cons_self, valuesOf_cons_self, List.head?_cons]
    · rw [valuesOf_cons_of_ne h, List.lookup_cons, beq_false_of_ne (Ne.symm h), ih]

def firsts : List (String × α) → List (String × α)
  | [] => []
  | field :: fields => field :: (firsts fields).filter (·.1 ≠ field.1)

theorem valuesOf_filter_ne_self (name : String) (fields : List (String × α)) :
    valuesOf name (fields.filter (·.1 ≠ name)) = [] := by
  rw [valuesOf, List.filter_filter, List.map_eq_nil_iff, List.filter_eq_nil_iff]
  simp

theorem valuesOf_filter_ne_of_ne {other : String} (h : name ≠ other) :
    valuesOf name (fields.filter (·.1 ≠ other)) = valuesOf name fields := by
  have hname : ∀ field : String × α, (field.1 = name ∧ field.1 ≠ other) ↔ field.1 = name := by
    rintro ⟨key, value⟩
    exact and_iff_left_of_imp fun heq => heq ▸ h
  simp only [valuesOf, List.filter_filter, ← Bool.decide_and, hname]

theorem firsts_subset (fields : List (String × α)) : firsts fields ⊆ fields := by
  induction fields with
  | nil => exact List.Subset.refl _
  | cons field fields ih =>
    exact List.cons_subset_cons field fun other hother => ih (List.mem_filter.mp hother).1

/-- Of each name there is just the first value among the first fields. -/
theorem valuesOf_firsts (name : String) (fields : List (String × α)) :
    valuesOf name (firsts fields) = (valuesOf name fields).take 1 := by
  induction fields with
  | nil => rfl
  | cons field fields ih =>
    obtain ⟨key, value⟩ := field
    rw [firsts]
    by_cases h : key = name
    · subst h
      rw [valuesOf_cons_self, valuesOf_cons_self, valuesOf_filter_ne_self, List.take_succ_cons,
        List.take_zero]
    · rw [valuesOf_cons_of_ne h, valuesOf_cons_of_ne h, valuesOf_filter_ne_of_ne (Ne.symm h), ih]

variable {f : String → String} {g : α → β}

theorem map_put {name : String} (h : ∀ other ∈ names fields, f other = f name → other = name)
    (value : α) :
    (put name value fields).map (Prod.map f g) =
      put (f name) (g value) (fields.map (Prod.map f g)) := by
  induction fields with
  | nil => rfl
  | cons field rest ih =>
    obtain ⟨key, old⟩ := field
    obtain ⟨hkey, hrest⟩ := List.forall_mem_cons.mp h
    by_cases heq : key = name
    · simp [put, heq]
    · have hne : f key ≠ f name := fun hsame => heq (hkey hsame)
      simp [put, heq, hne, ih hrest]

theorem map_ofList (h : ∀ a ∈ names fields, ∀ b ∈ names fields, f a = f b → a = b) :
    (ofList fields).map (Prod.map f g) = ofList (fields.map (Prod.map f g)) := by
  induction fields using List.reverseRecOn with
  | nil => rfl
  | append_singleton fields field ih =>
    have hold : ∀ name ∈ names fields, name ∈ names (fields ++ [field]) := by
      simp +contextual [names]
    have hnew : field.1 ∈ names (fields ++ [field]) := by simp [names]
    have hapart : ∀ other ∈ names (ofList fields), f other = f field.1 → other = field.1 := by
      intro other hother
      rw [names_ofList, List.mem_eraseDups] at hother
      exact h other (hold other hother) field.1 hnew
    have hfields := ih fun a ha b hb => h a (hold a ha) b (hold b hb)
    rw [ofList_append_singleton, map_put hapart, hfields, List.map_append, List.map_singleton,
      ofList_append_singleton]
    rfl

end FilterChain.Fields

namespace FilterChain.Value

/-- The field of that name, if the value is a record that has one. -/
def field? (name : String) : Value → Option Value
  | .record fields => fields.lookup name
  | _ => none

end FilterChain.Value
