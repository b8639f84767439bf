import FilterChain.Proofs.Value.Leaves

/-!
# Traversals that do not fail

A function that accepts every scalar gets through every value. What it makes of a list or a record
is then made item by item and field by field, and the scalars of the outcome are, one by one, what
it makes of those of the value.
-/

namespace FilterChain

namespace Value

variable {f g leaf : Value → Except OperationError Value} {v w : Value}

/-- A function that puts a scalar for every scalar. -/
def KeepsScalars (f : Value → Except OperationError Value) : Prop :=
  ∀ x, x.isContainer = false → ∃ y, f x = .ok y ∧ y.isContainer = false

theorem KeepsScalars.exists_mapLeaves_eq_ok (hf : KeepsScalars f) (v : Value) :
    ∃ w, v.mapLeaves f = .ok w :=
  Value.exists_mapLeaves_eq_ok (fun x hx => (hf x hx).imp fun _ h => h.1) v

theorem KeepsScalars.isContainer_eq_false (hf : KeepsScalars f) (hv : v.isContainer = false)
    (h : f v = .ok w) : w.isContainer = false := by
  obtain ⟨y, hy, hscalar⟩ := hf v hv
  obtain rfl := Except.ok.inj (hy.symm.trans h)
  exact hscalar

theorem KeepsScalars.bind (hf : KeepsScalars f) (hg : KeepsScalars g) :
    KeepsScalars fun x => f x >>= g := by
  intro x hx
  obtain ⟨y, hy, hscalar⟩ := hf x hx
  obtain ⟨z, hz, hlast⟩ := hg y hscalar
  refine ⟨z, ?_, hlast⟩
  dsimp only
  rw [hy]
  exact hz

theorem mapLeaves_congr (h : ∀ x, x.isContainer = false → f x = g x) (v : Value) :
    v.mapLeaves f = v.mapLeaves g := by
  induction v using Value.induction with
  | scalar v hv =>
    rw [mapLeaves_of_not_isContainer hv, mapLeaves_of_not_isContainer hv, h v hv]
  | list items ih => rw [mapLeaves_list, mapLeaves_list, mapM_congr_of_mem ih]
  | record fields ih =>
    rw [mapLeaves_record, mapLeaves_record, mapM_congr_of_mem fun field hfield => ?_]
    rw [ih field hfield]

/-- Behind a first traversal, a second one makes of each value what a third makes of the value in
front of both, if this is so for scalars. -/
theorem KeepsScalars.mapLeaves_eq (hf : KeepsScalars f) (hv : v.mapLeaves f = .ok w)
    (h : ∀ x y, x.isContainer = false → f x = .ok y → g y = leaf x) :
    w.mapLeaves g = v.mapLeaves leaf := by
  rw [mapLeaves_of_mapLeaves_eq_ok (fun _ _ hx => hf.isContainer_eq_false hx) hv]
  refine mapLeaves_congr (fun x hx => ?_) v
  obtain ⟨y, hy, -⟩ := hf x hx
  rw [hy]
  exact h x y hx hy

theorem KeepsScalars.forall₂_leaves (hf : KeepsScalars f) (h : v.mapLeaves f = .ok w) :
    List.Forall₂ (fun x y => f x = .ok y) v.leaves w.leaves := by
  induction v using Value.induction generalizing w with
  | scalar v hv =>
    rw [mapLeaves_of_not_isContainer hv] at h
    rw [leaves_of_not_isContainer hv,
      leaves_of_not_isContainer (hf.isContainer_eq_false hv h)]
    exact .cons h .nil
  | list items ih =>
    rw [mapLeaves_list, map_eq_ok_iff] at h
    obtain ⟨others, hothers, rfl⟩ := h
    rw [leaves_list, leaves_list]
    exact forall₂_flatMap (mapM_eq_ok_iff.mp hothers) fun v hv _ => ih v hv
  | record fields ih =>
    rw [mapLeaves_record, map_eq_ok_iff] at h
    obtain ⟨others, hothers, rfl⟩ := h
    rw [leaves_record, leaves_record]
    refine forall₂_flatMap (mapM_eq_ok_iff.mp hothers) fun field hfield other hother => ?_
    exact ih field hfield (mapField_eq_ok_iff.mp hother).2

section Total

variable {outcome : Value → Value}

theorem outcome_list (h : ∀ v : Value, v.mapLeaves leaf = .ok (outcome v)) (items : List Value) :
    outcome (.list items) = .list (items.map outcome) := by
  have hitems : items.mapM (mapLeaves leaf) = .ok (items.map outcome) := by
    rw [mapM_congr_of_mem fun v _ => h v]
    exact List.mapM_pure
  have hlist := h (.list items)
  rw [mapLeaves_list, hitems] at hlist
  exact (Except.ok.inj hlist).symm

theorem outcome_record (h : ∀ v : Value, v.mapLeaves leaf = .ok (outcome v))
    (fields : List (String × Value)) :
    outcome (.record fields) = .record (fields.map (Prod.map id outcome)) := by
  have hfields : (fields.mapM fun field => (field.1, ·) <$> field.2.mapLeaves leaf) =
      .ok (fields.map (Prod.map id outcome)) := by
    rw [mapM_congr_of_mem fun field _ => congrArg ((field.1, ·) <$> ·) (h field.2)]
    exact List.mapM_pure
  have hrecord := h (.record fields)
  rw [mapLeaves_record, hfields] at hrecord
  exact (Except.ok.inj hrecord).symm

end Total

end Value

end FilterChain
