import FilterChain.Operation
import Mathlib.Data.List.Forall2

/-!
# Outcomes

What follows from the outcome of several computations one after the other, each of which may fail.
A list of them is stopped by the first that fails, and otherwise stands side by side with the list
of what they give.
-/

namespace FilterChain

variable {ε α β γ δ : Type}

theorem forall₂_congr_of_mem {R S : α → β → Prop} {xs : List α} {ys : List β}
    (h : ∀ x ∈ xs, ∀ y, R x y ↔ S x y) : List.Forall₂ R xs ys ↔ List.Forall₂ S xs ys := by
  induction xs generalizing ys with
  | nil => simp
  | cons x xs ih =>
    obtain ⟨hx, hxs⟩ := List.forall_mem_cons.mp h
    simp only [List.forall₂_cons_left_iff, hx, ih hxs]

theorem eq_map_of_forall₂ {R : α → β → Prop} {f : α → β} {xs : List α} {ys : List β}
    (h : List.Forall₂ R xs ys) (hf : ∀ x ∈ xs, ∀ y, R x y → y = f x) : ys = xs.map f := by
  induction h with
  | nil => rfl
  | @cons x y xs ys hxy _ ih =>
    obtain ⟨hx, hxs⟩ := List.forall_mem_cons.mp hf
    rw [List.map_cons, hx y hxy, ih hxs]

/-- What two lists have in common with a third one decides how they compare. -/
theorem forall₂_of_common {R : α → β → Prop} {S : α → γ → Prop} {T : β → γ → Prop}
    {xs : List α} {ys : List β} {zs : List γ} (hy : List.Forall₂ R xs ys)
    (hz : List.Forall₂ S xs zs) (h : ∀ x ∈ xs, ∀ y z, R x y → S x z → T y z) :
    List.Forall₂ T ys zs := by
  induction hy generalizing zs with
  | nil =>
    cases hz
    exact .nil
  | cons hxy _ ih =>
    cases hz with
    | cons hxz hxs =>
      obtain ⟨hx, hrest⟩ := List.forall_mem_cons.mp h
      exact .cons (hx _ _ hxy hxz) (ih hxs hrest)

theorem forall₂_flatMap {R : α → β → Prop} {S : γ → δ → Prop} {xs : List α}
    {ys : List β} {p : α → List γ} {q : β → List δ} (h : List.Forall₂ R xs ys)
    (hpq : ∀ x ∈ xs, ∀ y, R x y → List.Forall₂ S (p x) (q y)) :
    List.Forall₂ S (xs.flatMap p) (ys.flatMap q) := by
  induction h with
  | nil => exact .nil
  | @cons x y xs ys hxy _ ih =>
    obtain ⟨hx, hxs⟩ := List.forall_mem_cons.mp hpq
    rw [List.flatMap_cons, List.flatMap_cons]
    exact List.rel_append (hx y hxy) (ih hxs)

theorem map_eq_ok_iff {f : α → β} {outcome : Except ε α} {b : β} :
    f <$> outcome = .ok b ↔ ∃ a, outcome = .ok a ∧ f a = b := by
  cases outcome <;> simp

theorem bind_eq_ok_iff {outcome : Except ε α} {next : α → Except ε β} {b : β} :
    outcome >>= next = .ok b ↔ ∃ a, outcome = .ok a ∧ next a = .ok b := by
  cases outcome <;> simp [bind, Except.bind]

theorem mapM_eq_ok_iff {f : α → Except ε β} {xs : List α} {ys : List β} :
    xs.mapM f = .ok ys ↔ List.Forall₂ (fun x y => f x = .ok y) xs ys := by
  induction xs generalizing ys with
  | nil => simp [pure, Except.pure, eq_comm]
  | cons x xs ih =>
    simp only [List.mapM_cons, bind_eq_ok_iff, ih, List.forall₂_cons_left_iff, pure, Except.pure,
      Except.ok.injEq, eq_comm (b := ys)]
    constructor
    · rintro ⟨y, hy, ys, hys, rfl⟩
      exact ⟨y, ys, hy, hys, rfl⟩
    · rintro ⟨y, ys, hy, hys, rfl⟩
      exact ⟨y, hy, ys, hys, rfl⟩

theorem exists_eq_ok_of_mapM {f : α → Except ε β} {xs : List α} {ys : List β}
    (h : xs.mapM f = .ok ys) : ∀ y ∈ ys, ∃ x, f x = .ok y := by
  induction mapM_eq_ok_iff.mp h with
  | nil => exact List.forall_mem_nil _
  | cons hxy hxsys ih =>
    exact List.forall_mem_cons.mpr ⟨⟨_, hxy⟩, ih (mapM_eq_ok_iff.mpr hxsys)⟩

theorem mapM_congr_of_mem {f g : α → Except ε β} {xs : List α}
    (h : ∀ x ∈ xs, f x = g x) : xs.mapM f = xs.mapM g := by
  induction xs with
  | nil => rfl
  | cons x xs ih =>
    obtain ⟨hx, hxs⟩ := List.forall_mem_cons.mp h
    rw [List.mapM_cons, List.mapM_cons, hx, ih hxs]

theorem mapM_of_mapM_eq_ok {first : α → Except ε β}
    {second : β → Except ε γ} {both : α → Except ε γ} {xs : List α}
    {ys : List β} (h : xs.mapM first = .ok ys)
    (hboth : ∀ x ∈ xs, ∀ y, first x = .ok y → second y = both x) :
    ys.mapM second = xs.mapM both := by
  induction mapM_eq_ok_iff.mp h with
  | nil => rfl
  | @cons x y xs ys hxy hxsys ih =>
    obtain ⟨hx, hxs⟩ := List.forall_mem_cons.mp hboth
    rw [List.mapM_cons, List.mapM_cons, hx y hxy, ih (mapM_eq_ok_iff.mpr hxsys) hxs]

def fault? : Except OperationError α → Option OperationError
  | .error e => some e
  | .ok _ => none

theorem fault?_eq_none_iff {outcome : Except OperationError α} :
    fault? outcome = none ↔ ∃ a, outcome = .ok a := by
  cases outcome <;> simp [fault?]

theorem fault?_eq_some_iff {outcome : Except OperationError α} {e : OperationError} :
    fault? outcome = some e ↔ outcome = .error e := by
  cases outcome <;> simp [fault?]

theorem fault?_map (f : α → β) (outcome : Except OperationError α) :
    fault? (f <$> outcome) = fault? outcome := by
  cases outcome <;> rfl

theorem fault?_mapM (f : α → Except OperationError β) (xs : List α) :
    fault? (xs.mapM f) = xs.findSome? fun x => fault? (f x) := by
  induction xs with
  | nil => rfl
  | cons x xs ih =>
    rw [List.mapM_cons, List.findSome?_cons, ← ih]
    cases f x with
    | error e => rfl
    | ok y => cases xs.mapM f <;> rfl

end FilterChain
