import FilterChain.Text.Pieces
import Mathlib.Data.List.TakeWhile

/-!
# Laws of cutting and gluing

Cutting at every separator is splitting a list at an element, and gluing is putting an element
between lists, so both have the laws of the standard library. Cutting at the first separator has
one law for texts without the separator and one for texts with it.
-/

namespace FilterChain.Text

theorem extendFirst_eq_modifyHead (c : Char) {ps : List (List Char)} (h : ps ≠ []) :
    extendFirst c ps = ps.modifyHead (List.cons c) := by
  cases ps with
  | nil => exact absurd rfl h
  | cons piece rest => rfl

theorem piecesBy_eq_splitOnP (p : Char → Bool) (cs : List Char) :
    piecesBy p cs = cs.splitOnP p := by
  induction cs with
  | nil => rfl
  | cons c cs ih =>
    rw [List.splitOnP_cons_eq_if_modifyHead, piecesBy, ih,
      extendFirst_eq_modifyHead c (List.splitOnP_ne_nil p cs)]

theorem pieces_eq_splitOn (sep : Char) (cs : List Char) : pieces sep cs = cs.splitOn sep :=
  piecesBy_eq_splitOnP _ cs

theorem glue_eq_intercalate (sep : Char) (ps : List (List Char)) :
    glue sep ps = [sep].intercalate ps := by
  induction ps with
  | nil => rfl
  | cons piece rest ih =>
    cases rest with
    | nil => rw [glue, List.intercalate_singleton]
    | cons next rest =>
      rw [List.intercalate_cons_cons, ← ih]
      simp [glue]

theorem mem_glue_of_mem {sep c : Char} {piece : List Char} {ps : List (List Char)}
    (h : piece ∈ ps) (hc : c ∈ piece) : c ∈ glue sep ps := by
  induction ps with
  | nil => cases h
  | cons first rest ih =>
    cases rest with
    | nil =>
      obtain rfl := List.mem_singleton.mp h
      exact hc
    | cons next rest =>
      rcases List.mem_cons.mp h with rfl | h
      · exact List.mem_append_left _ hc
      · exact List.mem_append_right _ (List.mem_cons_of_mem _ (ih h))

theorem eq_or_mem_of_mem_glue {sep c : Char} {ps : List (List Char)} (h : c ∈ glue sep ps) :
    c = sep ∨ ∃ piece ∈ ps, c ∈ piece := by
  induction ps with
  | nil => cases h
  | cons first rest ih =>
    cases rest with
    | nil => exact Or.inr ⟨first, List.mem_singleton_self first, h⟩
    | cons next rest =>
      rcases List.mem_append.mp h with h | h
      · exact Or.inr ⟨first, List.mem_cons_self, h⟩
      · rcases List.mem_cons.mp h with rfl | h
        · exact Or.inl rfl
        · rcases ih h with rfl | ⟨piece, hmem, hc⟩
          · exact Or.inl rfl
          · exact Or.inr ⟨piece, List.mem_cons_of_mem _ hmem, hc⟩

theorem mem_of_mem_splitOn {sep c : Char} {cs piece : List Char} (h : piece ∈ cs.splitOn sep)
    (hc : c ∈ piece) : c ∈ cs := by
  rw [← pieces_eq_splitOn] at h
  have hglue : c ∈ glue sep (pieces sep cs) := mem_glue_of_mem h hc
  rwa [glue_pieces] at hglue

theorem not_mem_of_mem_splitOn {sep : Char} {cs piece : List Char} (h : piece ∈ cs.splitOn sep) :
    sep ∉ piece := by
  rw [← pieces_eq_splitOn] at h
  exact not_mem_of_mem_pieces h

theorem splitOn_glue {sep : Char} {ps : List (List Char)} (h : ∀ piece ∈ ps, sep ∉ piece)
    (hne : ps ≠ []) : (glue sep ps).splitOn sep = ps := by
  rw [glue_eq_intercalate]
  exact List.splitOn_intercalate sep h hne

theorem all_ne_of_not_mem {sep : Char} {cs : List Char} (h : sep ∉ cs) :
    ∀ c ∈ cs, (c != sep) = true := by
  intro c hc
  have hne : c ≠ sep := fun heq => h (heq ▸ hc)
  simpa using hne

theorem cutFirst_of_not_mem {sep : Char} {cs : List Char} (h : sep ∉ cs) :
    cutFirst sep cs = (cs, none) := by
  have htail : cs.dropWhile (· != sep) = [] := List.dropWhile_eq_nil_iff.mpr (all_ne_of_not_mem h)
  rw [cutFirst, htail]

theorem cutFirst_append_cons {sep : Char} {cs : List Char} (h : sep ∉ cs) (rest : List Char) :
    cutFirst sep (cs ++ sep :: rest) = (cs, some rest) := by
  have hhead : (cs ++ sep :: rest).takeWhile (· != sep) = cs := by
    rw [List.takeWhile_append_of_pos (all_ne_of_not_mem h)]
    simp
  have htail : (cs ++ sep :: rest).dropWhile (· != sep) = sep :: rest := by
    rw [List.dropWhile_append_of_pos (all_ne_of_not_mem h)]
    simp
  rw [cutFirst, htail, hhead]

end FilterChain.Text
