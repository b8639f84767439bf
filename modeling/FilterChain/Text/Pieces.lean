/-!
# Cutting texts at separators

`pieces sep` cuts a text at every occurrence of a character and keeps empty pieces, so that
`glue sep` undoes it. `cutFirst` cuts at the first occurrence only, and `piecesBy` at every
character of a class.
-/

namespace FilterChain.Text

def extendFirst (c : Char) : List (List Char) → List (List Char)
  | [] => [[c]]
  | piece :: rest => (c :: piece) :: rest

def piecesBy (isSeparator : Char → Bool) : List Char → List (List Char)
  | [] => [[]]
  | c :: cs =>
    if isSeparator c then [] :: piecesBy isSeparator cs
    else extendFirst c (piecesBy isSeparator cs)

def pieces (sep : Char) : List Char → List (List Char) :=
  piecesBy (· == sep)

def glue (sep : Char) : List (List Char) → List Char
  | [] => []
  | [piece] => piece
  | piece :: rest => piece ++ sep :: glue sep rest

/-- What stands before the first separator, and what stands after it if there is one. -/
def cutFirst (sep : Char) (cs : List Char) : List Char × Option (List Char) :=
  match cs.dropWhile (· != sep) with
  | [] => (cs, none)
  | _ :: rest => (cs.takeWhile (· != sep), some rest)

theorem cutFirst_fst (sep : Char) (cs : List Char) :
    (cutFirst sep cs).1 = cs.takeWhile (· != sep) := by
  have happ := List.takeWhile_append_dropWhile (p := (· != sep)) (l := cs)
  unfold cutFirst
  split
  · next h =>
    rw [h, List.append_nil] at happ
    exact happ.symm
  · rfl

theorem not_mem_cutFirst_fst (sep : Char) (cs : List Char) : sep ∉ (cutFirst sep cs).1 := by
  intro h
  rw [cutFirst_fst] at h
  have hall := List.all_takeWhile (p := (· != sep)) (l := cs)
  simpa using List.all_eq_true.mp hall sep h

theorem mem_of_mem_cutFirst_fst {sep c : Char} {cs : List Char} (h : c ∈ (cutFirst sep cs).1) :
    c ∈ cs := by
  rw [cutFirst_fst] at h
  exact (List.takeWhile_sublist _).mem h

theorem piecesBy_ne_nil (p : Char → Bool) (cs : List Char) : piecesBy p cs ≠ [] := by
  cases cs with
  | nil => simp [piecesBy]
  | cons c cs =>
    unfold piecesBy
    split
    · simp
    · cases piecesBy p cs <;> simp [extendFirst]

theorem pieces_ne_nil (sep : Char) (cs : List Char) : pieces sep cs ≠ [] :=
  piecesBy_ne_nil _ cs

theorem of_mem_piecesBy {p : Char → Bool} {cs piece : List Char} (h : piece ∈ piecesBy p cs)
    {c : Char} (hc : c ∈ piece) : p c = false := by
  induction cs generalizing piece with
  | nil => simp_all [piecesBy]
  | cons d ds ih =>
    unfold piecesBy at h
    split at h
    · rcases List.mem_cons.mp h with rfl | h
      · simp at hc
      · exact ih h hc
    · next hd =>
      cases hps : piecesBy p ds with
      | nil => exact absurd hps (piecesBy_ne_nil p ds)
      | cons first rest =>
        rw [hps] at h ih
        rcases List.mem_cons.mp h with rfl | h
        · rcases List.mem_cons.mp hc with rfl | hc
          · simpa using hd
          · exact ih List.mem_cons_self hc
        · exact ih (List.mem_cons_of_mem _ h) hc

theorem not_mem_of_mem_pieces {sep : Char} {cs piece : List Char} (h : piece ∈ pieces sep cs) :
    sep ∉ piece := by
  intro hc
  simpa using of_mem_piecesBy h hc

theorem glue_extendFirst (sep c : Char) (ps : List (List Char)) (h : ps ≠ []) :
    glue sep (extendFirst c ps) = c :: glue sep ps := by
  match ps with
  | [] => exact absurd rfl h
  | [_] => rfl
  | _ :: _ :: _ => rfl

theorem glue_pieces (sep : Char) (cs : List Char) : glue sep (pieces sep cs) = cs := by
  induction cs with
  | nil => rfl
  | cons c cs ih =>
    have hne := pieces_ne_nil sep cs
    by_cases h : c = sep
    · subst h
      show glue c (if (c == c) = true then [] :: pieces c cs else _) = _
      rw [if_pos (by simp)]
      cases hp : pieces c cs with
      | nil => exact absurd hp hne
      | cons p ps =>
        rw [hp] at ih
        simp [glue, ih]
    · show glue sep (if (c == sep) = true then _ else extendFirst c (pieces sep cs)) = _
      rw [if_neg (by simpa using h), glue_extendFirst sep c _ hne, ih]

end FilterChain.Text
