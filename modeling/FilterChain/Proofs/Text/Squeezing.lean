import FilterChain.Proofs.Text.Trimming
import FilterChain.Proofs.Text.Words
import Mathlib.Data.List.Destutter

/-!
# Squeezed texts

Squeezing writes each blank as a space and drops the spaces behind another one. The other characters
stay as they are, and so does which of them have blanks between them. No blank is a word character,
so the words of the text are not touched.
-/

namespace FilterChain.Text

variable {cs ds : List Char} {c : Char}

/-- All blanks of a text are spaces, and no space follows another. -/
structure IsSqueezed (cs : List Char) : Prop where
  spaces : ∀ c ∈ cs, isBlank c = true → c = ' '
  apart : cs.IsChain fun c d => ¬ (c = ' ' ∧ d = ' ')

/-- The runs of blanks in front of, between and behind the other characters of a text. Where there
are no blanks they are empty, so there is one run more than there are other characters. -/
def gaps (cs : List Char) : List (List Char) :=
  cs.splitOnP fun c => !isBlank c

def oneSpace (gap : List Char) : List Char :=
  if gap = [] then [] else [' ']

def spaceForBlank (c : Char) : Char :=
  if isBlank c then ' ' else c

theorem isBlank_space : isBlank ' ' = true :=
  rfl

theorem spaceForBlank_of_blank (h : isBlank c = true) : spaceForBlank c = ' ' :=
  if_pos h

theorem spaceForBlank_of_not_blank (h : ¬ isBlank c = true) : spaceForBlank c = c :=
  if_neg h

theorem spaceForBlank_eq_space_iff : spaceForBlank c = ' ' ↔ isBlank c = true := by
  by_cases h : isBlank c = true
  · exact iff_of_true (spaceForBlank_of_blank h) h
  · rw [spaceForBlank_of_not_blank h]
    refine iff_of_false ?_ h
    rintro rfl
    exact h isBlank_space

/-- A blank is dropped in front of another one. -/
theorem squeeze_cons_cons (c d : Char) (ds : List Char) :
    squeeze (c :: d :: ds) = if isBlank c = true ∧ isBlank d = true then squeeze (d :: ds)
      else spaceForBlank c :: squeeze (d :: ds) := by
  rw [squeeze]
  by_cases hc : isBlank c = true
  · rw [if_pos hc, spaceForBlank_of_blank hc]
    exact if_congr (and_iff_right hc).symm rfl rfl
  · rw [if_neg hc, if_neg fun h => hc h.1, spaceForBlank_of_not_blank hc]

theorem squeeze_cons (c : Char) (cs : List Char) :
    squeeze (c :: cs) =
      (cs.map spaceForBlank).destutter' (fun c d => ¬ (c = ' ' ∧ d = ' ')) (spaceForBlank c) := by
  induction cs generalizing c with
  | nil => exact (apply_ite (fun d => [d]) (isBlank c = true) ' ' c).symm
  | cons d ds ih =>
    have hspaces : spaceForBlank c = ' ' ∧ spaceForBlank d = ' ' ↔
        isBlank c = true ∧ isBlank d = true :=
      and_congr spaceForBlank_eq_space_iff spaceForBlank_eq_space_iff
    rw [squeeze_cons_cons, List.map_cons]
    by_cases h : isBlank c = true ∧ isBlank d = true
    · obtain ⟨hc, hd⟩ := hspaces.mpr h
      rw [if_pos h, List.destutter'_cons_neg _ (not_not.mpr (hspaces.mpr h)), ih, hc, hd]
    · rw [if_neg h, List.destutter'_cons_pos _ (mt hspaces.mp h), ih]

theorem squeeze_eq_destutter (cs : List Char) :
    squeeze cs = (cs.map spaceForBlank).destutter fun c d => ¬ (c = ' ' ∧ d = ' ') := by
  cases cs with
  | nil => rfl
  | cons c cs => rw [squeeze_cons, List.map_cons, List.destutter_cons']

theorem isSqueezed_squeeze (cs : List Char) : IsSqueezed (squeeze cs) where
  spaces c hc hblank := by
    rw [squeeze_eq_destutter] at hc
    obtain ⟨d, -, rfl⟩ := List.mem_map.mp ((List.destutter_sublist _ _).mem hc)
    by_cases hd : isBlank d = true
    · exact spaceForBlank_of_blank hd
    · rw [spaceForBlank_of_not_blank hd] at hblank
      exact absurd hblank hd
  apart := by
    rw [squeeze_eq_destutter]
    exact List.isChain_destutter _ _

theorem IsSqueezed.squeeze_eq (h : IsSqueezed cs) : squeeze cs = cs := by
  have hsame : cs.map spaceForBlank = cs := by
    refine (List.map_congr_left fun c hc => ?_).trans (List.map_id cs)
    by_cases hblank : isBlank c = true
    · exact (spaceForBlank_of_blank hblank).trans (h.spaces c hc hblank).symm
    · exact spaceForBlank_of_not_blank hblank
  rw [squeeze_eq_destutter, hsame]
  exact List.destutter_of_isChain _ _ h.apart

theorem IsSqueezed.of_isInfix (h : IsSqueezed cs) (hds : ds <:+: cs) : IsSqueezed ds where
  spaces c hc := h.spaces c (hds.mem hc)
  apart := List.IsChain.infix h.apart hds

/-- Trimming a squeezed text, by whatever class, leaves nothing more to squeeze. -/
theorem squeeze_trimBy_squeeze (p : Char → Bool) (cs : List Char) :
    squeeze (trimBy p (squeeze cs)) = trimBy p (squeeze cs) :=
  ((isSqueezed_squeeze cs).of_isInfix (trimBy_isInfix p (squeeze cs))).squeeze_eq

theorem filter_squeeze (cs : List Char) :
    (squeeze cs).filter (fun c => !isBlank c) = cs.filter fun c => !isBlank c := by
  fun_induction squeeze cs with
  | case1 => rfl
  | case2 c hc => simp [hc, isBlank_space]
  | case3 c hc d ds hd ih => rw [ih]; simp [hc, hd]
  | case4 c hc d ds hd ih => simp [hc, ih, isBlank_space]
  | case5 c cs hc ih => simp [hc, ih]

theorem gaps_ne_nil (cs : List Char) : gaps cs ≠ [] :=
  List.splitOnP_ne_nil _ cs

theorem gaps_cons_blank (hc : isBlank c = true) (cs : List Char) :
    gaps (c :: cs) = (gaps cs).modifyHead (List.cons c) := by
  rw [gaps, List.splitOnP_cons_eq_if_modifyHead, hc]
  rfl

theorem gaps_cons_other (hc : ¬ isBlank c = true) (cs : List Char) :
    gaps (c :: cs) = [] :: gaps cs := by
  rw [gaps, List.splitOnP_cons_eq_if_modifyHead, eq_false_of_ne_true hc]
  rfl

theorem gaps_squeeze (cs : List Char) : gaps (squeeze cs) = (gaps cs).map oneSpace := by
  fun_induction squeeze cs with
  | case1 => rfl
  | case2 c hc => rw [gaps_cons_blank hc]; rfl
  | case3 c hc d ds hd ih =>
    obtain ⟨gap, rest, hds⟩ := List.exists_cons_of_ne_nil (gaps_ne_nil ds)
    rw [ih, gaps_cons_blank hc, gaps_cons_blank hd, hds]
    rfl
  | case4 c hc d ds hd ih =>
    rw [gaps_cons_blank isBlank_space, ih, gaps_cons_blank hc, gaps_cons_other hd]
    rfl
  | case5 c cs hc ih =>
    rw [gaps_cons_other hc, gaps_cons_other hc, ih]
    rfl

def blankRanges : List (Nat × Nat) :=
  [
    (9, 13), (32, 32), (133, 133), (160, 160), (5760, 5760), (8192, 8202), (8232, 8233),
    (8239, 8239), (8287, 8287), (12288, 12288)
  ]

theorem exists_blankRange (hc : isBlank c = true) :
    ∃ run ∈ blankRanges, run.1 ≤ c.toNat ∧ c.toNat ≤ run.2 := by
  simp only [isBlank, Bool.or_eq_true, Bool.and_eq_true, decide_eq_true_eq, beq_iff_eq] at hc
  simp only [blankRanges, List.exists_mem_cons_iff, List.not_mem_nil, false_and, exists_false]
  omega

theorem isWordChar_of_isBlank (hc : isBlank c = true) : isWordChar c = false := by
  have hapart : (blankRanges.all fun run => wordRanges.all fun other =>
      run.2.blt other.1 || other.2.blt run.1) = true := by
    decide +kernel
  simp only [List.all_eq_true, Bool.or_eq_true, Nat.blt_eq] at hapart
  obtain ⟨run, hrun, hlow, hhigh⟩ := exists_blankRange hc
  refine eq_false_of_ne_true fun hword => ?_
  obtain ⟨other, hother, hfirst, hlast⟩ := (inRanges_iff areIncreasing_wordRanges).mp hword
  rcases hapart run hrun other hother with h | h <;> omega

/-- Squeezing does not touch the words of a text, whatever stands in front of it. -/
theorem words_append_squeeze (front cs : List Char) :
    words (front ++ squeeze cs) = words (front ++ cs) := by
  have hspace : isWordChar ' ' = false := isWordChar_of_isBlank isBlank_space
  fun_induction squeeze cs generalizing front with
  | case1 => rfl
  | case2 c hc =>
    rw [words_append_cons hspace, words_append_cons (isWordChar_of_isBlank hc)]
  | case3 c hc d ds hd ih =>
    rw [ih, words_append_cons (isWordChar_of_isBlank hc),
      words_append_cons (isWordChar_of_isBlank hd), words_cons (isWordChar_of_isBlank hd)]
  | case4 c hc d ds hd ih =>
    have hrest := ih []
    rw [words_append_cons hspace, words_append_cons (isWordChar_of_isBlank hc)]
    exact congrArg (words front ++ ·) hrest
  | case5 c cs hc ih => rw [List.append_cons, ih, ← List.append_cons]

theorem words_squeeze (cs : List Char) : words (squeeze cs) = words cs :=
  words_append_squeeze [] cs

end FilterChain.Text
