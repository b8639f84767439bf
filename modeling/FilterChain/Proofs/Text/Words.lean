import FilterChain.Proofs.Text.Cutting
import FilterChain.Text.Word

/-!
# Words of a text

The words of a text are the maximal runs of word characters in it: the text is one word after the
other, with at least one other character between two of them, and can be cut into words in no other
way. So the words of a text that is put together from them are the same again.
-/

namespace FilterChain.Text

variable {cs gap front back sep word : List Char} {ws : List (List Char)} {c : Char}

/-- A text is these words in this order. Each of them has word characters only, and at least one.
Other characters stand between any two words, and may stand in front of the first and behind the
last. -/
inductive HasWords : List Char → List (List Char) → Prop where
  | none {gap : List Char} (hgap : ∀ c ∈ gap, isWordChar c = false) : HasWords gap []
  | last {gap word : List Char} (hgap : ∀ c ∈ gap, isWordChar c = false) (hne : word ≠ [])
      (hword : ∀ c ∈ word, isWordChar c = true) : HasWords (gap ++ word) [word]
  | next {gap word : List Char} {c : Char} {rest : List Char} {ws : List (List Char)}
      (hgap : ∀ c ∈ gap, isWordChar c = false) (hne : word ≠ [])
      (hword : ∀ c ∈ word, isWordChar c = true) (hc : isWordChar c = false)
      (hrest : HasWords rest ws) : HasWords (gap ++ word ++ c :: rest) (word :: ws)

theorem HasWords.cons_other (hc : isWordChar c = false) (h : HasWords cs ws) :
    HasWords (c :: cs) ws := by
  cases h with
  | none hgap => exact .none (List.forall_mem_cons.mpr ⟨hc, hgap⟩)
  | last hgap hne hword => exact .last (List.forall_mem_cons.mpr ⟨hc, hgap⟩) hne hword
  | next hgap hne hword hother hrest =>
    exact .next (List.forall_mem_cons.mpr ⟨hc, hgap⟩) hne hword hother hrest

/-- Word characters in front of a text are a word, up to the next character of another kind. -/
theorem exists_hasWords_append (hfront : ∀ c ∈ front, isWordChar c = true) (cs : List Char) :
    ∃ ws, HasWords (front ++ cs) ws := by
  have hnil : ∀ c ∈ ([] : List Char), isWordChar c = false := List.forall_mem_nil _
  induction cs generalizing front with
  | nil =>
    rw [List.append_nil]
    by_cases hne : front = []
    · subst hne
      exact ⟨[], .none hnil⟩
    · exact ⟨[front], .last hnil hne hfront⟩
  | cons c cs ih =>
    cases hc : isWordChar c with
    | true =>
      rw [List.append_cons]
      exact ih (List.forall_mem_append.mpr ⟨hfront, List.forall_mem_singleton.mpr hc⟩)
    | false =>
      obtain ⟨ws, hws⟩ := ih (List.forall_mem_nil _)
      by_cases hne : front = []
      · subst hne
        exact ⟨ws, hws.cons_other hc⟩
      · exact ⟨front :: ws, .next hnil hne hfront hc hws⟩

theorem exists_hasWords (cs : List Char) : ∃ ws, HasWords cs ws :=
  exists_hasWords_append (List.forall_mem_nil _) cs

theorem words_append_cons (hc : isWordChar c = false) (cs ds : List Char) :
    words (cs ++ c :: ds) = words cs ++ words ds := by
  have hsep : (!isWordChar c) = true := by rw [hc, Bool.not_false]
  simp only [words, piecesBy_eq_splitOnP]
  rw [List.splitOnP_append_cons cs ds hsep, List.filter_append]

theorem words_nil : words [] = [] :=
  rfl

theorem words_cons (hc : isWordChar c = false) (cs : List Char) : words (c :: cs) = words cs :=
  words_append_cons hc [] cs

theorem words_append (hgap : ∀ c ∈ gap, isWordChar c = false) (cs : List Char) :
    words (gap ++ cs) = words cs := by
  induction gap with
  | nil => rfl
  | cons c gap ih =>
    obtain ⟨hc, hgap⟩ := List.forall_mem_cons.mp hgap
    rw [List.cons_append, words_cons hc, ih hgap]

theorem words_of_word (hne : word ≠ []) (hword : ∀ c ∈ word, isWordChar c = true) :
    words word = [word] := by
  have hsep : ∀ c ∈ word, (!isWordChar c) = false := fun c hc => by rw [hword c hc, Bool.not_true]
  rw [words, piecesBy_eq_splitOnP, List.splitOnP_eq_singleton hsep]
  exact List.filter_cons_of_pos (by simpa using hne)

theorem HasWords.words_eq (h : HasWords cs ws) : words cs = ws := by
  induction h with
  | @none gap hgap => rw [← List.append_nil gap, words_append hgap, words_nil]
  | last hgap hne hword => rw [words_append hgap, words_of_word hne hword]
  | @next gap word c rest ws hgap hne hword hc _ ih =>
    rw [words_append_cons hc, words_append hgap, words_of_word hne hword, ih, List.singleton_append]

theorem hasWords_iff : HasWords cs ws ↔ ws = words cs := by
  constructor
  · exact fun h => h.words_eq.symm
  · rintro rfl
    obtain ⟨ws, hws⟩ := exists_hasWords cs
    rwa [hws.words_eq]

theorem HasWords.of_mem (h : HasWords cs ws) :
    ∀ word ∈ ws, word ≠ [] ∧ ∀ c ∈ word, isWordChar c = true := by
  induction h with
  | none => exact List.forall_mem_nil _
  | last _ hne hword => exact List.forall_mem_singleton.mpr ⟨hne, hword⟩
  | next _ hne hword _ _ ih => exact List.forall_mem_cons.mpr ⟨⟨hne, hword⟩, ih⟩

theorem filter_of_other (hgap : ∀ c ∈ gap, isWordChar c = false) : gap.filter isWordChar = [] :=
  List.filter_eq_nil_iff.mpr fun c hc => ne_true_of_eq_false (hgap c hc)

theorem HasWords.flatten_eq (h : HasWords cs ws) : ws.flatten = cs.filter isWordChar := by
  induction h with
  | none hgap => rw [filter_of_other hgap, List.flatten_nil]
  | last hgap _ hword =>
    rw [List.filter_append, filter_of_other hgap, List.filter_eq_self.mpr hword,
      List.flatten_singleton, List.nil_append]
  | next hgap _ hword hc _ ih =>
    rw [List.filter_append, List.filter_append, filter_of_other hgap, List.filter_eq_self.mpr hword,
      List.filter_cons_of_neg (ne_true_of_eq_false hc), ← ih, List.flatten_cons, List.nil_append]

/-- Words with other characters between them are the words of the text that they make. -/
theorem hasWords_intercalate (hws : ∀ word ∈ ws, word ≠ [] ∧ ∀ c ∈ word, isWordChar c = true)
    (hne : sep ≠ []) (hsep : ∀ c ∈ sep, isWordChar c = false)
    (hfront : ∀ c ∈ front, isWordChar c = false) (hback : ∀ c ∈ back, isWordChar c = false) :
    HasWords (front ++ sep.intercalate ws ++ back) ws := by
  induction ws generalizing front with
  | nil => exact .none (List.forall_mem_append.mpr ⟨by simpa using hfront, hback⟩)
  | cons word ws ih =>
    obtain ⟨⟨hword, hchars⟩, hws⟩ := List.forall_mem_cons.mp hws
    cases ws with
    | nil =>
      rw [List.intercalate_singleton]
      cases back with
      | nil =>
        rw [List.append_nil]
        exact .last hfront hword hchars
      | cons c back =>
        obtain ⟨hc, hback⟩ := List.forall_mem_cons.mp hback
        exact .next hfront hword hchars hc (.none hback)
    | cons next ws =>
      -- The first character of the separator ends the word, and the others stand before the next.
      obtain ⟨c, sep, rfl⟩ := List.exists_cons_of_ne_nil hne
      obtain ⟨hc, hrest⟩ := List.forall_mem_cons.mp hsep
      have hnext := HasWords.next hfront hword hchars hc (ih hws hrest)
      rw [List.intercalate_cons_cons]
      simpa only [List.append_assoc, List.cons_append] using hnext

end FilterChain.Text
