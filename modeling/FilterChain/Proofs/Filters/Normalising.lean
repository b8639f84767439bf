import FilterChain.Proofs.Filters.Masking
import FilterChain.Proofs.Run.Step
import FilterChain.Registry

/-!
# Digits under a mask

The digits of a value are put into the places of a template. The result has as many of the digits as
there are places, so it can be normalised again, and then it has no digit to spare. What a template
has behind its last place is shown only by a source with digits to spare, and so it is lost.
-/

namespace FilterChain.Filters

variable {template source : List Char} {v : Value} {s : String}

theorem isAsciiDigit_of_mem_keepDigits {cs : List Char} :
    ∀ c ∈ keepDigits cs, Text.isAsciiDigit c = true :=
  fun _ hc => (List.mem_filter.mp hc).2

theorem keepDigits_applyMask (htemplate : ∀ c ∈ template, Text.isAsciiDigit c = false)
    (hsource : ∀ c ∈ source, Text.isAsciiDigit c = true) :
    keepDigits (applyMask template source) = source.take (template.count placeholder) := by
  fun_induction applyMask template source with
  | case1 source => rfl
  | case2 => rw [List.take_nil, keepDigits, List.filter_nil]
  | case3 ts c cs ih =>
    obtain ⟨-, hts⟩ := List.forall_mem_cons.mp htemplate
    obtain ⟨hc, hcs⟩ := List.forall_mem_cons.mp hsource
    rw [List.count_cons_self, List.take_succ_cons, ← ih hts hcs]
    exact List.filter_cons_of_pos hc
  | case4 t ts c cs ht ih =>
    obtain ⟨hliteral, hts⟩ := List.forall_mem_cons.mp htemplate
    rw [List.count_cons_of_ne ht, ← ih hts hsource]
    exact List.filter_cons_of_neg (ne_true_of_eq_false hliteral)

theorem applyMask_take (before source : List Char) :
    applyMask (before ++ [placeholder]) (source.take (before.count placeholder + 1)) =
      applyMask (before ++ [placeholder]) source := by
  induction before generalizing source with
  | nil =>
    cases source with
    | nil => rfl
    | cons c cs => rfl
  | cons t before ih =>
    cases source with
    | nil => rw [List.take_nil]
    | cons c cs =>
      by_cases ht : t = placeholder
      · rw [ht, List.count_cons_self, List.take_succ_cons, List.cons_append, applyMask,
          if_pos rfl, ih, applyMask, if_pos rfl]
      · have hrest := ih (c :: cs)
        rw [List.take_succ_cons] at hrest
        rw [List.count_cons_of_ne ht, List.take_succ_cons, List.cons_append, applyMask,
          if_neg ht, hrest, applyMask, if_neg ht]

theorem length_applyMask_lt (hne : template ≠ []) (hlast : template.getLast? ≠ some placeholder)
    (h : source.length ≤ template.count placeholder) :
    (applyMask template source).length < template.length := by
  by_cases hsource : source = []
  · rw [hsource, applyMask_nil]
    exact List.length_pos_iff.mpr hne
  · obtain ⟨before, behind, rfl, -, hfills⟩ := exists_fills_applyMask hsource h
    have hbehind : behind ≠ [] := by
      rintro rfl
      exact hlast List.getLast?_concat
    have hpos := List.length_pos_iff.mpr hbehind
    rw [hfills.length_eq]
    simp only [List.length_append, List.length_cons, List.length_nil]
    omega

/-- Taking just as many characters as there are places changes no output, if and only if the
template ends with a place. -/
theorem applyMask_take_count_iff (hne : template ≠ []) :
    (∀ source : List Char, (∀ c ∈ source, Text.isAsciiDigit c = true) →
      applyMask template (source.take (template.count placeholder)) = applyMask template source) ↔
      template.getLast? = some placeholder := by
  constructor
  · intro hall
    by_contra hlast
    -- One digit more than there are places shows the whole template, and the places alone do not.
    let digits := List.replicate (template.count placeholder + 1) '1'
    have hdigits : ∀ c ∈ digits, Text.isAsciiDigit c = true := by
      intro c hc
      rw [List.eq_of_mem_replicate hc]
      decide
    have hlength : digits.length = template.count placeholder + 1 := List.length_replicate
    have hwhole : (applyMask template digits).length = template.length :=
      (fills_applyMask (by omega)).length_eq
    have hshort := length_applyMask_lt hne hlast
      (List.length_take_le (template.count placeholder) digits)
    rw [hall digits hdigits, hwhole] at hshort
    exact Nat.lt_irrefl _ hshort
  · intro hlast source _
    obtain ⟨before, rfl⟩ := List.getLast?_eq_some_iff.mp hlast
    have hcount : (before ++ [placeholder]).count placeholder = before.count placeholder + 1 := by
      rw [List.count_append, List.count_singleton_self]
    rw [hcount, applyMask_take]

def normalise (template : String) (v : Value) : Except OperationError Value := do
  mask template (← digitsOnly v)

theorem digitsOnly_of_asText (hs : v.asText = .ok s) :
    digitsOnly v = .ok (.text (String.ofList (keepDigits s.toList))) :=
  onText_of_asText hs keepDigits

theorem normalise_of_asText (hs : v.asText = .ok s) (template : String) :
    normalise template v =
      .ok (.text (String.ofList (applyMask template.toList (keepDigits s.toList)))) := by
  have hmask : mask template (.text (String.ofList (keepDigits s.toList))) = _ :=
    mask_of_asText rfl template
  rw [String.toList_ofList] at hmask
  rw [normalise, digitsOnly_of_asText hs]
  exact hmask

theorem normalise_normalise {template : String} {w : Value}
    (htemplate : ∀ c ∈ template.toList, Text.isAsciiDigit c = false) (hs : v.asText = .ok s)
    (hw : normalise template v = .ok w) :
    normalise template w = .ok (.text (String.ofList (applyMask template.toList
      ((keepDigits s.toList).take (template.toList.count placeholder))))) := by
  obtain rfl := Except.ok.inj ((normalise_of_asText hs template).symm.trans hw)
  rw [normalise_of_asText rfl, String.toList_ofList,
    keepDigits_applyMask htemplate isAsciiDigit_of_mem_keepDigits]

theorem normalise_stable_iff {template : String}
    (htemplate : ∀ c ∈ template.toList, Text.isAsciiDigit c = false) (hs : v.asText = .ok s) :
    (∃ w, normalise template v = .ok w ∧ normalise template w = .ok w) ↔
      applyMask template.toList
          ((keepDigits s.toList).take (template.toList.count placeholder)) =
        applyMask template.toList (keepDigits s.toList) := by
  constructor
  · rintro ⟨w, hw, hagain⟩
    rw [normalise_normalise htemplate hs hw, ← hw, normalise_of_asText hs] at hagain
    exact String.ofList_injective (Value.text.inj (Except.ok.inj hagain))
  · intro h
    have hw := normalise_of_asText hs template
    refine ⟨_, hw, ?_⟩
    rw [normalise_normalise htemplate hs hw, h]

theorem outcome_plain_normalise {template : String} {w : Value}
    (h : normalise template v = .ok w) :
    (Run.plain Registry.builtin [⟨"digitos", []⟩, ⟨"mascara", [template]⟩] v).outcome =
      .ok w := by
  cases hmiddle : digitsOnly v with
  | error cause =>
    rw [normalise, hmiddle] at h
    cases h
  | ok middle =>
    rw [normalise, hmiddle] at h
    have hdigits : Registry.builtin.Takes ⟨"digitos", []⟩ v middle :=
      ⟨builtins[4], rfl, (Operation.call_unary _ _ _ v []).trans hmiddle⟩
    have hmask : Registry.builtin.Takes ⟨"mascara", [template]⟩ middle w :=
      ⟨builtins[7], rfl, (call_mask (List.getElem_mem _) rfl template [] middle).trans h⟩
    rw [Run.plain_cons_of_takes hdigits, Run.plain_cons_of_takes hmask, Run.plain]

/-- With a template that has no digits of its own, normalised values stay as they are when they are
normalised again, for all scalars at once, if and only if the template ends with a place. As many
digits as there are places are kept, the first ones. -/
theorem normalising_is_stable_iff (template : String) (hne : template ≠ "")
    (htemplate : ∀ c ∈ template.toList, Text.isAsciiDigit c = false) :
    ((∀ v : Value, v.isContainer = false →
        ∃ w, normalise template v = .ok w ∧ normalise template w = .ok w) ↔
      template.toList.getLast? = some placeholder) ∧
    (∀ v : Value, v.isContainer = false → ∃ s shown, v.asText = .ok s ∧
      normalise template v = .ok (.text shown) ∧
      keepDigits shown.toList = (keepDigits s.toList).take
        (min (keepDigits s.toList).length (template.toList.count placeholder))) ∧
    ∀ v w, normalise template v = .ok w →
      (Run.plain Registry.builtin [⟨"digitos", []⟩, ⟨"mascara", [template]⟩] v).outcome =
        .ok w := by
  have hlist : template.toList ≠ [] := fun h => hne (String.toList_eq_nil_iff.mp h)
  refine ⟨?_, ?_, fun _ _ => outcome_plain_normalise⟩
  · rw [← applyMask_take_count_iff hlist]
    constructor
    · intro hstable source hsource
      have hagain := (normalise_stable_iff htemplate rfl).mp
        (hstable (.text (String.ofList source)) rfl)
      have hkept : keepDigits source = source := List.filter_eq_self.mpr hsource
      rwa [String.toList_ofList, hkept] at hagain
    · intro hall v hv
      obtain ⟨s, hs⟩ := Value.exists_asText_eq_ok hv
      exact (normalise_stable_iff htemplate hs).mpr (hall _ isAsciiDigit_of_mem_keepDigits)
  · intro v hv
    obtain ⟨s, hs⟩ := Value.exists_asText_eq_ok hv
    refine ⟨s, _, hs, normalise_of_asText hs template, ?_⟩
    rw [String.toList_ofList, keepDigits_applyMask htemplate isAsciiDigit_of_mem_keepDigits,
      Nat.min_comm, ← List.take_take, List.take_length]

/-- A template that ends with a place, and one whose bracket is closed by a third digit alone. -/
theorem normalising_is_stable_iff_bracket :
    (∃ w, normalise "###.###.###-##" (.text " 123 456 789 01 ") = .ok w ∧
      normalise "###.###.###-##" w = .ok w ∧ w = .text "123.456.789-01") ∧
    (¬ ∀ v : Value, v.isContainer = false →
      ∃ w, normalise "(##)" v = .ok w ∧ normalise "(##)" w = .ok w) ∧
    normalise "(##)" (.number (.whole 117)) = .ok (.text "(11)") ∧
    normalise "(##)" (.text "(11)") = .ok (.text "(11") := by
  obtain ⟨hstable, -⟩ := normalising_is_stable_iff "###.###.###-##" (by decide) (by decide)
  obtain ⟨hbracket, -⟩ := normalising_is_stable_iff "(##)" (by decide) (by decide)
  obtain ⟨w, hw, hagain⟩ := hstable.mpr (by decide) (.text " 123 456 789 01 ") rfl
  refine ⟨⟨w, hw, hagain, ?_⟩, fun hall => absurd (hbracket.mp hall) (by decide), by decide,
    by decide⟩
  exact Except.ok.inj (hw.symm.trans (by decide))

end FilterChain.Filters
