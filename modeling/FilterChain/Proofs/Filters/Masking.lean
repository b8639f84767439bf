import FilterChain.Proofs.Filters.Scalars
import FilterChain.Proofs.Filters.Scaling

/-!
# Masks

A mask is a template with places to be filled. A text that fills all of them, and more, gives the
whole template; a shorter one gives the template up to the last place that it fills, and nothing
behind. A longer text therefore only adds to the output.
-/

namespace FilterChain.Filters

variable {pattern template source longer out : List Char} {t c : Char}

/-- Each placeholder of a pattern is replaced by the character of the source whose number is that of
the placeholders before, and all else is kept. -/
structure Fills (pattern source out : List Char) : Prop where
  length_eq : out.length = pattern.length
  places_le : pattern.count placeholder ≤ source.length
  place : ∀ i : Nat, pattern[i]? = some placeholder →
    out[i]? = source[(pattern.take i).count placeholder]?
  literal : ∀ (i : Nat) (c : Char), pattern[i]? = some c → c ≠ placeholder → out[i]? = some c

theorem fills_nil (source : List Char) : Fills [] source [] where
  length_eq := rfl
  places_le := Nat.zero_le _
  place := nofun
  literal := nofun

theorem Fills.cons_place (h : Fills pattern source out) (c : Char) :
    Fills (placeholder :: pattern) (c :: source) (c :: out) where
  length_eq := congrArg Nat.succ h.length_eq
  places_le := by
    rw [List.count_cons_self, List.length_cons]
    exact Nat.succ_le_succ h.places_le
  place
    | 0, _ => rfl
    | i + 1, hi => by
      rw [List.take_succ_cons, List.count_cons_self]
      exact h.place i hi
  literal
    | 0, _, hi, hne => absurd (Option.some.inj hi).symm hne
    | i + 1, d, hi, hne => h.literal i d hi hne

theorem Fills.cons_literal (h : Fills pattern source out) (ht : t ≠ placeholder) :
    Fills (t :: pattern) source (t :: out) where
  length_eq := congrArg Nat.succ h.length_eq
  places_le := by
    rw [List.count_cons_of_ne ht]
    exact h.places_le
  place
    | 0, hi => absurd (Option.some.inj hi) ht
    | i + 1, hi => by
      rw [List.take_succ_cons, List.count_cons_of_ne ht]
      exact h.place i hi
  literal
    | 0, _, hi, _ => hi
    | i + 1, d, hi, hne => h.literal i d hi hne

theorem applyMask_nil (template : List Char) : applyMask template [] = [] := by
  cases template <;> rfl

theorem fills_applyMask (h : template.count placeholder < source.length) :
    Fills template source (applyMask template source) := by
  fun_induction applyMask template source with
  | case1 source => exact fills_nil source
  | case2 => exact absurd h (Nat.not_lt_zero _)
  | case3 ts c cs ih =>
    rw [List.count_cons_self, List.length_cons] at h
    exact (ih (Nat.lt_of_succ_lt_succ h)).cons_place c
  | case4 t ts c cs ht ih =>
    rw [List.count_cons_of_ne ht] at h
    exact (ih h).cons_literal ht

theorem exists_fills_applyMask (hne : source ≠ [])
    (h : source.length ≤ template.count placeholder) :
    ∃ before behind, template = before ++ placeholder :: behind ∧
      before.count placeholder + 1 = source.length ∧
      Fills (before ++ [placeholder]) source (applyMask template source) := by
  fun_induction applyMask template source with
  | case1 source => exact absurd (List.length_eq_zero_iff.mp (Nat.le_zero.mp h)) hne
  | case2 => exact absurd rfl hne
  | case3 ts c cs ih =>
    rw [List.count_cons_self, List.length_cons] at h
    by_cases hlast : cs = []
    · subst hlast
      refine ⟨[], ts, rfl, rfl, ?_⟩
      rw [applyMask_nil]
      exact (fills_nil []).cons_place c
    · obtain ⟨before, behind, rfl, hcount, hfills⟩ := ih hlast (Nat.le_of_succ_le_succ h)
      refine ⟨placeholder :: before, behind, rfl, ?_, hfills.cons_place c⟩
      rw [List.count_cons_self, hcount, List.length_cons]
  | case4 t ts c cs ht ih =>
    rw [List.count_cons_of_ne ht] at h
    obtain ⟨before, behind, rfl, hcount, hfills⟩ := ih hne h
    refine ⟨t :: before, behind, rfl, ?_, hfills.cons_literal ht⟩
    rw [List.count_cons_of_ne ht, hcount]

theorem applyMask_prefix (h : source <+: longer) :
    applyMask template source <+: applyMask template longer := by
  fun_induction applyMask template source generalizing longer with
  | case1 => exact List.nil_prefix
  | case2 => exact List.nil_prefix
  | case3 ts c cs ih =>
    obtain ⟨more, rfl⟩ := h
    rw [List.cons_append, applyMask, if_pos rfl]
    exact List.cons_prefix_cons.mpr ⟨rfl, ih (List.prefix_append cs more)⟩
  | case4 t ts c cs ht ih =>
    obtain ⟨more, rfl⟩ := h
    rw [List.cons_append, applyMask, if_neg ht]
    exact List.cons_prefix_cons.mpr ⟨rfl, ih (List.prefix_append (c :: cs) more)⟩

theorem mask_of_asText {v : Value} {s : String} (hs : v.asText = .ok s) (template : String) :
    mask template v = .ok (.text (String.ofList (applyMask template.toList s.toList))) :=
  onText_of_asText hs (applyMask template.toList)

theorem call_mask {operation : Operation} (hbuiltin : operation ∈ builtins)
    (hname : operation.name = "mascara") (template : String) (raw : List String) (v : Value) :
    operation.call v (template :: raw) = mask template v := by
  have hmask : builtins[7] ∈ builtins := List.getElem_mem _
  obtain rfl := eq_of_mem_builtins hbuiltin hmask hname
  rw [Operation.call_of_isSupplied (Signature.isSupplied_required "mask" template raw)]
  exact congrArg (fun arg => mask arg v) (Args.get_required "mask" template raw)

/-- Nothing is made of an empty text. A text with no more characters than the template has places
fills it up to the place of its last character, and a longer one fills all of it. An extension of
the text only adds to the output. -/
theorem masks_fill_their_template {v : Value} (hv : v.isContainer = false) (template : String) :
    ∃ s shown, v.asText = .ok s ∧ mask template v = .ok (.text shown) ∧
      (s.toList = [] → shown.toList = []) ∧
      (s.toList ≠ [] → s.toList.length ≤ template.toList.count placeholder →
        ∃ before behind, template.toList = before ++ placeholder :: behind ∧
          before.count placeholder + 1 = s.toList.length ∧
          Fills (before ++ [placeholder]) s.toList shown.toList) ∧
      (template.toList.count placeholder < s.toList.length →
        Fills template.toList s.toList shown.toList) ∧
      (∀ w longer, w.asText = .ok longer → s.toList <+: longer.toList →
        ∃ more, mask template w = .ok (.text more) ∧ shown.toList <+: more.toList) ∧
      ∀ operation ∈ builtins, operation.name = "mascara" → ∀ raw,
        operation.call v (template :: raw) = mask template v := by
  obtain ⟨s, hs⟩ := Value.exists_asText_eq_ok hv
  refine ⟨s, _, hs, mask_of_asText hs template, ?_, ?_, ?_, ?_, ?_⟩
  · intro hempty
    rw [String.toList_ofList, hempty, applyMask_nil]
  · rw [String.toList_ofList]
    exact exists_fills_applyMask
  · rw [String.toList_ofList]
    exact fills_applyMask
  · intro w longer hlonger hprefix
    refine ⟨_, mask_of_asText hlonger template, ?_⟩
    rw [String.toList_ofList, String.toList_ofList]
    exact applyMask_prefix hprefix
  · exact fun operation hbuiltin hname raw => call_mask hbuiltin hname template raw v

/-- A placeholder in the source is not filled again, and the template ends at the third of its four
places. -/
theorem masks_fill_their_template_three_of_four :
    (Value.text "1#3").isContainer = false ∧
      (∃ before behind, "(#)-#/##!".toList = before ++ placeholder :: behind ∧
        before.count placeholder + 1 = 3 ∧
        Fills (before ++ [placeholder]) "1#3".toList "(1)-#/3".toList) ∧
      "(1)-#/3".toList <+: "(1)-#/34!".toList ∧
      builtins[7].call (.text "1#3") ["(#)-#/##!"] = .ok (.text "(1)-#/3") := by
  have hv : (Value.text "1#3").isContainer = false := rfl
  obtain ⟨s, shown, hs, hmask, -, hshort, -, hlonger, hcall⟩ :=
    masks_fill_their_template hv "(#)-#/##!"
  obtain rfl : "1#3" = s := Except.ok.inj hs
  have hshown : mask "(#)-#/##!" (.text "1#3") = .ok (.text "(1)-#/3") := by decide
  obtain rfl : "(1)-#/3" = shown := Value.text.inj (Except.ok.inj (hshown.symm.trans hmask))
  obtain ⟨more, hmore, hprefix⟩ := hlonger (.text "1#345") "1#345" rfl (by decide)
  have hmore' : mask "(#)-#/##!" (.text "1#345") = .ok (.text "(1)-#/34!") := by decide
  obtain rfl : "(1)-#/34!" = more := Value.text.inj (Except.ok.inj (hmore'.symm.trans hmore))
  refine ⟨hv, hshort (by decide) (by decide), hprefix, ?_⟩
  rw [hcall _ (List.getElem_mem _) rfl, hmask]

end FilterChain.Filters
