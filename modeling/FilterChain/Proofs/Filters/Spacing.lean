import FilterChain.Proofs.Filters.Blanks
import FilterChain.Proofs.Run.Step
import FilterChain.Proofs.Text.Squeezing
import FilterChain.Registry

/-!
# Words and the space between them

Squeezing leaves one space where a text has blanks and nothing where it has none, so that it changes
neither the words of the text nor, once the text is trimmed as well, the text itself when it is done
again. The words of a text are its maximal runs of word characters, and a text that is put together
from them has the same words.
-/

namespace FilterChain.Filters

variable {registry : Registry} {v : Value} {s : String}

theorem squeezeBlanks_of_asText (hs : v.asText = .ok s) :
    squeezeBlanks v = .ok (.text (String.ofList (Text.squeeze s.toList))) :=
  onText_of_asText hs Text.squeeze

theorem splitWords_of_asText (hs : v.asText = .ok s) :
    splitWords v =
      .ok (.list ((Text.words s.toList).map fun word => .text (String.ofList word))) := by
  rw [splitWords, hs]
  rfl

theorem takes_squeeze (hget : registry.get? "revomeEspacoDuplicado" =
      Registry.builtin.get? "revomeEspacoDuplicado") (hs : v.asText = .ok s) (args : List String) :
    registry.Takes ⟨"revomeEspacoDuplicado", args⟩ v
      (.text (String.ofList (Text.squeeze s.toList))) :=
  (Registry.takes_unary_iff (hget.trans rfl)).mpr (squeezeBlanks_of_asText hs)

theorem takes_trim (hget : registry.get? "trim" = Registry.builtin.get? "trim")
    (hs : v.asText = .ok s) (args : List String) :
    registry.Takes ⟨"trim", args⟩ v (.text (String.ofList (Text.trimBy isTrimmed s.toList))) :=
  (Registry.takes_unary_iff (hget.trans rfl)).mpr (trim_of_asText hs)

theorem takes_words (hget : registry.get? "palavras" = Registry.builtin.get? "palavras")
    (hs : v.asText = .ok s) (args : List String) :
    registry.Takes ⟨"palavras", args⟩ v
      (.list ((Text.words s.toList).map fun word => .text (String.ofList word))) :=
  (Registry.takes_unary_iff (hget.trans rfl)).mpr (splitWords_of_asText hs)

theorem outcome_apply_squeeze_trim
    (hsqueeze : registry.get? "revomeEspacoDuplicado" =
      Registry.builtin.get? "revomeEspacoDuplicado")
    (htrim : registry.get? "trim" = Registry.builtin.get? "trim") (hs : v.asText = .ok s) :
    (registry.apply "revomeEspacoDuplicado|trim" v).outcome =
      .ok (.text (String.ofList (Text.trimBy isTrimmed (Text.squeeze s.toList)))) := by
  have hsteps : Step.parseSpec "revomeEspacoDuplicado|trim" =
      .ok [⟨"revomeEspacoDuplicado", []⟩, ⟨"trim", []⟩] := rfl
  have htext : (Value.text (String.ofList (Text.squeeze s.toList))).asText = .ok _ := rfl
  rw [Registry.apply_of_parseSpec_ok hsteps, Run.plain_cons_of_takes (takes_squeeze hsqueeze hs []),
    Run.plain_cons_of_takes (takes_trim htrim htext []), Run.plain, String.toList_ofList]

/-- A squeezed text has spaces alone for blanks, and none behind another. Its other characters are
those of the text, and where blanks stand between two of them, or at either end, the squeezed text
has one space. So the words stay the same, and what is squeezed and then trimmed stays as it is when
both are done again. -/
theorem squeezing_leaves_single_spaces
    (hget : ∀ name ∈ ["revomeEspacoDuplicado", "trim", "palavras"],
      registry.get? name = Registry.builtin.get? name)
    (hv : v.isContainer = false) :
    ∃ s shown, v.asText = .ok s ∧
      (∀ args, registry.Takes ⟨"revomeEspacoDuplicado", args⟩ v (.text shown)) ∧
      Text.IsSqueezed shown.toList ∧
      shown.toList.filter (fun c => !Text.isBlank c) = s.toList.filter (fun c => !Text.isBlank c) ∧
      Text.gaps shown.toList = (Text.gaps s.toList).map Text.oneSpace ∧
      (∃ ws, ∀ args, registry.Takes ⟨"palavras", args⟩ v (.list ws) ∧
        registry.Takes ⟨"palavras", args⟩ (.text shown) (.list ws)) ∧
      ∃ last, (registry.apply "revomeEspacoDuplicado|trim" v).outcome = .ok last ∧
        (registry.apply "revomeEspacoDuplicado|trim" last).outcome = .ok last := by
  obtain ⟨hsqueeze, hget⟩ := List.forall_mem_cons.mp hget
  obtain ⟨htrim, hget⟩ := List.forall_mem_cons.mp hget
  have hwords := List.forall_mem_singleton.mp hget
  obtain ⟨s, hs⟩ := Value.exists_asText_eq_ok hv
  have hshown := String.toList_ofList (l := Text.squeeze s.toList)
  refine ⟨s, _, hs, takes_squeeze hsqueeze hs, ?_, ?_, ?_, ?_, ?_⟩
  · rw [hshown]
    exact Text.isSqueezed_squeeze s.toList
  · rw [hshown, Text.filter_squeeze]
  · rw [hshown, Text.gaps_squeeze]
  · refine ⟨_, fun args => ⟨takes_words hwords hs args, ?_⟩⟩
    have hsame := takes_words hwords (v := .text (String.ofList (Text.squeeze s.toList))) rfl args
    rwa [hshown, Text.words_squeeze] at hsame
  · refine ⟨_, outcome_apply_squeeze_trim hsqueeze htrim hs, ?_⟩
    rw [outcome_apply_squeeze_trim hsqueeze htrim rfl, String.toList_ofList,
      Text.squeeze_trimBy_squeeze, Text.trimBy_trimBy]

/-- Blanks of several kinds become spaces, and a zero character at the end keeps two of them apart
until trimming takes it away. -/
theorem squeezing_leaves_single_spaces_mixed_blanks :
    ∃ shown last,
      Registry.builtin.Takes ⟨"revomeEspacoDuplicado", []⟩ (.text "\u00a0\tum\u2003 dois \u0000\n")
        (.text shown) ∧
      Text.IsSqueezed shown.toList ∧ shown = " um dois \u0000 " ∧
      Text.gaps shown.toList =
        (Text.gaps "\u00a0\tum\u2003 dois \u0000\n".toList).map Text.oneSpace ∧
      (Registry.builtin.apply "revomeEspacoDuplicado|trim"
        (.text "\u00a0\tum\u2003 dois \u0000\n")).outcome = .ok last ∧
      (Registry.builtin.apply "revomeEspacoDuplicado|trim" last).outcome = .ok last ∧
      last = .text "um dois" := by
  have hv : (Value.text "\u00a0\tum\u2003 dois \u0000\n").isContainer = false := rfl
  obtain ⟨s, shown, hs, htakes, hsqueezed, -, hgaps, -, last, hlast, hagain⟩ :=
    squeezing_leaves_single_spaces (fun name _ => Eq.refl (Registry.builtin.get? name)) hv
  obtain rfl := Except.ok.inj hs
  have hsqueeze := (Registry.takes_unary_iff rfl).mp (htakes [])
  refine ⟨shown, last, htakes [], hsqueezed, ?_, hgaps, hlast, hagain, ?_⟩
  · exact Value.text.inj (Except.ok.inj (hsqueeze.symm.trans (by decide)))
  · exact Except.ok.inj (hlast.symm.trans (by decide))

/-- The words of a scalar are the maximal runs of word characters of its text, in their order, and
nothing else cuts the text like that. They hold all word characters of the text and no others, and
with the same other characters between any two of them they make a text that has just these words,
whatever other characters stand in front of it and behind it. -/
theorem words_are_maximal_runs
    (hget : registry.get? "palavras" = Registry.builtin.get? "palavras")
    (hv : v.isContainer = false) :
    ∃ s ws, v.asText = .ok s ∧
      (∀ args, registry.Takes ⟨"palavras", args⟩ v (.list (ws.map .text))) ∧
      (∀ word ∈ ws, word ≠ "" ∧ ∀ c ∈ word.toList, Text.isWordChar c = true) ∧
      (String.join ws).toList = s.toList.filter Text.isWordChar ∧
      (∀ others, Text.HasWords s.toList others ↔ others = ws.map String.toList) ∧
      ∀ sep front back : String, sep ≠ "" → (∀ c ∈ sep.toList, Text.isWordChar c = false) →
        (∀ c ∈ front.toList, Text.isWordChar c = false) →
        (∀ c ∈ back.toList, Text.isWordChar c = false) →
        ∀ args, registry.Takes ⟨"palavras", args⟩ (.text (front ++ sep.intercalate ws ++ back))
          (.list (ws.map .text)) := by
  obtain ⟨s, hs⟩ := Value.exists_asText_eq_ok hv
  have hwords : Text.HasWords s.toList (Text.words s.toList) := Text.hasWords_iff.mpr rfl
  have hlist : ((Text.words s.toList).map String.ofList).map String.toList =
      Text.words s.toList := by
    simp only [List.map_map, Function.comp_def, String.toList_ofList, List.map_id']
  refine ⟨s, (Text.words s.toList).map String.ofList, hs, ?_, ?_, ?_, ?_, ?_⟩
  · rw [List.map_map]
    exact takes_words hget hs
  · intro word hword
    obtain ⟨cs, hcs, rfl⟩ := List.mem_map.mp hword
    obtain ⟨hne, hchars⟩ := hwords.of_mem cs hcs
    rw [String.toList_ofList]
    exact ⟨fun hempty => hne (String.ofList_eq_empty_iff.mp hempty), hchars⟩
  · rw [String.toList_join, List.flatMap_def, hlist, hwords.flatten_eq]
  · rw [hlist]
    exact fun others => Text.hasWords_iff
  · intro sep front back hne hsep hfront hback args
    have hagain := Text.hasWords_intercalate hwords.of_mem (mt String.toList_eq_nil_iff.mp hne)
      hsep hfront hback
    have htakes := takes_words hget (v := .text (front ++ sep.intercalate
      ((Text.words s.toList).map String.ofList) ++ back)) rfl args
    rw [String.toList_append, String.toList_append, String.toList_intercalate, hlist,
      hagain.words_eq] at htakes
    rw [List.map_map]
    exact htakes

theorem words_are_maximal_runs_joined_anew :
    ∃ ws, Registry.builtin.Takes ⟨"palavras", []⟩ (.text "¡olá, mundo_1!") (.list (ws.map .text)) ∧
      ws = ["olá", "mundo_1"] ∧ Text.HasWords "¡olá, mundo_1!".toList (ws.map String.toList) ∧
      Registry.builtin.Takes ⟨"palavras", []⟩ (.text ("" ++ " - ".intercalate ws ++ "?"))
        (.list (ws.map .text)) := by
  have hv : (Value.text "¡olá, mundo_1!").isContainer = false := rfl
  obtain ⟨s, ws, hs, htakes, -, -, hruns, hjoined⟩ :=
    words_are_maximal_runs (Eq.refl (Registry.builtin.get? "palavras")) hv
  obtain rfl := Except.ok.inj hs
  refine ⟨ws, htakes [], ?_, (hruns _).mpr rfl, ?_⟩
  · have hsplit := (Registry.takes_unary_iff rfl).mp (htakes [])
    have hlist : splitWords (.text "¡olá, mundo_1!") =
        .ok (.list (["olá", "mundo_1"].map .text)) := by decide +kernel
    exact List.map_injective_iff.mpr (fun _ _ => Value.text.inj)
      (Value.list.inj (Except.ok.inj (hsplit.symm.trans hlist)))
  · exact hjoined " - " "" "?" (by decide) (by decide) (by decide) (by decide) []

end FilterChain.Filters
