import FilterChain.Proofs.Filters.Scalars
import FilterChain.Proofs.Filters.Scaling
import FilterChain.Proofs.Text.Address

/-!
# Addresses that are kept

A value is kept as an e-mail address if its text has the form of one. Over ASCII the form is plain.
Outside of ASCII two characters pass for letters, and without accents they are dropped.
-/

namespace FilterChain.Filters

open Text (HasAddressForm IsAsciiWord foldToAscii)

variable {v : Value} {s : String}

theorem call_of_mem_unary {operation : Operation} {name description : String}
    {f : Value → Except OperationError Value} (hmem : .unary name description f ∈ builtins)
    (hbuiltin : operation ∈ builtins) (hname : operation.name = name) (v : Value)
    (raw : List String) : operation.call v raw = f v := by
  obtain rfl := eq_of_mem_builtins hbuiltin hmem hname
  exact Operation.call_unary name description f v raw

theorem call_checkEmail {operation : Operation} (hbuiltin : operation ∈ builtins)
    (hname : operation.name = "emailValidator") (v : Value) (raw : List String) :
    operation.call v raw = checkEmail v := by
  have hcheck : builtins[10] ∈ builtins := List.getElem_mem _
  exact call_of_mem_unary hcheck hbuiltin hname v raw

theorem call_removeAccents {operation : Operation} (hbuiltin : operation ∈ builtins)
    (hname : operation.name = "removeAcentos") (v : Value) (raw : List String) :
    operation.call v raw = removeAccents v := by
  have hremove : builtins[9] ∈ builtins := List.getElem_mem _
  exact call_of_mem_unary hremove hbuiltin hname v raw

theorem checkEmail_of_asText (hs : v.asText = .ok s) :
    checkEmail v = .ok (if Text.isEmail s.toList then v else .null) := by
  rw [checkEmail, hs]
  rfl

theorem checkEmail_text_iff :
    checkEmail (.text s) = .ok (.text s) ↔ Text.isEmail s.toList = true := by
  rw [checkEmail_of_asText rfl, Except.ok.injEq, ite_eq_left_iff]
  constructor
  · intro h
    by_contra hno
    cases h hno
  · exact fun h hno => absurd h hno

/-- A scalar whose text is ASCII is kept if the text is a name with single dots, an at sign, labels
with single hyphens that are joined by dots, a dot, and two to four word characters. Any other one
becomes null, and null itself is the one value that does not show which of the two it was. -/
theorem ascii_addresses_are_kept (hv : v.isContainer = false) :
    ∃ s, v.asText = .ok s ∧
      ((∀ c ∈ s.toList, Text.isAscii c = true) →
        (HasAddressForm IsAsciiWord s.toList → checkEmail v = .ok v) ∧
        (¬ HasAddressForm IsAsciiWord s.toList → checkEmail v = .ok .null) ∧
        (v ≠ .null → (checkEmail v = .ok v ↔ HasAddressForm IsAsciiWord s.toList))) ∧
      ∀ operation ∈ builtins, operation.name = "emailValidator" → ∀ raw,
        operation.call v raw = checkEmail v := by
  obtain ⟨s, hs⟩ := Value.exists_asText_eq_ok hv
  refine ⟨s, hs, fun hascii => ?_, fun operation hbuiltin hname => call_checkEmail hbuiltin hname v⟩
  rw [checkEmail_of_asText hs, ← Text.isEmail_iff_of_isAscii hascii]
  refine ⟨fun h => by rw [if_pos h], fun h => by rw [if_neg h], fun hnull => ?_⟩
  rw [Except.ok.injEq, ite_eq_left_iff]
  exact ⟨fun h => by_contra fun hno => hnull (h hno).symm, fun h hno => absurd h hno⟩

/-- A dot before the at sign and a hyphen before a dot are part of an address, a line feed behind it
is not. -/
theorem ascii_addresses_are_kept_marks :
    checkEmail (.text "jo.@a-.b.co_1") = .ok (.text "jo.@a-.b.co_1") ∧
      checkEmail (.text "jo@a.co\n") = .ok .null := by
  obtain ⟨s, hs, hkept, -⟩ := ascii_addresses_are_kept (v := .text "jo.@a-.b.co_1") rfl
  obtain rfl := Except.ok.inj hs
  obtain ⟨t, ht, hrefused, -⟩ := ascii_addresses_are_kept (v := .text "jo@a.co\n") rfl
  obtain rfl := Except.ok.inj ht
  constructor
  · refine (hkept (by decide)).1 ?_
    exact ⟨"jo.".toList, ["a-".toList, "b".toList], "co_1".toList, by decide⟩
  · refine (hrefused (by decide)).2.1 ?_
    rintro ⟨name, labels, last, h⟩
    have hfeed := h.word_or_mark (c := '\n') (by decide)
    exact absurd hfeed (by decide)

theorem plain?_of_isAscii {c : Char} (h : Text.isAscii c = true) : plain? c = some c := by
  have haccented : ∀ group ∈ accentGroups, ∀ d ∈ group.1, Text.isAscii d = false := by
    decide
  have hnone : accentGroups.find? (fun group => group.1.contains c) = none := by
    rw [List.find?_eq_none]
    intro group hgroup hc
    rw [haccented group hgroup c (List.contains_iff_mem.mp hc)] at h
    cases h
  rw [plain?, hnone]
  exact if_pos h

theorem filterMap_plain?_of_isEmail {cs : List Char} (h : Text.isEmail cs = true) :
    cs.filterMap plain? = cs.filter Text.isAscii := by
  rw [← List.filterMap_eq_filter]
  refine List.filterMap_congr fun c hc => ?_
  rcases Text.isAscii_or_of_isEmail h c hc with hascii | rfl | rfl
  · rw [plain?_of_isAscii hascii, Option.guard_pos hascii]
  · decide
  · decide

theorem removeAccents_of_isEmail (h : Text.isEmail s.toList = true) :
    removeAccents (.text s) = .ok (.text (String.ofList (s.toList.filter Text.isAscii))) := by
  have hplain : removeAccents (.text s) = _ := onText_of_asText rfl (List.filterMap plain?)
  rw [hplain, filterMap_plain?_of_isEmail h]

/-- A text is kept if and only if it is an address in ASCII as soon as the long s and the kelvin
sign in it are read as the letters that they are folded to, and then nothing else in it is outside
of ASCII. Without accents the kept text loses these characters, so it changes if it has one. -/
theorem addresses_outside_ascii_have_folding_letters (s : String) :
    (HasAddressForm IsAsciiWord (s.toList.map foldToAscii) →
      checkEmail (.text s) = .ok (.text s)) ∧
    (¬ HasAddressForm IsAsciiWord (s.toList.map foldToAscii) →
      checkEmail (.text s) = .ok .null) ∧
    ((∃ c ∈ s.toList, Text.isAscii c = false ∧ c ≠ Text.longS ∧ c ≠ Text.kelvinSign) →
      checkEmail (.text s) = .ok .null) ∧
    (checkEmail (.text s) = .ok (.text s) →
      removeAccents (.text s) = .ok (.text (String.ofList (s.toList.filter Text.isAscii))) ∧
      (removeAccents (.text s) = .ok (.text s) ↔ ∀ c ∈ s.toList, Text.isAscii c = true)) ∧
    ∀ operation ∈ builtins, ∀ v raw,
      (operation.name = "emailValidator" → operation.call v raw = checkEmail v) ∧
      (operation.name = "removeAcentos" → operation.call v raw = removeAccents v) := by
  have hcheck : checkEmail (.text s) = _ := checkEmail_of_asText rfl
  rw [checkEmail_text_iff, ← Text.isEmail_iff_fold, hcheck]
  refine ⟨fun h => h, fun h => by rw [if_neg h], ?_, fun hemail => ?_, ?_⟩
  · rintro ⟨c, hc, hascii, hlongS, hkelvinSign⟩
    rw [if_neg]
    intro hemail
    rcases Text.isAscii_or_of_isEmail hemail c hc with h | h | h
    · rw [hascii] at h
      cases h
    · exact hlongS h
    · exact hkelvinSign h
  · rw [removeAccents_of_isEmail hemail, ← List.filter_eq_self]
    refine ⟨rfl, fun h => ?_, fun h => ?_⟩
    · have hs := congrArg String.toList (Value.text.inj (Except.ok.inj h))
      rwa [String.toList_ofList] at hs
    · rw [h, String.ofList_toList]
  · exact fun operation hbuiltin v raw => ⟨fun hname => call_checkEmail hbuiltin hname v raw,
      fun hname => call_removeAccents hbuiltin hname v raw⟩

theorem long_s_passes_for_letter :
    "ſ@b.co".toList.all Text.isAscii = false ∧
      checkEmail (.text "ſ@b.co") = .ok (.text "ſ@b.co") ∧
      removeAccents (.text "ſ@b.co") = .ok (.text "@b.co") := by
  refine ⟨by decide, ?_, by decide⟩
  rw [checkEmail_text_iff, Text.isEmail_iff_fold]
  exact ⟨"s".toList, ["b".toList], "co".toList, by decide⟩

end FilterChain.Filters
