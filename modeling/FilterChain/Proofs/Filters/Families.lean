import FilterChain.Proofs.Filters.Keys
import FilterChain.Proofs.Text.Letters

/-!
# Families of conversions

Two conversions of names change the case of all letters and two that of the first one. Within such
a family the later conversion decides: the conversions make the same names equal, so the earlier
one puts together no fields that the later one would keep apart.
-/

namespace FilterChain

namespace Filters

namespace KeyCase

def isOnFirst : KeyCase → Bool
  | .lower | .upper => false
  | .upperFirst | .lowerFirst => true

def onLetter : KeyCase → Char → Char
  | .lower | .lowerFirst => Text.lowerAscii
  | .upper | .upperFirst => Text.upperAscii

variable {first second : KeyCase}

theorem onLetter_onLetter (first second : KeyCase) (c : Char) :
    second.onLetter (first.onLetter c) = second.onLetter c := by
  cases first <;> cases second <;>
    simp only [onLetter, Text.lowerAscii_lowerAscii, Text.lowerAscii_upperAscii,
      Text.upperAscii_lowerAscii, Text.upperAscii_upperAscii]

theorem toList_apply (case : KeyCase) (key : String) :
    (case.apply key).toList =
      if case.isOnFirst then key.toList.modifyHead case.onLetter
      else key.toList.map case.onLetter := by
  rw [apply.eq_def, String.toList_ofList]
  cases case with
  | lower | upper => rfl
  | upperFirst | lowerFirst => cases key.toList <;> rfl

/-- Of two conversions of one family, the later decides. -/
theorem apply_apply (h : first.isOnFirst = second.isOnFirst) (key : String) :
    second.apply (first.apply key) = second.apply key := by
  have hletters : second.onLetter ∘ first.onLetter = second.onLetter :=
    funext (onLetter_onLetter first second)
  rw [← String.toList_inj, toList_apply, toList_apply, toList_apply, h]
  cases second.isOnFirst with
  | false => simp [hletters]
  | true => simp [hletters]

theorem apply_eq_apply_iff (h : first.isOnFirst = second.isOnFirst) {a b : String} :
    first.apply a = first.apply b ↔ second.apply a = second.apply b := by
  constructor
  · intro heq
    rw [← apply_apply h a, heq, apply_apply h b]
  · intro heq
    rw [← apply_apply h.symm a, heq, apply_apply h.symm b]

end KeyCase

variable {first second case : KeyCase} {fields : List (String × Value)}

theorem eq_of_apply_eq (h : first.isOnFirst = second.isOnFirst) {a b : String}
    (ha : a ∈ Fields.names (renameFields first fields))
    (hb : b ∈ Fields.names (renameFields first fields)) (heq : second.apply a = second.apply b) :
    a = b := by
  rw [names_renameFields] at ha hb
  obtain ⟨a, -, rfl⟩ := List.mem_map.mp ha
  obtain ⟨b, -, rfl⟩ := List.mem_map.mp hb
  rw [KeyCase.apply_apply h, KeyCase.apply_apply h] at heq
  exact (KeyCase.apply_eq_apply_iff h).mpr heq

theorem renameFields_renameFields (h : first.isOnFirst = second.isOnFirst)
    (hvalues : ∀ field ∈ fields,
      renameKeys second (renameKeys first field.2) = renameKeys second field.2) :
    renameFields second (renameFields first fields) = renameFields second fields := by
  rw [renameFields_eq_map, renameFields_eq_map, renameFields_eq_map, List.map_map]
  refine List.map_congr_left fun field hfield => ?_
  rw [Function.comp_apply, KeyCase.apply_apply h, hvalues field hfield]

theorem renameFields_ofList (h : first.isOnFirst = second.isOnFirst)
    (fields : List (String × Value)) :
    renameFields second (Fields.ofList (renameFields first fields)) =
      Fields.ofList (renameFields second (renameFields first fields)) := by
  rw [renameFields_eq_map second, renameFields_eq_map second]
  exact Fields.map_ofList fun _ ha _ hb => eq_of_apply_eq h ha hb

theorem renameKeys_renameKeys (h : first.isOnFirst = second.isOnFirst) (v : Value) :
    renameKeys second (renameKeys first v) = renameKeys second v := by
  induction v using Value.induction with
  | scalar v hv => rw [renameKeys_of_not_isContainer first hv]
  | list items ih =>
    rw [renameKeys_list, renameKeys_list, renameKeys_list, List.map_map]
    exact congrArg Value.list (List.map_congr_left ih)
  | record fields ih =>
    rw [renameKeys_record, renameKeys_record, renameKeys_record, renameFields_ofList h,
      Fields.ofList_ofList, renameFields_renameFields h ih]

theorem keepsApart_renameKeys (h : first.isOnFirst = second.isOnFirst) (v : Value) :
    KeepsApart second (renameKeys first v) := by
  induction v using Value.induction with
  | scalar v hv =>
    rw [renameKeys_of_not_isContainer first hv]
    exact keepsApart_of_not_isContainer hv
  | list items ih =>
    rw [renameKeys_list, keepsApart_list_iff]
    exact List.forall_mem_map.mpr ih
  | record fields ih =>
    rw [renameKeys_record, keepsApart_record_iff]
    constructor
    · refine List.Nodup.map_on (fun a ha b hb => ?_) (Fields.nodup_names_ofList _)
      rw [Fields.names_ofList, List.mem_eraseDups] at ha hb
      exact eq_of_apply_eq h ha hb
    · intro other hother
      obtain ⟨field, hlast, hvalue⟩ := exists_isLast (Fields.lookup_reverse_of_mem_ofList hother)
      rw [← hvalue]
      exact ih field hlast.mem

theorem isContainer_renameKeys (case : KeyCase) (v : Value) :
    (renameKeys case v).isContainer = v.isContainer := by
  cases v <;> rfl

/-- A list or a record that is converted by two conversions of one family, one after the other,
becomes what the second alone makes of it; so a conversion that is made again changes nothing. The
second gives other names to the fields that the first has left, and loses none of them. -/
theorem convertKeys_absorbs_within_family {first second : KeyCase}
    (h : first.isOnFirst = second.isOnFirst) (v : Value) (hv : v.isContainer = true) :
    ∃ w u, convertKeys first v = .ok w ∧ convertKeys second w = .ok u ∧
      convertKeys second v = .ok u ∧ (first = second → u = w) ∧
      Respelled second w u ∧ u.leaves = w.leaves := by
  have hcontainer := (isContainer_renameKeys first v).trans hv
  have hapart := keepsApart_renameKeys h v
  refine ⟨renameKeys first v, renameKeys second (renameKeys first v),
    convertKeys_of_isContainer first hv, convertKeys_of_isContainer second hcontainer, ?_, ?_,
    respelled_renameKeys hapart, leaves_renameKeys hapart⟩
  · rw [convertKeys_of_isContainer second hv, renameKeys_renameKeys h]
  · rintro rfl
    exact renameKeys_renameKeys h v

/-- Two names that the first conversion makes one, next to a third that the second one makes the
same, and another such pair further inside. -/
theorem convertKeys_absorbs_within_family_nested :
    let inner := Value.record [("Kk", .null), ("kk", .bool true)]
    let v := Value.record [("aB", .text "1"), ("b", inner), ("AB", .text "2")]
    KeyCase.isOnFirst .upperFirst = KeyCase.isOnFirst .lowerFirst ∧
      (convertKeys .upperFirst v >>= convertKeys .lowerFirst) =
        .ok (.record [("aB", .text "2"), ("b", .record [("kk", .bool true)])]) := by
  intro inner v
  have hfamily : KeyCase.isOnFirst .upperFirst = KeyCase.isOnFirst .lowerFirst := rfl
  obtain ⟨w, u, hfirst, hsecond, hv, -, -, -⟩ := convertKeys_absorbs_within_family hfamily v rfl
  refine ⟨hfamily, ?_⟩
  rw [hfirst]
  exact hsecond.trans (hv.symm.trans (by decide))

/-- Across families, what is lost depends on the first conversion. -/
theorem exists_not_absorbed {first second : KeyCase} (h : first.isOnFirst ≠ second.isOnFirst) :
    ∃ v, v.isContainer = true ∧
      (convertKeys first v >>= convertKeys second) ≠ convertKeys second v := by
  refine ⟨.record [("aB", .text "1"), ("ab", .text "2"), ("AB", .text "3")], rfl, ?_⟩
  cases first <;> cases second <;> first | exact absurd rfl h | decide

end Filters

end FilterChain
