import FilterChain.Proofs.Filters.Scalars
import FilterChain.Proofs.Text.Trimming
import FilterChain.Proofs.Value.Traversal

/-!
# Blanks inside of nested values

Trimming puts a trimmed text for every scalar inside a value, and the other filter puts null for
those that are blank. Both see a scalar through its text alone, and trimming leaves blank just those
texts that were blank before.
-/

namespace FilterChain.Filters

open Value (KeepsScalars Mirrors)

variable {x y z v w : Value} {s : String}

theorem trim_of_asText (h : x.asText = .ok s) :
    trim x = .ok (.text (String.ofList (Text.trimBy isTrimmed s.toList))) :=
  onText_of_asText h (Text.trimBy isTrimmed)

theorem nullIfBlank_of_asText (h : x.asText = .ok s) :
    nullIfBlank x = .ok (if Text.trimBy isTrimmed s.toList = [] then .null else x) := by
  rw [nullIfBlank, h]
  rfl

theorem keepsScalars_trim : KeepsScalars trim := by
  intro x hx
  obtain ⟨s, hs⟩ := Value.exists_asText_eq_ok hx
  exact ⟨_, trim_of_asText hs, rfl⟩

theorem keepsScalars_nullIfBlank : KeepsScalars nullIfBlank := by
  intro x hx
  obtain ⟨s, hs⟩ := Value.exists_asText_eq_ok hx
  refine ⟨_, nullIfBlank_of_asText hs, ?_⟩
  split
  · rfl
  · exact hx

theorem trim_of_trim_eq_ok (hx : x.isContainer = false) (h : trim x = .ok y) : trim y = .ok y := by
  obtain ⟨s, hs⟩ := Value.exists_asText_eq_ok hx
  obtain rfl := Except.ok.inj ((trim_of_asText hs).symm.trans h)
  rw [trim_of_asText rfl, String.toList_ofList, Text.trimBy_trimBy]

theorem nullIfBlank_of_nullIfBlank_eq_ok (hx : x.isContainer = false)
    (h : nullIfBlank x = .ok y) : nullIfBlank y = .ok y := by
  obtain ⟨s, hs⟩ := Value.exists_asText_eq_ok hx
  rw [nullIfBlank_of_asText hs] at h
  obtain rfl := Except.ok.inj h
  split
  · rfl
  · next hblank => rw [nullIfBlank_of_asText hs, if_neg hblank]

theorem trim_of_nullIfBlank_eq_ok (hx : x.isContainer = false) (h : nullIfBlank x = .ok y) :
    trim y = trim x := by
  obtain ⟨s, hs⟩ := Value.exists_asText_eq_ok hx
  rw [nullIfBlank_of_asText hs] at h
  obtain rfl := Except.ok.inj h
  split
  · next hblank =>
    rw [trim_of_asText hs, hblank]
    rfl
  · rfl

theorem nullIfBlank_eq_null_iff (hs : x.asText = .ok s) :
    nullIfBlank x = .ok .null ↔ Text.trimBy isTrimmed s.toList = [] := by
  rw [nullIfBlank_of_asText hs, Except.ok.injEq, ite_eq_left_iff]
  constructor
  · intro h
    by_contra hblank
    obtain rfl := h hblank
    obtain rfl := Except.ok.inj hs
    exact hblank rfl
  · exact fun hblank h => absurd hblank h

/-- Trimming leaves blank the scalars that are blank. -/
theorem eq_null_iff_of_trim (hx : x.isContainer = false)
    (hy : (trim x >>= nullIfBlank) = .ok y) (hz : nullIfBlank x = .ok z) :
    y = .null ↔ z = .null := by
  obtain ⟨s, hs⟩ := Value.exists_asText_eq_ok hx
  rw [trim_of_asText hs] at hy
  have htrimmed : nullIfBlank (.text (String.ofList (Text.trimBy isTrimmed s.toList))) = .ok y := hy
  have htext : (Value.text (String.ofList (Text.trimBy isTrimmed s.toList))).asText = .ok _ := rfl
  have hblank := nullIfBlank_eq_null_iff htext
  rw [htrimmed, String.toList_ofList, Text.trimBy_trimBy, ← nullIfBlank_eq_null_iff hs, hz,
    Except.ok.injEq, Except.ok.injEq] at hblank
  exact hblank

theorem isTrimmedBy_of_trim_eq_ok (hx : x.isContainer = false) (h : trim x = .ok y) :
    ∃ s, y = .text s ∧ Text.IsTrimmedBy isTrimmed s.toList := by
  obtain ⟨s, hs⟩ := Value.exists_asText_eq_ok hx
  refine ⟨_, (Except.ok.inj ((trim_of_asText hs).symm.trans h)).symm, ?_⟩
  rw [String.toList_ofList]
  exact Text.isTrimmedBy_trimBy isTrimmed s.toList

theorem eq_or_eq_null_of_nullIfBlank_eq_ok (hx : x.isContainer = false)
    (h : nullIfBlank x = .ok y) : y = x ∨ y = .null := by
  obtain ⟨s, hs⟩ := Value.exists_asText_eq_ok hx
  obtain rfl := Except.ok.inj ((nullIfBlank_of_asText hs).symm.trans h)
  exact (ite_eq_or_eq _ _ _).symm

theorem trimLeaves_of_isContainer (hv : v.isContainer = true) :
    trimLeaves v = v.mapLeaves trim := by
  rw [trimLeaves, Value.requireContainer_of_isContainer hv]
  rfl

theorem nullBlankLeaves_of_isContainer (hv : v.isContainer = true) :
    nullBlankLeaves v = v.mapLeaves nullIfBlank := by
  rw [nullBlankLeaves, Value.requireContainer_of_isContainer hv]
  rfl

theorem isContainer_eq_false_of_mem_leaves (h : x ∈ v.leaves) : x.isContainer = false :=
  (Value.mem_leaves_iff.mp h).1

theorem isContainer_of_mapLeaves_eq_ok {leaf : Value → Except OperationError Value}
    (hv : v.isContainer = true) (h : v.mapLeaves leaf = .ok w) : w.isContainer = true := by
  cases Value.mapLeaves_eq_ok_iff.mp h with
  | scalar hscalar => exact absurd (hscalar.symm.trans hv) (by decide)
  | list | record => rfl

theorem mapLeaves_trim_again (h : v.mapLeaves trim = .ok w) : w.mapLeaves trim = .ok w := by
  rw [← h]
  refine keepsScalars_trim.mapLeaves_eq h fun x y hx hy => ?_
  rw [hy, trim_of_trim_eq_ok hx hy]

theorem mapLeaves_nullIfBlank_again (h : v.mapLeaves nullIfBlank = .ok w) :
    w.mapLeaves nullIfBlank = .ok w := by
  rw [← h]
  refine keepsScalars_nullIfBlank.mapLeaves_eq h fun x y hx hy => ?_
  rw [hy, nullIfBlank_of_nullIfBlank_eq_ok hx hy]

theorem mapLeaves_trim_nullIfBlank (h : v.mapLeaves nullIfBlank = .ok w) :
    w.mapLeaves trim = v.mapLeaves trim :=
  keepsScalars_nullIfBlank.mapLeaves_eq h fun _ _ => trim_of_nullIfBlank_eq_ok

theorem leaves_trimmed (h : v.mapLeaves trim = .ok w) :
    ∀ x ∈ w.leaves, ∃ s, x = .text s ∧ Text.IsTrimmedBy isTrimmed s.toList := by
  -- What a second traversal would leave as it is has come out of a first one.
  have hleaves := keepsScalars_trim.forall₂_leaves (mapLeaves_trim_again h)
  intro x hx
  have htrim := List.forall₂_same.mp hleaves x hx
  exact isTrimmedBy_of_trim_eq_ok (isContainer_eq_false_of_mem_leaves hx) htrim

theorem leaves_nulled (h : v.mapLeaves nullIfBlank = .ok w) :
    List.Forall₂ (fun x y => y = x ∨ y = .null) v.leaves w.leaves := by
  have hleaves := keepsScalars_nullIfBlank.forall₂_leaves h
  have hsame : List.Forall₂ (· = ·) v.leaves v.leaves := List.forall₂_same.mpr fun _ _ => rfl
  refine forall₂_of_common hsame hleaves ?_
  rintro x hx _ y rfl hy
  exact eq_or_eq_null_of_nullIfBlank_eq_ok (isContainer_eq_false_of_mem_leaves hx) hy

theorem leaves_null_iff (ht : v.mapLeaves trim = .ok w) (hw : w.mapLeaves nullIfBlank = .ok y)
    (hz : v.mapLeaves nullIfBlank = .ok z) :
    List.Forall₂ (fun a b => a = .null ↔ b = .null) y.leaves z.leaves := by
  have hboth : v.mapLeaves (fun x => trim x >>= nullIfBlank) = .ok y := by
    rw [← hw, Value.mapLeaves_of_mapLeaves_eq_ok _ ht]
    exact fun _ _ => keepsScalars_trim.isContainer_eq_false
  have hleaves := (keepsScalars_trim.bind keepsScalars_nullIfBlank).forall₂_leaves hboth
  refine forall₂_of_common hleaves (keepsScalars_nullIfBlank.forall₂_leaves hz) ?_
  exact fun x hx a b => eq_null_iff_of_trim (isContainer_eq_false_of_mem_leaves hx)

/-- Trimming the scalars inside a list or a record, and putting null for the blank ones, both keep
its shape. The former leaves texts without blanks at their ends, the latter changes a scalar only
to null. Each done again changes nothing, and neither hides from the other which scalars are
blank. -/
theorem trim_and_null_agree_on_blanks (v : Value) (hv : v.isContainer = true) :
    ∃ trimmed nulled both, trimLeaves v = .ok trimmed ∧ nullBlankLeaves v = .ok nulled ∧
      nullBlankLeaves trimmed = .ok both ∧
      Mirrors trim v trimmed ∧ Mirrors nullIfBlank v nulled ∧
      Mirrors nullIfBlank trimmed both ∧
      (∀ x ∈ trimmed.leaves, ∃ s, x = .text s ∧ Text.IsTrimmedBy isTrimmed s.toList) ∧
      List.Forall₂ (fun x y => y = x ∨ y = .null) v.leaves nulled.leaves ∧
      trimLeaves trimmed = .ok trimmed ∧ nullBlankLeaves nulled = .ok nulled ∧
      trimLeaves nulled = .ok trimmed ∧
      List.Forall₂ (fun x y => x = .null ↔ y = .null) both.leaves nulled.leaves := by
  obtain ⟨t, ht⟩ := keepsScalars_trim.exists_mapLeaves_eq_ok v
  obtain ⟨n, hn⟩ := keepsScalars_nullIfBlank.exists_mapLeaves_eq_ok v
  obtain ⟨m, hm⟩ := keepsScalars_nullIfBlank.exists_mapLeaves_eq_ok t
  have htrimmed := isContainer_of_mapLeaves_eq_ok hv ht
  have hnulled := isContainer_of_mapLeaves_eq_ok hv hn
  refine ⟨t, n, m, ?_⟩
  rw [trimLeaves_of_isContainer hv, nullBlankLeaves_of_isContainer hv,
    trimLeaves_of_isContainer htrimmed, nullBlankLeaves_of_isContainer htrimmed,
    trimLeaves_of_isContainer hnulled, nullBlankLeaves_of_isContainer hnulled]
  exact ⟨ht, hn, hm, Value.mapLeaves_eq_ok_iff.mp ht, Value.mapLeaves_eq_ok_iff.mp hn,
    Value.mapLeaves_eq_ok_iff.mp hm, leaves_trimmed ht, leaves_nulled hn, mapLeaves_trim_again ht,
    mapLeaves_nullIfBlank_again hn, (mapLeaves_trim_nullIfBlank hn).trans ht,
    leaves_null_iff ht hm hn⟩

/-- A tab and a line feed are blanks, false has a blank text, and a no-break space is no blank. -/
theorem trim_and_null_agree_on_blanks_kinds :
    let v := Value.record [("a", .text " x\t"), ("b", .list [.bool false, .text " \n",
      .number (.whole (-7)), .record [("c", .text " \u00a0")]])]
    ∃ trimmed nulled, trimLeaves v = .ok trimmed ∧ nullBlankLeaves v = .ok nulled ∧
      trimLeaves nulled = .ok trimmed ∧
      trimmed = .record [("a", .text "x"), ("b", .list [.text "", .text "", .text "-7",
        .record [("c", .text "\u00a0")]])] ∧
      nulled = .record [("a", .text " x\t"), ("b", .list [.null, .null, .number (.whole (-7)),
        .record [("c", .text " \u00a0")]])] := by
  intro v
  obtain ⟨trimmed, nulled, both, ht, hn, -, -, -, -, -, -, -, -, hagain, -⟩ :=
    trim_and_null_agree_on_blanks v rfl
  refine ⟨trimmed, nulled, ht, hn, hagain, ?_, ?_⟩
  · exact Except.ok.inj (ht.symm.trans (by decide))
  · exact Except.ok.inj (hn.symm.trans (by decide))

end FilterChain.Filters
