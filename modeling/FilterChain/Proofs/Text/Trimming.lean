import FilterChain.Text.Blank
import FilterChain.Text.Range
import Mathlib.Data.List.DropRight

/-!
# Laws of trimming

A trimmed text has no character of the class at either end, and texts without one are left alone.
-/

namespace FilterChain.Text

variable {p : Char → Bool} {cs : List Char}

/-- Neither the first character of a text nor its last one is in the class. -/
structure IsTrimmedBy (p : Char → Bool) (cs : List Char) : Prop where
  first : ∀ c, cs.head? = some c → p c = false
  last : ∀ c, cs.getLast? = some c → p c = false

theorem not_of_head?_dropWhile {c : Char} (h : (cs.dropWhile p).head? = some c) : p c = false := by
  have hstop := List.head?_dropWhile_not p cs
  rwa [h] at hstop

theorem dropWhile_of_head? (h : ∀ c, cs.head? = some c → p c = false) : cs.dropWhile p = cs := by
  cases cs with
  | nil => rfl
  | cons c cs => exact List.dropWhile_cons_of_neg (by simp [h c rfl])

theorem trimEndBy_of_getLast? (h : ∀ c, cs.getLast? = some c → p c = false) :
    trimEndBy p cs = cs := by
  rw [← List.head?_reverse] at h
  rw [trimEndBy, dropWhile_of_head? h, List.reverse_reverse]

/-- Characters of the class at the end of a text make no difference. -/
theorem trimEndBy_append {ends : List Char} (h : ∀ c ∈ ends, p c = true) :
    trimEndBy p (cs ++ ends) = trimEndBy p cs := by
  have hreverse : ∀ c ∈ ends.reverse, p c = true := fun c hc => h c (List.mem_reverse.mp hc)
  rw [trimEndBy, List.reverse_append, List.dropWhile_append_of_pos hreverse, trimEndBy]

theorem trimEndBy_eq_nil_iff : trimEndBy p cs = [] ↔ ∀ c ∈ cs, p c = true := by
  simp only [trimEndBy, List.reverse_eq_nil_iff, List.dropWhile_eq_nil_iff, List.mem_reverse]

theorem trimEndBy_prefix (p : Char → Bool) (cs : List Char) : trimEndBy p cs <+: cs :=
  List.rdropWhile_prefix p cs

theorem trimBy_isInfix (p : Char → Bool) (cs : List Char) : trimBy p cs <:+: cs := by
  have hend : trimBy p cs <+: cs.dropWhile p := trimEndBy_prefix p (cs.dropWhile p)
  exact hend.isInfix.trans (List.dropWhile_suffix p).isInfix

theorem head?_of_head?_trimEndBy {c : Char} (h : (trimEndBy p cs).head? = some c) :
    cs.head? = some c := by
  obtain ⟨ends, hends⟩ := trimEndBy_prefix p cs
  rw [← hends, List.head?_append]
  exact Option.or_eq_some_iff.mpr (Or.inl h)

theorem isTrimmedBy_trimBy (p : Char → Bool) (cs : List Char) : IsTrimmedBy p (trimBy p cs) where
  first _ hc := not_of_head?_dropWhile (head?_of_head?_trimEndBy hc)
  last c hc := by
    rw [trimBy, trimEndBy, List.getLast?_reverse] at hc
    exact not_of_head?_dropWhile hc

theorem IsTrimmedBy.trimBy_eq (h : IsTrimmedBy p cs) : trimBy p cs = cs := by
  rw [trimBy, dropWhile_of_head? h.first, trimEndBy_of_getLast? h.last]

theorem trimBy_of_forall_not (h : ∀ c ∈ cs, p c = false) : trimBy p cs = cs :=
  IsTrimmedBy.trimBy_eq
    ⟨fun c hc => h c (List.mem_of_head? hc), fun c hc => h c (List.mem_of_getLast? hc)⟩

theorem isBlank_of_isAsciiDigit {c : Char} (h : isAsciiDigit c = true) : isBlank c = false := by
  have hcode : 48 ≤ c.toNat ∧ c.toNat ≤ 57 := Char.isDigit_iff_toNat.mp h
  simp only [isBlank, Bool.or_eq_false_iff, Bool.and_eq_false_iff, decide_eq_false_iff_not,
    beq_eq_false_iff_ne]
  omega

theorem trimBy_trimBy (p : Char → Bool) (cs : List Char) : trimBy p (trimBy p cs) = trimBy p cs :=
  (isTrimmedBy_trimBy p cs).trimBy_eq

theorem trimBy_eq_nil_iff : trimBy p cs = [] ↔ ∀ c ∈ cs, p c = true := by
  have hdrop : cs.dropWhile p = [] ↔ ∀ c ∈ cs, p c = true := List.dropWhile_eq_nil_iff
  rw [trimBy, trimEndBy_eq_nil_iff, ← hdrop]
  constructor
  · intro h
    by_contra hne
    obtain ⟨c, rest, hrest⟩ := List.exists_cons_of_ne_nil hne
    have hfirst : p c = false := not_of_head?_dropWhile (congrArg List.head? hrest)
    rw [h c (hrest ▸ List.mem_cons_self)] at hfirst
    cases hfirst
  · intro h
    rw [h]
    exact List.forall_mem_nil _

theorem trimEndBy_cons (p : Char → Bool) (c : Char) (cs : List Char) :
    trimEndBy p (c :: cs) =
      if trimEndBy p cs = [] ∧ p c = true then [] else c :: trimEndBy p cs := by
  simp only [trimEndBy, List.reverse_cons, List.dropWhile_append, List.isEmpty_iff,
    List.reverse_eq_nil_iff]
  by_cases hrest : cs.reverse.dropWhile p = []
  · rw [if_pos hrest, hrest]
    by_cases hc : p c = true
    · rw [if_pos ⟨rfl, hc⟩, List.dropWhile_cons_of_pos hc]
      rfl
    · rw [if_neg fun h => hc h.2, List.dropWhile_cons_of_neg hc]
      rfl
  · rw [if_neg hrest, if_neg fun h => hrest h.1, List.reverse_append]
    rfl

theorem trimEndBy_cons_of_not {c : Char} (h : p c = false) (cs : List Char) :
    trimEndBy p (c :: cs) = c :: trimEndBy p cs := by
  rw [trimEndBy_cons, if_neg (by simp [h])]

theorem trimEndBy_append_of_not {front : List Char} (h : ∀ c ∈ front, p c = false)
    (cs : List Char) : trimEndBy p (front ++ cs) = front ++ trimEndBy p cs := by
  induction front with
  | nil => rfl
  | cons c front ih =>
    obtain ⟨hc, hfront⟩ := List.forall_mem_cons.mp h
    rw [List.cons_append, trimEndBy_cons_of_not hc, ih hfront, List.cons_append]

/-- It makes no difference which end of a text is trimmed first. -/
theorem dropWhile_trimEndBy (p : Char → Bool) (cs : List Char) :
    (trimEndBy p cs).dropWhile p = trimEndBy p (cs.dropWhile p) := by
  induction cs with
  | nil => rfl
  | cons c cs ih =>
    rw [trimEndBy_cons]
    by_cases hc : p c = true
    · rw [List.dropWhile_cons_of_pos hc, ← ih]
      split
      · next hnil => rw [hnil.1]
      · rw [List.dropWhile_cons_of_pos hc]
    · rw [if_neg fun h => hc h.2, List.dropWhile_cons_of_neg hc, List.dropWhile_cons_of_neg hc,
        trimEndBy_cons_of_not (eq_false_of_ne_true hc)]

end FilterChain.Text
