import FilterChain.Text.Pattern
import Mathlib.Computability.Language

/-!
# The language of a pattern

A pattern describes a set of texts by its structure. Its residuals for a character describe the
rests of those texts that begin with it, so that reading a text character by character decides
whether the pattern describes it. Residuals see a character only through the classes that it belongs
to.
-/

namespace FilterChain.Text.Pattern

open scoped Computability

variable {p q r : Pattern} {l m : Language Char} {c : Char} {cs chars : List Char}

/-- The texts that a pattern describes. -/
def language : Pattern → Language Char
  | .empty => 1
  | .oneOf chars => {cs | ∃ c ∈ chars, cs = [c]}
  | .followed p q => p.language * q.language
  | .either p q => p.language + q.language
  | .many p => p.language∗

theorem mem_language_oneOf_iff : cs ∈ (oneOf chars).language ↔ ∃ c ∈ chars, cs = [c] :=
  Iff.rfl

theorem allowsEmpty_iff (p : Pattern) : p.allowsEmpty = true ↔ [] ∈ p.language := by
  induction p with
  | empty => exact iff_of_true rfl Language.nil_mem_one
  | oneOf chars => simp [allowsEmpty, mem_language_oneOf_iff]
  | followed p q ihp ihq =>
    rw [allowsEmpty, Bool.and_eq_true, ihp, ihq, language, Language.mem_mul]
    constructor
    · rintro ⟨hp, hq⟩
      exact ⟨[], hp, [], hq, rfl⟩
    · rintro ⟨a, ha, b, hb, hab⟩
      obtain ⟨rfl, rfl⟩ := List.append_eq_nil_iff.mp hab
      exact ⟨ha, hb⟩
  | either p q ihp ihq => rw [allowsEmpty, Bool.or_eq_true, ihp, ihq, language, Language.mem_add]
  | many p => exact iff_of_true rfl (Language.nil_mem_kstar _)

/-- The first character of a sequence comes from the first part, unless this part is empty. -/
theorem cons_mem_mul_iff :
    c :: cs ∈ l * m ↔
      (∃ a, c :: a ∈ l ∧ ∃ b ∈ m, a ++ b = cs) ∨ [] ∈ l ∧ c :: cs ∈ m := by
  rw [Language.mem_mul]
  constructor
  · rintro ⟨a, ha, b, hb, hab⟩
    cases a with
    | nil =>
      rw [List.nil_append] at hab
      exact Or.inr ⟨ha, hab ▸ hb⟩
    | cons d a =>
      obtain ⟨rfl, hcs⟩ := List.cons.inj hab
      exact Or.inl ⟨a, ha, b, hb, hcs⟩
  · rintro (⟨a, ha, b, hb, rfl⟩ | ⟨hnil, hcs⟩)
    · exact ⟨c :: a, ha, b, hb, rfl⟩
    · exact ⟨[], hnil, c :: cs, hcs, rfl⟩

/-- The first character of a repetition comes from the first part that is not empty. -/
theorem cons_mem_kstar_iff : c :: cs ∈ l∗ ↔ ∃ a, c :: a ∈ l ∧ ∃ b ∈ l∗, a ++ b = cs := by
  constructor
  · intro h
    obtain ⟨pieces, hflatten, hpieces⟩ := Language.mem_kstar_iff_exists_nonempty.mp h
    cases pieces with
    | nil => cases hflatten
    | cons piece pieces =>
      obtain ⟨⟨hpiece, hne⟩, hrest⟩ := List.forall_mem_cons.mp hpieces
      obtain ⟨d, a, rfl⟩ := List.exists_cons_of_ne_nil hne
      obtain ⟨rfl, rfl⟩ := List.cons.inj hflatten
      exact ⟨a, hpiece, _, Language.join_mem_kstar fun b hb => (hrest b hb).1, rfl⟩
  · rintro ⟨a, ha, b, hb, rfl⟩
    obtain ⟨pieces, rfl, hpieces⟩ := Language.mem_kstar.mp hb
    exact Language.mem_kstar.mpr
      ⟨(c :: a) :: pieces, rfl, List.forall_mem_cons.mpr ⟨ha, hpieces⟩⟩

theorem language_andThen (p q : Pattern) : (p.andThen q).language = p.language * q.language := by
  cases p with
  | empty => exact (one_mul q.language).symm
  | oneOf | followed | either | many => rfl

theorem exists_mem_map_andThen_iff {ps : List Pattern} :
    (∃ r ∈ ps.map (·.andThen q), cs ∈ r.language) ↔
      ∃ p ∈ ps, ∃ a ∈ p.language, ∃ b ∈ q.language, a ++ b = cs := by
  constructor
  · rintro ⟨r, hr, hcs⟩
    obtain ⟨p, hp, rfl⟩ := List.mem_map.mp hr
    rw [language_andThen, Language.mem_mul] at hcs
    exact ⟨p, hp, hcs⟩
  · rintro ⟨p, hp, hcs⟩
    refine ⟨_, List.mem_map_of_mem hp, ?_⟩
    rwa [language_andThen, Language.mem_mul]

theorem exists_mem_append_iff {ps qs : List Pattern} :
    (∃ r ∈ ps ++ qs, cs ∈ r.language) ↔
      (∃ r ∈ ps, cs ∈ r.language) ∨ ∃ r ∈ qs, cs ∈ r.language := by
  simp only [List.mem_append, or_and_right, exists_or]

/-- The residuals of a pattern for a character describe what follows this character. -/
theorem cons_mem_language_iff (p : Pattern) (c : Char) (cs : List Char) :
    c :: cs ∈ p.language ↔ ∃ r ∈ residuals c p, cs ∈ r.language := by
  induction p generalizing cs with
  | empty => simp [language, residuals, Language.mem_one]
  | oneOf chars =>
    rw [mem_language_oneOf_iff, residuals]
    split
    · next hc => simp [hc, language, Language.mem_one]
    · next hc => simp [hc]
  | followed p q ihp ihq =>
    rw [language, cons_mem_mul_iff, residuals, exists_mem_append_iff, exists_mem_map_andThen_iff]
    refine or_congr ?_ ?_
    · simp only [ihp]
      tauto
    · rw [ihq, ← allowsEmpty_iff]
      split
      · next hp => simp [hp]
      · next hp => simp [hp]
  | either p q ihp ihq =>
    rw [language, Language.mem_add, residuals, exists_mem_append_iff, ihp, ihq]
  | many p ih =>
    rw [language, cons_mem_kstar_iff, residuals, exists_mem_map_andThen_iff]
    simp only [ih, language]
    tauto

theorem matchAny_iff (ps : List Pattern) (cs : List Char) :
    matchAny ps cs = true ↔ ∃ p ∈ ps, cs ∈ p.language := by
  induction cs generalizing ps with
  | nil => simp only [matchAny, List.any_eq_true, allowsEmpty_iff]
  | cons c cs ih =>
    rw [matchAny, ih]
    simp only [List.mem_eraseDups, List.mem_flatMap, cons_mem_language_iff]
    tauto

theorem fits_iff (p : Pattern) (cs : List Char) : p.fits cs = true ↔ cs ∈ p.language := by
  simp only [fits, matchAny_iff, List.mem_singleton, exists_eq_left]

theorem mem_followed_iff :
    cs ∈ (followed p q).language ↔ ∃ a ∈ p.language, ∃ b ∈ q.language, a ++ b = cs :=
  Language.mem_mul

theorem nil_not_mem_followed_oneOf : [] ∉ (followed (oneOf chars) q).language := by
  rw [mem_followed_iff]
  rintro ⟨_, ⟨c, -, rfl⟩, rest, -, hnil⟩
  cases hnil

theorem cons_mem_followed_oneOf_iff :
    c :: cs ∈ (followed (oneOf chars) q).language ↔ c ∈ chars ∧ cs ∈ q.language := by
  rw [mem_followed_iff]
  constructor
  · rintro ⟨_, ⟨d, hd, rfl⟩, rest, hrest, hcons⟩
    obtain ⟨rfl, rfl⟩ := List.cons.inj hcons
    exact ⟨hd, hrest⟩
  · rintro ⟨hc, hcs⟩
    exact ⟨[c], ⟨c, hc, rfl⟩, cs, hcs, rfl⟩

theorem mem_optional_iff : cs ∈ (optional p).language ↔ cs ∈ p.language ∨ cs = [] :=
  Iff.rfl

theorem mem_many1_iff :
    cs ∈ (many1 p).language ↔ ∃ pieces : List (List Char), pieces ≠ [] ∧
      (∀ piece ∈ pieces, piece ∈ p.language) ∧ pieces.flatten = cs := by
  rw [many1, mem_followed_iff]
  constructor
  · rintro ⟨piece, hpiece, _, ⟨pieces, rfl, hpieces⟩, rfl⟩
    exact ⟨piece :: pieces, List.cons_ne_nil _ _, List.forall_mem_cons.mpr ⟨hpiece, hpieces⟩,
      List.flatten_cons⟩
  · rintro ⟨pieces, hne, hpieces, rfl⟩
    obtain ⟨piece, pieces, rfl⟩ := List.exists_cons_of_ne_nil hne
    obtain ⟨hpiece, hrest⟩ := List.forall_mem_cons.mp hpieces
    exact ⟨piece, hpiece, pieces.flatten, Language.join_mem_kstar hrest, List.flatten_cons.symm⟩

theorem mem_many1_oneOf_iff :
    cs ∈ (many1 (oneOf chars)).language ↔ cs ≠ [] ∧ ∀ c ∈ cs, c ∈ chars := by
  rw [mem_many1_iff]
  constructor
  · rintro ⟨pieces, hne, hpieces, rfl⟩
    obtain ⟨piece, pieces, rfl⟩ := List.exists_cons_of_ne_nil hne
    refine ⟨?_, fun c hc => ?_⟩
    · obtain ⟨c, -, rfl⟩ := hpieces piece List.mem_cons_self
      exact List.cons_ne_nil _ _
    · obtain ⟨piece, hpiece, hc⟩ := List.mem_flatten.mp hc
      obtain ⟨d, hd, rfl⟩ := hpieces piece hpiece
      rwa [List.mem_singleton.mp hc]
  · rintro ⟨hne, hchars⟩
    refine ⟨cs.map fun c => [c], mt List.map_eq_nil_iff.mp hne, fun piece hpiece => ?_, ?_⟩
    · obtain ⟨c, hc, rfl⟩ := List.mem_map.mp hpiece
      exact ⟨c, hchars c hc, rfl⟩
    · exact List.flatMap_singleton' cs

theorem mem_between_oneOf_iff {low extra : Nat} :
    cs ∈ (between (oneOf chars) low extra).language ↔
      low ≤ cs.length ∧ cs.length ≤ low + extra ∧ ∀ c ∈ cs, c ∈ chars := by
  induction low, extra using between.induct generalizing cs with
  | case1 =>
    rw [between, language, Language.mem_one]
    cases cs <;> simp
  | case2 extra ih =>
    rw [between, mem_optional_iff]
    cases cs with
    | nil => simp
    | cons c cs =>
      have hlength : (c :: cs).length ≤ 0 + (extra + 1) ↔ cs.length ≤ 0 + extra := by
        rw [List.length_cons]
        omega
      rw [cons_mem_followed_oneOf_iff, ih, hlength, List.forall_mem_cons]
      simp only [reduceCtorEq, or_false, Nat.zero_le, true_and]
      exact and_left_comm
  | case3 low extra ih =>
    rw [between]
    cases cs with
    | nil => exact iff_of_false nil_not_mem_followed_oneOf fun h => Nat.not_succ_le_zero low h.1
    | cons c cs =>
      have hlow : low.succ ≤ (c :: cs).length ↔ low ≤ cs.length := Nat.succ_le_succ_iff
      have hhigh : (c :: cs).length ≤ low.succ + extra ↔ cs.length ≤ low + extra := by
        rw [List.length_cons]
        omega
      rw [cons_mem_followed_oneOf_iff, ih, hlow, hhigh, List.forall_mem_cons]
      tauto

/-- Every class of the pattern holds a character if and only if it holds the one put for it. -/
def Respects (f : Char → Char) : Pattern → Prop
  | .empty => True
  | .oneOf chars => ∀ c, f c ∈ chars ↔ c ∈ chars
  | .followed p q => p.Respects f ∧ q.Respects f
  | .either p q => p.Respects f ∧ q.Respects f
  | .many p => p.Respects f

variable {f : Char → Char}

theorem Respects.andThen (hp : p.Respects f) (hq : q.Respects f) : (p.andThen q).Respects f := by
  cases p with
  | empty => exact hq
  | oneOf | followed | either | many => exact ⟨hp, hq⟩

theorem Respects.optional (h : p.Respects f) : (optional p).Respects f :=
  ⟨h, trivial⟩

theorem Respects.many1 (h : p.Respects f) : (many1 p).Respects f :=
  ⟨h, h⟩

theorem Respects.between (h : p.Respects f) (low extra : Nat) :
    (between p low extra).Respects f := by
  induction low, extra using between.induct with
  | case1 =>
    rw [Pattern.between]
    trivial
  | case2 extra ih =>
    rw [Pattern.between]
    exact Respects.optional ⟨h, ih⟩
  | case3 low extra ih =>
    rw [Pattern.between]
    exact ⟨h, ih⟩

theorem Respects.residuals_eq (h : p.Respects f) (c : Char) :
    residuals (f c) p = residuals c p := by
  induction p with
  | empty => rfl
  | oneOf chars => simp only [residuals, h c]
  | followed p q ihp ihq => simp only [residuals, ihp h.1, ihq h.2]
  | either p q ihp ihq => simp only [residuals, ihp h.1, ihq h.2]
  | many p ih => simp only [residuals, ih h]

theorem Respects.of_mem_residuals (h : p.Respects f) (hr : r ∈ residuals c p) : r.Respects f := by
  induction p generalizing r with
  | empty => cases hr
  | oneOf chars =>
    rw [residuals] at hr
    split at hr
    · obtain rfl := List.mem_singleton.mp hr
      trivial
    · cases hr
  | followed p q ihp ihq =>
    rcases List.mem_append.mp hr with hr | hr
    · obtain ⟨first, hfirst, rfl⟩ := List.mem_map.mp hr
      exact (ihp h.1 hfirst).andThen h.2
    · split at hr
      · exact ihq h.2 hr
      · cases hr
  | either p q ihp ihq =>
    rcases List.mem_append.mp hr with hr | hr
    · exact ihp h.1 hr
    · exact ihq h.2 hr
  | many p ih =>
    obtain ⟨first, hfirst, rfl⟩ := List.mem_map.mp hr
    exact (ih h hfirst).andThen h

theorem matchAny_map {ps : List Pattern} (h : ∀ p ∈ ps, p.Respects f) (cs : List Char) :
    matchAny ps (cs.map f) = matchAny ps cs := by
  induction cs generalizing ps with
  | nil => rfl
  | cons c cs ih =>
    have hresiduals : ps.flatMap (residuals (f c)) = ps.flatMap (residuals c) :=
      List.flatMap_congr fun p hp => (h p hp).residuals_eq c
    rw [List.map_cons, matchAny, matchAny, hresiduals]
    refine ih fun r hr => ?_
    obtain ⟨p, hp, hr⟩ := List.mem_flatMap.mp (List.mem_eraseDups.mp hr)
    exact (h p hp).of_mem_residuals hr

theorem Respects.fits_map (h : p.Respects f) (cs : List Char) : p.fits (cs.map f) = p.fits cs :=
  matchAny_map (List.forall_mem_singleton.mpr h) cs

end FilterChain.Text.Pattern
