import FilterChain.Proofs.Text.Cutting
import FilterChain.Proofs.Text.Letters
import FilterChain.Proofs.Text.Pattern
import FilterChain.Text.Email
import Mathlib.Data.List.Chain
import Mathlib.Tactic.MkIffOfInductiveProp

/-!
# The parts of an address

The pattern of addresses can cut a text in several ways, but the texts that it describes have a
plain form: a name with single dots in it, an at sign, labels with single hyphens in them and a dot
behind each, and two to four characters at the end. The letters outside ASCII that it admits stand
for the ASCII letters that they are folded to.
-/

namespace FilterChain.Text

variable {word other : Char → Prop} {mark : Char} {cs ds chars : List Char}

/-- A text of word characters and marks that begins with a word character, and in which no mark
follows another. -/
@[mk_iff]
structure IsSpaced (word : Char → Prop) (mark : Char) (cs : List Char) : Prop where
  chars : ∀ c ∈ cs, word c ∨ c = mark
  first : ∃ c ∈ cs.head?, word c
  apart : cs.IsChain fun c d => ¬ (c = mark ∧ d = mark)

instance [DecidablePred word] : Decidable (IsSpaced word mark cs) :=
  decidable_of_iff' _ (isSpaced_iff word mark cs)

theorem isSpaced_of_words (hmark : ¬ word mark) (hne : cs ≠ []) (hwords : ∀ c ∈ cs, word c) :
    IsSpaced word mark cs where
  chars c hc := Or.inl (hwords c hc)
  first := by
    obtain ⟨c, cs, rfl⟩ := List.exists_cons_of_ne_nil hne
    exact ⟨c, rfl, hwords c List.mem_cons_self⟩
  apart := by
    have hpairs : ∀ c ∈ cs, ∀ d ∈ cs, ¬ (c = mark ∧ d = mark) := by
      rintro c hc d - ⟨rfl, -⟩
      exact hmark (hwords c hc)
    exact (List.pairwise_of_forall_mem_list hpairs).isChain

theorem IsSpaced.ne_nil (h : IsSpaced word mark cs) : cs ≠ [] := by
  rintro rfl
  obtain ⟨c, hc, -⟩ := h.first
  cases hc

theorem IsSpaced.head?_append (h : IsSpaced word mark cs) (ds : List Char) :
    ∃ c, (cs ++ ds).head? = some c ∧ word c := by
  obtain ⟨c, hc, hword⟩ := h.first
  exact ⟨c, by rw [List.head?_append, hc, Option.some_or], hword⟩

theorem IsSpaced.append (hmark : ¬ word mark) (hcs : IsSpaced word mark cs)
    (hds : IsSpaced word mark ds) : IsSpaced word mark (cs ++ ds) where
  chars c hc := (List.mem_append.mp hc).elim (hcs.chars c) (hds.chars c)
  first := hcs.head?_append ds
  apart := by
    refine hcs.apart.append hds.apart ?_
    rintro c - d hd ⟨-, rfl⟩
    obtain ⟨e, he, hword⟩ := hds.first
    obtain rfl : e = d := Option.some.inj (he.symm.trans hd)
    exact hmark hword

theorem isSpaced_words_mark (hmark : ¬ word mark) (hne : cs ≠ []) (hwords : ∀ c ∈ cs, word c) :
    IsSpaced word mark (cs ++ [mark]) where
  chars c hc := (List.mem_append.mp hc).imp (hwords c) List.mem_singleton.mp
  first := (isSpaced_of_words hmark hne hwords).head?_append [mark]
  apart := by
    refine (isSpaced_of_words hmark hne hwords).apart.append (.singleton mark) ?_
    rintro c hc d - ⟨rfl, -⟩
    exact hmark (hwords c (List.mem_of_getLast? hc))

theorem IsSpaced.tail {c d : Char} (h : IsSpaced word mark (c :: d :: cs)) (hd : word d) :
    IsSpaced word mark (d :: cs) where
  chars e he := h.chars e (List.mem_cons_of_mem c he)
  first := ⟨d, rfl, hd⟩
  apart := h.apart.tail

/-- A text with single marks can be cut into word characters, each alone or with one mark. -/
theorem IsSpaced.exists_flatten (h : IsSpaced word mark cs) :
    ∃ pieces : List (List Char), pieces ≠ [] ∧
      (∀ piece ∈ pieces, ∃ c, word c ∧ (piece = [c] ∨ piece = [c, mark])) ∧
      pieces.flatten = cs := by
  induction cs using List.twoStepInduction with
  | nil => exact absurd rfl h.ne_nil
  | singleton c =>
    obtain ⟨d, hd, hword⟩ := h.first
    obtain rfl := Option.some.inj hd
    exact ⟨[[c]], List.cons_ne_nil _ _, List.forall_mem_singleton.mpr ⟨c, hword, Or.inl rfl⟩, rfl⟩
  | cons_cons c d cs ihrest ih =>
    obtain ⟨e, he, hword⟩ := h.first
    obtain rfl : c = e := Option.some.inj he
    rcases h.chars d (List.mem_cons_of_mem c List.mem_cons_self) with hd | rfl
    · obtain ⟨pieces, -, hpieces, hflatten⟩ := ih d (h.tail hd)
      refine ⟨[c] :: pieces, List.cons_ne_nil _ _, ?_, by rw [List.flatten_cons, hflatten]; rfl⟩
      exact List.forall_mem_cons.mpr ⟨⟨c, hword, Or.inl rfl⟩, hpieces⟩
    · -- Behind a mark the text is over or goes on with a word character.
      cases cs with
      | nil =>
        exact ⟨[[c, d]], List.cons_ne_nil _ _,
          List.forall_mem_singleton.mpr ⟨c, hword, Or.inr rfl⟩, rfl⟩
      | cons e cs =>
        have hne : ¬ (d = d ∧ e = d) := (List.isChain_cons_cons.mp h.apart.tail).1
        have he : word e := by
          refine (h.chars e ?_).resolve_right fun heq => hne ⟨rfl, heq⟩
          exact List.mem_cons_of_mem c (List.mem_cons_of_mem d List.mem_cons_self)
        have hrest : IsSpaced word d (e :: cs) := by
          refine ⟨fun x hx => h.chars x ?_, ⟨e, rfl, he⟩, h.apart.tail.tail⟩
          exact List.mem_cons_of_mem c (List.mem_cons_of_mem d hx)
        obtain ⟨pieces, -, hpieces, hflatten⟩ := ihrest hrest
        refine ⟨[c, d] :: pieces, List.cons_ne_nil _ _, ?_,
          by rw [List.flatten_cons, hflatten]; rfl⟩
        exact List.forall_mem_cons.mpr ⟨⟨c, hword, Or.inr rfl⟩, hpieces⟩

/-- Runs of word characters with an optional mark behind each: whether a run is a single character
or any number of them makes no difference. -/
theorem mem_many1_marked_iff {run : Pattern} (hmark : ¬ word mark)
    (hrun : ∀ cs ∈ run.language, cs ≠ [] ∧ ∀ c ∈ cs, word c)
    (hsingle : ∀ c, word c → [c] ∈ run.language) :
    cs ∈ (Pattern.many1 (.followed run (.optional (.oneOf [mark])))).language ↔
      IsSpaced word mark cs := by
  have hpiece : ∀ cs ∈ (Pattern.followed run (.optional (.oneOf [mark]))).language,
      IsSpaced word mark cs := by
    intro cs hcs
    obtain ⟨a, ha, b, hb, rfl⟩ := Pattern.mem_followed_iff.mp hcs
    obtain ⟨hne, hwords⟩ := hrun a ha
    rcases Pattern.mem_optional_iff.mp hb with ⟨c, hc, rfl⟩ | rfl
    · obtain rfl := List.mem_singleton.mp hc
      exact isSpaced_words_mark hmark hne hwords
    · rw [List.append_nil]
      exact isSpaced_of_words hmark hne hwords
  rw [Pattern.mem_many1_iff]
  constructor
  · rintro ⟨pieces, hne, hpieces, rfl⟩
    induction pieces with
    | nil => exact absurd rfl hne
    | cons piece pieces ih =>
      obtain ⟨hfirst, hrest⟩ := List.forall_mem_cons.mp hpieces
      cases pieces with
      | nil =>
        rw [List.flatten_cons, List.flatten_nil, List.append_nil]
        exact hpiece piece hfirst
      | cons next pieces =>
        exact (hpiece piece hfirst).append hmark (ih (List.cons_ne_nil _ _) hrest)
  · intro h
    obtain ⟨pieces, hne, hpieces, hflatten⟩ := h.exists_flatten
    refine ⟨pieces, hne, fun piece hmem => ?_, hflatten⟩
    rw [Pattern.mem_followed_iff]
    obtain ⟨c, hc, rfl | rfl⟩ := hpieces piece hmem
    · exact ⟨[c], hsingle c hc, [], Or.inr rfl, rfl⟩
    · exact ⟨[c], hsingle c hc, [mark], Or.inl ⟨mark, List.mem_singleton_self mark, rfl⟩, rfl⟩

theorem flatten_map_concat {labels : List (List Char)} (hne : labels ≠ []) (sep : Char) :
    (labels.map (· ++ [sep])).flatten = glue sep labels ++ [sep] := by
  induction labels with
  | nil => exact absurd rfl hne
  | cons label labels ih =>
    cases labels with
    | nil => rw [List.map_singleton, List.flatten_singleton, glue]
    | cons next labels =>
      have hglue : glue sep (label :: next :: labels) = label ++ sep :: glue sep (next :: labels) :=
        rfl
      rw [List.map_cons, List.flatten_cons, ih (List.cons_ne_nil _ _), hglue, List.append_assoc,
        List.append_assoc]
      rfl

theorem exists_eq_map_concat {p : Pattern} {sep : Char} {pieces : List (List Char)}
    (h : ∀ piece ∈ pieces, piece ∈ (Pattern.followed p (.oneOf [sep])).language) :
    ∃ labels : List (List Char), (∀ label ∈ labels, label ∈ p.language) ∧
      labels.map (· ++ [sep]) = pieces := by
  induction pieces with
  | nil => exact ⟨[], List.forall_mem_nil _, rfl⟩
  | cons piece pieces ih =>
    obtain ⟨hpiece, hpieces⟩ := List.forall_mem_cons.mp h
    obtain ⟨labels, hlabels, rfl⟩ := ih hpieces
    obtain ⟨label, hlabel, _, ⟨c, hc, rfl⟩, rfl⟩ := Pattern.mem_followed_iff.mp hpiece
    obtain rfl := List.mem_singleton.mp hc
    exact ⟨label :: labels, List.forall_mem_cons.mpr ⟨hlabel, hlabels⟩, rfl⟩

theorem mem_many1_dotted_iff {p : Pattern} {sep : Char} :
    cs ∈ (Pattern.many1 (.followed p (.oneOf [sep]))).language ↔
      ∃ labels : List (List Char), labels ≠ [] ∧ (∀ label ∈ labels, label ∈ p.language) ∧
        glue sep labels ++ [sep] = cs := by
  rw [Pattern.mem_many1_iff]
  constructor
  · rintro ⟨pieces, hne, hpieces, rfl⟩
    obtain ⟨labels, hlabels, rfl⟩ := exists_eq_map_concat hpieces
    have hlabels_ne : labels ≠ [] := fun hnil => hne (List.map_eq_nil_iff.mpr hnil)
    exact ⟨labels, hlabels_ne, hlabels, (flatten_map_concat hlabels_ne sep).symm⟩
  · rintro ⟨labels, hne, hlabels, rfl⟩
    refine ⟨labels.map (· ++ [sep]), mt List.map_eq_nil_iff.mp hne, fun piece hpiece => ?_,
      flatten_map_concat hne sep⟩
    obtain ⟨label, hlabel, rfl⟩ := List.mem_map.mp hpiece
    exact Pattern.mem_followed_iff.mpr ⟨label, hlabels label hlabel, [sep],
      ⟨sep, List.mem_singleton_self sep, rfl⟩, rfl⟩

/-- An address is a name with single dots, an at sign, labels with single hyphens that are joined by
dots, a dot, and two to four word characters. -/
@[mk_iff]
structure IsAddress (word : Char → Prop) (name : List Char) (labels : List (List Char))
    (last cs : List Char) : Prop where
  text : cs = name ++ '@' :: (glue '.' labels ++ '.' :: last)
  name_spaced : IsSpaced word '.' name
  labels_ne_nil : labels ≠ []
  label_spaced : ∀ label ∈ labels, IsSpaced word '-' label
  two_le_last : 2 ≤ last.length
  last_le_four : last.length ≤ 4
  last_word : ∀ c ∈ last, word c

instance [DecidablePred word] {name last : List Char} {labels : List (List Char)} :
    Decidable (IsAddress word name labels last cs) :=
  decidable_of_iff' _ (isAddress_iff word name labels last cs)

def HasAddressForm (word : Char → Prop) (cs : List Char) : Prop :=
  ∃ name labels last, IsAddress word name labels last cs

section Parts

variable {name last : List Char} {labels : List (List Char)}

theorem IsSpaced.mono (h : IsSpaced word mark cs) (himp : ∀ c ∈ cs, word c → other c) :
    IsSpaced other mark cs where
  chars c hc := (h.chars c hc).imp_left (himp c hc)
  first := by
    obtain ⟨c, hc, hword⟩ := h.first
    exact ⟨c, hc, himp c (List.mem_of_head? hc) hword⟩
  apart := h.apart

theorem IsAddress.mem_iff (h : IsAddress word name labels last cs) {c : Char} :
    c ∈ cs ↔ c ∈ name ∨ c = '@' ∨ c ∈ glue '.' labels ∨ c = '.' ∨ c ∈ last := by
  rw [h.text, List.mem_append, List.mem_cons, List.mem_append, List.mem_cons]

theorem IsAddress.mono (h : IsAddress word name labels last cs)
    (himp : ∀ c ∈ cs, word c → other c) : IsAddress other name labels last cs where
  text := h.text
  name_spaced := h.name_spaced.mono fun c hc => himp c (h.mem_iff.mpr (Or.inl hc))
  labels_ne_nil := h.labels_ne_nil
  label_spaced label hlabel := by
    refine (h.label_spaced label hlabel).mono fun c hc => himp c (h.mem_iff.mpr ?_)
    exact Or.inr (Or.inr (Or.inl (mem_glue_of_mem hlabel hc)))
  two_le_last := h.two_le_last
  last_le_four := h.last_le_four
  last_word c hc :=
    himp c (h.mem_iff.mpr (Or.inr (Or.inr (Or.inr (Or.inr hc))))) (h.last_word c hc)

/-- Besides word characters, an address has dots, hyphens and an at sign. -/
theorem IsAddress.word_or_mark (h : IsAddress word name labels last cs) {c : Char} (hc : c ∈ cs) :
    word c ∨ c ∈ ['.', '-', '@'] := by
  rcases h.mem_iff.mp hc with hc | rfl | hc | rfl | hc
  · refine (h.name_spaced.chars c hc).imp_right ?_
    rintro rfl
    decide
  · exact Or.inr (by decide)
  · rcases eq_or_mem_of_mem_glue hc with rfl | ⟨label, hlabel, hc⟩
    · exact Or.inr (by decide)
    · refine ((h.label_spaced label hlabel).chars c hc).imp_right ?_
      rintro rfl
      decide
  · exact Or.inr (by decide)
  · exact Or.inl (h.last_word c hc)

end Parts

theorem HasAddressForm.congr (h : ∀ c ∈ cs, word c ↔ other c) :
    HasAddressForm word cs ↔ HasAddressForm other cs :=
  ⟨fun ⟨name, labels, last, hparts⟩ =>
      ⟨name, labels, last, hparts.mono fun c hc => (h c hc).mp⟩,
    fun ⟨name, labels, last, hparts⟩ =>
      ⟨name, labels, last, hparts.mono fun c hc => (h c hc).mpr⟩⟩

def namePattern : Pattern :=
  .many1 (.followed (.many1 (.oneOf addressChars)) (.optional (.oneOf ['.'])))

def labelPattern : Pattern :=
  .many1 (.followed (.oneOf addressChars) (.optional (.oneOf ['-'])))

theorem emailPattern_eq : emailPattern = .followed namePattern (.followed (.oneOf ['@'])
    (.followed (.many1 (.followed labelPattern (.oneOf ['.'])))
      (.between (.oneOf addressChars) 2 2))) :=
  rfl

theorem mem_namePattern_iff : cs ∈ namePattern.language ↔ IsSpaced (· ∈ addressChars) '.' cs := by
  refine mem_many1_marked_iff (by decide) (fun cs => Pattern.mem_many1_oneOf_iff.mp) ?_
  exact fun c hc => Pattern.mem_many1_oneOf_iff.mpr
    ⟨List.cons_ne_nil _ _, List.forall_mem_singleton.mpr hc⟩

theorem mem_labelPattern_iff : cs ∈ labelPattern.language ↔ IsSpaced (· ∈ addressChars) '-' cs := by
  refine mem_many1_marked_iff (by decide) ?_ fun c hc => ⟨c, hc, rfl⟩
  rintro _ ⟨c, hc, rfl⟩
  exact ⟨List.cons_ne_nil _ _, List.forall_mem_singleton.mpr hc⟩

theorem isEmail_iff : isEmail cs = true ↔ HasAddressForm (· ∈ addressChars) cs := by
  rw [isEmail, Pattern.fits_iff, emailPattern_eq, Pattern.mem_followed_iff]
  constructor
  · rintro ⟨name, hname, _, hbehind, rfl⟩
    obtain ⟨_, ⟨c, hc, rfl⟩, _, hend, rfl⟩ := Pattern.mem_followed_iff.mp hbehind
    obtain rfl := List.mem_singleton.mp hc
    obtain ⟨_, hdomain, last, hlast, rfl⟩ := Pattern.mem_followed_iff.mp hend
    obtain ⟨labels, hne, hlabels, rfl⟩ := mem_many1_dotted_iff.mp hdomain
    obtain ⟨hlow, hhigh, hword⟩ := Pattern.mem_between_oneOf_iff.mp hlast
    refine ⟨name, labels, last, ?_, mem_namePattern_iff.mp hname, hne,
      fun label hlabel => mem_labelPattern_iff.mp (hlabels label hlabel), hlow, hhigh, hword⟩
    rw [List.append_assoc]
    rfl
  · rintro ⟨name, labels, last, h⟩
    have hdomain : glue '.' labels ++ ['.'] ∈
        (Pattern.many1 (.followed labelPattern (.oneOf ['.']))).language :=
      mem_many1_dotted_iff.mpr ⟨labels, h.labels_ne_nil,
        fun label hlabel => mem_labelPattern_iff.mpr (h.label_spaced label hlabel), rfl⟩
    have hlast : last ∈ (Pattern.between (.oneOf addressChars) 2 2).language :=
      Pattern.mem_between_oneOf_iff.mpr ⟨h.two_le_last, h.last_le_four, h.last_word⟩
    have hend := Pattern.mem_followed_iff.mpr ⟨_, hdomain, last, hlast, rfl⟩
    rw [List.append_assoc] at hend
    have hat := List.mem_singleton_self '@'
    exact ⟨name, mem_namePattern_iff.mpr h.name_spaced, _,
      Pattern.cons_mem_followed_oneOf_iff.mpr ⟨hat, hend⟩, h.text.symm⟩

def IsAsciiWord (c : Char) : Prop :=
  isAsciiLetter c = true ∨ isAsciiDigit c = true ∨ c = '_'

instance : DecidablePred IsAsciiWord := fun c =>
  inferInstanceAs (Decidable (isAsciiLetter c = true ∨ isAsciiDigit c = true ∨ c = '_'))

def foldToAscii (c : Char) : Char :=
  if c = longS then 's' else if c = kelvinSign then 'k' else c

theorem isAscii_of_isAsciiWord {c : Char} (h : IsAsciiWord c) : isAscii c = true := by
  simp only [IsAsciiWord, isAsciiLetter, isAsciiDigit, Bool.or_eq_true, Bool.and_eq_true,
    decide_eq_true_eq, le_iff_toNat_le] at h
  have hz : 'z'.toNat = 122 := rfl
  have hZ : 'Z'.toNat = 90 := rfl
  have h9 : '9'.toNat = 57 := rfl
  rw [isAscii, decide_eq_true_eq]
  rcases h with (h | h) | h | rfl
  · omega
  · omega
  · omega
  · decide

theorem mem_addressChars_of_isAsciiWord {c : Char} (h : IsAsciiWord c) : c ∈ addressChars := by
  have hall : ∀ n < 128, IsAsciiWord (Char.ofNat n) → Char.ofNat n ∈ addressChars := by
    decide +kernel
  have hc := hall c.toNat (of_decide_eq_true (isAscii_of_isAsciiWord h))
  rw [Char.ofNat_toNat] at hc
  exact hc h

theorem mem_addressChars_iff {c : Char} :
    c ∈ addressChars ↔ IsAsciiWord c ∨ c = longS ∨ c = kelvinSign := by
  constructor
  · revert c
    decide
  · rintro (h | rfl | rfl)
    · exact mem_addressChars_of_isAsciiWord h
    · decide
    · decide

/-- Outside of ASCII an address can have two characters only. -/
theorem isAscii_or_of_isEmail (h : isEmail cs = true) :
    ∀ c ∈ cs, isAscii c = true ∨ c = longS ∨ c = kelvinSign := by
  have hmarks : ∀ mark ∈ ['.', '-', '@'], isAscii mark = true := by
    decide
  obtain ⟨name, labels, last, hparts⟩ := isEmail_iff.mp h
  intro c hc
  rcases hparts.word_or_mark hc with hword | hmark
  · exact (mem_addressChars_iff.mp hword).imp_left isAscii_of_isAsciiWord
  · exact Or.inl (hmarks c hmark)

theorem foldToAscii_of_isAscii {c : Char} (h : isAscii c = true) : foldToAscii c = c := by
  have hlongS : c ≠ longS := by
    rintro rfl
    exact absurd h (by decide)
  have hkelvinSign : c ≠ kelvinSign := by
    rintro rfl
    exact absurd h (by decide)
  rw [foldToAscii, if_neg hlongS, if_neg hkelvinSign]

theorem foldToAscii_ne (c : Char) : foldToAscii c ≠ longS ∧ foldToAscii c ≠ kelvinSign := by
  unfold foldToAscii
  split
  · decide
  · next hlongS =>
    split
    · decide
    · next hkelvinSign => exact ⟨hlongS, hkelvinSign⟩

theorem foldToAscii_mem_iff (hs : 's' ∈ chars ↔ longS ∈ chars)
    (hk : 'k' ∈ chars ↔ kelvinSign ∈ chars) (c : Char) : foldToAscii c ∈ chars ↔ c ∈ chars := by
  unfold foldToAscii
  split
  · next h => rwa [h]
  · split
    · next h => rwa [h]
    · rfl

theorem respects_emailPattern : emailPattern.Respects foldToAscii := by
  have hword : (Pattern.oneOf addressChars).Respects foldToAscii :=
    foldToAscii_mem_iff (by decide) (by decide)
  have hmarks : ∀ mark ∈ ['.', '-', '@'], (Pattern.oneOf [mark]).Respects foldToAscii := by
    have hletters : ∀ mark ∈ ['.', '-', '@'], ('s' ∈ [mark] ↔ longS ∈ [mark]) ∧
        ('k' ∈ [mark] ↔ kelvinSign ∈ [mark]) := by
      decide
    exact fun mark hmark => foldToAscii_mem_iff (hletters mark hmark).1 (hletters mark hmark).2
  have hdot := hmarks '.' (by decide)
  have hhyphen := hmarks '-' (by decide)
  have hname : namePattern.Respects foldToAscii := .many1 ⟨.many1 hword, .optional hdot⟩
  have hlabel : labelPattern.Respects foldToAscii := .many1 ⟨hword, .optional hhyphen⟩
  rw [emailPattern_eq]
  exact ⟨hname, hmarks '@' (by decide), .many1 ⟨hlabel, hdot⟩, .between hword 2 2⟩

/-- A text is an address if and only if it is one in ASCII as soon as its letters are folded. -/
theorem isEmail_iff_fold :
    isEmail cs = true ↔ HasAddressForm IsAsciiWord (cs.map foldToAscii) := by
  have hfold : isEmail (cs.map foldToAscii) = isEmail cs := respects_emailPattern.fits_map cs
  rw [← hfold, isEmail_iff]
  refine HasAddressForm.congr fun c hc => ?_
  obtain ⟨d, -, rfl⟩ := List.mem_map.mp hc
  rw [mem_addressChars_iff, or_iff_left]
  exact fun h => h.elim (foldToAscii_ne d).1 (foldToAscii_ne d).2

theorem isEmail_iff_of_isAscii (h : ∀ c ∈ cs, isAscii c = true) :
    isEmail cs = true ↔ HasAddressForm IsAsciiWord cs := by
  have hfold : cs.map foldToAscii = cs :=
    (List.map_congr_left fun c hc => foldToAscii_of_isAscii (h c hc)).trans (List.map_id cs)
  rw [isEmail_iff_fold, hfold]

end FilterChain.Text
