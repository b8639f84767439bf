import FilterChain.Value.Writer
import FilterChain.Proofs.Document.Numbers
import FilterChain.Proofs.Number.Digits
import FilterChain.Proofs.Number.Literal
import FilterChain.Proofs.Value.Leaves

/-!
# Written values are read back

The text of a value is on one line, whatever the texts inside of it are. A reader takes it as that
value, provided that it takes the text of each number inside as that number and that the value is
not nested too deep. Whole numbers of a machine word are taken so.
-/

namespace FilterChain

namespace Value

/-- A text is `rest` behind characters none of which is a control character. -/
inductive VisibleTo (rest : List Char) : List Char → Prop where
  | here : VisibleTo rest rest
  | cons {c : Char} {cs : List Char} (hc : 32 ≤ c.toNat) (h : VisibleTo rest cs) :
      VisibleTo rest (c :: cs)

namespace VisibleTo

variable {rest middle cs : List Char}

theorem trans (hmiddle : VisibleTo rest middle) (h : VisibleTo middle cs) : VisibleTo rest cs := by
  induction h with
  | here => exact hmiddle
  | cons hc _ ih => exact .cons hc ih

theorem append {front : List Char} (hfront : ∀ c ∈ front, 32 ≤ c.toNat) (h : VisibleTo rest cs) :
    VisibleTo rest (front ++ cs) := by
  induction front with
  | nil => exact h
  | cons c front ih =>
    obtain ⟨hc, hcs⟩ := List.forall_mem_cons.mp hfront
    exact .cons hc (ih hcs)

theorem visible {c : Char} (h : VisibleTo [] cs) (hc : c ∈ cs) : 32 ≤ c.toNat := by
  induction h with
  | here => cases hc
  | cons hd _ ih => exact (List.mem_cons.mp hc).elim (fun heq => heq ▸ hd) ih

end VisibleTo

variable {rest : List Char}

theorem visible_hexDigit {n : Nat} (h : n < 16) : 32 ≤ (hexDigit n).toNat := by
  revert n
  decide

theorem visible_escape (c : Char) : ∀ d ∈ escape c, 32 ≤ d.toNat := by
  unfold escape
  iterate 7 split; simp
  split
  · next h =>
    have hhigh : 32 ≤ (hexDigit (c.toNat / 16)).toNat := visible_hexDigit (by omega)
    have hlow : 32 ≤ (hexDigit (c.toNat % 16)).toNat := visible_hexDigit (by omega)
    simp [hhigh, hlow]
  · exact List.forall_mem_singleton.mpr (by omega)

theorem visibleTo_quote (s : String) : VisibleTo rest (quote s rest) := by
  have hbody : ∀ d ∈ s.toList.flatMap escape, 32 ≤ d.toNat := by
    intro d hd
    obtain ⟨c, -, hc⟩ := List.mem_flatMap.mp hd
    exact visible_escape c d hc
  exact .cons (by decide) (.append hbody (.cons (by decide) .here))

theorem visible_of_isAsciiDigit {c : Char} (h : Text.isAsciiDigit c = true) : 32 ≤ c.toNat := by
  simp only [Text.isAsciiDigit, Bool.and_eq_true, decide_eq_true_eq, Char.le_def,
    UInt32.le_iff_toNat_le] at h
  exact Nat.le_trans (by decide) h.1

/-- The characters of which numbers are written. -/
def IsNumeral (c : Char) : Prop :=
  Text.isAsciiDigit c = true ∨ c ∈ ['-', '+', '.', 'e']

instance : DecidablePred IsNumeral :=
  fun _ => inferInstanceAs (Decidable (_ ∨ _))

theorem isNumeral_of_mem_decimalDigits {n : Nat} : ∀ c ∈ decimalDigits n, IsNumeral c :=
  fun _ hc => .inl (isAsciiDigit_of_mem_decimalDigits hc)

theorem isNumeral_of_mem_sign (x : Binary64) : ∀ c ∈ x.sign, IsNumeral c := by
  unfold Binary64.sign
  split <;> simp [IsNumeral]

theorem isNumeral_of_mem_binary (x : Binary64) : ∀ c ∈ x.text, IsNumeral c := by
  rw [Binary64.text]
  generalize x.shortest = decimal
  obtain ⟨d, k⟩ := decimal
  have htake (n : Nat) : ∀ c ∈ (decimalDigits d).take n, IsNumeral c := fun c hc =>
    isNumeral_of_mem_decimalDigits c (List.mem_of_mem_take hc)
  have hdrop (n : Nat) : ∀ c ∈ (decimalDigits d).drop n, IsNumeral c := fun c hc =>
    isNumeral_of_mem_decimalDigits c (List.mem_of_mem_drop hc)
  have hzeros (n : Nat) : ∀ c ∈ List.replicate n '0', IsNumeral c := fun c hc =>
    List.eq_of_mem_replicate hc ▸ .inl rfl
  have hzero : IsNumeral '0' := .inl rfl
  have hpoint : IsNumeral '.' := .inr (by decide)
  have hpower : IsNumeral 'e' := .inr (by decide)
  refine List.forall_mem_append.mpr ⟨isNumeral_of_mem_sign x, ?_⟩
  split
  · split
    · refine List.forall_mem_append.mpr ⟨List.forall_mem_append.mpr
        ⟨isNumeral_of_mem_decimalDigits, hzeros _⟩, ?_⟩
      exact List.forall_mem_cons.mpr ⟨hpoint, List.forall_mem_singleton.mpr hzero⟩
    split
    · exact List.forall_mem_append.mpr ⟨htake _, List.forall_mem_cons.mpr ⟨hpoint, hdrop _⟩⟩
    · simp only [List.forall_mem_append, List.forall_mem_cons]
      exact ⟨⟨hzero, hpoint, hzeros _⟩, isNumeral_of_mem_decimalDigits⟩
  · simp only [List.forall_mem_append, List.forall_mem_cons]
    refine ⟨⟨htake 1, ?_⟩, hpower, ?_, isNumeral_of_mem_decimalDigits⟩
    · split
      · exact List.forall_mem_nil _
      · exact List.forall_mem_cons.mpr ⟨hpoint, hdrop 1⟩
    · split <;> exact .inr (by decide)

theorem isNumeral_of_mem_text (n : Number) : ∀ c ∈ n.text, IsNumeral c := by
  cases n with
  | whole n =>
    refine List.forall_mem_append.mpr ⟨?_, isNumeral_of_mem_decimalDigits⟩
    split <;> simp [IsNumeral]
  | binary x => exact isNumeral_of_mem_binary x

theorem IsNumeral.visible {c : Char} (h : IsNumeral c) : 32 ≤ c.toNat := by
  rcases h with hdigit | hmark
  · exact visible_of_isAsciiDigit hdigit
  · have hmarks : ∀ c ∈ ['-', '+', '.', 'e'], 32 ≤ c.toNat := by decide
    exact hmarks c hmark

theorem visibleTo_items {depth : Nat} {items : List Value}
    (h : ∀ v ∈ items, ∀ rest, VisibleTo rest (v.write .compact (depth + 1) rest)) :
    VisibleTo rest (writeItems .compact depth items rest) := by
  induction items with
  | nil => exact .here
  | cons v vs ih =>
    obtain ⟨hv, hvs⟩ := List.forall_mem_cons.mp h
    cases vs with
    | nil => exact hv rest
    | cons w vs => exact .trans (.cons (by decide) (ih hvs)) (hv _)

theorem visibleTo_fields {depth : Nat} {fields : List (String × Value)}
    (h : ∀ field ∈ fields, ∀ rest, VisibleTo rest (field.2.write .compact (depth + 1) rest)) :
    VisibleTo rest (writeFields .compact depth fields rest) := by
  induction fields with
  | nil => exact .here
  | cons field fs ih =>
    obtain ⟨hv, hfs⟩ := List.forall_mem_cons.mp h
    have hfield (rest : List Char) :
        VisibleTo rest (quote field.1 (':' :: field.2.write .compact (depth + 1) rest)) :=
      .trans (.trans (hv rest) (.cons (by decide) .here)) (visibleTo_quote _)
    cases fs with
    | nil => exact hfield rest
    | cons g fs => exact .trans (.cons (by decide) (ih hfs)) (hfield _)

theorem visibleTo_write (v : Value) (depth : Nat) (rest : List Char) :
    VisibleTo rest (v.write .compact depth rest) := by
  induction v using Value.induction generalizing depth rest with
  | scalar v hscalar =>
    cases v with
    | null => exact .append (by simp) .here
    | bool b => cases b <;> exact .append (by simp [boolText]) .here
    | number n => exact .append (fun c hc => (isNumeral_of_mem_text n c hc).visible) .here
    | text s => exact visibleTo_quote s
    | list | record => cases hscalar
  | list items ih =>
    rw [write]
    exact .cons (by decide)
      (.trans (.cons (by decide) .here) (visibleTo_items fun v hv => ih v hv (depth + 1)))
  | record fields ih =>
    rw [write]
    exact .cons (by decide)
      (.trans (.cons (by decide) .here) (visibleTo_fields fun g hg => ih g hg (depth + 1)))

theorem quote_append (s : String) (cs more : List Char) :
    quote s (cs ++ more) = quote s cs ++ more := by
  simp [quote]

theorem writeItems_append {style : Style} {depth : Nat} {items : List Value} {more : List Char}
    (h : ∀ v ∈ items, ∀ cs,
      v.write style (depth + 1) (cs ++ more) = v.write style (depth + 1) cs ++ more)
    (cs : List Char) :
    writeItems style depth items (cs ++ more) = writeItems style depth items cs ++ more := by
  induction items with
  | nil => rfl
  | cons v vs ih =>
    obtain ⟨hv, hvs⟩ := List.forall_mem_cons.mp h
    cases vs with
    | nil =>
      rw [writeItems, writeItems, ← List.append_assoc (style.gap depth), hv, List.append_assoc]
    | cons w vs =>
      rw [writeItems, writeItems, ih hvs, ← List.cons_append, hv, List.append_assoc]

theorem writeFields_append {style : Style} {depth : Nat} {fields : List (String × Value)}
    {more : List Char}
    (h : ∀ field ∈ fields, ∀ cs,
      field.2.write style (depth + 1) (cs ++ more) = field.2.write style (depth + 1) cs ++ more)
    (cs : List Char) :
    writeFields style depth fields (cs ++ more) = writeFields style depth fields cs ++ more := by
  induction fields with
  | nil => rfl
  | cons field fs ih =>
    obtain ⟨hv, hfs⟩ := List.forall_mem_cons.mp h
    cases fs with
    | nil =>
      rw [writeFields, writeFields, ← List.append_assoc (style.gap depth), hv,
        ← List.append_assoc (':' :: style.colonGap), quote_append, List.append_assoc]
    | cons g fs =>
      rw [writeFields, writeFields, ih hfs, ← List.cons_append, hv,
        ← List.append_assoc (':' :: style.colonGap), quote_append, List.append_assoc]

/-- What stands behind a value has no influence on its text. -/
theorem write_append (style : Style) (depth : Nat) (v : Value) (cs more : List Char) :
    v.write style depth (cs ++ more) = v.write style depth cs ++ more := by
  induction v using Value.induction generalizing depth cs with
  | scalar v hscalar =>
    cases v with
    | null | bool | number => exact (List.append_assoc _ cs more).symm
    | text s => exact quote_append s cs more
    | list | record => cases hscalar
  | list items ih =>
    rw [write, write, ← List.cons_append, writeItems_append fun v hv => ih v hv (depth + 1),
      List.cons_append]
  | record fields ih =>
    rw [write, write, ← List.cons_append, writeFields_append fun g hg => ih g hg (depth + 1),
      List.cons_append]

theorem render_eq_toText_append (v : Value) (rest : List Char) :
    v.render rest = v.toText.toList ++ rest := by
  rw [toText, String.toList_ofList, render, render, ← write_append, List.nil_append]

theorem visible_toText (v : Value) : ∀ c ∈ v.toText.toList, 32 ≤ c.toNat := by
  intro c hc
  rw [toText, String.toList_ofList] at hc
  exact (visibleTo_write v 0 []).visible hc

end Value

namespace Document

open Value

theorem hexQuad?_hexDigit {n : Nat} (h : n < 32) :
    hexQuad? '0' '0' (hexDigit (n / 16)) (hexDigit (n % 16)) = some n := by
  revert n
  decide

theorem scanQuoted_of_unescape? {e c : Char} (h : unescape? e = some c) (he : e ≠ 'u')
    (cs : List Char) : scanQuoted none ('\\' :: e :: cs) = (scanQuoted none cs).prepend c := by
  simp [scanQuoted, h, he, Quoted.afterLead]

theorem scanQuoted_escape (c : Char) (cs : List Char) :
    scanQuoted none (escape c ++ cs) = (scanQuoted none cs).prepend c := by
  have hchar {n : Nat} (h : c.toNat = n) : c = Char.ofNat n := by rw [← h, Char.ofNat_toNat]
  -- The first five characters are literals of `escape`; the next two are compared by number.
  unfold escape
  iterate 5
    split
    · next h => rw [h]; exact scanQuoted_of_unescape? rfl (by decide) cs
  iterate 2
    split
    · next h => rw [hchar h]; exact scanQuoted_of_unescape? rfl (by decide) cs
  split
  · next h =>
    simp [scanQuoted, hexQuad?_hexDigit h, Quoted.afterLead, show ¬ 0xDC00 ≤ c.toNat by omega,
      show ¬ 0xD800 ≤ c.toNat by omega]
  · next hslash _ _ _ _ _ hplain => simp [scanQuoted, Quoted.afterLead, hslash, hplain]

theorem scanQuoted_flatMap_escape (cs rest : List Char) :
    scanQuoted none (cs.flatMap escape ++ '\x22' :: rest) = ⟨cs, none, .ok rest⟩ := by
  induction cs with
  | nil => simp [scanQuoted, Quoted.afterLead]
  | cons c cs ih =>
    rw [List.flatMap_cons, List.append_assoc, scanQuoted_escape, ih]
    rfl

theorem scanWord_append (document : Document) (word rest : List Char) :
    scanWord document word (word ++ rest) = ⟨document, some rest⟩ := by
  induction word with
  | nil => rfl
  | cons w ws ih => exact (if_pos rfl).trans ih

/-- What stands behind a value inside of a list or of a record, or at the end. -/
def Delimited (rest : List Char) : Prop :=
  ∀ c, rest.head? = some c → isSeparatorBlank c = true ∨ c ∈ [',', ']', '\x7d']

theorem delimited_cons {c : Char} (h : c ∈ [',', ']', '\x7d']) (rest : List Char) :
    Delimited (c :: rest) := by
  intro d hd
  exact .inr (Option.some.inj hd ▸ h)

theorem delimited_append {blanks rest : List Char}
    (hblanks : ∀ c ∈ blanks, isSeparatorBlank c = true) (h : Delimited rest) :
    Delimited (blanks ++ rest) := by
  cases blanks with
  | nil => exact h
  | cons b blanks =>
    intro c hc
    obtain rfl := Option.some.inj hc
    exact .inl (hblanks b List.mem_cons_self)

theorem Delimited.cases_head {c : Char} {cs : List Char} (h : Delimited (c :: cs)) :
    c ∈ [' ', '\n', '\t', '\r', ',', ']', '\x7d'] := by
  have hc := h c rfl
  simp only [isSeparatorBlank, Bool.or_eq_true, decide_eq_true_eq, List.mem_cons,
    List.not_mem_nil, or_false] at hc ⊢
  tauto

theorem Delimited.not_digit {rest : List Char} (h : Delimited rest) :
    ∀ c, rest.head? = some c → Text.isAsciiDigit c = false := by
  have hmarks : ∀ c ∈ [' ', '\n', '\t', '\r', ',', ']', '\x7d'],
      Text.isAsciiDigit c = false := by decide
  cases rest with
  | nil => simp
  | cons d ds =>
    intro c hc
    obtain rfl := Option.some.inj hc
    exact hmarks d h.cases_head

theorem scanFraction_of_delimited (negative : Bool) (digits : List Char) {rest : List Char}
    (h : Delimited rest) :
    scanFraction negative digits rest =
      ⟨wholeNumber negative (.read 0 (by decide) digits) (.at .numberOutOfRange 0 rest),
        some rest⟩ := by
  cases rest with
  | nil => rfl
  | cons c cs =>
    have hc := h.cases_head
    simp only [List.mem_cons, List.not_mem_nil, or_false] at hc
    rcases hc with rfl | rfl | rfl | rfl | rfl | rfl | rfl <;> rfl

theorem read_of_foldl_lt {n : Nat} (hn : n < 0x10000000000000000) {ds : List Char}
    (h : ds.foldl (fun n d => 10 * n + digitValue d) n < 0x10000000000000000) :
    Significand.read n hn ds = ⟨ds.foldl (fun n d => 10 * n + digitValue d) n, [], h⟩ := by
  induction ds generalizing n with
  | nil => rfl
  | cons d ds ih =>
    have hnext : 10 * n + digitValue d < 0x10000000000000000 :=
      (Bounds.le_foldl_digits _ ds).trans_lt h
    rw [Significand.read, dif_pos hnext]
    exact ih hnext h

theorem read_decimalDigits {n : Nat} (h : n < 0x10000000000000000) :
    Significand.read 0 (by decide) (decimalDigits n) = ⟨n, [], h⟩ := by
  have hvalue : (decimalDigits n).foldl (fun n d => 10 * n + digitValue d) 0 = n :=
    digitsValue_decimalDigits n
  rw [read_of_foldl_lt (by decide) (by rwa [hvalue])]
  congr

theorem scanUnsigned_decimalDigits (negative : Bool) {n : Nat} (hn : n < 0x10000000000000000)
    {rest : List Char} (h : Delimited rest) :
    scanUnsigned negative (decimalDigits n ++ rest) =
      ⟨wholeNumber negative ⟨n, [], hn⟩ (.at .numberOutOfRange 0 rest), some rest⟩ := by
  have hfraction := scanFraction_of_delimited negative (decimalDigits n) h
  rw [read_decimalDigits hn] at hfraction
  obtain ⟨d, ds, hds, hdigit, hzero⟩ := decimalDigits_eq_cons n
  rw [← hfraction, hds, List.cons_append]
  by_cases hd : d = '0'
  · subst hd
    obtain rfl := hzero rfl
    cases rest with
    | nil => rfl
    | cons c cs => simp [scanUnsigned, h.not_digit c rfl]
  · have hall : ∀ c ∈ decimalDigits n, Text.isAsciiDigit c = true := fun c hc =>
      isAsciiDigit_of_mem_decimalDigits hc
    obtain ⟨htake, hdrop⟩ := takeWhile_digits_append hall h.not_digit
    rw [hds, List.cons_append] at htake hdrop
    simp [scanUnsigned, hdigit, htake, hdrop]

theorem ne_of_isAsciiDigit {c d : Char} (h : Text.isAsciiDigit c = true)
    (hd : Text.isAsciiDigit d = false) : c ≠ d := by
  rintro rfl
  rw [h] at hd
  cases hd

theorem scanScalar_of_digit {c : Char} (h : Text.isAsciiDigit c = true) (cs : List Char) :
    scanScalar c cs = scanUnsigned false (c :: cs) := by
  rw [scanScalar, if_neg (ne_of_isAsciiDigit h rfl), if_neg (ne_of_isAsciiDigit h rfl),
    if_neg (ne_of_isAsciiDigit h rfl), if_neg (ne_of_isAsciiDigit h rfl), if_pos h]

theorem scanText_flatMap_escape (s : String) (rest : List Char) :
    scanText (s.toList.flatMap escape ++ '\x22' :: rest) = ⟨.text s, some rest⟩ := by
  simp [scanText, scanQuoted_flatMap_escape]

end Document

theorem Number.text_ne_nil (n : Number) : n.text ≠ [] := by
  cases n with
  | whole n => exact List.append_ne_nil_of_right_ne_nil _ Nat.toDigits_ne_nil
  | binary x =>
    refine List.append_ne_nil_of_right_ne_nil _ ?_
    split
    · split
      · simp
      · split <;> simp
    · simp

/-- A number that is read from its text. -/
structure Number.Legible (n : Number) (c : Char) (cs : List Char) : Prop where
  text : n.text = c :: cs
  head : c = '-' ∨ Text.isAsciiDigit c = true
  scan : ∀ rest, Document.Delimited rest →
    Document.scanScalar c (cs ++ rest) = ⟨.number n, some rest⟩

theorem Number.Legible.head_ne {n : Number} {c d : Char} {cs : List Char} (h : n.Legible c cs)
    (hd : (d == '-' || Text.isAsciiDigit d) = false) : c ≠ d := by
  rw [Bool.or_eq_false_iff, beq_eq_false_iff_ne] at hd
  rcases h.head with rfl | hdigit
  · exact hd.1.symm
  · exact Document.ne_of_isAsciiDigit hdigit hd.2

theorem Number.Legible.not_blank {n : Number} {c : Char} {cs : List Char} (h : n.Legible c cs) :
    Document.isSeparatorBlank c = false := by
  have hspace : c ≠ ' ' := h.head_ne rfl
  have hline : c ≠ '\n' := h.head_ne rfl
  have htab : c ≠ '\t' := h.head_ne rfl
  have hreturn : c ≠ '\r' := h.head_ne rfl
  simp [Document.isSeparatorBlank, hspace, hline, htab, hreturn]

theorem Number.legible_whole {n : Int} (h : (Value.number (.whole n)).FitsWord) :
    ∃ c cs, (Number.whole n).Legible c cs := by
  obtain ⟨hlow, hhigh⟩ := h
  have hword : n.natAbs < 0x10000000000000000 := by omega
  by_cases hneg : n < 0
  · have hsigned : 0 < n.natAbs ∧ n.natAbs ≤ 0x8000000000000000 := by omega
    refine ⟨'-', decimalDigits n.natAbs, by rw [text, if_pos hneg]; rfl, .inl rfl, ?_⟩
    intro rest hrest
    have hscan := Document.scanUnsigned_decimalDigits true hword hrest
    rw [Document.wholeNumber, if_neg (by simp), if_pos rfl, if_pos hsigned,
      show -(n.natAbs : Int) = n by omega] at hscan
    exact hscan
  · obtain ⟨d, ds, hds, hdigit, -⟩ := decimalDigits_eq_cons n.natAbs
    refine ⟨d, ds, by rw [text, if_neg hneg, hds]; rfl, .inr hdigit, ?_⟩
    intro rest hrest
    have hscan := Document.scanUnsigned_decimalDigits false hword hrest
    rw [Document.wholeNumber, if_neg (by simp), if_neg Bool.false_ne_true,
      show (n.natAbs : Int) = n by omega, hds] at hscan
    rw [Document.scanScalar_of_digit hdigit]
    exact hscan

namespace Document

open Value

variable {stack : List Frame} {c : Char} {cs rest : List Char} {d : Document}

theorem eq_of_dropWhile_eq_cons {first : Char} {more : List Char}
    (hblank : isSeparatorBlank c = false)
    (h : (c :: cs).dropWhile isSeparatorBlank = first :: more) : first = c ∧ more = cs := by
  rw [List.dropWhile_cons_of_neg (by simp [hblank])] at h
  obtain ⟨rfl, rfl⟩ := List.cons.inj h
  exact ⟨rfl, rfl⟩

theorem dropWhile_ne_nil (hblank : isSeparatorBlank c = false) :
    (c :: cs).dropWhile isSeparatorBlank ≠ [] := by
  rw [List.dropWhile_cons_of_neg (by simp [hblank])]
  exact List.cons_ne_nil c cs

theorem run_blank {b : Char} (h : isSeparatorBlank b = true) (stack : List Frame)
    (expect : Expect) (cs : List Char) : run stack expect (b :: cs) = run stack expect cs := by
  simp only [isSeparatorBlank, Bool.or_eq_true, decide_eq_true_eq] at h
  rw [run.eq_def, run.eq_def stack expect cs]
  rcases h with ((rfl | rfl) | rfl) | rfl <;> rfl

theorem run_blanks {blanks : List Char} (h : ∀ b ∈ blanks, isSeparatorBlank b = true)
    (stack : List Frame) (expect : Expect) (cs : List Char) :
    run stack expect (blanks ++ cs) = run stack expect cs := by
  induction blanks with
  | nil => rfl
  | cons b blanks ih =>
    obtain ⟨hb, hblanks⟩ := List.forall_mem_cons.mp h
    rw [List.cons_append, run_blank hb, ih hblanks]

theorem run_scalar (hblank : isSeparatorBlank c = false) (hlist : c ≠ '[') (hrecord : c ≠ '\x7b')
    (hscan : scanScalar c cs = ⟨d, some rest⟩) :
    run stack .value (c :: cs) = run stack (.after d) rest := by
  rw [run.eq_def]
  split
  · next h => exact absurd h (dropWhile_ne_nil hblank)
  · next h =>
    obtain ⟨rfl, rfl⟩ := eq_of_dropWhile_eq_cons hblank h
    simp only [if_neg hlist, if_neg hrecord]
    split
    · next heq => rw [hscan] at heq ⊢; cases heq; rfl
    · next heq => rw [hscan] at heq; cases heq

theorem run_list (stack : List Frame) (cs : List Char) :
    run stack .value ('[' :: cs) =
      run stack (.firstItem (depthFlaw? stack.length ('[' :: cs))) cs := by
  rw [run.eq_def]
  rfl

theorem run_firstItem (hblank : isSeparatorBlank c = false) (hend : c ≠ ']')
    (flaw? : Option Fault) :
    run stack (.firstItem flaw?) (c :: cs) = run (.list flaw? [] :: stack) .value (c :: cs) := by
  rw [run.eq_def]
  split
  · next h => exact absurd h (dropWhile_ne_nil hblank)
  · next h =>
    obtain ⟨rfl, rfl⟩ := eq_of_dropWhile_eq_cons hblank h
    exact if_neg hend

theorem run_nextItem (hblank : isSeparatorBlank c = false) (hend : c ≠ ']') :
    run stack .nextItem (c :: cs) = run stack .value (c :: cs) := by
  rw [run.eq_def]
  split
  · next h => exact absurd h (dropWhile_ne_nil hblank)
  · next h =>
    obtain ⟨rfl, rfl⟩ := eq_of_dropWhile_eq_cons hblank h
    exact if_neg hend

theorem run_listEnd (flaw? : Option Fault) :
    run stack (.firstItem flaw?) (']' :: cs) = run stack (.after (mark flaw? (.list []))) cs := by
  rw [run.eq_def]
  rfl

theorem run_itemComma (flaw? : Option Fault) (items : List Document) :
    run (.list flaw? items :: stack) (.after d) (',' :: cs) =
      run (.list flaw? (d :: items) :: stack) .nextItem cs := by
  rw [run.eq_def]
  rfl

theorem run_itemsEnd (flaw? : Option Fault) (items : List Document) :
    run (.list flaw? items :: stack) (.after d) (']' :: cs) =
      run stack (.after (Frame.close (.list flaw? items) d)) cs := by
  rw [run.eq_def]
  rfl

theorem run_record (stack : List Frame) (cs : List Char) :
    run stack .value ('\x7b' :: cs) =
      run stack (.firstKey (depthFlaw? stack.length ('\x7b' :: cs))) cs := by
  rw [run.eq_def]
  rfl

theorem run_recordEnd (flaw? : Option Fault) :
    run stack (.firstKey flaw?) ('\x7d' :: cs) =
      run stack (.after (mark flaw? (.record []))) cs := by
  rw [run.eq_def]
  rfl

theorem run_firstKey (flaw? : Option Fault) :
    run stack (.firstKey flaw?) ('\x22' :: cs) = run stack (.nextKey flaw? []) ('\x22' :: cs) := by
  rw [run.eq_def, run.eq_def stack (.nextKey flaw? [])]
  rfl

theorem run_key (flaw? : Option Fault) (fields : List (Key × Document)) (name : String) :
    run stack (.nextKey flaw? fields) (quote name cs) =
      run stack (.colon flaw? fields ⟨name, none⟩) cs := by
  have hscan := scanQuoted_flatMap_escape name.toList cs
  rw [quote, List.cons_append, run.eq_def]
  split
  · next h => exact absurd h (dropWhile_ne_nil rfl)
  · next h =>
    obtain ⟨rfl, rfl⟩ := eq_of_dropWhile_eq_cons rfl h
    simp only [if_pos]
    split
    · next heq =>
      rw [hscan] at heq
      cases heq
      rw [String.ofList_toList]
    · next heq => rw [hscan] at heq; cases heq

theorem run_colon (flaw? : Option Fault) (fields : List (Key × Document)) (key : Key) :
    run stack (.colon flaw? fields key) (':' :: cs) =
      run (.record flaw? fields key :: stack) .value cs := by
  rw [run.eq_def]
  rfl

theorem run_fieldComma (flaw? : Option Fault) (fields : List (Key × Document)) (key : Key) :
    run (.record flaw? fields key :: stack) (.after d) (',' :: cs) =
      run stack (.nextKey flaw? ((key, d) :: fields)) cs := by
  rw [run.eq_def]
  rfl

theorem run_fieldsEnd (flaw? : Option Fault) (fields : List (Key × Document)) (key : Key) :
    run (.record flaw? fields key :: stack) (.after d) ('\x7d' :: cs) =
      run stack (.after (Frame.close (.record flaw? fields key) d)) cs := by
  rw [run.eq_def]
  rfl

theorem run_end (d : Document) : run [] (.after d) [] = (d, []) := by
  rw [run.eq_def]
  rfl

end Document

namespace Value

/-- A value whose numbers are legible, with room for the lists and records inside of each other. -/
inductive Readable : Nat → Value → Prop where
  | null (room : Nat) : Readable room .null
  | bool (room : Nat) (b : Bool) : Readable room (.bool b)
  | number (room : Nat) {n : Number} {c : Char} {cs : List Char} (h : n.Legible c cs) :
      Readable room (.number n)
  | text (room : Nat) (s : String) : Readable room (.text s)
  | list {room : Nat} {items : List Value} (h : ∀ v ∈ items, Readable room v) :
      Readable (room + 1) (.list items)
  | record {room : Nat} {fields : List (String × Value)}
      (h : ∀ field ∈ fields, Readable room field.2) : Readable (room + 1) (.record fields)

/-- What stands between the parts of a container is skipped by a reader. -/
structure Style.IsBlank (style : Style) : Prop where
  gap : ∀ depth, ∀ c ∈ style.gap depth, Document.isSeparatorBlank c = true
  colonGap : ∀ c ∈ style.colonGap, Document.isSeparatorBlank c = true

theorem Style.isBlank_compact : Style.compact.IsBlank where
  gap _ := List.forall_mem_nil _
  colonGap := List.forall_mem_nil _

variable (style : Style) (depth : Nat)

theorem exists_writeItems (v : Value) (vs : List Value) (rest : List Char) :
    ∃ more, writeItems style depth (v :: vs) rest =
      style.gap (depth + 1) ++ v.write style (depth + 1) more := by
  cases vs with
  | nil => exact ⟨_, rfl⟩
  | cons w vs => exact ⟨_, rfl⟩

theorem exists_writeFields (field : String × Value) (fs : List (String × Value))
    (rest : List Char) :
    ∃ more, writeFields style depth (field :: fs) rest =
      style.gap (depth + 1) ++ '\x22' :: more := by
  cases fs with
  | nil => exact ⟨_, rfl⟩
  | cons g fs => exact ⟨_, rfl⟩

/-- No text of a value starts with a blank or with a bracket that closes. -/
theorem exists_write_cons (v : Value) (rest : List Char) :
    ∃ c cs, v.write style depth rest = c :: cs ∧ Document.isSeparatorBlank c = false ∧
      c ≠ ']' ∧ c ≠ '\x7d' := by
  cases v with
  | null | text | list | record => exact ⟨_, _, rfl, rfl, by decide, by decide⟩
  | bool b => cases b <;> exact ⟨_, _, rfl, rfl, by decide, by decide⟩
  | number n =>
    obtain ⟨c, cs, hcs⟩ := List.exists_cons_of_ne_nil n.text_ne_nil
    have hc : IsNumeral c := isNumeral_of_mem_text n c (hcs ▸ List.mem_cons_self)
    have hne {d : Char} (hd : ¬ IsNumeral d) : c ≠ d := fun heq => hd (heq ▸ hc)
    refine ⟨c, cs ++ rest, congrArg (· ++ rest) hcs, ?_, hne (by decide), hne (by decide)⟩
    simp [Document.isSeparatorBlank, hne (d := ' ') (by decide), hne (d := '\n') (by decide),
      hne (d := '\t') (by decide), hne (d := '\r') (by decide)]

end Value

namespace Document

open Value

variable {style : Style} {stack : List Frame} {rest : List Char} {room depth : Nat} {v : Value}

/-- A value is taken for itself wherever there is room for it and its text ends. -/
def ReadsBack (style : Style) (room : Nat) (v : Value) : Prop :=
  ∀ (depth : Nat) (stack : List Frame) (rest : List Char), stack.length + room ≤ maxDepth →
    Delimited rest →
      run stack .value (v.write style depth rest) = run stack (.after (ofValue v)) rest

theorem run_items (hstyle : style.IsBlank) {vs : List Value} {done : List Document}
    (hroom : stack.length + 1 + room ≤ maxDepth)
    (hvs : ∀ w ∈ v :: vs, ReadsBack style room w) :
    run (.list none done :: stack) .value (writeItems style depth (v :: vs) (']' :: rest)) =
      run stack (.after (.list (done.reverse ++ ofItems (v :: vs)))) rest := by
  have hfront := run_blanks (hstyle.gap (depth + 1))
  have hv := hvs v List.mem_cons_self
  -- The items that are read already are on the stack, so they vary in the induction.
  induction vs generalizing v done with
  | nil =>
    have hend : Delimited (style.gap depth ++ ']' :: rest) :=
      delimited_append (hstyle.gap depth) (delimited_cons (by decide) rest)
    rw [writeItems, hfront, hv _ (_ :: stack) _ hroom hend, run_blanks (hstyle.gap depth),
      run_itemsEnd]
    simp only [Frame.close, mark, List.reverse_cons, ofItems]
  | cons w vs ih =>
    have hrest : ∀ u ∈ w :: vs, ReadsBack style room u := fun u hu =>
      hvs u (List.mem_cons_of_mem _ hu)
    obtain ⟨more, hmore⟩ := exists_writeItems style depth w vs (']' :: rest)
    obtain ⟨c, cs, hcs, hblank, hend, -⟩ := exists_write_cons style (depth + 1) w more
    have hrun : run (.list none (ofValue v :: done) :: stack) .value
        (writeItems style depth (w :: vs) (']' :: rest)) =
          run stack (.after (.list ((ofValue v :: done).reverse ++ ofItems (w :: vs)))) rest :=
      ih hrest (hrest w List.mem_cons_self)
    rw [writeItems, hfront, hv _ (_ :: stack) _ hroom (delimited_cons (by decide) _),
      run_itemComma]
    rw [hmore, hcs, hfront] at hrun ⊢
    rw [run_nextItem hblank hend, hrun, List.reverse_cons, List.append_assoc]
    rfl

theorem run_fields (hstyle : style.IsBlank) {field : String × Value}
    {fs : List (String × Value)} {done : List (Key × Document)}
    (hroom : stack.length + 1 + room ≤ maxDepth)
    (hfields : ∀ g ∈ field :: fs, ReadsBack style room g.2) :
    run stack (.nextKey none done) (writeFields style depth (field :: fs) ('\x7d' :: rest)) =
      run stack (.after (.record (done.reverse ++ ofFields (field :: fs)))) rest := by
  have hfront := run_blanks (hstyle.gap (depth + 1))
  have hcolon := run_blanks hstyle.colonGap
  have hfield := hfields field List.mem_cons_self
  induction fs generalizing field done with
  | nil =>
    have hend : Delimited (style.gap depth ++ '\x7d' :: rest) :=
      delimited_append (hstyle.gap depth) (delimited_cons (by decide) rest)
    rw [writeFields, hfront, run_key, List.cons_append, run_colon, hcolon,
      hfield _ (_ :: stack) _ hroom hend, run_blanks (hstyle.gap depth), run_fieldsEnd]
    simp only [Frame.close, mark, List.reverse_cons, ofFields]
  | cons g fs ih =>
    have hrest : ∀ u ∈ g :: fs, ReadsBack style room u.2 := fun u hu =>
      hfields u (List.mem_cons_of_mem _ hu)
    rw [writeFields, hfront, run_key, List.cons_append, run_colon, hcolon,
      hfield _ (_ :: stack) _ hroom (delimited_cons (by decide) _), run_fieldComma,
      ih hrest (hrest g List.mem_cons_self), List.reverse_cons, List.append_assoc]
    rfl

theorem depthFlaw?_of_lt {depth : Nat} (h : depth < maxDepth) (cs : List Char) :
    depthFlaw? depth cs = none :=
  if_neg (Nat.not_le.mpr h)

theorem readsBack_list (hstyle : style.IsBlank) {items : List Value}
    (h : ∀ v ∈ items, ReadsBack style room v) : ReadsBack style (room + 1) (.list items) := by
  intro depth stack rest hroom _
  rw [write, run_list, depthFlaw?_of_lt (by omega)]
  cases items with
  | nil => exact run_listEnd none
  | cons v vs =>
    obtain ⟨more, hmore⟩ := exists_writeItems style depth v vs (']' :: rest)
    obtain ⟨c, cs, hcs, hblank, hend, -⟩ := exists_write_cons style (depth + 1) v more
    have hrun : run (.list none [] :: stack) .value
        (writeItems style depth (v :: vs) (']' :: rest)) =
          run stack (.after (ofValue (.list (v :: vs)))) rest :=
      run_items hstyle (by omega) h
    rw [hmore, hcs, run_blanks (hstyle.gap (depth + 1))] at hrun ⊢
    rw [run_firstItem hblank hend, hrun]

theorem readsBack_record (hstyle : style.IsBlank) {fields : List (String × Value)}
    (h : ∀ field ∈ fields, ReadsBack style room field.2) :
    ReadsBack style (room + 1) (.record fields) := by
  intro depth stack rest hroom _
  rw [write, run_record, depthFlaw?_of_lt (by omega)]
  cases fields with
  | nil => exact run_recordEnd none
  | cons field fs =>
    obtain ⟨more, hmore⟩ := exists_writeFields style depth field fs ('\x7d' :: rest)
    have hrun : run stack (.nextKey none [])
        (writeFields style depth (field :: fs) ('\x7d' :: rest)) =
          run stack (.after (ofValue (.record (field :: fs)))) rest :=
      run_fields hstyle (by omega) h
    rw [hmore, run_blanks (hstyle.gap (depth + 1))] at hrun ⊢
    rw [run_firstKey, hrun]

theorem readsBack (hstyle : style.IsBlank) (h : v.Readable room) : ReadsBack style room v := by
  -- Only a number depends on what stands behind it: its text has no end of its own.
  induction h with
  | null =>
    exact fun _ _ rest _ _ => run_scalar rfl (by decide) (by decide) (scanWord_append _ _ rest)
  | bool _ b =>
    intro _ _ rest _ _
    cases b <;> exact run_scalar rfl (by decide) (by decide) (scanWord_append _ _ rest)
  | number _ h =>
    intro _ _ rest _ hrest
    rw [write, h.text]
    exact run_scalar h.not_blank (h.head_ne rfl) (h.head_ne rfl) (h.scan rest hrest)
  | text _ s =>
    exact fun _ _ rest _ _ =>
      run_scalar rfl (by decide) (by decide) (scanText_flatMap_escape s rest)
  | list _ ih => exact readsBack_list hstyle ih
  | record _ ih => exact readsBack_record hstyle ih

theorem read_write (hstyle : style.IsBlank) (h : v.Readable room) (hroom : room ≤ maxDepth) :
    read (v.write style 0 []) = (ofValue v, none) := by
  have hrun := readsBack hstyle h 0 [] [] (by simpa using hroom) nofun
  rw [run_end] at hrun
  simp only [read, hrun]
  rfl

/-- A value that is not nested too deep is read back from its text. -/
theorem read_toText (h : v.Readable room) (hroom : room ≤ maxDepth) :
    read v.toText.toList = (ofValue v, none) := by
  rw [toText, String.toList_ofList]
  exact read_write Style.isBlank_compact h hroom

end Document

end FilterChain
