import FilterChain.Document.Reader
import FilterChain.Proofs.Number.Rounding

/-!
# The numbers of documents

A literal of digits alone that fits a signed or an unsigned machine word is a whole number, and
every other number of a document is a binary one.
-/

namespace FilterChain

namespace Value

/-- A value that is no whole number beyond a machine word, as no value of a document is. -/
def FitsWord : Value → Prop
  | .number (.whole n) => -0x8000000000000000 ≤ n ∧ n ≤ 0xFFFFFFFFFFFFFFFF
  | _ => True

end Value

theorem Number.exists_toBinary?_eq_some {n : Number} (h : (Value.number n).FitsWord) :
    ∃ x, n.toBinary? = some x := by
  cases n with
  | binary x => exact ⟨x, rfl⟩
  | whole n =>
    have hword : n.natAbs ≤ 0xFFFFFFFFFFFFFFFF := by
      obtain ⟨hlow, hhigh⟩ := h
      omega
    have hoverflow : 0xFFFFFFFFFFFFFFFF < Binary64.overflow := by decide +kernel
    exact Option.isSome_iff_exists.mp (Binary64.isSome_ofInt?_of_lt (hword.trans_lt hoverflow))

namespace Document

def FitsWord (document : Document) : Prop :=
  ∀ n, document = .number n → (Value.number n).FitsWord

theorem fitsWord_decimalNumber (negative : Bool) (word : Nat) (power : Int) (tooLarge : Fault) :
    (decimalNumber negative word power tooLarge).FitsWord := by
  intro n h
  unfold decimalNumber at h
  split at h
  · cases h
    trivial
  · cases h

theorem fitsWord_wholeNumber (negative : Bool) (whole : Significand) (tooLarge : Fault) :
    (wholeNumber negative whole tooLarge).FitsWord := by
  have hword := whole.fits
  unfold wholeNumber
  split
  · exact fitsWord_decimalNumber _ _ _ _
  split
  · split
    · next hsigned =>
      rintro n ⟨⟩
      exact ⟨by omega, by omega⟩
    · exact fitsWord_decimalNumber _ _ _ _
  · rintro n ⟨⟩
    exact ⟨by omega, by omega⟩

theorem fitsWord_broken (cause : Cause) (ahead : Nat) (rest : List Char) :
    (Scan.broken cause ahead rest).document.FitsWord := by
  intro n h
  cases h

theorem fitsWord_scanPower (negative : Bool) (word : Nat) (power sign : Int) (cs : List Char) :
    (scanPower negative word power sign cs).document.FitsWord := by
  unfold scanPower
  split
  · exact fitsWord_broken _ _ _
  · split
    · exact fitsWord_decimalNumber _ _ _ _
    · exact fitsWord_broken _ _ _

theorem fitsWord_scanExponent (negative : Bool) (word : Nat) (power : Int) (cs : List Char) :
    (scanExponent negative word power cs).document.FitsWord := by
  unfold scanExponent
  split <;> exact fitsWord_scanPower _ _ _ _ _

theorem fitsWord_scanFraction (negative : Bool) (digits cs : List Char) :
    (scanFraction negative digits cs).document.FitsWord := by
  unfold scanFraction
  split
  · dsimp only
    split
    · exact fitsWord_broken _ _ _
    · split
      · exact fitsWord_scanExponent _ _ _ _
      · exact fitsWord_scanExponent _ _ _ _
      · exact fitsWord_decimalNumber _ _ _ _
  · exact fitsWord_scanExponent _ _ _ _
  · exact fitsWord_scanExponent _ _ _ _
  · exact fitsWord_wholeNumber _ _ _

theorem fitsWord_scanUnsigned (negative : Bool) (cs : List Char) :
    (scanUnsigned negative cs).document.FitsWord := by
  unfold scanUnsigned
  split
  · exact fitsWord_broken _ _ _
  · split
    · exact fitsWord_scanFraction _ _ _
    · split
      · exact fitsWord_broken _ _ _
      · exact fitsWord_scanFraction _ _ _
  · split
    · exact fitsWord_scanFraction _ _ _
    · exact fitsWord_broken _ _ _

theorem fitsWord_scanWord {document : Document} (h : document.FitsWord) (word cs : List Char) :
    (scanWord document word cs).document.FitsWord := by
  fun_induction scanWord document word cs with
  | case1 => exact h
  | case2 => exact fitsWord_broken _ _ _
  | case3 _ _ _ ih => exact ih
  | case4 => exact fitsWord_broken _ _ _

theorem fitsWord_scanText (cs : List Char) : (scanText cs).document.FitsWord := by
  intro n h
  unfold scanText at h
  dsimp only at h
  split at h <;> dsimp only at h <;> split at h <;> cases h

theorem fitsWord_scanScalar (c : Char) (cs : List Char) :
    (scanScalar c cs).document.FitsWord := by
  unfold scanScalar
  split
  · exact fitsWord_scanWord (by rintro n ⟨⟩) _ _
  split
  · exact fitsWord_scanWord (by rintro n ⟨⟩) _ _
  split
  · exact fitsWord_scanWord (by rintro n ⟨⟩) _ _
  split
  · exact fitsWord_scanUnsigned _ _
  split
  · exact fitsWord_scanUnsigned _ _
  split
  · exact fitsWord_scanText _
  · exact fitsWord_broken _ _ _

theorem fitsWord_mark {flaw? : Option Fault} {document : Document} (h : document.FitsWord) :
    (mark flaw? document).FitsWord := by
  unfold mark
  split
  · rintro n ⟨⟩
  · exact h

theorem fitsWord_close (frame : Frame) (document : Document) :
    (frame.close document).FitsWord := by
  cases frame <;> exact fitsWord_mark (by rintro n ⟨⟩)

theorem fitsWord_closeAll (stack : List Frame) {document : Document} (h : document.FitsWord) :
    (closeAll stack document).FitsWord := by
  rw [closeAll]
  induction stack generalizing document with
  | nil => exact h
  | cons frame stack ih => exact ih (fitsWord_close frame document)

theorem fitsWord_cutShort (stack : List Frame) (cause : Cause) (rest : List Char) :
    (cutShort stack cause rest).1.FitsWord :=
  fitsWord_closeAll stack (by rintro n ⟨⟩)

def Expect.FitsWord : Expect → Prop
  | .after document => document.FitsWord
  | _ => True

theorem fitsWord_run {stack : List Frame} {expect : Expect} {cs : List Char}
    (h : expect.FitsWord) : (run stack expect cs).1.FitsWord := by
  fun_induction run stack expect cs
  -- the text ends
  case case1 | case20 => exact h
  case case2 | case9 | case14 | case17 | case19 | case23 | case26 => exact fitsWord_cutShort _ _ _
  case case6 => exact fitsWord_closeAll _ (fitsWord_scanScalar _ _)
  case case13 | case16 => exact fitsWord_closeAll _ (by rintro n ⟨⟩)
  -- a scalar or a container is complete
  case case5 ih => exact ih (fitsWord_scanScalar _ _)
  case case7 ih | case11 ih => exact ih (fitsWord_mark (by rintro n ⟨⟩))
  case case22 ih | case25 ih => exact ih (fitsWord_close _ _)
  all_goals
    next ih => exact ih trivial

theorem eq_number_of_toValue {document : Document} {n : Number}
    (h : document.toValue = .ok (.number n)) : document = .number n := by
  cases document with
  | number m => cases h; rfl
  | list items =>
    rw [toValue] at h
    cases hitems : itemValues items <;> rw [hitems] at h <;> cases h
  | record fields =>
    rw [toValue] at h
    cases hfields : fieldValues fields <;> rw [hfields] at h <;> cases h
  | null | bool | text | flawed | cut => cases h

theorem fst_read (cs : List Char) : (read cs).1 = (run [] .value cs).1 := by
  unfold read
  dsimp only
  split <;> rfl

end Document

theorem Value.toValue_of_read {s : String} {v : Value} (h : Value.read s = .ok v) :
    (Document.read s.toList).1.toValue = .ok v := by
  rw [Value.read] at h
  cases hvalue : (Document.read s.toList).1.toValue with
  | error fault =>
    simp only [hvalue, bind, Except.bind] at h
    cases h
  | ok w =>
    simp only [hvalue, bind, Except.bind] at h
    split at h
    · cases h
    · rw [Except.ok.inj h]

/-- No whole number that is read from a text lies beyond a machine word. -/
theorem Value.fitsWord_of_read {s : String} {v : Value} (h : Value.read s = .ok v) :
    v.FitsWord := by
  have hvalue := Value.toValue_of_read h
  have hrun : (Document.run [] .value s.toList).1.FitsWord := Document.fitsWord_run trivial
  rw [Document.fst_read] at hvalue
  cases v with
  | number n => exact hrun n (Document.eq_number_of_toValue hvalue)
  | null | bool | text | list | record => trivial

end FilterChain
