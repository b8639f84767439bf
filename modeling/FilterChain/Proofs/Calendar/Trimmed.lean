import FilterChain.Proofs.Calendar.Readings
import FilterChain.Proofs.Number.Digits
import FilterChain.Proofs.Text.Trimming

/-!
# Readings of trimmed texts

A number at the front of a text ends where its width or the digits end, and blanks behind it end
it as well as nothing does. So along a layout without words a trimmed text has the same readings.
-/

namespace FilterChain.Calendar

open Text

/-- Whether a number of at most `width` digits stands in front of the rest of a text. -/
structure IsNumberBefore (width : Nat) (ds rest : List Char) : Prop where
  ne_nil : ds ≠ []
  digits : ∀ d ∈ ds, isAsciiDigit d = true
  length_le : ds.length ≤ width
  ends : ds.length = width ∨ ∀ c, rest.head? = some c → isAsciiDigit c = false

variable {width : Nat} {ds rest cs : List Char} {n : Nat}

theorem IsNumberBefore.isAsciiDigit_of_head? (h : IsNumberBefore width ds rest) {c : Char}
    (hc : (ds ++ rest).head? = some c) : isAsciiDigit c = true := by
  rw [List.head?_append_of_ne_nil _ h.ne_nil] at hc
  exact h.digits c (List.mem_of_head? hc)

theorem takeWhile_take_of_isNumberBefore (h : IsNumberBefore width ds rest) :
    ((ds ++ rest).take width).takeWhile isAsciiDigit = ds := by
  rw [← List.take_takeWhile]
  rcases h.ends with hlength | hend
  · rw [List.takeWhile_append_of_pos h.digits, List.take_left' hlength]
  · rw [(takeWhile_digits_append h.digits hend).1, List.take_of_length_le h.length_le]

theorem readNumber?_append (h : IsNumberBefore width ds rest) :
    readNumber? width (ds ++ rest) = some (digitsValue ds, rest) := by
  rw [readNumber?, takeWhile_take_of_isNumberBefore h, if_neg h.ne_nil, List.drop_left]

theorem exists_of_readNumber? (h : readNumber? width cs = some (n, rest)) :
    ∃ ds, cs = ds ++ rest ∧ IsNumberBefore width ds rest ∧ n = digitsValue ds := by
  obtain ⟨ds, hds⟩ : ∃ ds, ds = (cs.takeWhile isAsciiDigit).take width := ⟨_, rfl⟩
  rw [readNumber?, ← List.take_takeWhile, ← hds] at h
  split at h
  · cases h
  · next hne =>
    obtain ⟨rfl, rfl⟩ := Prod.mk.inj (Option.some.inj h)
    have hsplit : cs = ds ++ cs.drop ds.length := by
      obtain ⟨more, hmore⟩ := (List.take_prefix width _).trans
        (List.takeWhile_prefix (l := cs) isAsciiDigit)
      rw [← hds] at hmore
      rw [← hmore, List.drop_left]
    refine ⟨ds, hsplit, ⟨hne, ?_, ?_, ?_⟩, rfl⟩
    · intro d hd
      rw [hds] at hd
      exact all_takeWhile_digits cs d (List.mem_of_mem_take hd)
    · rw [hds]
      exact List.length_take_le _ _
    · by_cases hwidth : width ≤ (cs.takeWhile isAsciiDigit).length
      · exact Or.inl (by rw [hds, List.length_take_of_le hwidth])
      · rw [List.take_of_length_le (by omega)] at hds
        have hdrop : cs.dropWhile isAsciiDigit = cs.drop ds.length :=
          List.append_cancel_left (List.takeWhile_append_dropWhile.trans (hds ▸ hsplit))
        exact Or.inr fun c hc => not_of_head?_dropWhile (hdrop ▸ hc)

theorem IsNumberBefore.dropWhile_isBlank (h : IsNumberBefore width ds rest) :
    (ds ++ rest).dropWhile isBlank = ds ++ rest :=
  dropWhile_of_head? fun _ hc => isBlank_of_isAsciiDigit (h.isAsciiDigit_of_head? hc)

theorem IsNumberBefore.trimEndBy (h : IsNumberBefore width ds rest) :
    IsNumberBefore width ds (trimEndBy isBlank rest) :=
  { h with ends := h.ends.imp_right fun hend c hc => hend c (head?_of_head?_trimEndBy hc) }

theorem IsNumberBefore.trimEndBy_append (h : IsNumberBefore width ds rest) :
    Text.trimEndBy isBlank (ds ++ rest) = ds ++ Text.trimEndBy isBlank rest :=
  trimEndBy_append_of_not (fun d hd => isBlank_of_isAsciiDigit (h.digits d hd)) rest

theorem readNumber?_trimEndBy (h : readNumber? width cs = some (n, rest)) :
    readNumber? width (trimEndBy isBlank cs) = some (n, trimEndBy isBlank rest) := by
  obtain ⟨ds, rfl, hnumber, rfl⟩ := exists_of_readNumber? h
  rw [hnumber.trimEndBy_append, readNumber?_append hnumber.trimEndBy]

/-- The width is the length of the text here, so it shrinks together with the text. -/
theorem readDigits?_trimEndBy (h : readDigits? cs = some (n, rest)) :
    readDigits? (trimEndBy isBlank cs) = some (n, trimEndBy isBlank rest) := by
  obtain ⟨ds, rfl, hnumber, rfl⟩ := exists_of_readNumber? h
  rw [hnumber.trimEndBy_append]
  refine readNumber?_append { hnumber.trimEndBy with length_le := ?_, ends := ?_ }
  · rw [List.length_append]
    omega
  · refine hnumber.trimEndBy.ends.imp_left fun hlength => ?_
    have hrest : rest = [] := by
      rw [List.length_append] at hlength
      exact List.length_eq_zero_iff.mp (by omega)
    rw [hrest]
    exact (congrArg List.length (List.append_nil ds)).symm

theorem readYear?_of_unsigned (h : ∀ c, cs.head? = some c → c ≠ '-' ∧ c ≠ '+') :
    readYear? cs = (readNumber? 4 cs).map fun (n, rest) => ((n : Int), rest) := by
  unfold readYear?
  split
  · exact absurd rfl (h '-' rfl).1
  · exact absurd rfl (h '+' rfl).2
  · rfl

theorem readYear?_trimEndBy {year : Int} (h : readYear? cs = some (year, rest)) :
    readYear? (trimEndBy isBlank cs) = some (year, trimEndBy isBlank rest) := by
  unfold readYear? at h
  split at h
  case h_1 r =>
    obtain ⟨⟨n, rest⟩, hread, hyear⟩ := Option.map_eq_some_iff.mp h
    obtain ⟨rfl, rfl⟩ := Prod.mk.inj hyear
    rw [trimEndBy_cons_of_not (by decide), readYear?, readDigits?_trimEndBy hread]
    rfl
  case h_2 r =>
    obtain ⟨⟨n, rest⟩, hread, hyear⟩ := Option.map_eq_some_iff.mp h
    obtain ⟨rfl, rfl⟩ := Prod.mk.inj hyear
    rw [trimEndBy_cons_of_not (by decide), readYear?, readDigits?_trimEndBy hread]
    rfl
  case h_3 hminus hplus =>
    obtain ⟨⟨n, rest⟩, hread, hyear⟩ := Option.map_eq_some_iff.mp h
    obtain ⟨rfl, rfl⟩ := Prod.mk.inj hyear
    rw [readYear?_of_unsigned, readNumber?_trimEndBy hread]
    · rfl
    · intro c hc
      obtain ⟨r, rfl⟩ := List.head?_eq_some_iff.mp (head?_of_head?_trimEndBy hc)
      exact ⟨fun heq => hminus r (heq ▸ rfl), fun heq => hplus r (heq ▸ rfl)⟩

def Field.isNumber : Field → Bool
  | .day | .month | .year | .yearOfCentury | .hour | .hour12 | .minute | .second | .timestamp =>
    true
  | .upperMeridiem | .lowerMeridiem | .shortWeekday | .longWeekday | .shortMonth | .longMonth =>
    false

def Item.IsWordless : Item → Prop
  | .literal c => isBlank c = false
  | .blank c => isBlank c = true
  | .field named _ => named.isNumber = true
  | .invalid => False

variable {field : Field} {is : List Item} {rs : List Reading} {value : Int}

theorem Field.scan?_dropWhile (h : field.isNumber = true) (cs : List Char) :
    field.scan? (cs.dropWhile isBlank) = field.scan? cs := by
  cases field
  case upperMeridiem | lowerMeridiem | shortWeekday | longWeekday | shortMonth | longMonth =>
    cases h
  all_goals
    unfold scan?
    rw [List.dropWhile_idempotent]

theorem Field.scan?_trimEndBy (hnumber : field.isNumber = true)
    (h : field.scan? cs = some (value, rest)) :
    field.scan? (trimEndBy isBlank cs) = some (value, trimEndBy isBlank rest) := by
  cases field
  case upperMeridiem | lowerMeridiem | shortWeekday | longWeekday | shortMonth | longMonth =>
    cases hnumber
  case year =>
    rw [scan?, dropWhile_trimEndBy]
    exact readYear?_trimEndBy h
  case timestamp =>
    obtain ⟨⟨n, rest⟩, hread, hvalue⟩ := Option.map_eq_some_iff.mp h
    obtain ⟨rfl, rfl⟩ := Prod.mk.inj hvalue
    rw [scan?, dropWhile_trimEndBy, readDigits?_trimEndBy hread]
    rfl
  all_goals
    obtain ⟨⟨n, rest⟩, hread, hvalue⟩ := Option.map_eq_some_iff.mp h
    obtain ⟨rfl, rfl⟩ := Prod.mk.inj hvalue
    rw [scan?, dropWhile_trimEndBy, readNumber?_trimEndBy hread]
    rfl

theorem readings?_dropWhile (his : ∀ item ∈ is, item.IsWordless) (h : readings? is cs = some rs) :
    readings? is (cs.dropWhile isBlank) = some rs := by
  cases is with
  | nil =>
    cases cs with
    | nil => exact h
    | cons c cs => cases h
  | cons item is =>
    have hitem := his item List.mem_cons_self
    cases item with
    | invalid => cases hitem
    | blank c =>
      rw [readings?, List.dropWhile_idempotent]
      exact h
    | field field padded =>
      rw [readings?, Field.scan?_dropWhile hitem]
      exact h
    | literal c =>
      cases cs with
      | nil => cases h
      | cons d cs =>
        rw [List.dropWhile_cons_of_neg]
        · exact h
        · rw [readings?] at h
          split at h
          · next heq =>
            rw [← heq, show isBlank c = false from hitem]
            exact Bool.false_ne_true
          · cases h

theorem readings?_trimEndBy (his : ∀ item ∈ is, item.IsWordless)
    (h : readings? is cs = some rs) : readings? is (trimEndBy isBlank cs) = some rs := by
  fun_induction readings? is cs generalizing rs with
  | case1 => exact h
  | case3 is d cs ih =>
    obtain ⟨hitem, his⟩ := List.forall_mem_cons.mp his
    rw [trimEndBy_cons_of_not hitem, readings?, if_pos rfl]
    exact ih his h
  | case6 c is cs ih =>
    obtain ⟨-, his⟩ := List.forall_mem_cons.mp his
    rw [readings?, dropWhile_trimEndBy]
    exact ih his h
  | case7 field padded is cs n rest hscan ih =>
    obtain ⟨hitem, his⟩ := List.forall_mem_cons.mp his
    obtain ⟨rs, hrs, rfl⟩ := Option.map_eq_some_iff.mp h
    rw [readings?, Field.scan?_trimEndBy hitem hscan]
    show (readings? is (trimEndBy isBlank rest)).map _ = _
    rw [ih his hrs]
    rfl
  | case2 | case4 | case5 | case8 | case9 => cases h

/-- Along a layout without words, blanks around a text make no difference. -/
theorem readings?_trimBy (his : ∀ item ∈ is, item.IsWordless) (h : readings? is cs = some rs) :
    readings? is (trimBy isBlank cs) = some rs :=
  readings?_trimEndBy his (readings?_dropWhile his h)

end FilterChain.Calendar
