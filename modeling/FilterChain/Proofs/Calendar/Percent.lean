import FilterChain.Text.Blank
import Mathlib.Data.List.Basic

/-!
# Percent notation at large

Layouts are spelled in a part of percent notation only. The whole of it has many more directives: a
percent sign may be followed by a padding, which replaces that of a single number, and by one or
several characters that stand for a number, a word or a group of them. What starts no directive is
invalid. All other characters are taken in runs, blanks apart from the rest.
-/

namespace FilterChain.Calendar.Percent

inductive Padding where
  | none
  | zero
  | space
  deriving DecidableEq, Repr

inductive NumberKind where
  | year
  | century
  | yearOfCentury
  | isoYear
  | isoYearOfCentury
  | quarter
  | month
  | day
  | weekFromSunday
  | weekFromMonday
  | isoWeek
  | weekdayFromSunday
  | weekdayFromMonday
  | dayOfYear
  | hour
  | hour12
  | minute
  | second
  | nanosecond
  | timestamp
  deriving DecidableEq, Repr

/-- What is not written as a plain number. A fraction of a second has a fixed number of digits or
as many as it needs, and the offset of a time zone has colons between none or some of its parts. -/
inductive WordKind where
  | shortMonth
  | longMonth
  | shortWeekday
  | longWeekday
  | lowerMeridiem
  | upperMeridiem
  | fraction (pointed : Bool) (digits? : Option Nat)
  | zoneName
  | zoneOffset (colons : Nat)
  | looseZoneOffset
  | internetTime
  deriving DecidableEq, Repr

inductive Token where
  | text (run : List Char)
  | blanks (run : List Char)
  | number (kind : NumberKind) (padding : Padding)
  | word (kind : WordKind)
  | invalid
  deriving DecidableEq, Repr

def clockTokens : List Token :=
  [.number .hour .zero, .text [':'], .number .minute .zero, .text [':'], .number .second .zero]

def shortDateTokens : List Token :=
  [.number .month .zero, .text ['/'], .number .day .zero, .text ['/'],
    .number .yearOfCentury .zero]

def letterDirectives : List (Char × List Token) :=
  [('%', [.text ['%']]), ('n', [.blanks ['\n']]), ('t', [.blanks ['\t']]),
    ('Y', [.number .year .zero]), ('C', [.number .century .zero]),
    ('y', [.number .yearOfCentury .zero]), ('G', [.number .isoYear .zero]),
    ('g', [.number .isoYearOfCentury .zero]), ('q', [.number .quarter .none]),
    ('m', [.number .month .zero]), ('d', [.number .day .zero]), ('e', [.number .day .space]),
    ('j', [.number .dayOfYear .zero]), ('U', [.number .weekFromSunday .zero]),
    ('W', [.number .weekFromMonday .zero]), ('V', [.number .isoWeek .zero]),
    ('w', [.number .weekdayFromSunday .none]), ('u', [.number .weekdayFromMonday .none]),
    ('H', [.number .hour .zero]), ('k', [.number .hour .space]),
    ('I', [.number .hour12 .zero]), ('l', [.number .hour12 .space]),
    ('M', [.number .minute .zero]), ('S', [.number .second .zero]),
    ('f', [.number .nanosecond .zero]), ('s', [.number .timestamp .none]),
    ('b', [.word .shortMonth]), ('h', [.word .shortMonth]), ('B', [.word .longMonth]),
    ('a', [.word .shortWeekday]), ('A', [.word .longWeekday]), ('P', [.word .lowerMeridiem]),
    ('p', [.word .upperMeridiem]), ('Z', [.word .zoneName]), ('z', [.word (.zoneOffset 0)]),
    ('+', [.word .internetTime]),
    ('D', shortDateTokens), ('x', shortDateTokens), ('T', clockTokens), ('X', clockTokens),
    ('R', [.number .hour .zero, .text [':'], .number .minute .zero]),
    ('F', [.number .year .zero, .text ['-'], .number .month .zero, .text ['-'],
      .number .day .zero]),
    ('v', [.number .day .space, .text ['-'], .word .shortMonth, .text ['-'],
      .number .year .zero]),
    ('r', [.number .hour12 .zero, .text [':'], .number .minute .zero, .text [':'],
      .number .second .zero, .blanks [' '], .word .upperMeridiem]),
    ('c', [.word .shortWeekday, .blanks [' '], .word .shortMonth, .blanks [' '],
      .number .day .space, .blanks [' ']] ++ clockTokens ++ [.blanks [' '], .number .year .zero])]

def fixedFraction (pointed : Bool) (digits : Nat) : List Char → List Token × List Char
  | [] => ([.invalid], [])
  | 'f' :: cs => ([.word (.fraction pointed (some digits))], cs)
  | _ :: cs => ([.invalid], cs)

def pointedFraction : List Char → List Token × List Char
  | [] => ([.invalid], [])
  | 'f' :: cs => ([.word (.fraction true none)], cs)
  | '3' :: cs => fixedFraction true 3 cs
  | '6' :: cs => fixedFraction true 6 cs
  | '9' :: cs => fixedFraction true 9 cs
  | _ :: cs => ([.invalid], cs)

def colonOffset : List Char → List Token × List Char
  | 'z' :: cs => ([.word (.zoneOffset 1)], cs)
  | ':' :: 'z' :: cs => ([.word (.zoneOffset 2)], cs)
  | ':' :: ':' :: 'z' :: cs => ([.word (.zoneOffset 3)], cs)
  | cs => ([.invalid], cs)

def unpadded : List Char → List Token × List Char
  | [] => ([.invalid], [])
  | ':' :: cs => colonOffset cs
  | '.' :: cs => pointedFraction cs
  | '3' :: cs => fixedFraction false 3 cs
  | '6' :: cs => fixedFraction false 6 cs
  | '9' :: cs => fixedFraction false 9 cs
  | c :: cs => ((letterDirectives.lookup c).getD [.invalid], cs)

/-- Only a number that stands alone can have another padding. -/
def repad (padding : Padding) : List Token → List Token
  | [.number kind _] => [.number kind padding]
  | [] => [.invalid]
  | _ :: others => .invalid :: others

def directive : List Char → List Token × List Char
  | '-' :: cs => (unpadded cs).map (repad .none) id
  | '0' :: cs => (unpadded cs).map (repad .zero) id
  | '_' :: cs => (unpadded cs).map (repad .space) id
  | ['#'] => ([.invalid], [])
  | '#' :: c :: cs => ([if c = 'z' then .word .looseZoneOffset else .invalid], cs)
  | cs => unpadded cs

theorem length_fixedFraction_le (pointed : Bool) (digits : Nat) (cs : List Char) :
    (fixedFraction pointed digits cs).2.length ≤ cs.length := by
  unfold fixedFraction
  split <;> simp

theorem length_pointedFraction_le (cs : List Char) :
    (pointedFraction cs).2.length ≤ cs.length := by
  unfold pointedFraction
  split
  case h_3 | h_4 | h_5 => exact Nat.le_succ_of_le (length_fixedFraction_le _ _ _)
  all_goals simp

theorem length_colonOffset_le (cs : List Char) : (colonOffset cs).2.length ≤ cs.length := by
  unfold colonOffset
  split <;> simp <;> omega

theorem length_unpadded_le (cs : List Char) : (unpadded cs).2.length ≤ cs.length := by
  unfold unpadded
  split
  case h_2 => exact Nat.le_succ_of_le (length_colonOffset_le _)
  case h_3 => exact Nat.le_succ_of_le (length_pointedFraction_le _)
  case h_4 | h_5 | h_6 => exact Nat.le_succ_of_le (length_fixedFraction_le _ _ _)
  all_goals simp

theorem length_directive_le (cs : List Char) : (directive cs).2.length ≤ cs.length := by
  unfold directive
  split
  case h_1 | h_2 | h_3 => exact Nat.le_succ_of_le (length_unpadded_le _)
  case h_4 => simp
  case h_5 => exact Nat.le_add_right _ 2
  case h_6 => exact length_unpadded_le _

def isPlain (c : Char) : Bool :=
  !Text.isBlank c && c != '%'

theorem length_dropWhile_le (p : Char → Bool) (cs : List Char) :
    (cs.dropWhile p).length ≤ cs.length :=
  (List.dropWhile_sublist p).length_le

def tokens : List Char → List Token
  | [] => []
  | c :: cs =>
    if c = '%' then (directive cs).1 ++ tokens (directive cs).2
    else if Text.isBlank c then
      .blanks (c :: cs.takeWhile Text.isBlank) :: tokens (cs.dropWhile Text.isBlank)
    else .text (c :: cs.takeWhile isPlain) :: tokens (cs.dropWhile isPlain)
termination_by cs => cs.length
decreasing_by
  · exact Nat.lt_succ_of_le (length_directive_le cs)
  · exact Nat.lt_succ_of_le (length_dropWhile_le _ cs)
  · exact Nat.lt_succ_of_le (length_dropWhile_le _ cs)

def Token.split : Token → List Token
  | .text run => run.map fun c => .text [c]
  | .blanks run => run.map fun c => .blanks [c]
  | token => [token]

/-- The tokens of a text, with runs of characters taken apart. -/
def pieces (cs : List Char) : List Token :=
  (tokens cs).flatMap Token.split

theorem pieces_nil : pieces [] = [] := by
  rw [pieces, tokens]
  rfl

theorem pieces_directive (cs : List Char) :
    pieces ('%' :: cs) = (directive cs).1.flatMap Token.split ++ pieces (directive cs).2 := by
  rw [pieces, tokens, if_pos rfl, List.flatMap_append]
  rfl

variable {c : Char} {cs : List Char}

theorem tokens_blank (h : Text.isBlank c = true) : tokens (c :: cs) =
    .blanks (c :: cs.takeWhile Text.isBlank) :: tokens (cs.dropWhile Text.isBlank) := by
  have hpercent : c ≠ '%' := by
    rintro rfl
    exact absurd h (by decide)
  rw [tokens, if_neg hpercent, if_pos h]

theorem tokens_plain (h : isPlain c = true) : tokens (c :: cs) =
    .text (c :: cs.takeWhile isPlain) :: tokens (cs.dropWhile isPlain) := by
  simp only [isPlain, Bool.and_eq_true, Bool.not_eq_true', bne_iff_ne, ne_eq] at h
  rw [tokens, if_neg h.2, h.1, if_neg Bool.false_ne_true]

theorem pieces_takeWhile_blank (cs : List Char) :
    pieces cs = (cs.takeWhile Text.isBlank).map (fun c => .blanks [c]) ++
      pieces (cs.dropWhile Text.isBlank) := by
  cases cs with
  | nil => rfl
  | cons c cs =>
    by_cases h : Text.isBlank c = true
    · rw [List.takeWhile_cons_of_pos h, List.dropWhile_cons_of_pos h, pieces, tokens_blank h]
      rfl
    · rw [List.takeWhile_cons_of_neg h, List.dropWhile_cons_of_neg h]
      rfl

theorem pieces_takeWhile_plain (cs : List Char) :
    pieces cs = (cs.takeWhile isPlain).map (fun c => .text [c]) ++
      pieces (cs.dropWhile isPlain) := by
  cases cs with
  | nil => rfl
  | cons c cs =>
    by_cases h : isPlain c = true
    · rw [List.takeWhile_cons_of_pos h, List.dropWhile_cons_of_pos h, pieces, tokens_plain h]
      rfl
    · rw [List.takeWhile_cons_of_neg h, List.dropWhile_cons_of_neg h]
      rfl

/-- Runs end where they must, so a character is the same piece in front of anything. -/
theorem pieces_blank (h : Text.isBlank c = true) :
    pieces (c :: cs) = .blanks [c] :: pieces cs := by
  rw [pieces_takeWhile_blank (c :: cs), List.takeWhile_cons_of_pos h,
    List.dropWhile_cons_of_pos h, pieces_takeWhile_blank cs]
  rfl

theorem pieces_plain (h : isPlain c = true) : pieces (c :: cs) = .text [c] :: pieces cs := by
  rw [pieces_takeWhile_plain (c :: cs), List.takeWhile_cons_of_pos h,
    List.dropWhile_cons_of_pos h, pieces_takeWhile_plain cs]
  rfl

theorem invalid_mem_pieces (h : .invalid ∈ tokens cs) : .invalid ∈ pieces cs :=
  List.mem_flatMap.mpr ⟨.invalid, h, List.mem_singleton_self _⟩

end FilterChain.Calendar.Percent
