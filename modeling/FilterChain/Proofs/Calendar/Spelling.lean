import FilterChain.Filters.Date
import FilterChain.Proofs.Calendar.Percent

/-!
# Layouts are spelled faithfully

Read from left to right, a layout is a list of marks: letters that name a field, and literal
characters, among them every one behind a backslash. Its spelling in percent notation is cut into
just these marks, in their order, whatever stands next to what. Neither a literal percent sign nor
an escaped letter becomes part of a field, and nothing is invalid.
-/

namespace FilterChain.Calendar

open Percent

inductive Mark where
  | code (letter : Char)
  | literal (c : Char)
  deriving DecidableEq, Repr

def codeLetters : List Char :=
  ['d', 'j', 'm', 'n', 'Y', 'y', 'H', 'G', 'h', 'g', 'i', 's', 'A', 'a', 'D', 'l', 'M', 'F', 'U']

/-- The marks of a layout from left to right. A backslash makes the next character literal, and one
at the end stands for nothing. -/
def marks : List Char → List Mark
  | [] => []
  | ['\\'] => []
  | '\\' :: c :: cs => .literal c :: marks cs
  | c :: cs => (if c ∈ codeLetters then .code c else .literal c) :: marks cs

/-- What a letter names. Four of them name numbers that are written without padding, but are read
like padded ones. -/
def codeToken (direction : Direction) (letter : Char) : Token :=
  let bare : Padding :=
    match direction with
    | .reading => .zero
    | .writing => .none
  match letter with
  | 'd' => .number .day .zero
  | 'j' => .number .day bare
  | 'm' => .number .month .zero
  | 'n' => .number .month bare
  | 'Y' => .number .year .zero
  | 'y' => .number .yearOfCentury .zero
  | 'H' => .number .hour .zero
  | 'G' => .number .hour bare
  | 'h' => .number .hour12 .zero
  | 'g' => .number .hour12 bare
  | 'i' => .number .minute .zero
  | 's' => .number .second .zero
  | 'A' => .word .upperMeridiem
  | 'a' => .word .lowerMeridiem
  | 'D' => .word .shortWeekday
  | 'l' => .word .longWeekday
  | 'M' => .word .shortMonth
  | 'F' => .word .longMonth
  | 'U' => .number .timestamp .none
  | _ => .invalid

def literalToken (c : Char) : Token :=
  if Text.isBlank c then .blanks [c] else .text [c]

def Mark.token (direction : Direction) : Mark → Token
  | .code letter => codeToken direction letter
  | .literal c => literalToken c

def numberField? : NumberKind → Option Field
  | .day => some .day
  | .month => some .month
  | .year => some .year
  | .yearOfCentury => some .yearOfCentury
  | .hour => some .hour
  | .hour12 => some .hour12
  | .minute => some .minute
  | .second => some .second
  | .timestamp => some .timestamp
  | _ => none

def wordField? : WordKind → Option Field
  | .upperMeridiem => some .upperMeridiem
  | .lowerMeridiem => some .lowerMeridiem
  | .shortWeekday => some .shortWeekday
  | .longWeekday => some .longWeekday
  | .shortMonth => some .shortMonth
  | .longMonth => some .longMonth
  | _ => none

def itemOf : Token → Item
  | .text [c] => .literal c
  | .blanks [c] => .blank c
  | .number kind padding =>
    match numberField? kind with
    | some field => .field field (padding = .zero)
    | none => .invalid
  | .word kind =>
    match wordField? kind with
    | some field => .field field false
    | none => .invalid
  | _ => .invalid

variable {direction : Direction}

theorem pieces_literalNotation (c : Char) (rest : List Char) :
    pieces (literalNotation c ++ rest) = literalToken c :: pieces rest := by
  unfold literalNotation literalToken
  split
  · next hpercent =>
    subst hpercent
    exact pieces_directive _
  · next hpercent =>
    split
    · next hblank => exact pieces_blank hblank
    · next hblank => exact pieces_plain (by simp [isPlain, hblank, hpercent])

theorem itemOf_literalToken (c : Char) :
    itemOf (literalToken c) = if Text.isBlank c then .blank c else .literal c := by
  rw [literalToken]
  split <;> rfl

theorem items_literalNotation (c : Char) (rest : List Char) :
    items (literalNotation c ++ rest) = itemOf (literalToken c) :: items rest := by
  unfold literalNotation
  split
  · next hpercent =>
    subst hpercent
    rfl
  · next hpercent =>
    rw [itemOf_literalToken, List.singleton_append, items.eq_def]
    split <;> simp_all

theorem cut_fieldNotation {letter : Char} {chunk : List Char}
    (h : fieldNotation? direction letter = some chunk) (rest : List Char) :
    pieces (chunk ++ rest) = codeToken direction letter :: pieces rest ∧
      items (chunk ++ rest) = itemOf (codeToken direction letter) :: items rest := by
  cases direction <;>
  · unfold fieldNotation? at h
    dsimp only at h
    split at h
    all_goals first
      | cases h; exact ⟨pieces_directive _, rfl⟩
      | cases h

theorem fieldNotation?_eq_none {letter : Char} (h : letter ∉ codeLetters) :
    fieldNotation? direction letter = none := by
  cases direction <;>
  · unfold fieldNotation?
    dsimp only
    split
    all_goals first
      | rfl
      | exact absurd (by decide) h

theorem exists_fieldNotation?_eq_some (direction : Direction) {letter : Char}
    (h : letter ∈ codeLetters) : ∃ chunk, fieldNotation? direction letter = some chunk := by
  simp only [codeLetters, List.mem_cons, List.not_mem_nil, or_false] at h
  rcases h with rfl | rfl | rfl | rfl | rfl | rfl | rfl | rfl | rfl | rfl | rfl | rfl | rfl |
    rfl | rfl | rfl | rfl | rfl | rfl <;> exact ⟨_, rfl⟩

/-- What cuts off single marks, whatever follows them, cuts a spelling into its marks. -/
theorem cut_percentNotation {α : Type} {cut : List Char → List α} (piece : Token → α)
    (hnil : cut [] = [])
    (hliteral : ∀ c rest, cut (literalNotation c ++ rest) = piece (literalToken c) :: cut rest)
    (hfield : ∀ letter chunk rest, fieldNotation? direction letter = some chunk →
      cut (chunk ++ rest) = piece (codeToken direction letter) :: cut rest) (cs : List Char) :
    cut (percentNotation direction cs) =
      (marks cs).map fun mark => piece (mark.token direction) := by
  fun_induction percentNotation direction cs with
  | case1 => exact hnil
  | case2 => exact hnil
  | case3 c cs ih =>
    rw [hliteral, ih]
    rfl
  | case4 c cs hescape hlast ih =>
    rw [marks.eq_4 c cs hescape hlast, List.map_cons, ← ih]
    split
    · next hcode =>
      obtain ⟨chunk, hchunk⟩ := exists_fieldNotation?_eq_some direction hcode
      rw [hchunk, Option.getD_some]
      exact hfield c chunk _ hchunk
    · next hcode =>
      rw [fieldNotation?_eq_none hcode, Option.getD_none]
      exact hliteral c _

theorem pieces_percentNotation (direction : Direction) (cs : List Char) :
    pieces (percentNotation direction cs) = (marks cs).map (Mark.token direction) :=
  cut_percentNotation id pieces_nil pieces_literalNotation
    (fun _ _ rest hchunk => (cut_fieldNotation hchunk rest).1) cs

theorem layoutItems_eq_map_marks (direction : Direction) (layout : String) :
    layoutItems direction layout =
      (marks layout.toList).map fun mark => itemOf (mark.token direction) :=
  cut_percentNotation itemOf rfl items_literalNotation
    (fun _ _ rest hchunk => (cut_fieldNotation hchunk rest).2) layout.toList

theorem itemOf_codeToken_ne_invalid (direction : Direction) {letter : Char}
    (h : letter ∈ codeLetters) : itemOf (codeToken direction letter) ≠ .invalid := by
  have hall : codeLetters.all (fun letter =>
      decide (itemOf (codeToken direction letter) ≠ .invalid)) = true := by
    cases direction <;> rfl
  exact of_decide_eq_true (List.all_eq_true.mp hall letter h)

theorem itemOf_token_ne_invalid {cs : List Char} :
    ∀ mark ∈ marks cs, itemOf (mark.token direction) ≠ .invalid := by
  have hliteral (c : Char) : itemOf (literalToken c) ≠ .invalid := by
    rw [itemOf_literalToken]
    split <;> simp
  fun_induction marks cs with
  | case1 => exact List.forall_mem_nil _
  | case2 => exact List.forall_mem_nil _
  | case3 c cs ih => exact List.forall_mem_cons.mpr ⟨hliteral c, ih⟩
  | case4 c cs _ _ ih =>
    refine List.forall_mem_cons.mpr ⟨?_, ih⟩
    split
    · next hcode => exact itemOf_codeToken_ne_invalid direction hcode
    · exact hliteral c

theorem invalid_not_mem_layoutItems (direction : Direction) (layout : String) :
    .invalid ∉ layoutItems direction layout := by
  rw [layoutItems_eq_map_marks]
  intro hinvalid
  obtain ⟨mark, hmark, hitem⟩ := List.mem_map.mp hinvalid
  exact itemOf_token_ne_invalid mark hmark hitem

theorem checkLayout_eq_ok (direction : Direction) (layout : String) :
    Filters.checkLayout direction layout = .ok () := by
  have hitems := invalid_not_mem_layoutItems direction layout
  rw [Filters.checkLayout, if_neg]
  simpa using hitems

/-- A layout is spelled so that percent notation at large has no other reading than its marks, one
by one, and so has the part of it that layouts use. No layout is refused. -/
theorem layouts_are_spelled_faithfully (direction : Direction) (layout : String) :
    pieces (percentNotation direction layout.toList) =
        (marks layout.toList).map (Mark.token direction) ∧
      .invalid ∉ tokens (percentNotation direction layout.toList) ∧
      layoutItems direction layout =
        (marks layout.toList).map (fun mark => itemOf (mark.token direction)) ∧
      Filters.checkLayout direction layout = .ok () := by
  refine ⟨pieces_percentNotation direction layout.toList, fun hinvalid => ?_,
    layoutItems_eq_map_marks direction layout, checkLayout_eq_ok direction layout⟩
  have hmem := invalid_mem_pieces hinvalid
  rw [pieces_percentNotation] at hmem
  obtain ⟨mark, hmark, htoken⟩ := List.mem_map.mp hmem
  exact itemOf_token_ne_invalid mark hmark (congrArg itemOf htoken)

example : marks "\\d%-d\\".toList =
    [.literal 'd', .literal '%', .literal '-', .code 'd'] := by
  decide

end FilterChain.Calendar
