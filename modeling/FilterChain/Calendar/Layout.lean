import FilterChain.Calendar
import FilterChain.Text.Blank

/-!
# Layouts of dates

A layout names the fields of a date by letters, as in `d/m/Y H:i`; a backslash makes the next
character literal. A layout is first spelled in percent notation, where a field is a percent
sign and a letter, and that notation is then cut into items. The spelling doubles percent signs,
so that no literal character can take part in a field.
-/

namespace FilterChain.Calendar

inductive Field where
  | day
  | month
  | year
  | yearOfCentury
  | hour
  | hour12
  | minute
  | second
  | upperMeridiem
  | lowerMeridiem
  | shortWeekday
  | longWeekday
  | shortMonth
  | longMonth
  | timestamp
  deriving DecidableEq, Repr

/-- A piece of a layout. Blanks are kept apart from other literal characters; `invalid` stands for
a percent sign that starts no field. -/
inductive Item where
  | literal (c : Char)
  | blank (c : Char)
  | field (field : Field) (padded : Bool)
  | invalid
  deriving DecidableEq, Repr

inductive Direction where
  | reading
  | writing
  deriving DecidableEq, Repr

def literalNotation (c : Char) : List Char :=
  if c = '%' then ['%', '%'] else [c]

/-- The percent notation of a letter that names a field. Fields without padding differ in writing
only, since reading accepts fewer digits anyway. -/
def fieldNotation? (direction : Direction) (letter : Char) : Option (List Char) :=
  let unpadded (c : Char) : List Char :=
    match direction with
    | .reading => ['%', c]
    | .writing => ['%', '-', c]
  match letter with
  | 'd' => some ['%', 'd']
  | 'j' => some (unpadded 'd')
  | 'm' => some ['%', 'm']
  | 'n' => some (unpadded 'm')
  | 'Y' => some ['%', 'Y']
  | 'y' => some ['%', 'y']
  | 'H' => some ['%', 'H']
  | 'G' => some (unpadded 'H')
  | 'h' => some ['%', 'I']
  | 'g' => some (unpadded 'I')
  | 'i' => some ['%', 'M']
  | 's' => some ['%', 'S']
  | 'A' => some ['%', 'p']
  | 'a' => some ['%', 'P']
  | 'D' => some ['%', 'a']
  | 'l' => some ['%', 'A']
  | 'M' => some ['%', 'b']
  | 'F' => some ['%', 'B']
  | 'U' => some ['%', 's']
  | _ => none

def percentNotation (direction : Direction) : List Char → List Char
  | [] => []
  | ['\\'] => []
  | '\\' :: c :: cs => literalNotation c ++ percentNotation direction cs
  | c :: cs =>
    (fieldNotation? direction c).getD (literalNotation c) ++ percentNotation direction cs

def percentField? : Char → Option (Field × Bool)
  | 'd' => some (.day, true)
  | 'm' => some (.month, true)
  | 'Y' => some (.year, true)
  | 'y' => some (.yearOfCentury, true)
  | 'H' => some (.hour, true)
  | 'I' => some (.hour12, true)
  | 'M' => some (.minute, true)
  | 'S' => some (.second, true)
  | 'p' => some (.upperMeridiem, false)
  | 'P' => some (.lowerMeridiem, false)
  | 'a' => some (.shortWeekday, false)
  | 'A' => some (.longWeekday, false)
  | 'b' => some (.shortMonth, false)
  | 'B' => some (.longMonth, false)
  | 's' => some (.timestamp, false)
  | _ => none

def percentItem (bare : Bool) (letter : Char) : Item :=
  if letter = '%' then if bare then .invalid else .literal '%'
  else
    match percentField? letter with
    | some (field, padded) => .field field (padded && !bare)
    | none => .invalid

def items : List Char → List Item
  | [] => []
  | ['%'] => [.invalid]
  | ['%', '-'] => [.invalid]
  | '%' :: '-' :: c :: cs => percentItem true c :: items cs
  | '%' :: c :: cs => percentItem false c :: items cs
  | c :: cs => (if Text.isBlank c then .blank c else .literal c) :: items cs

def layoutItems (direction : Direction) (layout : String) : List Item :=
  items (percentNotation direction layout.toList)

end FilterChain.Calendar
