import FilterChain.Calendar.Fields
import FilterChain.Calendar.Layout
import FilterChain.Number.Numeral

/-!
# Reading dates

A text is read item by item along a layout. Blanks of the layout stand for any number of blanks,
and blanks before a number are skipped. A number takes as many digits as its field may have, or
fewer. The text must be used up at the end.
-/

namespace FilterChain.Calendar

def readNumber? (width : Nat) (cs : List Char) : Option (Nat × List Char) :=
  let ds := (cs.take width).takeWhile Text.isAsciiDigit
  if ds = [] then none else some (digitsValue ds, cs.drop ds.length)

def readDigits? (cs : List Char) : Option (Nat × List Char) :=
  readNumber? cs.length cs

/-- Reads a year: four digits at most, or any number of them behind a sign. -/
def readYear? (cs : List Char) : Option (Int × List Char) :=
  match cs with
  | '-' :: r => (readDigits? r).map fun (n, rest) => (-(n : Int), rest)
  | '+' :: r => (readDigits? r).map fun (n, rest) => ((n : Int), rest)
  | r => (readNumber? 4 r).map fun (n, rest) => ((n : Int), rest)

def readWord? : (word : List Char) → List Char → Option (List Char)
  | [], cs => some cs
  | _ :: _, [] => none
  | w :: ws, c :: cs =>
    if Text.lowerAscii c = Text.lowerAscii w then readWord? ws cs else none

/-- Reads the first three letters of one of the names, whose number is counted from `index`. -/
def readAbbreviation? (index : Nat) : List String → List Char → Option (Nat × List Char)
  | [], _ => none
  | name :: names, cs =>
    match readWord? (name.toList.take 3) cs with
    | some rest => some (index, rest)
    | none => readAbbreviation? (index + 1) names cs

def readName? (names : List String) (cs : List Char) : Option (Nat × List Char) := do
  let (index, rest) ← readAbbreviation? 0 names cs
  let more := ((names[index]?.getD "").toList).drop 3
  return (index, (readWord? more rest).getD rest)

def readMeridiem? (cs : List Char) : Option (Bool × List Char) :=
  match readWord? ['a', 'm'] cs with
  | some rest => some (false, rest)
  | none => (readWord? ['p', 'm'] cs).map fun rest => (true, rest)

def readField? (field : Field) (cs : List Char) (fields : Fields) :
    Option (List Char × Fields) := do
  let number := cs.dropWhile Text.isBlank
  match field with
  | .day =>
    let (n, rest) ← readNumber? 2 number
    return (rest, ← fields.setDay n)
  | .month =>
    let (n, rest) ← readNumber? 2 number
    return (rest, ← fields.setMonth n)
  | .year =>
    let (n, rest) ← readYear? number
    return (rest, ← fields.setYear n)
  | .yearOfCentury =>
    let (n, rest) ← readNumber? 2 number
    return (rest, ← fields.setYearOfCentury n)
  | .hour =>
    let (n, rest) ← readNumber? 2 number
    return (rest, ← fields.setHour n)
  | .hour12 =>
    let (n, rest) ← readNumber? 2 number
    return (rest, ← fields.setHour12 n)
  | .minute =>
    let (n, rest) ← readNumber? 2 number
    return (rest, ← fields.setMinute n)
  | .second =>
    let (n, rest) ← readNumber? 2 number
    return (rest, ← fields.setSecond n)
  | .timestamp =>
    let (n, rest) ← readDigits? number
    return (rest, ← fields.setTimestamp n)
  | .upperMeridiem =>
    let (b, rest) ← readMeridiem? cs
    return (rest, ← fields.setAfternoon b)
  | .lowerMeridiem =>
    let (b, rest) ← readMeridiem? cs
    return (rest, ← fields.setAfternoon b)
  | .shortWeekday =>
    let (i, rest) ← readAbbreviation? 0 weekdayNames cs
    return (rest, ← fields.setWeekday i)
  | .longWeekday =>
    let (i, rest) ← readName? weekdayNames cs
    return (rest, ← fields.setWeekday i)
  | .shortMonth =>
    let (i, rest) ← readAbbreviation? 0 monthNames cs
    return (rest, ← fields.setMonth (i + 1))
  | .longMonth =>
    let (i, rest) ← readName? monthNames cs
    return (rest, ← fields.setMonth (i + 1))

def readItems? : List Item → List Char → Fields → Option Fields
  | [], [], fields => some fields
  | [], _ :: _, _ => none
  | .literal c :: is, d :: cs, fields => if c = d then readItems? is cs fields else none
  | .literal _ :: _, [], _ => none
  | .blank _ :: is, cs, fields => readItems? is (cs.dropWhile Text.isBlank) fields
  | .field field _ :: is, cs, fields =>
    match readField? field cs fields with
    | some (rest, fields) => readItems? is rest fields
    | none => none
  | .invalid :: _, _, _ => none

def readDateTime? (layout text : String) : Option DateTime := do
  let fields ← readItems? (layoutItems .reading layout) text.toList .empty
  fields.resolve?

end FilterChain.Calendar
