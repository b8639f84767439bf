import FilterChain.Calendar.Layout
import FilterChain.Number.Fixed

/-!
# Writing dates

The text of a moment along a layout. Numbers have two digits, or as few as they need where the
layout takes the padding away. A year has four digits, and a sign if it is not one of the years
from 0 to 9999.
-/

namespace FilterChain.Calendar

def writeNumber (padded : Bool) (n : Nat) : List Char :=
  if padded then paddedDigits 2 n else decimalDigits n

def writeInt (n : Int) : List Char :=
  (if n < 0 then ['-'] else []) ++ decimalDigits n.natAbs

def writeYear (year : Int) : List Char :=
  (if year < 0 then ['-'] else if 9999 < year then ['+'] else []) ++ paddedDigits 4 year.natAbs

/-- The hour of the half day, from 1 to 12. -/
def hourOfHalf (hour : Nat) : Nat :=
  if hour % 12 = 0 then 12 else hour % 12

def nameAt (names : List String) (index : Nat) : List Char :=
  (names[index]?.getD "").toList

def writeField (field : Field) (padded : Bool) (t : DateTime) : List Char :=
  match field with
  | .day => writeNumber padded t.date.day
  | .month => writeNumber padded t.date.month
  | .year => writeYear t.date.year
  | .yearOfCentury => paddedDigits 2 (t.date.year % 100).toNat
  | .hour => writeNumber padded t.time.hour
  | .hour12 => writeNumber padded (hourOfHalf t.time.hour)
  | .minute => writeNumber padded t.time.minute
  | .second => writeNumber padded t.time.second
  | .upperMeridiem => if t.time.hour < 12 then ['A', 'M'] else ['P', 'M']
  | .lowerMeridiem => if t.time.hour < 12 then ['a', 'm'] else ['p', 'm']
  | .shortWeekday => (nameAt weekdayNames t.date.weekday).take 3
  | .longWeekday => nameAt weekdayNames t.date.weekday
  | .shortMonth => (nameAt monthNames (t.date.month - 1)).take 3
  | .longMonth => nameAt monthNames (t.date.month - 1)
  | .timestamp => writeInt t.timestamp

def writeItem (t : DateTime) : Item → List Char
  | .literal c => [c]
  | .blank c => [c]
  | .field field padded => writeField field padded t
  | .invalid => []

def writeItems (is : List Item) (t : DateTime) : List Char :=
  is.flatMap (writeItem t)

def writeDateTime (layout : String) (t : DateTime) : String :=
  String.ofList (writeItems (layoutItems .writing layout) t)

def DateTime.text (t : DateTime) : String :=
  writeDateTime "Y-m-d H:i:s" t

end FilterChain.Calendar
