import FilterChain.Calendar

/-!
# Fields read from a text

The fields of a date and time that a text has shown so far. A field that is shown twice must show
the same both times. At the end a date, a time of day or both are put together from the fields,
if there are enough of them and none contradicts the others.
-/

namespace FilterChain.Calendar

structure Fields where
  year? : Option Int
  yearOfCentury? : Option Nat
  month? : Option Nat
  day? : Option Nat
  weekday? : Option Nat
  afternoon? : Option Bool
  hour12? : Option Nat
  minute? : Option Nat
  second? : Option Nat
  timestamp? : Option Int
  deriving DecidableEq, Repr

inductive Unresolved where
  | insufficient
  | contradictory
  deriving DecidableEq, Repr

def agrees {α : Type} [DecidableEq α] (shown? : Option α) (a : α) : Bool :=
  match shown? with
  | none => true
  | some b => a = b

namespace Fields

def empty : Fields :=
  ⟨none, none, none, none, none, none, none, none, none, none⟩

def setYear (n : Int) (fields : Fields) : Option Fields :=
  if -0x80000000 ≤ n ∧ n < 0x80000000 ∧ agrees fields.year? n then
    some { fields with year? := some n }
  else none

def setYearOfCentury (n : Nat) (fields : Fields) : Option Fields :=
  if n ≤ 99 ∧ agrees fields.yearOfCentury? n then
    some { fields with yearOfCentury? := some n }
  else none

def setMonth (n : Nat) (fields : Fields) : Option Fields :=
  if 1 ≤ n ∧ n ≤ 12 ∧ agrees fields.month? n then some { fields with month? := some n } else none

def setDay (n : Nat) (fields : Fields) : Option Fields :=
  if 1 ≤ n ∧ n ≤ 31 ∧ agrees fields.day? n then some { fields with day? := some n } else none

def setWeekday (n : Nat) (fields : Fields) : Option Fields :=
  if agrees fields.weekday? n then some { fields with weekday? := some n } else none

def setAfternoon (b : Bool) (fields : Fields) : Option Fields :=
  if agrees fields.afternoon? b then some { fields with afternoon? := some b } else none

def setHour12 (n : Nat) (fields : Fields) : Option Fields :=
  if 1 ≤ n ∧ n ≤ 12 ∧ agrees fields.hour12? (n % 12) then
    some { fields with hour12? := some (n % 12) }
  else none

def setHour (n : Nat) (fields : Fields) : Option Fields :=
  if n ≤ 23 ∧ agrees fields.afternoon? (decide (12 ≤ n)) ∧ agrees fields.hour12? (n % 12) then
    some { fields with afternoon? := some (decide (12 ≤ n)), hour12? := some (n % 12) }
  else none

def setMinute (n : Nat) (fields : Fields) : Option Fields :=
  if n ≤ 59 ∧ agrees fields.minute? n then some { fields with minute? := some n } else none

def setSecond (n : Nat) (fields : Fields) : Option Fields :=
  if n ≤ 60 ∧ agrees fields.second? n then some { fields with second? := some n } else none

def setTimestamp (n : Int) (fields : Fields) : Option Fields :=
  if n < 0x8000000000000000 ∧ agrees fields.timestamp? n then
    some { fields with timestamp? := some n }
  else none

/-- The year. Two digits alone stand for a year from 1970 to 2069, and beside a full year they
must be its last ones. -/
def resolveYear (fields : Fields) : Except Unresolved Int :=
  match fields.year?, fields.yearOfCentury? with
  | some year, none => .ok year
  | some year, some short =>
    if 0 ≤ year ∧ year % 100 = short then .ok year else .error .contradictory
  | none, some short => .ok (if short < 70 then 2000 + short else 1900 + short)
  | none, none => .error .insufficient

def resolveDate (fields : Fields) : Except Unresolved Date := do
  let year ← fields.resolveYear
  match fields.month?, fields.day? with
  | some month, some day =>
    let date : Date := ⟨year, month, day⟩
    if date.IsValid ∧ agrees fields.weekday? date.weekday then return date
    else throw .contradictory
  | _, _ => throw .insufficient

def resolveTime (fields : Fields) : Except Unresolved Time :=
  match fields.afternoon?, fields.hour12?, fields.minute? with
  | some afternoon, some hour12, some minute =>
    .ok ⟨(if afternoon then 12 else 0) + hour12, minute, fields.second?.getD 0⟩
  | _, _, _ => .error .insufficient

def holdAt (fields : Fields) (t : DateTime) : Bool :=
  agrees fields.year? t.date.year &&
    agrees fields.yearOfCentury? (t.date.year % 100).toNat &&
    agrees fields.month? t.date.month && agrees fields.day? t.date.day &&
    agrees fields.weekday? t.date.weekday &&
    agrees fields.afternoon? (decide (12 ≤ t.time.hour)) &&
    agrees fields.hour12? (t.time.hour % 12) &&
    agrees fields.minute? t.time.minute && agrees fields.second? t.time.second

/-- The moment of a timestamp. A sixtieth second is that of the minute that ends there. -/
def momentOf (fields : Fields) (timestamp : Int) : Option DateTime :=
  let t := DateTime.ofTimestamp timestamp
  if ¬ t.date.IsValid then none
  else if fields.second? = some 60 then
    let last (t : DateTime) : DateTime := { t with time := { t.time with second := 60 } }
    if t.time.second = 59 then some (last t)
    else if t.time.second = 0 then some (last (DateTime.ofTimestamp (timestamp - 1)))
    else none
  else some t

def timestampFits (t : DateTime) (timestamp : Int) : Bool :=
  timestamp = t.timestamp || (t.time.second = 60 && timestamp = t.timestamp + 1)

def resolveMoment (fields : Fields) : Except Unresolved DateTime :=
  match fields.resolveDate, fields.resolveTime, fields.timestamp? with
  | .ok date, .ok time, none => .ok ⟨date, time⟩
  | .ok date, .ok time, some timestamp =>
    if timestampFits ⟨date, time⟩ timestamp then .ok ⟨date, time⟩ else .error .contradictory
  | .error .contradictory, _, _ => .error .contradictory
  | _, .error .contradictory, _ => .error .contradictory
  | _, _, none => .error .insufficient
  | _, _, some timestamp =>
    match fields.momentOf timestamp with
    | some t => if fields.holdAt t then .ok t else .error .contradictory
    | none => .error .contradictory

/-- The moment of the fields, or else their date at the time of day that they give, midnight if
they give none. -/
def resolve? (fields : Fields) : Option DateTime :=
  match fields.resolveMoment with
  | .ok t => some t
  | .error _ =>
    match fields.resolveDate with
    | .ok date => some ⟨date, fields.resolveTime.toOption.getD .midnight⟩
    | .error _ => none

end Fields

end FilterChain.Calendar
