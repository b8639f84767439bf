import FilterChain.Number.Fixed

/-!
# Numbers written in texts

How an argument or a value is read as a number: whole numbers of a bounded range, and decimal
numbers with an optional fraction and power of ten.
-/

namespace FilterChain

def digitValue (c : Char) : Nat :=
  c.toNat - '0'.toNat

def digitsValue (ds : List Char) : Nat :=
  ds.foldl (fun n d => 10 * n + digitValue d) 0

inductive NumeralFault where
  | empty
  | badDigit
  | tooLarge
  | tooSmall
  deriving DecidableEq, Repr

def NumeralFault.message : NumeralFault → String
  | .empty => "cannot parse integer from empty string"
  | .badDigit => "invalid digit found in string"
  | .tooLarge => "number too large to fit in target type"
  | .tooSmall => "number too small to fit in target type"

structure Bounds where
  low : Int
  high : Int
  deriving DecidableEq, Repr

namespace Bounds

def port : Bounds := ⟨0, 0xFFFF⟩

def size : Bounds := ⟨0, 0xFFFFFFFFFFFFFFFF⟩

def signed : Bounds := ⟨-0x8000000000000000, 0x7FFFFFFFFFFFFFFF⟩

/-- Reads digits from left to right and stops at the first fault; `limit` is the largest size
that is allowed and `excess` what is reported beyond it. -/
def readDigits (limit : Nat) (excess : NumeralFault) : Nat → List Char → Except NumeralFault Nat
  | n, [] => .ok n
  | n, c :: cs =>
    if Text.isAsciiDigit c then
      let n := 10 * n + digitValue c
      if limit < n then .error excess else readDigits limit excess n cs
    else .error .badDigit

/-- Reads a whole number: an optional sign, the minus only where negative numbers are in the
range, and at least one digit. -/
def read (bounds : Bounds) (cs : List Char) : Except NumeralFault Int :=
  let positive ds := (readDigits bounds.high.toNat .tooLarge 0 ds).map Int.ofNat
  match cs with
  | [] => .error .empty
  | '+' :: ds => if ds = [] then .error .badDigit else positive ds
  | '-' :: ds =>
    if ds = [] ∨ 0 ≤ bounds.low then .error .badDigit
    else (readDigits (-bounds.low).toNat .tooSmall 0 ds).map fun n => -Int.ofNat n
  | ds => positive ds

end Bounds

def readWhole? (ds : List Char) : Option Int :=
  if ds ≠ [] ∧ ds.all Text.isAsciiDigit then some (digitsValue ds) else none

def readPower? : List Char → Option Int
  | [] => some 0
  | e :: r =>
    if e = 'e' ∨ e = 'E' then
      match r with
      | '+' :: ds => readWhole? ds
      | '-' :: ds => (readWhole? ds).map fun n => -n
      | ds => readWhole? ds
    else none

def cutFraction : List Char → List Char × List Char
  | '.' :: r => (r.takeWhile Text.isAsciiDigit, r.dropWhile Text.isAsciiDigit)
  | r => ([], r)

/-- An unsigned decimal number with its power of ten: digits with an optional point, at least
one of them, and an optional exponent. -/
def readDecimal? (cs : List Char) : Option (Nat × Int) :=
  let whole := cs.takeWhile Text.isAsciiDigit
  let (frac, rest) := cutFraction (cs.dropWhile Text.isAsciiDigit)
  if whole ++ frac = [] then none
  else (readPower? rest).map fun power => (digitsValue (whole ++ frac), power - frac.length)

inductive Quantity where
  | finite (x : Binary64)
  | infinite (negative : Bool)
  | undefined
  deriving DecidableEq, Repr

def Quantity.readUnsigned? (negative : Bool) (cs : List Char) : Option Quantity :=
  let word := String.ofList (cs.map Text.lowerAscii)
  if word = "inf" ∨ word = "infinity" then some (.infinite negative)
  else if word = "nan" then some .undefined
  else
    (readDecimal? cs).map fun (digits, power) =>
      match Binary64.ofDecimal? negative digits power with
      | some x => .finite x
      | none => .infinite negative

def Quantity.read? : List Char → Option Quantity
  | '-' :: r => readUnsigned? true r
  | '+' :: r => readUnsigned? false r
  | r => readUnsigned? false r

end FilterChain
