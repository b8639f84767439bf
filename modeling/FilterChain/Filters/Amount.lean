import FilterChain.Operation

/-!
# Amounts

Filters for amounts of money as they are written in Brazil: digits scaled by a power of ten, and
numbers with a decimal comma and dots between thousands.
-/

namespace FilterChain.Filters

def maxPlaces : Int := 64

def scaleDigits (places : Nat) (digits : List Char) : List Char :=
  let significant := digits.dropWhile (· == '0')
  let padded := List.replicate (places + 1 - significant.length) '0' ++ significant
  let whole := padded.take (padded.length - places)
  if places = 0 then whole else whole ++ '.' :: padded.drop (padded.length - places)

def scale (places : Nat) (v : Value) : Except OperationError Value := do
  let s ← v.asText
  match s.toList.filter Text.isAsciiDigit with
  | [] => .error (.invalidInput s "no digits to scale")
  | d :: ds => return .text (String.ofList (scaleDigits places (d :: ds)))

/-- Drops the dots between thousands and turns the decimal comma into a point. -/
def pointForComma (cs : List Char) : List Char :=
  (cs.filter (· != '.')).map fun c => if c = ',' then '.' else c

def plainAmount (v : Value) : Except OperationError Value := do
  let s ← v.asText
  return .text (String.ofList (pointForComma s.toList))

/-- A number rounded to `places` decimal places, with a mark in front of them and a separator
between groups of three digits. What rounds to zero has no sign. -/
def formatNumber (places : Nat) (mark separator : String) : Quantity → String
  | .finite x =>
    let units := x.units places
    let (whole, frac) := splitUnits places units
    String.ofList <|
      (if x.negative ∧ units ≠ 0 then ['-'] else []) ++
        groupThrees separator.toList whole ++
        (if places = 0 then [] else mark.toList ++ frac)
  | .infinite negative => if negative then "-inf" else "inf"
  | .undefined => "NaN"

def notANumber (text : String) : OperationError :=
  .invalidInput text "not a number"

/-- The number of a value: that of a number or of a text, and 0 or 1 for the other scalars. -/
def asNumber : Value → Except OperationError Binary64
  | .null => .ok (.zero false)
  | .bool b => .ok (if b then ⟨false, 0x10000000000000, -52, by decide⟩ else .zero false)
  | .number n =>
    match n.toBinary? with
    | some x => .ok x
    | none => .error (notANumber (String.ofList n.text))
  | .text s =>
    match Quantity.read? (Text.trimBy Text.isBlank s.toList) with
    | some (.finite x) => .ok x
    | some (.infinite negative) => .error (notANumber (if negative then "-inf" else "inf"))
    | some .undefined => .error (notANumber "NaN")
    | none => .error (notANumber s)
  | v => .error (.unsupportedValue "a number" v.kind)

def money (v : Value) : Except OperationError Value := do
  let x ← asNumber v
  return .text (formatNumber 2 "," "." (.finite x))

def amountOperations : List Operation :=
  [
    ⟨"decimal", ⟨[.optional "places" "2"]⟩,
      "Read the digits as an integer and divide by 10^places",
      fun v args => do
        let places ← args.readWhole 0 .size
        if maxPlaces < places then
          .error (.invalidArgument (args.paramName 0) (toString places) "at most 64 places")
        else scale places.toNat v⟩,
    .unary "moedaParaFloat" "\"1.234,56\" to \"1234.56\"" plainAmount,
    .unary "dinheiro" "1234.5 to \"1.234,50\"" money
  ]

end FilterChain.Filters
