import FilterChain.Number.Fixed

/-!
# Shortest decimal text

The shortest decimal number that rounds to a given binary one, and the nearest of those. It is
written positionally while its first digit stands between the fifth place after the point and the
sixteenth before it, and with a power of ten otherwise.
-/

namespace FilterChain

namespace Binary64

/-- Whether `digits * 10 ^ exponent` rounds to the size of `x`: it lies between the midpoints to
the two neighbours of `x`, which belong to the numbers of even significand. -/
def covers (x : Binary64) (digits : Nat) (exponent : Int) : Bool :=
  let m := x.significand
  let q := x.exponent - 2
  let below := if m = 0x10000000000000 ∧ -1074 < x.exponent then 1 else 2
  let point := digits * Nat.pow 10 exponent.toNat * Nat.pow 2 (-q).toNat
  let scale := Nat.pow 10 (-exponent).toNat * Nat.pow 2 q.toNat
  let low := (4 * m - below) * scale
  let high := (4 * m + 2) * scale
  if m % 2 = 0 then low ≤ point && point ≤ high else low < point && point < high

def leadingPower (x : Binary64) : Int :=
  let num := x.numerator
  let den := x.denominator
  if den ≤ num then (digitCount (num / den) : Int) - 1
  else - (digitCount ((den + num - 1) / num - 1) : Int)

/-- The nearest of the two neighbours of `x` among the multiples of `10 ^ exponent` that round
to `x`, if one does. -/
def onGrid? (x : Binary64) (exponent : Int) : Option (Nat × Int) :=
  let num := x.numerator * Nat.pow 10 (-exponent).toNat
  let den := x.denominator * Nat.pow 10 exponent.toNat
  let d := num / den
  match x.covers d exponent, x.covers (d + 1) exponent with
  | true, true => some (roundDiv num den, exponent)
  | true, false => some (d, exponent)
  | false, true => some (d + 1, exponent)
  | false, false => none

def dropZeros : (fuel : Nat) → Nat → Int → Nat × Int
  | 0, d, k => (d, k)
  | fuel + 1, d, k => if d % 10 = 0 then dropZeros fuel (d / 10) (k + 1) else (d, k)

def shortest (x : Binary64) : Nat × Int :=
  if x.significand = 0 then (0, 0)
  else
    let top := x.leadingPower
    match (List.range 17).findSome? fun n : Nat => x.onGrid? (top - n) with
    | some (d, k) => dropZeros 18 d k
    | none => (0, 0)

def sign (x : Binary64) : List Char :=
  if x.negative then ['-'] else []

def text (x : Binary64) : List Char :=
  let (d, k) := x.shortest
  let ds := decimalDigits d
  let top : Int := ds.length + k - 1
  x.sign ++
    if -5 ≤ top ∧ top ≤ 15 then
      if 0 ≤ k then ds ++ List.replicate k.toNat '0' ++ ['.', '0']
      else if 0 ≤ top then
        ds.take (top.toNat + 1) ++ '.' :: ds.drop (top.toNat + 1)
      else '0' :: '.' :: List.replicate (-top - 1).toNat '0' ++ ds
    else
      ds.take 1 ++ (if ds.length = 1 then [] else '.' :: ds.drop 1) ++
        'e' :: (if top < 0 then '-' else '+') :: decimalDigits top.natAbs

end Binary64

end FilterChain
