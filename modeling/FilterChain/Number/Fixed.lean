import FilterChain.Number.Binary64
import FilterChain.Text.Range

/-!
# Fixed-point text

A number written with a fixed number of decimal places: its exact value is rounded to whole units
of the last place, a tie to the even unit, and the point is put in front of the last places.
-/

namespace FilterChain

def decimalDigits (n : Nat) : List Char :=
  Nat.toDigits 10 n

def paddedDigits (width n : Nat) : List Char :=
  let ds := decimalDigits n
  List.replicate (width - ds.length) '0' ++ ds

/-- The whole part and the `places` digits after the point of `units` units of the last place. -/
def splitUnits (places units : Nat) : List Char × List Char :=
  (decimalDigits (units / Nat.pow 10 places),
    if places = 0 then [] else paddedDigits places (units % Nat.pow 10 places))

def Binary64.units (x : Binary64) (places : Nat) : Nat :=
  roundDiv (x.numerator * Nat.pow 10 places) x.denominator

def groupThrees (sep : List Char) (digits : List Char) : List Char :=
  match digits with
  | [] => []
  | d :: rest =>
    d :: (if rest ≠ [] ∧ rest.length % 3 = 0 then sep else []) ++ groupThrees sep rest

end FilterChain
