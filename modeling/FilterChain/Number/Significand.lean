import FilterChain.Number.Numeral

/-!
# Significands of literals

A literal with a point or an exponent is read in machine numbers all the way. The digits that fit a
word are its significand, and those behind them are dropped. The significand becomes a binary
number, which is then multiplied or divided by a power of ten. Each of these steps is rounded, so
that a literal of many digits can end up next to the number that it is nearest to.
-/

namespace FilterChain

/-- A number that fits a machine word, and the digits that did not fit behind it. -/
structure Significand where
  word : Nat
  excess : List Char
  fits : word < 0x10000000000000000

def Significand.read (n : Nat) (h : n < 0x10000000000000000) : List Char → Significand
  | [] => ⟨n, [], h⟩
  | d :: ds =>
    if h' : 10 * n + digitValue d < 0x10000000000000000 then read (10 * n + digitValue d) h' ds
    else ⟨n, d :: ds, h⟩

namespace Binary64

def times? (x y : Binary64) : Option Binary64 :=
  ofRatio? (x.negative != y.negative) (x.numerator * y.numerator) (x.denominator * y.denominator)

def over? (x y : Binary64) : Option Binary64 :=
  ofRatio? (x.negative != y.negative) (x.numerator * y.denominator) (x.denominator * y.numerator)

def powerOfTen? (n : Nat) : Option Binary64 :=
  ofRatio? false (Nat.pow 10 n) 1

/-- Multiplies by a power of ten, or divides by one where the exponent is negative. No power beyond
`10 ^ 308` is a number, so that a smaller exponent takes more than one division. -/
def scale? (x : Binary64) (exponent : Int) : Option Binary64 :=
  if x.significand = 0 then some x
  else if exponent < -308 then do
    let y ← x.over? (← powerOfTen? 308)
    y.scale? (exponent + 308)
  else if exponent < 0 then do x.over? (← powerOfTen? (-exponent).toNat)
  else if exponent ≤ 308 then do x.times? (← powerOfTen? exponent.toNat)
  else none
termination_by (-exponent).toNat

/-- Nothing is nearer to `9007199254740993.0` than the numbers on both sides of it. Its digits are
rounded up in front of the division. -/
example : ((ofRatio? false 90071992547409930 1).bind fun x => x.scale? (-1)) =
    ofRatio? false 9007199254740994 1 := by
  decide +kernel

end Binary64

end FilterChain
