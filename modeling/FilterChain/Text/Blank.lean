import FilterChain.Text.Pieces

/-!
# Blanks

A blank is a character with the Unicode property White_Space. This module trims texts at both
ends by any character class, and squeezes each run of blanks into one space.
-/

namespace FilterChain.Text

def isBlank (c : Char) : Bool :=
  let n := c.toNat
  (9 ≤ n && n ≤ 13) || n == 32 || n == 133 || n == 160 || n == 5760 || (8192 ≤ n && n ≤ 8202) ||
    n == 8232 || n == 8233 || n == 8239 || n == 8287 || n == 12288

def trimEndBy (p : Char → Bool) (cs : List Char) : List Char :=
  (cs.reverse.dropWhile p).reverse

def trimBy (p : Char → Bool) (cs : List Char) : List Char :=
  trimEndBy p (cs.dropWhile p)

def strip (s : String) : String :=
  String.ofList (trimBy isBlank s.toList)

/-- Every run of blanks becomes a single space. -/
def squeeze : List Char → List Char
  | [] => []
  | c :: cs =>
    if isBlank c then
      match cs with
      | [] => [' ']
      | d :: _ => if isBlank d then squeeze cs else ' ' :: squeeze cs
    else c :: squeeze cs

end FilterChain.Text
