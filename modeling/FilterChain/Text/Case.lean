import FilterChain.Text.Case.Mapping
import FilterChain.Text.Cased

/-!
# Changing the case of a text

Each character is replaced by what it maps to. The one mapping that looks at its surroundings is
that of the capital sigma, whose lowercase form at the end of a word is the final sigma.
-/

namespace FilterChain.Text

def capitalSigma : Char := Char.ofNat 0x3A3

def smallSigma : Char := Char.ofNat 0x3C3

def finalSigma : Char := Char.ofNat 0x3C2

/-- Whether the first character that is not case-ignorable is a cased one. -/
def startsCased (cs : List Char) : Bool :=
  match cs.dropWhile isCaseIgnorable with
  | [] => false
  | c :: _ => isCased c

/-- Lowercases `cs`, where `before` holds the characters in front of it, the nearest first. -/
def lowerAfter (before : List Char) : List Char → List Char
  | [] => []
  | c :: cs =>
    let here :=
      if c = capitalSigma then
        if startsCased before && !startsCased cs then [finalSigma] else [smallSigma]
      else lowerChar c
    here ++ lowerAfter (c :: before) cs

def lower (cs : List Char) : List Char :=
  lowerAfter [] cs

def upper (cs : List Char) : List Char :=
  cs.flatMap upperChar

end FilterChain.Text
