import FilterChain.Text.Pattern

/-!
# The form of e-mail addresses

A local part of words with single dots between them, an `@`, labels that each end in a dot, and
a last label of two to four characters. Letters are compared without regard to case, which brings
in the two characters outside ASCII that fold to an ASCII letter: the long s and the kelvin sign.
-/

namespace FilterChain.Text

def longS : Char := Char.ofNat 0x17F

def kelvinSign : Char := Char.ofNat 0x212A

def addressChars : List Char :=
  longS :: kelvinSign ::
    "abcdefghijklmnopqrstuvwxyzABCDEFGHIJKLMNOPQRSTUVWXYZ0123456789_".toList

def emailPattern : Pattern :=
  let word := Pattern.oneOf addressChars
  let localPart := Pattern.many1 (.followed (.many1 word) (.optional (.oneOf ['.'])))
  let label := Pattern.many1 (.followed word (.optional (.oneOf ['-'])))
  .followed localPart <| .followed (.oneOf ['@']) <|
    .followed (.many1 (.followed label (.oneOf ['.']))) (.between word 2 2)

def isEmail (cs : List Char) : Bool :=
  emailPattern.fits cs

end FilterChain.Text
