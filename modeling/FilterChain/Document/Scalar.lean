import FilterChain.Document
import FilterChain.Number.Significand

/-!
# Reading the scalars of a document

Each function reads one scalar off the front of a text. It answers with the document of that
scalar and with the rest of the text, or with no rest where the text breaks off inside.
-/

namespace FilterChain.Document

structure Scan where
  document : Document
  rest? : Option (List Char)

def Scan.broken (cause : Cause) (ahead : Nat) (rest : List Char) : Scan :=
  ⟨.cut (.at cause ahead rest), none⟩

def scanWord (document : Document) : (word : List Char) → List Char → Scan
  | [], cs => ⟨document, some cs⟩
  | _ :: _, [] => .broken .endInValue 0 []
  | w :: ws, c :: cs =>
    if c = w then scanWord document ws cs else .broken .expectedWord 1 (c :: cs)

def decimalNumber (negative : Bool) (word : Nat) (power : Int) (tooLarge : Fault) : Document :=
  match (Binary64.ofRatio? negative word 1).bind fun x => x.scale? power with
  | some x => .number (.binary x)
  | none => .flawed tooLarge .null

/-- The number of a literal of digits alone. Minus zero and what fits no machine word are binary
numbers. -/
def wholeNumber (negative : Bool) (whole : Significand) (tooLarge : Fault) : Document :=
  if whole.excess ≠ [] then decimalNumber negative whole.word whole.excess.length tooLarge
  else if negative then
    if 0 < whole.word ∧ whole.word ≤ 0x8000000000000000 then .number (.whole (-whole.word))
    else decimalNumber true whole.word 0 tooLarge
  else .number (.whole whole.word)

/-- How many digits of an exponent are read before it is known to be too large. -/
def exponentReach (ds : List Char) : Nat :=
  ((List.range ds.length).find? fun i => 0x80000000 ≤ digitsValue (ds.take (i + 1))).elim ds.length
    (· + 1)

def scanPower (negative : Bool) (word : Nat) (power sign : Int) (cs : List Char) : Scan :=
  match cs with
  | [] => .broken .endInValue 0 []
  | c :: _ =>
    if Text.isAsciiDigit c then
      let ds := cs.takeWhile Text.isAsciiDigit
      let rest := cs.dropWhile Text.isAsciiDigit
      let fault := Fault.at .numberOutOfRange (exponentReach ds) cs
      ⟨decimalNumber negative word (sign * digitsValue ds + power) fault, some rest⟩
    else .broken .invalidNumber 1 cs

def scanExponent (negative : Bool) (word : Nat) (power : Int) (cs : List Char) : Scan :=
  match cs with
  | '+' :: r => scanPower negative word power 1 r
  | '-' :: r => scanPower negative word power (-1) r
  | r => scanPower negative word power 1 r

/-- Reads what may follow the digits of the whole part of a number. Digits that did not fit the
significand raise the power of ten, and those of a fraction that do fit lower it. -/
def scanFraction (negative : Bool) (digits : List Char) (cs : List Char) : Scan :=
  let whole := Significand.read 0 (by decide) digits
  let power := whole.excess.length
  match cs with
  | '.' :: r =>
    let frac := r.takeWhile Text.isAsciiDigit
    let rest := r.dropWhile Text.isAsciiDigit
    let all := Significand.read whole.word whole.fits frac
    let power : Int := power + all.excess.length - frac.length
    if frac = [] then
      .broken (if rest = [] then .endInValue else .invalidNumber) 1 rest
    else
      match rest with
      | 'e' :: r => scanExponent negative all.word power r
      | 'E' :: r => scanExponent negative all.word power r
      | r => ⟨decimalNumber negative all.word power (.at .numberOutOfRange 0 r), some r⟩
  | 'e' :: r => scanExponent negative whole.word power r
  | 'E' :: r => scanExponent negative whole.word power r
  | r => ⟨wholeNumber negative whole (.at .numberOutOfRange 0 r), some r⟩

def scanUnsigned (negative : Bool) (cs : List Char) : Scan :=
  match cs with
  | [] => .broken .endInValue 0 []
  | '0' :: r =>
    match r with
    | [] => scanFraction negative ['0'] r
    | d :: _ =>
      if Text.isAsciiDigit d then .broken .invalidNumber 1 r
      else scanFraction negative ['0'] r
  | d :: _ =>
    if Text.isAsciiDigit d then
      scanFraction negative (cs.takeWhile Text.isAsciiDigit) (cs.dropWhile Text.isAsciiDigit)
    else .broken .invalidNumber 1 cs

def hexValue? (c : Char) : Option Nat :=
  if '0' ≤ c ∧ c ≤ '9' then some (c.toNat - 48)
  else if 'a' ≤ c ∧ c ≤ 'f' then some (c.toNat - 87)
  else if 'A' ≤ c ∧ c ≤ 'F' then some (c.toNat - 55)
  else none

def hexQuad? (a b c d : Char) : Option Nat := do
  let a ← hexValue? a
  let b ← hexValue? b
  let c ← hexValue? c
  let d ← hexValue? d
  return ((a * 16 + b) * 16 + c) * 16 + d

def unescape? (c : Char) : Option Char :=
  if c = '\x22' ∨ c = '\\' ∨ c = '/' then some c
  else if c = 'b' then some (Char.ofNat 8)
  else if c = 'f' then some (Char.ofNat 12)
  else if c = 'n' then some '\n'
  else if c = 'r' then some '\r'
  else if c = 't' then some '\t'
  else none

/-- What stands between quotes: its characters and its first flaw, or the place where the text
breaks off. -/
structure Quoted where
  chars : List Char
  flaw? : Option Fault
  rest : Except Fault (List Char)

namespace Quoted

def broken (cause : Cause) (ahead : Nat) (rest : List Char) : Quoted :=
  ⟨[], none, .error (.at cause ahead rest)⟩

def prepend (c : Char) (q : Quoted) : Quoted :=
  { q with chars := c :: q.chars }

def withFlaw (fault : Fault) (q : Quoted) : Quoted :=
  { q with flaw? := some fault }

def afterLead (lead? : Option Nat) (here : List Char) (q : Quoted) : Quoted :=
  match lead?, here with
  | none, _ => q
  | some _, '\\' :: 'u' :: r => q.withFlaw (.at .loneSurrogate 4 r)
  | some _, '\\' :: r => q.withFlaw (.at .endOfSurrogate 1 r)
  | some _, r => q.withFlaw (.at .endOfSurrogate 1 r)

end Quoted

def joinSurrogates (lead trail : Nat) : Char :=
  Char.ofNat (0x10000 + (lead - 0xD800) * 0x400 + (trail - 0xDC00))

/-- Reads a text up to its closing quote; `lead?` is a leading surrogate read just before. -/
def scanQuoted : (lead? : Option Nat) → List Char → Quoted
  | _, [] => .broken .endInText 0 []
  | lead?, '\x22' :: cs => Quoted.afterLead lead? ('\x22' :: cs) ⟨[], none, .ok cs⟩
  | lead?, '\\' :: 'u' :: a :: b :: c :: d :: cs =>
    match hexQuad? a b c d with
    | none => .broken .invalidEscape 4 (a :: b :: c :: d :: cs)
    | some n =>
      let here := '\\' :: 'u' :: a :: b :: c :: d :: cs
      if 0xDC00 ≤ n ∧ n ≤ 0xDFFF then
        match lead? with
        | some m => (scanQuoted none cs).prepend (joinSurrogates m n)
        | none => (scanQuoted none cs).withFlaw (.at .loneSurrogate 0 cs)
      else if 0xD800 ≤ n ∧ n ≤ 0xDBFF then (scanQuoted (some n) cs).afterLead lead? here
      else ((scanQuoted none cs).prepend (Char.ofNat n)).afterLead lead? here
  | _, '\\' :: [] => .broken .endInText 0 []
  | lead?, '\\' :: c :: cs =>
    if c = 'u' then
      if byteCount cs < 4 then .broken .endInText 4 cs else .broken .invalidEscape 4 cs
    else
      match unescape? c with
      | some e => ((scanQuoted none cs).prepend e).afterLead lead? ('\\' :: c :: cs)
      | none => (Quoted.broken .invalidEscape 1 (c :: cs)).afterLead lead? ('\\' :: c :: cs)
  | lead?, c :: cs =>
    if c.toNat < 32 then
      (Quoted.broken .controlCharacter 1 (c :: cs)).afterLead lead? (c :: cs)
    else ((scanQuoted none cs).prepend c).afterLead lead? (c :: cs)

def scanText (cs : List Char) : Scan :=
  let q := scanQuoted none cs
  let mark (d : Document) : Document :=
    match q.flaw? with
    | some fault => .flawed fault d
    | none => d
  match q.rest with
  | .ok rest => ⟨mark (.text (String.ofList q.chars)), some rest⟩
  | .error fault => ⟨mark (.cut fault), none⟩

def scanScalar (c : Char) (cs : List Char) : Scan :=
  if c = 'n' then scanWord .null ['u', 'l', 'l'] cs
  else if c = 't' then scanWord (.bool true) ['r', 'u', 'e'] cs
  else if c = 'f' then scanWord (.bool false) ['a', 'l', 's', 'e'] cs
  else if c = '-' then scanUnsigned true cs
  else if Text.isAsciiDigit c then scanUnsigned false (c :: cs)
  else if c = '\x22' then scanText cs
  else .broken .expectedValue 1 (c :: cs)

end FilterChain.Document
