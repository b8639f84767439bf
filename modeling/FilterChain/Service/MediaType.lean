import FilterChain.Text.Pieces
import FilterChain.Text.Range

/-!
# Media types

Whether a content type says that a body is JSON: the type `application/json`, or an application
type with the suffix `+json`, with well-formed parameters behind it.
-/

namespace FilterChain.MediaType

def tokenSigns : List Char :=
  Char.ofNat 0x60 :: "!#$%&*+-.^_|~\x27".toList

def isTokenChar (c : Char) : Bool :=
  Text.isAsciiLetter c || Text.isAsciiDigit c || tokenSigns.contains c

inductive Place where
  | nameStart
  | name
  | valueStart
  | value
  | quotedStart
  | quoted
  | afterQuoted
  deriving DecidableEq, Repr

def Place.next? : Place → Char → Option Place
  | .nameStart, c => if c = ' ' then some .nameStart else if isTokenChar c then some .name else none
  | .name, c => if c = '=' then some .valueStart else if isTokenChar c then some .name else none
  | .valueStart, c =>
    if c = '\x22' then some .quotedStart else if isTokenChar c then some .value else none
  | .value, c => if c = ';' then some .nameStart else if isTokenChar c then some .value else none
  | .quotedStart, c => if 31 < c.toNat ∧ c.toNat ≠ 127 then some .quoted else none
  | .quoted, c =>
    if c = '\x22' then some .afterQuoted
    else if 31 < c.toNat ∧ c.toNat ≠ 127 then some .quoted
    else none
  | .afterQuoted, c =>
    if c = ';' then some .nameStart else if c = ' ' then some .afterQuoted else none

def Place.isEnd : Place → Bool
  | .nameStart => true
  | .valueStart => true
  | .value => true
  | .afterQuoted => true
  | _ => false

def areParams (cs : List Char) : Bool :=
  match cs.foldlM Place.next? .nameStart with
  | some place => place.isEnd
  | none => false

/-- The part of a subtype in front of its last plus sign, and the suffix behind it. -/
def splitSuffix (subtype : List Char) : List Char × Option (List Char) :=
  match Text.cutFirst '+' subtype.reverse with
  | (_, none) => (subtype, none)
  | (suffix, some main) =>
    if main = [] then (subtype, none) else (main.reverse, some suffix.reverse)

def isJson (contentType : String) : Bool :=
  let cs := contentType.toList.map Text.lowerAscii
  match Text.cutFirst '/' cs with
  | (_, none) => false
  | (kind, some rest) =>
    let (subtype, params?) := Text.cutFirst ';' rest
    let (main, suffix?) := splitSuffix subtype
    kind = "application".toList && subtype.all isTokenChar &&
      (main = "json".toList || suffix? = some "json".toList) && areParams (params?.getD [])

end FilterChain.MediaType
