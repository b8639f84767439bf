import FilterChain.Value

/-!
# Written values

The JSON text of a value, in the compact style and in the style with one item a line. The text of a
value is put in front of what follows it, so that the text of a container is the text of its parts
one after the other.
-/

namespace FilterChain

namespace Value

def hexDigit (n : Nat) : Char :=
  (Nat.toDigits 16 n).headD '0'

def escape (c : Char) : List Char :=
  if c = '\x22' then ['\\', '\x22']
  else if c = '\\' then ['\\', '\\']
  else if c = '\n' then ['\\', 'n']
  else if c = '\r' then ['\\', 'r']
  else if c = '\t' then ['\\', 't']
  else if c.toNat = 8 then ['\\', 'b']
  else if c.toNat = 12 then ['\\', 'f']
  else if c.toNat < 32 then
    ['\\', 'u', '0', '0', hexDigit (c.toNat / 16), hexDigit (c.toNat % 16)]
  else [c]

def quote (s : String) (rest : List Char) : List Char :=
  '\x22' :: s.toList.flatMap escape ++ '\x22' :: rest

def boolText (b : Bool) : List Char :=
  if b then "true".toList else "false".toList

/-- What stands between the parts of a container: in front of an item at a depth and of a closing
bracket, and behind a colon. -/
structure Style where
  gap : (depth : Nat) → List Char
  colonGap : List Char

def Style.compact : Style :=
  ⟨fun _ => [], []⟩

/-- One item a line, two spaces a level. -/
def Style.lines : Style :=
  ⟨fun depth => '\n' :: List.replicate (2 * depth) ' ', [' ']⟩

mutual

/-- The text of a value that stands at `depth`, in front of `rest`. -/
def write (style : Style) (depth : Nat) : Value → List Char → List Char
  | .null, rest => "null".toList ++ rest
  | .bool b, rest => boolText b ++ rest
  | .number n, rest => n.text ++ rest
  | .text s, rest => quote s rest
  | .list items, rest => '[' :: writeItems style depth items (']' :: rest)
  | .record fields, rest => '{' :: writeFields style depth fields ('}' :: rest)

def writeItems (style : Style) (depth : Nat) : List Value → List Char → List Char
  | [], rest => rest
  | [v], rest => style.gap (depth + 1) ++ v.write style (depth + 1) (style.gap depth ++ rest)
  | v :: w :: vs, rest =>
    style.gap (depth + 1) ++
      v.write style (depth + 1) (',' :: writeItems style depth (w :: vs) rest)

def writeFields (style : Style) (depth : Nat) : List (String × Value) → List Char → List Char
  | [], rest => rest
  | [(k, v)], rest =>
    style.gap (depth + 1) ++
      quote k (':' :: style.colonGap ++ v.write style (depth + 1) (style.gap depth ++ rest))
  | (k, v) :: f :: fs, rest =>
    style.gap (depth + 1) ++
      quote k (':' :: style.colonGap ++
        v.write style (depth + 1) (',' :: writeFields style depth (f :: fs) rest))

end

def render (v : Value) (rest : List Char) : List Char :=
  v.write .compact 0 rest

def toText (v : Value) : String :=
  String.ofList (v.render [])

def toLines (v : Value) : String :=
  String.ofList (v.write .lines 0 [])

end Value

end FilterChain
