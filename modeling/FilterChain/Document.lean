import FilterChain.Value

/-!
# Documents

A document is what a JSON text says, with its faults in place. Where the text breaks off or stops
being JSON, the tree ends in a `cut`; a part that is well formed but denotes no value (a number
that is too large, an unpaired surrogate, a container nested too deep) is kept as `flawed`. So a
reader of documents meets faults in the order of the text, and may skip a part whose flaws do not
matter to it. The name of a field can have a flaw as well.
-/

namespace FilterChain

namespace Document

inductive Cause where
  | endInList
  | endInRecord
  | endInText
  | endInValue
  | expectedColon
  | expectedListEnd
  | expectedRecordEnd
  | expectedWord
  | expectedValue
  | invalidEscape
  | invalidNumber
  | numberOutOfRange
  | controlCharacter
  | keyNotText
  | loneSurrogate
  | endOfSurrogate
  | trailingComma
  | trailingCharacters
  | tooDeep
  deriving DecidableEq, Repr

def Cause.message : Cause → String
  | .endInList => "EOF while parsing a list"
  | .endInRecord => "EOF while parsing an object"
  | .endInText => "EOF while parsing a string"
  | .endInValue => "EOF while parsing a value"
  | .expectedColon => "expected `:`"
  | .expectedListEnd => "expected `,` or `]`"
  | .expectedRecordEnd => "expected `,` or `\x7d`"
  | .expectedWord => "expected ident"
  | .expectedValue => "expected value"
  | .invalidEscape => "invalid escape"
  | .invalidNumber => "invalid number"
  | .numberOutOfRange => "number out of range"
  | .controlCharacter => "control character (\\u0000-\\u001F) found while parsing a string"
  | .keyNotText => "key must be a string"
  | .loneSurrogate => "lone leading surrogate in hex escape"
  | .endOfSurrogate => "unexpected end of hex escape"
  | .trailingComma => "trailing comma"
  | .trailingCharacters => "trailing characters"
  | .tooDeep => "recursion limit exceeded"

/-- A fault, and how many bytes of the text lie behind the place where it shows. -/
structure Fault where
  cause : Cause
  behind : Nat
  deriving DecidableEq, Repr

def byteCount (cs : List Char) : Nat :=
  cs.foldr (fun c count => c.utf8Size + count) 0

/-- A fault that shows `ahead` bytes into `rest`, or at its end if it is shorter. -/
def Fault.at (cause : Cause) (ahead : Nat) (rest : List Char) : Fault :=
  ⟨cause, byteCount rest - ahead⟩

structure Key where
  name : String
  flaw? : Option Fault
  deriving DecidableEq, Repr

/-- The bytes of a text up to a place, as its line and the bytes since the last line break. -/
def lineColumn : (line column : Nat) → List UInt8 → Nat × Nat
  | line, column, [] => (line, column)
  | line, column, b :: bs =>
    if b = 10 then lineColumn (line + 1) 0 bs else lineColumn line (column + 1) bs

def Fault.message (text : String) (fault : Fault) : String :=
  let read := text.toUTF8.toList.take (text.utf8ByteSize - fault.behind)
  let (line, column) := lineColumn 1 0 read
  s!"{fault.cause.message} at line {line} column {column}"

end Document

open Document in
inductive Document where
  | null
  | bool (b : Bool)
  | number (n : Number)
  | text (s : String)
  | list (items : List Document)
  | record (fields : List (Key × Document))
  | flawed (fault : Fault) (extent : Document)
  | cut (fault : Fault)

namespace Document

def maxDepth : Nat := 127

mutual

def toValue : Document → Except Fault Value
  | .null => .ok .null
  | .bool b => .ok (.bool b)
  | .number n => .ok (.number n)
  | .text s => .ok (.text s)
  | .list items => (itemValues items).map .list
  | .record fields => (fieldValues fields).map fun fs => .record (Fields.ofList fs)
  | .flawed fault _ => .error fault
  | .cut fault => .error fault

def itemValues : List Document → Except Fault (List Value)
  | [] => .ok []
  | d :: ds => do
    let v ← d.toValue
    let vs ← itemValues ds
    return v :: vs

def fieldValues : List (Key × Document) → Except Fault (List (String × Value))
  | [] => .ok []
  | (⟨_, some fault⟩, _) :: _ => .error fault
  | (⟨k, none⟩, d) :: ds => do
    let v ← d.toValue
    let fs ← fieldValues ds
    return (k, v) :: fs

end

mutual

def firstCut? : Document → Option Fault
  | .list items => firstCutOfItems? items
  | .record fields => firstCutOfFields? fields
  | .flawed _ extent => extent.firstCut?
  | .cut fault => some fault
  | _ => none

def firstCutOfItems? : List Document → Option Fault
  | [] => none
  | d :: ds => d.firstCut?.or (firstCutOfItems? ds)

def firstCutOfFields? : List (Key × Document) → Option Fault
  | [] => none
  | (_, d) :: ds => d.firstCut?.or (firstCutOfFields? ds)

end

mutual

def ofValue : Value → Document
  | .null => .null
  | .bool b => .bool b
  | .number n => .number n
  | .text s => .text s
  | .list items => .list (ofItems items)
  | .record fields => .record (ofFields fields)

def ofItems : List Value → List Document
  | [] => []
  | v :: vs => ofValue v :: ofItems vs

def ofFields : List (String × Value) → List (Key × Document)
  | [] => []
  | (k, v) :: fs => (⟨k, none⟩, ofValue v) :: ofFields fs

end

end Document

end FilterChain
