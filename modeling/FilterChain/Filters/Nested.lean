import FilterChain.Filters.Text

/-!
# Nested values

Filters on lists and records. Two of them apply a text filter to every scalar inside; the third
changes the names of all fields.
-/

namespace FilterChain.Filters

def nullBlankLeaves (v : Value) : Except OperationError Value := do
  v.requireContainer
  v.mapLeaves nullIfBlank

def trimLeaves (v : Value) : Except OperationError Value := do
  v.requireContainer
  v.mapLeaves trim

/-- How the letters in the names of fields change. Only ASCII letters do. -/
inductive KeyCase where
  | lower
  | upper
  | upperFirst
  | lowerFirst
  deriving DecidableEq, Repr

namespace KeyCase

def apply (case : KeyCase) (key : String) : String :=
  let onFirst (f : Char → Char) : List Char → List Char
    | [] => []
    | c :: cs => f c :: cs
  String.ofList <|
    match case with
    | .lower => key.toList.map Text.lowerAscii
    | .upper => key.toList.map Text.upperAscii
    | .upperFirst => onFirst Text.upperAscii key.toList
    | .lowerFirst => onFirst Text.lowerAscii key.toList

def read (name : String) : Except String KeyCase :=
  if name = "strtolower" then .ok .lower
  else if name = "strtoupper" then .ok .upper
  else if name = "ucfirst" then .ok .upperFirst
  else if name = "lcfirst" then .ok .lowerFirst
  else
    .error (s!"unknown key callback '{name}' " ++
      "(expected strtolower, strtoupper, ucfirst or lcfirst)")

end KeyCase

mutual

/-- Changes the names of all fields inside a value. Where two fields of a record get one name,
the later value takes the place of the earlier. -/
def renameKeys (case : KeyCase) : Value → Value
  | .list items => .list (renameItems case items)
  | .record fields => .record (Fields.ofList (renameFields case fields))
  | .null => .null
  | .bool b => .bool b
  | .number n => .number n
  | .text s => .text s

def renameItems (case : KeyCase) : List Value → List Value
  | [] => []
  | v :: vs => renameKeys case v :: renameItems case vs

def renameFields (case : KeyCase) : List (String × Value) → List (String × Value)
  | [] => []
  | (k, v) :: fs => (case.apply k, renameKeys case v) :: renameFields case fs

end

def convertKeys (case : KeyCase) (v : Value) : Except OperationError Value := do
  v.requireContainer
  return renameKeys case v

def nestedOperations : List Operation :=
  [
    .unary "null_array" "Apply `null` to every value of a nested array/object" nullBlankLeaves,
    .unary "trim_array" "Apply `trim` to every value of a nested array/object" trimLeaves,
    ⟨"array_convert_key_case", ⟨[.optional "callback" "strtolower"]⟩,
      "Convert object keys: strtolower, strtoupper, ucfirst or lcfirst",
      fun v args => do
        let case ← args.read 0 fun cs => KeyCase.read (String.ofList cs)
        convertKeys case v⟩
  ]

end FilterChain.Filters
