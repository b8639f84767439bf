import FilterChain.Operation
import FilterChain.Text.Case
import FilterChain.Text.Email
import FilterChain.Text.Word

/-!
# Text filters

Filters on the text of a scalar: case, trimming, character classes, masks, accents, addresses and
words. Each accepts every scalar and no container.
-/

namespace FilterChain.Filters

def isTrimmed (c : Char) : Bool :=
  c = ' ' || c = '\t' || c = '\n' || c = '\r' || c.toNat = 0 || c.toNat = 11

def placeholder : Char := '#'

/-- Each placeholder takes the next character of the source, and every other character of the
template is copied. The output stops where the source is used up. -/
def applyMask : (template source : List Char) → List Char
  | [], _ => []
  | _ :: _, [] => []
  | t :: ts, c :: cs =>
    if t = placeholder then c :: applyMask ts cs else t :: applyMask ts (c :: cs)

/-- The first characters, or all but the last ones if the limit is negative. -/
def applyLimit (limit : Int) (cs : List Char) : List Char :=
  if 0 ≤ limit then cs.take limit.toNat else cs.take (cs.length - limit.natAbs)

/-- Accented letters and ordinal signs with the ASCII characters that replace them. -/
def accentGroups : List (List Char × Char) :=
  [
    (['á', 'à', 'ã', 'â', 'ä'], 'a'), (['Á', 'À', 'Ã', 'Â', 'Ä'], 'A'),
    (['é', 'è', 'ê', 'ë'], 'e'), (['É', 'È', 'Ê', 'Ë'], 'E'),
    (['í', 'ì', 'î', 'ï'], 'i'), (['Í', 'Ì', 'Î', 'Ï'], 'I'),
    (['ó', 'ò', 'õ', 'ô', 'ö'], 'o'), (['Ó', 'Ò', 'Õ', 'Ô', 'Ö'], 'O'),
    (['ú', 'ù', 'û', 'ü'], 'u'), (['Ú', 'Ù', 'Û', 'Ü'], 'U'),
    (['ñ'], 'n'), (['Ñ'], 'N'), (['ç'], 'c'), (['Ç'], 'C'), (['°', 'ª', 'º'], '.')
  ]

def plain? (c : Char) : Option Char :=
  match accentGroups.find? (fun group => group.1.contains c) with
  | some group => some group.2
  | none => if Text.isAscii c then some c else none

def keepDigits : List Char → List Char :=
  List.filter Text.isAsciiDigit

def keepAlphanumeric : List Char → List Char :=
  List.filter fun c => Text.isAsciiDigit c || Text.isAsciiLetter c || c == ' '

def keepLetters : List Char → List Char :=
  List.filter fun c => Text.isAsciiLetter c || c == ' '

def onText (f : List Char → List Char) (v : Value) : Except OperationError Value := do
  let s ← v.asText
  return .text (String.ofList (f s.toList))

def nullIfBlank (v : Value) : Except OperationError Value := do
  let s ← v.asText
  return if Text.trimBy isTrimmed s.toList = [] then .null else v

def lowercase : Value → Except OperationError Value :=
  onText Text.lower

def uppercase : Value → Except OperationError Value :=
  onText Text.upper

def trim : Value → Except OperationError Value :=
  onText (Text.trimBy isTrimmed)

def digitsOnly : Value → Except OperationError Value :=
  onText keepDigits

def alphanumericOnly : Value → Except OperationError Value :=
  onText keepAlphanumeric

def lettersOnly : Value → Except OperationError Value :=
  onText keepLetters

def mask (template : String) : Value → Except OperationError Value :=
  onText (applyMask template.toList)

def limit (n : Int) : Value → Except OperationError Value :=
  onText (applyLimit n)

def removeAccents : Value → Except OperationError Value :=
  onText (List.filterMap plain?)

def checkEmail (v : Value) : Except OperationError Value := do
  let s ← v.asText
  return if Text.isEmail s.toList then v else .null

def splitWords (v : Value) : Except OperationError Value := do
  let s ← v.asText
  return .list ((Text.words s.toList).map fun word => .text (String.ofList word))

def squeezeBlanks : Value → Except OperationError Value :=
  onText Text.squeeze

def squeezeOperation : Operation :=
  .unary "revomeEspacoDuplicado" "Collapse whitespace runs into a single space" squeezeBlanks

def textOperations : List Operation :=
  [
    .unary "null" "Blank or whitespace-only value to null, anything else unchanged" nullIfBlank,
    .unary "minusculo" "Convert to lowercase" lowercase,
    .unary "maiusculo" "Convert to uppercase" uppercase,
    .unary "trim" "Remove leading/trailing whitespace" trim,
    .unary "digitos" "Keep only digits" digitsOnly,
    .unary "alfanumericos" "Keep only ASCII letters, digits and spaces" alphanumericOnly,
    .unary "letras" "Keep only ASCII letters and spaces" lettersOnly,
    ⟨"mascara", ⟨[.required "mask"]⟩, "Apply a mask where '#' takes the next source character",
      fun v args => mask (args.get 0) v⟩,
    ⟨"limitar", ⟨[.required "limit"]⟩,
      "Keep the first N characters (negative N drops from the end)",
      fun v args => do limit (← args.readWhole 0 .signed) v⟩,
    .unary "removeAcentos" "Replace accented letters and drop other non-ASCII characters"
      removeAccents,
    .unary "emailValidator" "Null unless the value is a well-formed e-mail address" checkEmail,
    .unary "palavras" "Split into a list of words" splitWords,
    squeezeOperation,
    squeezeOperation.withName "removeEspacoDuplicado"
  ]

end FilterChain.Filters
