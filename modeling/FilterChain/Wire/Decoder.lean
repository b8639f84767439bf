import FilterChain.Document.Reader
import FilterChain.Wire

/-!
# Reading wire forms

Types are read from documents, in the order of the text, so that the first trouble decides what is
reported: that the text is not JSON, or that it is JSON of another form. Fields that a type does
not know are skipped. A field of a type must not be repeated, but it may be left out where the
type has a default for it. In place of a record, a list may give the fields in order.
-/

namespace FilterChain

inductive DecodeError where
  | notJson
  | mismatch
  deriving DecidableEq, Repr

abbrev Decoder (α : Type) : Type :=
  Document → Except DecodeError α

namespace Decoder

/-- What is wrong with a document that has none of the forms a type allows. -/
def reject {α : Type} : Decoder α
  | .flawed _ _ => .error .notJson
  | .cut _ => .error .notJson
  | _ => .error .mismatch

def text : Decoder String
  | .text s => .ok s
  | d => reject d

def bool : Decoder Bool
  | .bool b => .ok b
  | d => reject d

def natUpTo (bound : Nat) : Decoder Nat
  | .number (.whole n) => if 0 ≤ n ∧ n ≤ bound then .ok n.toNat else .error .mismatch
  | d => reject d

def value : Decoder Value :=
  fun d => d.toValue.mapError fun _ => .notJson

def orNull {α : Type} (decoder : Decoder α) : Decoder (Option α)
  | .null => .ok none
  | d => (decoder d).map some

def listOf {α : Type} (decoder : Decoder α) : Decoder (List α)
  | .list items => items.mapM decoder
  | d => reject d

def skip (d : Document) : Except DecodeError Unit :=
  match d.firstCut? with
  | some _ => .error .notJson
  | none => .ok ()

def once {α : Type} (place? : Option α) (decoder : Decoder α) (d : Document) :
    Except DecodeError (Option α) :=
  match place? with
  | some _ => .error .mismatch
  | none => (decoder d).map some

/-- Reads the fields one after the other; `field` answers with nothing for an unknown name. -/
def fields {σ : Type} (field : String → Document → σ → Option (Except DecodeError σ)) :
    List (Document.Key × Document) → σ → Except DecodeError σ
  | [], state => .ok state
  | (⟨_, some _⟩, _) :: _, _ => .error .notJson
  | (⟨name, none⟩, d) :: rest, state => do
    match field name d state with
    | some result => fields field rest (← result)
    | none => do
      skip d
      fields field rest state

/-- Reads a record, or a list of the fields called `names`. -/
def recordOf {σ : Type} (names : List String)
    (field : String → Document → σ → Option (Except DecodeError σ)) (initial : σ) : Decoder σ
  | .record fs => fields field fs initial
  | .list items => do
    let state ← fields field ((names.map fun name => ⟨name, none⟩).zip items) initial
    if names.length < items.length then throw .notJson
    return state
  | d => reject d

def need {α : Type} (place? : Option α) : Except DecodeError α :=
  match place? with
  | some a => .ok a
  | none => .error .mismatch

end Decoder

namespace Step

structure Slots where
  name? : Option String
  args? : Option (List String)

def field (name : String) (d : Document) (s : Slots) : Option (Except DecodeError Slots) :=
  if name = "name" then
    some ((Decoder.once s.name? .text d).map fun a => { s with name? := a })
  else if name = "args" then
    some ((Decoder.once s.args? (.listOf .text) d).map fun a => { s with args? := a })
  else none

def decode : Decoder Step := fun d => do
  let s ← Decoder.recordOf ["name", "args"] field ⟨none, none⟩ d
  return ⟨← Decoder.need s.name?, s.args?.getD []⟩

end Step

namespace StepRecord

structure Slots where
  index? : Option Nat
  name? : Option String
  args? : Option (List String)
  input? : Option Value
  output? : Option Value

def field (name : String) (d : Document) (s : Slots) : Option (Except DecodeError Slots) :=
  if name = "index" then
    some ((Decoder.once s.index? (.natUpTo 0xFFFFFFFFFFFFFFFF) d).map fun a => { s with index? := a })
  else if name = "name" then
    some ((Decoder.once s.name? .text d).map fun a => { s with name? := a })
  else if name = "args" then
    some ((Decoder.once s.args? (.listOf .text) d).map fun a => { s with args? := a })
  else if name = "input" then
    some ((Decoder.once s.input? .value d).map fun a => { s with input? := a })
  else if name = "output" then
    some ((Decoder.once s.output? .value d).map fun a => { s with output? := a })
  else none

def decode : Decoder StepRecord := fun d => do
  let s ← Decoder.recordOf ["index", "name", "args", "input", "output"] field
    ⟨none, none, none, none, none⟩ d
  return ⟨← Decoder.need s.index?, ← Decoder.need s.name?, ← Decoder.need s.args?,
    ← Decoder.need s.input?, ← Decoder.need s.output?⟩

end StepRecord

namespace Log

/-- A level is its name, or a record with null under its name. -/
def Level.decode : Decoder Level
  | .text s => Decoder.need (Level.ofName? s)
  | .record ((⟨_, some _⟩, _) :: _) => .error .notJson
  | .record [(⟨s, none⟩, .null)] => Decoder.need (Level.ofName? s)
  | d => Decoder.reject d

namespace Entry

structure Slots where
  level? : Option Level
  message? : Option String
  indent? : Option Nat

def field (name : String) (d : Document) (s : Slots) : Option (Except DecodeError Slots) :=
  if name = "level" then
    some ((Decoder.once s.level? Level.decode d).map fun a => { s with level? := a })
  else if name = "message" then
    some ((Decoder.once s.message? .text d).map fun a => { s with message? := a })
  else if name = "indent" then
    some ((Decoder.once s.indent? (.natUpTo 255) d).map fun a => { s with indent? := a })
  else none

def decode : Decoder Entry := fun d => do
  let s ← Decoder.recordOf ["level", "message", "indent"] field ⟨none, none, none⟩ d
  return ⟨← Decoder.need s.level?, ← Decoder.need s.message?, (s.indent?.getD 0).toUInt8⟩

end Entry

end Log

namespace ApplyRequest

structure Slots where
  filter? : Option (Option String)
  value? : Option Value
  trace? : Option Bool

def field (name : String) (d : Document) (s : Slots) : Option (Except DecodeError Slots) :=
  if name = "filter" then
    some ((Decoder.once s.filter? (.orNull .text) d).map fun a => { s with filter? := a })
  else if name = "value" then
    some ((Decoder.once s.value? .value d).map fun a => { s with value? := a })
  else if name = "trace" then
    some ((Decoder.once s.trace? .bool d).map fun a => { s with trace? := a })
  else none

def decode : Decoder ApplyRequest := fun d => do
  let s ← Decoder.recordOf ["filter", "value", "trace"] field ⟨none, none, none⟩ d
  return ⟨s.filter?.getD none, s.value?.getD .null, s.trace?.getD false⟩

end ApplyRequest

namespace ApplyResponse

structure Slots where
  requestId? : Option String
  status? : Option String
  filter? : Option String
  result? : Option Value
  trace? : Option (Option (List StepRecord))

def field (name : String) (d : Document) (s : Slots) : Option (Except DecodeError Slots) :=
  if name = "requestId" then
    some ((Decoder.once s.requestId? .text d).map fun a => { s with requestId? := a })
  else if name = "status" then
    some ((Decoder.once s.status? .text d).map fun a => { s with status? := a })
  else if name = "filter" then
    some ((Decoder.once s.filter? .text d).map fun a => { s with filter? := a })
  else if name = "result" then
    some ((Decoder.once s.result? .value d).map fun a => { s with result? := a })
  else if name = "trace" then
    some ((Decoder.once s.trace? (.orNull (.listOf StepRecord.decode)) d).map fun a =>
      { s with trace? := a })
  else none

def decode : Decoder ApplyResponse := fun d => do
  let s ← Decoder.recordOf ["requestId", "status", "filter", "result", "trace"] field
    ⟨none, none, none, none, none⟩ d
  return ⟨← Decoder.need s.requestId?, ← Decoder.need s.status?, ← Decoder.need s.filter?,
    ← Decoder.need s.result?, s.trace?.getD none⟩

end ApplyResponse

/-- Reads a type from a text, behind which nothing else may stand. -/
def decodeText {α : Type} (decoder : Decoder α) (s : String) : Except DecodeError α :=
  match Document.read s.toList with
  | (document, trailing?) => do
    let a ← decoder document
    if trailing?.isSome then throw .notJson
    return a

end FilterChain
