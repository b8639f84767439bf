import FilterChain.Calendar.Reading
import FilterChain.Calendar.Writing
import FilterChain.Operation

/-!
# Dates in other layouts

A filter that reads the text of a scalar as a date along one layout and writes it along another.
What does not read as a date becomes null.
-/

namespace FilterChain.Filters

/-- An error for layouts that hold something else than fields and literal characters. -/
def checkLayout (direction : Calendar.Direction) (layout : String) : Except OperationError Unit :=
  if (Calendar.layoutItems direction layout).contains .invalid then
    .error (.invalidArgument "format" layout "unsupported date pattern")
  else .ok ()

def readDate (text layout : String) : Except OperationError (Option Calendar.DateTime) := do
  checkLayout .reading layout
  return Calendar.readDateTime? layout text

def reformatDate (source target : String) (v : Value) : Except OperationError Value := do
  let s ← v.asText
  checkLayout .writing target
  match ← readDate (Text.strip s) source with
  | some t => return .text (Calendar.writeDateTime target t)
  | none => return .null

def dateOperations : List Operation :=
  [
    ⟨"formata_data", ⟨[.optional "from" "Y-m-d", .optional "to" "d/m/Y"]⟩,
      "Reformat a date between two patterns, null if it does not parse",
      fun v args => reformatDate (args.get 0) (args.get 1) v⟩
  ]

end FilterChain.Filters
