import FilterChain.Number.Numeral
import FilterChain.Text.Blank

/-!
# Settings

The settings of the service, read from variables. Variables that it does not know are ignored, and
of several with one name the last one counts. The first one with a bad value is reported.
-/

namespace FilterChain

inductive SettingsError where
  | port (value : String)
  | logEcho (value : String)
  | file (detail : String)
  | unstorable (name : String)
  deriving DecidableEq, Repr

def SettingsError.message : SettingsError → String
  | .port value => s!"FILTROS_PORT must be a port number, got '{value}'"
  | .logEcho value => s!"FILTROS_LOG_ECHO must be true or false, got '{value}'"
  | .file detail => detail
  | .unstorable name => s!"the environment cannot hold the value of {name}"

structure Settings where
  port : Nat
  logEcho : Bool
  defaultFilter? : Option String
  deriving DecidableEq, Repr

namespace Settings

def initial : Settings :=
  ⟨3000, true, none⟩

/-- Reads a truth value, with any case and with blanks around it. -/
def readSwitch? (value : String) : Option Bool :=
  let word := String.ofList ((Text.trimBy Text.isBlank value.toList).map Text.lowerAscii)
  if word ∈ ["1", "true", "yes", "on"] then some true
  else if word ∈ ["0", "false", "no", "off"] then some false
  else none

def readPort? (value : String) : Option Nat :=
  match Bounds.port.read (Text.trimBy Text.isBlank value.toList) with
  | .ok n => some n.toNat
  | .error _ => none

def readFilter (value : String) : Option String :=
  let filter := Text.strip value
  if filter = "" then none else some filter

def setVar (settings : Settings) (var : String × String) : Except SettingsError Settings :=
  if var.1 = "FILTROS_PORT" then
    match readPort? var.2 with
    | some port => .ok { settings with port := port }
    | none => .error (.port var.2)
  else if var.1 = "FILTROS_LOG_ECHO" then
    match readSwitch? var.2 with
    | some on => .ok { settings with logEcho := on }
    | none => .error (.logEcho var.2)
  else if var.1 = "FILTROS_DEFAULT_FILTER" then
    .ok { settings with defaultFilter? := readFilter var.2 }
  else .ok settings

def ofVars (vars : List (String × String)) : Except SettingsError Settings :=
  vars.foldlM setVar initial

end Settings

end FilterChain
