import FilterChain.Document.Reader
import FilterChain.Settings.EnvFile
import FilterChain.Wire

/-!
# The command line

Commands that run a specification on a value, show its steps, list the operations, or start the
service. A command that fails prints nothing to its standard output.
-/

namespace FilterChain

inductive Failure where
  | chain (error : ChainError)
  | request (detail : String)
  | settings (error : SettingsError)
  | json (detail : String)
  deriving DecidableEq, Repr

def Failure.message : Failure → String
  | .chain error => s!"Filter error: {error.message}"
  | .request detail => s!"Invalid request: {detail}"
  | .settings error => s!"Invalid configuration: {error.message}"
  | .json detail => s!"JSON error: {detail}"

inductive Command where
  | apply (filter : String) (value? : Option String) (json trace : Bool)
  | parse (filter : String)
  | operations (json : Bool)
  | serve (port? : Option Nat)
  deriving DecidableEq, Repr

/-- How a command ends: with what it prints and an exit code, or with a service to be started. -/
inductive Outcome where
  | finished (code : Nat) (stdout stderr : String)
  | listen (settings : Settings)
  deriving DecidableEq, Repr

namespace CommandLine

structure OptionName where
  long : String
  short? : Option Char
  takesValue : Bool
  deriving DecidableEq, Repr

structure Sorted where
  positional : List String
  given : List (String × String)
  deriving DecidableEq, Repr

namespace Sorted

def addPositional (arg : String) (s : Sorted) : Sorted :=
  { s with positional := s.positional ++ [arg] }

def addOption (name value : String) (s : Sorted) : Option Sorted :=
  if (s.given.lookup name).isSome then none
  else some { s with given := s.given ++ [(name, value)] }

def has (name : String) (s : Sorted) : Bool :=
  (s.given.lookup name).isSome

end Sorted

/-- What an argument with leading hyphens asks for: options, and one that still needs a value. -/
structure Asked where
  given : List (String × String)
  open? : Option String

/-- Reads a cluster of one-letter options. The rest of a cluster can be the value of an option. -/
def readCluster? (options : List OptionName) : List Char → Option Asked
  | [] => some ⟨[], none⟩
  | c :: cs => do
    let option ← options.find? (·.short? = some c)
    if option.takesValue then
      let value := if cs.head? = some '=' then cs.drop 1 else cs
      if cs = [] then some ⟨[], some option.long⟩
      else some ⟨[(option.long, String.ofList value)], none⟩
    else
      let rest ← readCluster? options cs
      some { rest with given := (option.long, "") :: rest.given }

def readLong? (options : List OptionName) (cs : List Char) : Option Asked := do
  let (name, value?) := Text.cutFirst '=' cs
  let option ← options.find? (·.long.toList = name)
  match value?, option.takesValue with
  | none, false => some ⟨[(option.long, "")], none⟩
  | none, true => some ⟨[], some option.long⟩
  | some value, true => some ⟨[(option.long, String.ofList value)], none⟩
  | some _, false => none

def addAll (given : List (String × String)) (s : Sorted) : Option Sorted :=
  given.foldlM (fun s option => s.addOption option.1 option.2) s

/-- Sorts arguments. Everything behind two hyphens is positional, and so is a single hyphen. The
value of an option must not start with a hyphen unless it is joined to it. -/
def sortArgs? (options : List OptionName) : List String → Sorted → Option Sorted
  | [], s => some s
  | arg :: args, s =>
    match arg.toList with
    | ['-', '-'] => some { s with positional := s.positional ++ args }
    | '-' :: c :: cs =>
      match if c = '-' then readLong? options cs else readCluster? options (c :: cs) with
      | none => none
      | some asked =>
        match addAll asked.given s, asked.open?, args with
        | none, _, _ => none
        | some s, none, args => sortArgs? options args s
        | some _, some _, [] => none
        | some s, some name, value :: args =>
          if value.toList.head? = some '-' ∧ value ≠ "-" then none
          else
            match s.addOption name value with
            | some s => sortArgs? options args s
            | none => none
    | _ => sortArgs? options args (s.addPositional arg)

def jsonOption : OptionName :=
  ⟨"json", some 'j', false⟩

def traceOption : OptionName :=
  ⟨"trace", some 't', false⟩

def jsonListOption : OptionName :=
  ⟨"json", none, false⟩

def portOption : OptionName :=
  ⟨"port", some 'p', true⟩

def readPort? (value : String) : Option Nat :=
  match Bounds.signed.read value.toList with
  | .ok n => if 0 ≤ n ∧ n ≤ Bounds.port.high then some n.toNat else none
  | .error _ => none

def Sorted.empty : Sorted :=
  ⟨[], []⟩

def command? : List String → Option Command
  | "apply" :: args => do
    let s ← sortArgs? [jsonOption, traceOption] args .empty
    match s.positional with
    | [filter] => some (.apply filter none (s.has "json") (s.has "trace"))
    | [filter, value] => some (.apply filter (some value) (s.has "json") (s.has "trace"))
    | _ => none
  | "parse" :: args => do
    let s ← sortArgs? [] args .empty
    match s.positional with
    | [filter] => some (.parse filter)
    | _ => none
  | "operations" :: args => do
    let s ← sortArgs? [jsonListOption] args .empty
    if s.positional = [] then some (.operations (s.has "json")) else none
  | "serve" :: args => do
    let s ← sortArgs? [portOption] args .empty
    if s.positional ≠ [] then none
    else
      match s.given.lookup "port" with
      | some value => (readPort? value).map fun port => .serve (some port)
      | none => some (.serve none)
  | _ => none

def readInput (stdin : String) : Except Failure String :=
  let input := String.ofList (Text.trimEndBy (fun c => c = '\n' || c = '\r') stdin.toList)
  if input = "" then .error (.request "no value given and stdin is empty") else .ok input

def inputValue (json : Bool) (raw : String) : Except Failure Value :=
  if json then (Value.read raw).mapError fun fault => .json (fault.message raw)
  else .ok (.text raw)

def traceLine (record : StepRecord) : String :=
  s!"   #{record.index} {record.name}: {record.input.toText} -> {record.output.toText}\n"

/-- What a successful command prints: standard output, and standard error. -/
abbrev Printed : Type :=
  String × String

def apply (filter : String) (value? : Option String) (json trace : Bool) (stdin : String) :
    Except Failure Printed := do
  let raw ← value?.elim (readInput stdin) .ok
  let input ← inputValue json raw
  let chain ← (Chain.parse filter).mapError .chain
  if trace then
    let (result, records) ←
      (Run.traced .builtin 0 chain.steps input).outcome.mapError Failure.chain
    return (result.toLines ++ "\n", String.join (records.map traceLine))
  else
    let result ← (Run.plain .builtin chain.steps input).outcome.mapError Failure.chain
    return (result.toLines ++ "\n", "")

def parse (filter : String) : Except Failure Printed := do
  let chain ← (Chain.parse filter).mapError .chain
  let unknown := Registry.builtin.unknown chain.steps
  let warning :=
    if unknown = [] then ""
    else "   ⚠️  Unknown operations: " ++ ", ".intercalate unknown ++ "\n"
  return ((Value.list (chain.steps.map Step.toValue)).toLines ++ "\n",
    s!"📄 {chain.length} step(s)\n" ++ warning)

def operations (json : Bool) : Printed :=
  if json then
    ((Value.record [("operations", Registry.builtin.describe)]).toLines ++ "\n", "")
  else (operationsHelp ++ "\n", "")

def serveSettings (port? : Option Nat) (env : List (String × String)) (file? : Option String) :
    Except Failure Settings := do
  let settings ← (Settings.ofEnvironment env file?).mapError .settings
  return { settings with port := port?.getD settings.port }

def finish : Except Failure Printed → Outcome
  | .ok (stdout, stderr) => .finished 0 stdout stderr
  | .error failure => .finished 1 "" s!"❌ Error: {failure.message}\n"

end CommandLine

def Command.readsInput : Command → Bool
  | .apply _ none _ _ => true
  | _ => false

def Command.run (command : Command) (stdin : String) (env : List (String × String))
    (file? : Option String) : Outcome :=
  match command with
  | .apply filter value? json trace =>
    CommandLine.finish (CommandLine.apply filter value? json trace stdin)
  | .parse filter => CommandLine.finish (CommandLine.parse filter)
  | .operations json => CommandLine.finish (.ok (CommandLine.operations json))
  | .serve port? =>
    match CommandLine.serveSettings port? env file? with
    | .ok settings => .listen settings
    | .error failure => CommandLine.finish (.error failure)

end FilterChain
