import FilterChain.CommandLine

/-!
# The program

Reads the arguments, the environment and standard input, runs the command, and prints what it
answers.
-/

namespace FilterChain

partial def readAll (stream : IO.FS.Stream) (acc : String) : IO String := do
  let line ← stream.getLine
  if line.isEmpty then return acc else readAll stream (acc ++ line)

def settingNames : List String :=
  ["FILTROS_PORT", "FILTROS_LOG_ECHO", "FILTROS_DEFAULT_FILTER"]

def readEnvironment : IO (List (String × String)) := do
  let vars ← settingNames.filterMapM fun name => do
    return (← IO.getEnv name).map fun value => (name, value)
  return vars

def readEnvFile? : IO (Option String) := do
  try return some (← IO.FS.readFile ".env") catch _ => return none

def runProgram (args : List String) : IO UInt32 := do
  match CommandLine.command? args with
  | none =>
    IO.eprintln "usage: filtros apply|parse|operations|serve [ARGS]"
    return 2
  | some command =>
    let stdin ← if command.readsInput then readAll (← IO.getStdin) "" else pure ""
    match command.run stdin (← readEnvironment) (← readEnvFile?) with
    | .finished code stdout stderr =>
      IO.eprint stderr
      IO.print stdout
      return code.toUInt32
    | .listen settings =>
      IO.eprintln s!"no listener is built in; the service would use port {settings.port}"
      return 1

end FilterChain

def main (args : List String) : IO UInt32 :=
  FilterChain.runProgram args
