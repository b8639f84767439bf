/-!
# Log entries

What a run of a chain reports while it works: lines of four levels, set off by an indent.
-/

namespace FilterChain.Log

inductive Level where
  | info
  | success
  | warning
  | error
  deriving DecidableEq, Repr

def Level.marker : Level → String
  | .info => "·"
  | .success => "✓"
  | .warning => "⚠️"
  | .error => "❌"

structure Entry where
  level : Level
  message : String
  indent : UInt8
  deriving DecidableEq, Repr

namespace Entry

def info (message : String) : Entry :=
  ⟨.info, message, 0⟩

def success (message : String) : Entry :=
  ⟨.success, message, 0⟩

/-- A warning concerns one step and stands under its chain. -/
def warning (message : String) : Entry :=
  ⟨.warning, message, 1⟩

def error (message : String) : Entry :=
  ⟨.error, message, 0⟩

def infoAt (message : String) (indent : UInt8) : Entry :=
  ⟨.info, message, indent⟩

def render (entry : Entry) : String :=
  String.ofList (List.replicate (3 * (entry.indent.toNat + 1)) ' ') ++ entry.level.marker ++
    " " ++ entry.message

end Entry

end FilterChain.Log
