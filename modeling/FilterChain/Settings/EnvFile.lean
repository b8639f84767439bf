import FilterChain.Settings
import FilterChain.Text.Alphabetic
import FilterChain.Value

/-!
# Files of variables

A file of variables holds one assignment a line, such as `KEY=value`. Quotes may run over the end
of a line, `export` may stand in front, a number sign after a blank starts a comment, and a dollar
sign puts in the value of another variable. Assignments are read one after the other, up to the
first bad line.
-/

namespace FilterChain.EnvFile

structure Fault where
  line : String
  index : Nat
  deriving DecidableEq, Repr

def Fault.message (fault : Fault) : String :=
  s!"Error parsing line: '{fault.line}', error at line index: {fault.index}"

def byteCount (cs : List Char) : Nat :=
  cs.foldr (fun c count => c.utf8Size + count) 0

inductive Mode where
  | complete
  | escape
  | single
  | singleEscape
  | double
  | doubleEscape
  | blank
  deriving DecidableEq, Repr

def Mode.open (c : Char) : Mode :=
  if c = '\\' then .escape
  else if c = '\x22' then .double
  else if c = '\x27' then .single
  else .complete

/-- The mode after one more character, or nothing where a comment starts. -/
def Mode.next? : Mode → Char → Option Mode
  | .blank, c => if c = '#' then none else some (.open c)
  | .escape, _ => some .complete
  | .complete, c =>
    if Text.isBlank c ∧ c ≠ '\n' ∧ c ≠ '\r' then some .blank else some (.open c)
  | .double, c =>
    some (if c = '\\' then .doubleEscape else if c = '\x22' then .complete else .double)
  | .doubleEscape, _ => some .double
  | .single, c =>
    some (if c = '\\' then .singleEscape else if c = '\x27' then .complete else .single)
  | .singleEscape, _ => some .single

def follow : Mode → List Char → List Char × Option Mode
  | mode, [] => ([], some mode)
  | mode, c :: cs =>
    match mode.next? c with
    | none => ([], none)
    | some mode =>
      let (read, last?) := follow mode cs
      (c :: read, last?)

def physicalLines : List Char → List (List Char)
  | [] => []
  | c :: cs =>
    if c = '\n' then [c] :: physicalLines cs
    else
      match physicalLines cs with
      | [] => [[c]]
      | line :: rest => (c :: line) :: rest

def endsLine (line : List Char) : Bool :=
  line.getLast? = some '\n'

def chomp (line : List Char) : List Char :=
  if endsLine line then
    let body := line.dropLast
    if body.getLast? = some '\r' then body.dropLast else body
  else line

def startsComment (line : List Char) : Bool :=
  (line.dropWhile Text.isBlank).head? = some '#'

/-- Joins physical lines into logical ones, where `pending` is what an unfinished line holds so
far. Lines that start with a comment come out empty. The text must not end inside a line. -/
def logicalLines : (pending : List Char) → Mode → List (List Char) →
    List (List Char) × Option Fault
  | pending, mode, [] =>
    if mode = .complete then ([], none)
    else ([], some ⟨String.ofList pending, byteCount pending⟩)
  | pending, mode, line :: lines =>
    let whole := pending ++ line
    if startsComment whole then
      let (rest, fault?) := logicalLines [] .complete lines
      ([] :: rest, fault?)
    else
      match follow mode line with
      | (read, none) =>
        let (rest, fault?) := logicalLines [] .complete lines
        ((pending ++ read) :: rest, fault?)
      | (_, some .complete) =>
        let (rest, fault?) := logicalLines [] .complete lines
        (chomp whole :: rest, fault?)
      | (_, some mode) => logicalLines whole mode lines

abbrev Lookup : Type :=
  String → String

inductive ValueMode where
  | bare
  | escaped (quoted : Bool)
  | single
  | double
  | name (quoted : Bool) (chars : List Char)
  | braced (quoted : Bool) (chars : List Char)
  | done
  deriving DecidableEq, Repr

def ValueMode.outside (quoted : Bool) : ValueMode :=
  if quoted then .double else .bare

def unescape? (c : Char) : Option Char :=
  if c = '\\' ∨ c = '\x27' ∨ c = '\x22' ∨ c = '$' ∨ c = ' ' then some c
  else if c = 'n' then some '\n'
  else none

/-- Reads the characters of a value. A name of a variable ends with the first character that is
not alphanumeric, unless it stands in braces; that character belongs to the value. -/
def readChars (lookup : Lookup) (input : List Char) :
    (index : Nat) → ValueMode → List Char → Except Fault (List Char)
  | _, mode, [] =>
    let open? := .error ⟨String.ofList input, byteCount input - 1⟩
    match mode with
    | .single => open?
    | .double => open?
    | .escaped true => open?
    | .braced _ _ => open?
    | .name true _ => open?
    | .name false name => .ok (lookup (String.ofList name)).toList
    | _ => .ok []
  | index, mode, c :: cs =>
    let next (mode : ValueMode) (out : List Char) : Except Fault (List Char) :=
      (readChars lookup input (index + 1) mode cs).map (out ++ ·)
    match mode with
    | .done =>
      if c = ' ' ∨ c = '\t' then next .done []
      else if c = '#' then .ok []
      else .error ⟨String.ofList input, index⟩
    | .escaped quoted =>
      match unescape? c with
      | some e => next (.outside quoted) [e]
      | none => .error ⟨String.ofList input, index⟩
    | .single => if c = '\x27' then next .bare [] else next .single [c]
    | .name quoted name =>
      if Text.isAlphanumeric c then next (.name quoted (name ++ [c])) []
      else if c = '\x7b' ∧ name = [] then next (.braced quoted []) []
      else
        let found := (lookup (String.ofList name)).toList
        if c = '$' then next (.name quoted []) found
        else next (.outside quoted) (found ++ [c])
    | .braced quoted name =>
      if c = '\x7d' then next (.outside quoted) (lookup (String.ofList name)).toList
      else next (.braced quoted (name ++ [c])) []
    | .double =>
      if c = '$' then next (.name true []) []
      else if c = '\x22' then next .bare []
      else if c = '\\' then next (.escaped true) []
      else next .double [c]
    | .bare =>
      if c = '$' then next (.name false []) []
      else if c = '\x27' then next .single []
      else if c = '\x22' then next .double []
      else if c = '\\' then next (.escaped false) []
      else if c = ' ' ∨ c = '\t' then next .done []
      else next .bare [c]

def readValue (lookup : Lookup) (input : List Char) : Except Fault (List Char) :=
  readChars lookup input 0 .bare input

def startsKey (c : Char) : Bool :=
  Text.isAsciiLetter c || c == '_'

def continuesKey (c : Char) : Bool :=
  Text.isAsciiLetter c || Text.isAsciiDigit c || c == '_' || c == '.'

structure Cursor where
  line : List Char
  rest : List Char

namespace Cursor

def fault (start : List Char) (cursor : Cursor) : Fault :=
  ⟨String.ofList cursor.line, byteCount start - byteCount cursor.rest⟩

def skipBlanks (cursor : Cursor) : Cursor :=
  { cursor with rest := cursor.rest.dropWhile Text.isBlank }

end Cursor

def readKey (start : List Char) (cursor : Cursor) : Except Fault (String × Cursor) :=
  match cursor.rest with
  | [] => .error (cursor.fault start)
  | c :: _ =>
    if startsKey c then
      .ok (String.ofList (cursor.rest.takeWhile continuesKey),
        { cursor with rest := (cursor.rest.dropWhile continuesKey).dropWhile Text.isBlank })
    else .error (cursor.fault start)

def readEquals (start : List Char) (cursor : Cursor) : Except Fault Cursor :=
  match cursor.rest with
  | '=' :: r => .ok { cursor with rest := r.dropWhile Text.isBlank }
  | _ => .error (cursor.fault start)

/-- Reads up to the value: a name, which may have `export` in front of it, and the equals sign. -/
def readTarget (start : List Char) (cursor : Cursor) : Except Fault (String × Cursor) := do
  let (key, cursor) ← readKey start cursor
  if key = "export" then
    match readEquals start cursor with
    | .ok cursor => return (key, cursor)
    | .error _ =>
      let (key, cursor) ← readKey start cursor
      let cursor ← readEquals start cursor
      return (key, cursor)
  else
    let cursor ← readEquals start cursor
    return (key, cursor)

def readLine (lookup : Lookup) (line : List Char) : Except Fault (Option (String × String)) :=
  let start := Text.trimEndBy Text.isBlank line
  let cursor := (Cursor.mk line start).skipBlanks
  if cursor.rest = [] ∨ cursor.rest.head? = some '#' then .ok none
  else do
    let (key, cursor) ← readTarget start cursor
    if cursor.rest = [] ∨ cursor.rest.head? = some '#' then return some (key, "")
    let value ← readValue lookup cursor.rest
    return some (key, String.ofList value)

/-- Looks a variable up in the environment first, and then among the assignments so far. -/
def lookupIn (env assigned : List (String × String)) : Lookup :=
  fun name => ((env.lookup name).or (assigned.lookup name)).getD ""

def assignLine (env assigned : List (String × String)) (line : List Char) :
    Except Fault (List (String × String)) := do
  match ← readLine (lookupIn env assigned) line with
  | some pair => return pair :: assigned
  | none => return assigned

def assignments (env : List (String × String)) (text : String) :
    Except Fault (List (String × String)) := do
  let (lines, fault?) := logicalLines [] .complete (physicalLines text.toList)
  let assigned ← lines.foldlM (assignLine env) []
  match fault? with
  | some fault => throw fault
  | none => return assigned.reverse

/-- Puts a variable into an environment. One that is already set keeps its value, and no
environment can hold a value with a zero character. -/
def store (env : List (String × String)) (pair : String × String) :
    Except SettingsError (List (String × String)) :=
  if (env.lookup pair.1).isSome then .ok env
  else if '\x00' ∈ pair.2.toList then .error (.unstorable pair.1)
  else .ok (env ++ [pair])

def loadLines (env assigned : List (String × String)) : List (List Char) →
    Except SettingsError (List (String × String))
  | [] => .ok env
  | line :: lines =>
    match readLine (lookupIn env assigned) line with
    | .error _ => .ok env
    | .ok none => loadLines env assigned lines
    | .ok (some pair) => do
      let env ← store env pair
      loadLines env (pair :: assigned) lines

/-- The environment after a file has been loaded. A byte order mark in front of it is skipped. -/
def load (env : List (String × String)) (text : String) :
    Except SettingsError (List (String × String)) :=
  let cs :=
    match text.toList with
    | c :: cs => if c.toNat = 0xFEFF then cs else c :: cs
    | [] => []
  loadLines env [] (logicalLines [] .complete (physicalLines cs)).1

end EnvFile

namespace Settings

def ofFile (path : String) (text? : Option String) : Except SettingsError Settings :=
  match text? with
  | none => .error (.file s!"{path}: No such file or directory (os error 2)")
  | some text =>
    match EnvFile.assignments [] text with
    | .error fault => .error (.file s!"{path}: {fault.message}")
    | .ok vars => ofVars vars

def ofEnvironment (env : List (String × String)) (file? : Option String) :
    Except SettingsError Settings :=
  match file? with
  | none => ofVars env
  | some text => do
    let vars ← EnvFile.load env text
    ofVars vars

end Settings

end FilterChain
