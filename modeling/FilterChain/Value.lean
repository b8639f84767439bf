import FilterChain.Number.Shortest

/-!
# Values

The values that flow through a chain of filters: scalars, lists, and records with fields in order.
A whole number keeps its digits; any other number is a binary one. The fields of a record come
from `Fields.ofList`, which keeps the first position and the last value of a repeated name.
-/

namespace FilterChain

inductive Number where
  | whole (n : Int)
  | binary (x : Binary64)
  deriving DecidableEq, Repr

inductive Value where
  | null
  | bool (b : Bool)
  | number (n : Number)
  | text (s : String)
  | list (items : List Value)
  | record (fields : List (String × Value))
  deriving Repr

namespace Number

def text : Number → List Char
  | .whole n => (if n < 0 then ['-'] else []) ++ decimalDigits n.natAbs
  | .binary x => x.text

def toBinary? : Number → Option Binary64
  | .whole n => Binary64.ofInt? n
  | .binary x => some x

end Number

namespace Fields

/-- Sets a field: in its place if the name is there, else at the end. -/
def put {α : Type} (name : String) (value : α) : List (String × α) → List (String × α)
  | [] => [(name, value)]
  | (key, old) :: rest =>
    if key = name then (key, value) :: rest else (key, old) :: put name value rest

def ofList {α : Type} (fields : List (String × α)) : List (String × α) :=
  fields.foldl (fun acc field => put field.1 field.2 acc) []

def names {α : Type} (fields : List (String × α)) : List String :=
  fields.map Prod.fst

theorem lookup_put_self {α : Type} (name : String) (value : α)
    (fields : List (String × α)) :
    (put name value fields).lookup name = some value := by
  induction fields with
  | nil => simp [put]
  | cons field rest ih =>
    obtain ⟨key, old⟩ := field
    by_cases h : key = name
    · simp [put, h]
    · have hne : (name == key) = false := by simpa using Ne.symm h
      simp [put, h, List.lookup_cons, hne, ih]

theorem lookup_put_of_ne {α : Type} {name other : String} (h : other ≠ name)
    (value : α) (fields : List (String × α)) :
    (put name value fields).lookup other = fields.lookup other := by
  induction fields with
  | nil =>
    have hne : (other == name) = false := by simpa using h
    simp [put, List.lookup_cons, hne]
  | cons field rest ih =>
    obtain ⟨key, old⟩ := field
    by_cases hk : key = name
    · subst hk
      have hne : (other == key) = false := by simpa using h
      simp [put, List.lookup_cons, hne]
    · simp [put, hk, List.lookup_cons, ih]

/-- A name that is there keeps its position; a new one comes last. -/
theorem names_put {α : Type} (name : String) (value : α) (fields : List (String × α)) :
    names (put name value fields) =
      if name ∈ names fields then names fields else names fields ++ [name] := by
  induction fields with
  | nil => simp [put, names]
  | cons field rest ih =>
    obtain ⟨key, old⟩ := field
    by_cases hk : key = name
    · simp [put, names, hk]
    · have hne : ¬ name = key := Ne.symm hk
      simp only [names] at ih
      by_cases hm : name ∈ List.map Prod.fst rest <;> simp_all [put, names]

end Fields

namespace Value

mutual

def decEq : (v w : Value) → Decidable (v = w)
  | .null, .null => isTrue rfl
  | .bool a, .bool b => decidable_of_iff (a = b) (by simp)
  | .number a, .number b => decidable_of_iff (a = b) (by simp)
  | .text a, .text b => decidable_of_iff (a = b) (by simp)
  | .list a, .list b =>
    match decEqItems a b with
    | isTrue h => isTrue (by rw [h])
    | isFalse h => isFalse (by simpa using h)
  | .record a, .record b =>
    match decEqFields a b with
    | isTrue h => isTrue (by rw [h])
    | isFalse h => isFalse (by simpa using h)
  | .null, .bool _ | .null, .number _ | .null, .text _ | .null, .list _ | .null, .record _
  | .bool _, .null | .bool _, .number _ | .bool _, .text _ | .bool _, .list _
  | .bool _, .record _
  | .number _, .null | .number _, .bool _ | .number _, .text _ | .number _, .list _
  | .number _, .record _
  | .text _, .null | .text _, .bool _ | .text _, .number _ | .text _, .list _
  | .text _, .record _
  | .list _, .null | .list _, .bool _ | .list _, .number _ | .list _, .text _
  | .list _, .record _
  | .record _, .null | .record _, .bool _ | .record _, .number _ | .record _, .text _
  | .record _, .list _ => isFalse (by simp)

def decEqItems : (vs ws : List Value) → Decidable (vs = ws)
  | [], [] => isTrue rfl
  | [], _ :: _ => isFalse (by simp)
  | _ :: _, [] => isFalse (by simp)
  | v :: vs, w :: ws =>
    match decEq v w, decEqItems vs ws with
    | isTrue h, isTrue hs => isTrue (by rw [h, hs])
    | isFalse h, _ => isFalse (by simp [h])
    | _, isFalse hs => isFalse (by simp [hs])

def decEqFields : (fs gs : List (String × Value)) → Decidable (fs = gs)
  | [], [] => isTrue rfl
  | [], _ :: _ => isFalse (by simp)
  | _ :: _, [] => isFalse (by simp)
  | (k, v) :: fs, (l, w) :: gs =>
    if hk : k = l then
      match decEq v w, decEqFields fs gs with
      | isTrue h, isTrue hs => isTrue (by rw [hk, h, hs])
      | isFalse h, _ => isFalse (by simp [h])
      | _, isFalse hs => isFalse (by simp [hs])
    else isFalse (by simp [hk])

end

instance : DecidableEq Value :=
  decEq

def kind : Value → String
  | .null => "null"
  | .bool _ => "boolean"
  | .number _ => "number"
  | .text _ => "string"
  | .list _ => "array"
  | .record _ => "object"

def isContainer : Value → Bool
  | .list _ => true
  | .record _ => true
  | _ => false

end Value

end FilterChain
