/-!
# Regular patterns

A pattern describes a set of texts. Matching keeps the list of what may still follow: reading a
character replaces every pattern of that list by its residuals, the patterns for the rest of the
text, and a text matches when one of the last residuals allows nothing more to come.
-/

namespace FilterChain.Text

inductive Pattern where
  | empty
  | oneOf (chars : List Char)
  | followed (first second : Pattern)
  | either (left right : Pattern)
  /-- Any number of texts of a pattern, one after the other. -/
  | many (body : Pattern)
  deriving DecidableEq, Repr

namespace Pattern

def optional (p : Pattern) : Pattern :=
  .either p .empty

def many1 (p : Pattern) : Pattern :=
  .followed p (.many p)

/-- From `low` to `low + extra` texts of a pattern. -/
def between (p : Pattern) : (low extra : Nat) → Pattern
  | 0, 0 => .empty
  | 0, extra + 1 => optional (.followed p (between p 0 extra))
  | low + 1, extra => .followed p (between p low extra)

def allowsEmpty : Pattern → Bool
  | .empty => true
  | .oneOf _ => false
  | .followed p q => p.allowsEmpty && q.allowsEmpty
  | .either p q => p.allowsEmpty || q.allowsEmpty
  | .many _ => true

/-- Sequence, with an empty first part left out. -/
def andThen : Pattern → Pattern → Pattern
  | .empty, q => q
  | p, q => .followed p q

def residuals (c : Char) : Pattern → List Pattern
  | .empty => []
  | .oneOf chars => if c ∈ chars then [.empty] else []
  | .followed p q =>
    (residuals c p).map (·.andThen q) ++ if p.allowsEmpty then residuals c q else []
  | .either p q => residuals c p ++ residuals c q
  | .many p => (residuals c p).map (·.andThen (.many p))

def matchAny : List Pattern → List Char → Bool
  | ps, [] => ps.any allowsEmpty
  | ps, c :: cs => matchAny (ps.flatMap (residuals c)).eraseDups cs

def fits (p : Pattern) (cs : List Char) : Bool :=
  matchAny [p] cs

end Pattern

end FilterChain.Text
