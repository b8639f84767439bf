import FilterChain.Error
import FilterChain.Text.Pieces

/-!
# Steps

A step names an operation and lists arguments for it. As text it is the name alone, or the name,
a colon, and the arguments with commas between them. Only the first colon divides: any other is
part of an argument. A specification is steps with bars between them.
-/

namespace FilterChain

def stepSeparator : Char := '|'

def argsDelimiter : Char := ':'

def argSeparator : Char := ','

structure Step where
  name : String
  args : List String
  deriving DecidableEq, Repr

def isUsableName (name : String) : Bool :=
  !name.isEmpty && !name.toList.contains stepSeparator && !name.toList.contains argsDelimiter

theorem isUsableName_ofList {cs : List Char} (hne : cs ≠ []) (hsep : stepSeparator ∉ cs)
    (hdel : argsDelimiter ∉ cs) : isUsableName (String.ofList cs) = true := by
  simp [isUsableName, hne, hsep, hdel]

namespace Step

/-- Reads a step from the text between two bars; `position` counts steps from zero. -/
def parse (token : String) (position : Nat) : Except ChainError Step :=
  match Text.cutFirst argsDelimiter token.toList with
  | ([], _) => .error (.malformedStep position token)
  | (name, none) => .ok ⟨String.ofList name, []⟩
  | (name, some args) =>
    .ok ⟨String.ofList name, (Text.pieces argSeparator args).map String.ofList⟩

theorem isUsableName_of_parse {token : String} {position : Nat} {step : Step}
    (hsep : stepSeparator ∉ token.toList) (h : parse token position = .ok step) :
    isUsableName step.name = true := by
  have hdel := Text.not_mem_cutFirst_fst argsDelimiter token.toList
  have hbar : stepSeparator ∉ (Text.cutFirst argsDelimiter token.toList).1 :=
    fun hc => hsep (Text.mem_of_mem_cutFirst_fst hc)
  unfold parse at h
  split at h
  · simp at h
  · next name hne hcut =>
    rw [hcut] at hdel hbar
    obtain rfl := Except.ok.inj h
    exact isUsableName_ofList hne hbar hdel
  · next name args hne hcut =>
    rw [hcut] at hdel hbar
    obtain rfl := Except.ok.inj h
    exact isUsableName_ofList hne hbar hdel

def text (step : Step) : String :=
  if step.args = [] then step.name
  else
    String.ofList
      (step.name.toList ++ argsDelimiter :: Text.glue argSeparator (step.args.map String.toList))

def parseAll (position : Nat) : List String → Except ChainError (List Step)
  | [] => .ok []
  | token :: tokens => do
    let step ← parse token position
    let steps ← parseAll (position + 1) tokens
    return step :: steps

theorem isUsableName_of_parseAll {tokens : List String} {position : Nat} {steps : List Step}
    (hsep : ∀ token ∈ tokens, stepSeparator ∉ token.toList)
    (h : parseAll position tokens = .ok steps) : ∀ step ∈ steps, isUsableName step.name = true := by
  induction tokens generalizing position steps with
  | nil =>
    obtain rfl := Except.ok.inj h
    simp
  | cons token tokens ih =>
    cases hstep : parse token position with
    | error e => simp [parseAll, hstep, bind, Except.bind] at h
    | ok first =>
      cases hrest : parseAll (position + 1) tokens with
      | error e => simp [parseAll, hstep, hrest, bind, Except.bind] at h
      | ok rest =>
        simp only [parseAll, hstep, hrest, bind, Except.bind, pure, Except.pure,
          Except.ok.injEq] at h
        obtain rfl := h
        intro step hmem
        rcases List.mem_cons.mp hmem with rfl | hmem
        · exact isUsableName_of_parse (hsep token List.mem_cons_self) hstep
        · exact ih (fun t ht => hsep t (List.mem_cons_of_mem _ ht)) hrest step hmem

theorem length_of_parseAll {tokens : List String} {position : Nat} {steps : List Step}
    (h : parseAll position tokens = .ok steps) : steps.length = tokens.length := by
  induction tokens generalizing position steps with
  | nil =>
    obtain rfl := Except.ok.inj h
    rfl
  | cons token tokens ih =>
    cases hstep : parse token position with
    | error e => simp [parseAll, hstep, bind, Except.bind] at h
    | ok first =>
      cases hrest : parseAll (position + 1) tokens with
      | error e => simp [parseAll, hstep, hrest, bind, Except.bind] at h
      | ok rest =>
        simp only [parseAll, hstep, hrest, bind, Except.bind, pure, Except.pure,
          Except.ok.injEq] at h
        obtain rfl := h
        simp [ih hrest]

/-- The steps of a specification, or its first fault. Empty pieces are steps too, and malformed. -/
def parseSpec (spec : String) : Except ChainError (List Step) :=
  parseAll 0 ((Text.pieces stepSeparator spec.toList).map String.ofList)

theorem ne_nil_of_parseSpec {spec : String} {steps : List Step} (h : parseSpec spec = .ok steps) :
    steps ≠ [] := by
  have hlen := length_of_parseAll h
  have hpieces := Text.pieces_ne_nil stepSeparator spec.toList
  rintro rfl
  simp at hlen
  exact hpieces (List.length_eq_zero_iff.mp hlen.symm)

theorem isUsableName_of_parseSpec {spec : String} {steps : List Step}
    (h : parseSpec spec = .ok steps) : ∀ step ∈ steps, isUsableName step.name = true := by
  refine isUsableName_of_parseAll (fun token htoken => ?_) h
  obtain ⟨piece, hpiece, rfl⟩ := List.mem_map.mp htoken
  simpa using Text.not_mem_of_mem_pieces hpiece

def specText (steps : List Step) : String :=
  String.ofList (Text.glue stepSeparator (steps.map fun step => step.text.toList))

end Step

end FilterChain
