import FilterChain.Chain
import FilterChain.Proofs.Text.Cutting
import Mathlib.Data.List.Forall2

/-!
# The grammar of specifications

A specification is cut at its bars into tokens, and each token must spell a step. Reading accepts
exactly the specifications whose tokens all have a name, blames the first token without one, and
is undone by printing. The marks of the grammar are written out here as characters.
-/

namespace FilterChain

/-- A name that no specification can hold: an empty one, or one with a bar or a colon. -/
def IsUnusableName (name : String) : Prop :=
  name = "" ∨ '|' ∈ name.toList ∨ ':' ∈ name.toList

theorem isUsableName_eq_true_iff {name : String} :
    isUsableName name = true ↔ ¬ IsUnusableName name := by
  simp [isUsableName, IsUnusableName, stepSeparator, argsDelimiter, and_assoc]

theorem isUsableName_eq_false_iff {name : String} :
    isUsableName name = false ↔ IsUnusableName name := by
  rw [← Bool.not_eq_true, isUsableName_eq_true_iff, Classical.not_not]

namespace Step

def tokens (spec : String) : List String :=
  (spec.toList.splitOn '|').map String.ofList

def IsNameless (token : String) : Prop :=
  token = "" ∨ token.toList.head? = some ':'

/-- How a token spells a step: as its name, if there is no colon, and otherwise as the name before
the first colon and the arguments, with commas between them, after it. -/
inductive Spells (token : String) : Step → Prop where
  | bare (hname : token ≠ "") (hcolon : ':' ∉ token.toList) : Spells token ⟨token, []⟩
  | listed {name : String} {rest : List Char} (hname : name ≠ "") (hcolon : ':' ∉ name.toList)
      (htoken : token.toList = name.toList ++ ':' :: rest) :
      Spells token ⟨name, (rest.splitOn ',').map String.ofList⟩

/-- The first token without a name, and its place. -/
structure IsFirstNameless (tokens : List String) (k : Nat) (token : String) : Prop where
  at_place : tokens[k]? = some token
  nameless : IsNameless token
  named_before : ∀ j < k, ∀ earlier, tokens[j]? = some earlier → ¬ IsNameless earlier

theorem isNameless_or_spells (token : String) : IsNameless token ∨ ∃ step, Spells token step := by
  by_cases hempty : token = ""
  · exact Or.inl (Or.inl hempty)
  by_cases hcolon : ':' ∈ token.toList
  · obtain ⟨name, rest, htoken, hname⟩ := List.eq_append_cons_of_mem hcolon
    cases name with
    | nil =>
      left
      right
      rw [htoken]
      rfl
    | cons c cs =>
      right
      refine ⟨⟨String.ofList (c :: cs), (rest.splitOn ',').map String.ofList⟩, .listed ?_ ?_ ?_⟩
      · simp
      · rwa [String.toList_ofList]
      · rwa [String.toList_ofList]
  · exact Or.inr ⟨_, .bare hempty hcolon⟩

theorem Spells.not_isNameless {token : String} {step : Step} (h : Spells token step) :
    ¬ IsNameless token := by
  rintro (hempty | hhead)
  · cases h with
    | bare hname _ => exact hname hempty
    | listed _ _ htoken =>
      rw [hempty] at htoken
      simp at htoken
  · obtain ⟨tail, htail⟩ := List.head?_eq_some_iff.mp hhead
    cases h with
    | bare _ hcolon => exact hcolon (by simp [htail])
    | @listed name rest hname hcolon htoken =>
      rw [htail] at htoken
      cases hchars : name.toList with
      | nil => exact hname (String.toList_eq_nil_iff.mp hchars)
      | cons c cs =>
        rw [hchars, List.cons_append, List.cons.injEq] at htoken
        rw [hchars, ← htoken.1] at hcolon
        exact hcolon List.mem_cons_self

theorem parse_of_isNameless {token : String} (h : IsNameless token) (position : Nat) :
    parse token position = .error (.malformedStep position token) := by
  have hcut : (Text.cutFirst argsDelimiter token.toList).1 = [] := by
    rcases h with rfl | hhead
    · simp [Text.cutFirst]
    · obtain ⟨tail, htail⟩ := List.head?_eq_some_iff.mp hhead
      have hcut : Text.cutFirst argsDelimiter (argsDelimiter :: tail) = ([], some tail) :=
        Text.cutFirst_append_cons List.not_mem_nil tail
      rw [htail]
      exact congrArg Prod.fst hcut
  unfold parse
  split
  · rfl
  · next name hne heq => exact absurd (by rw [← hcut, heq]) hne
  · next name args hne heq => exact absurd (by rw [← hcut, heq]) hne

theorem parse_of_spells {token : String} {step : Step} (h : Spells token step) (position : Nat) :
    parse token position = .ok step := by
  -- The name is not empty, so the first row of the match in `parse` is out.
  cases h with
  | bare hname hcolon =>
    have hne : token.toList ≠ [] := mt String.toList_eq_nil_iff.mp hname
    have hcut : Text.cutFirst argsDelimiter token.toList = (token.toList, none) :=
      Text.cutFirst_of_not_mem hcolon
    simp only [parse, hcut, String.ofList_toList]
  | @listed name rest hname hcolon htoken =>
    have hne : name.toList ≠ [] := mt String.toList_eq_nil_iff.mp hname
    have hcut : Text.cutFirst argsDelimiter token.toList = (name.toList, some rest) := by
      rw [htoken]
      exact Text.cutFirst_append_cons hcolon rest
    simp only [parse, hcut, String.ofList_toList, Text.pieces_eq_splitOn]
    rfl

theorem text_of_spells {token : String} {step : Step} (h : Spells token step) :
    step.text = token := by
  cases h with
  | bare _ _ => simp [text]
  | @listed name rest _ _ htoken =>
    have hargs : Text.glue argSeparator (rest.splitOn ',') = rest := by
      rw [Text.glue_eq_intercalate]
      exact List.intercalate_splitOn ','
    have hchars : (rest.splitOn ',').map (String.toList ∘ String.ofList) = rest.splitOn ',' := by
      simp [Function.comp_def]
    simp only [text, List.map_eq_nil_iff, List.splitOn_ne_nil, if_false, List.map_map]
    rw [hchars, hargs, ← String.ofList_toList (s := token), htoken]
    rfl

theorem parseAll_cons_of_isNameless {token : String} (h : IsNameless token) (position : Nat)
    (tokens : List String) :
    parseAll position (token :: tokens) = .error (.malformedStep position token) := by
  rw [parseAll, parse_of_isNameless h]
  rfl

theorem parseAll_cons_of_spells {token : String} {step : Step} (h : Spells token step)
    (position : Nat) (tokens : List String) :
    parseAll position (token :: tokens) = (parseAll (position + 1) tokens).map (step :: ·) := by
  rw [parseAll, parse_of_spells h]
  cases parseAll (position + 1) tokens <;> rfl

theorem parseAll_eq_ok_iff {position : Nat} {tokens : List String} {steps : List Step} :
    parseAll position tokens = .ok steps ↔ List.Forall₂ Spells tokens steps := by
  induction tokens generalizing position steps with
  | nil =>
    rw [List.forall₂_nil_left_iff, parseAll, Except.ok.injEq]
    exact eq_comm
  | cons token tokens ih =>
    rw [List.forall₂_cons_left_iff]
    rcases isNameless_or_spells token with hbad | ⟨step, hstep⟩
    · rw [parseAll_cons_of_isNameless hbad]
      constructor
      · intro h
        cases h
      · rintro ⟨step, _, hspells, _, _⟩
        exact absurd hbad hspells.not_isNameless
    · rw [parseAll_cons_of_spells hstep]
      constructor
      · intro h
        cases hrest : parseAll (position + 1) tokens with
        | error e => simp [hrest, Except.map] at h
        | ok rest =>
          rw [hrest] at h
          exact ⟨step, rest, hstep, ih.mp hrest, (Except.ok.inj h).symm⟩
      · rintro ⟨other, rest, hother, hrest, rfl⟩
        have heq : step = other :=
          Except.ok.inj ((parse_of_spells hstep 0).symm.trans (parse_of_spells hother 0))
        rw [ih.mpr hrest, heq]
        rfl

theorem not_isNameless_of_mem {tokens : List String} {steps : List Step}
    (h : List.Forall₂ Spells tokens steps) : ∀ token ∈ tokens, ¬ IsNameless token := by
  induction h with
  | nil => simp
  | cons hspells _ ih =>
    intro token hmem
    rcases List.mem_cons.mp hmem with rfl | hmem
    · exact hspells.not_isNameless
    · exact ih token hmem

theorem map_text_of_spells {tokens : List String} {steps : List Step}
    (h : List.Forall₂ Spells tokens steps) : steps.map text = tokens := by
  induction h with
  | nil => rfl
  | cons hspells _ ih => rw [List.map_cons, text_of_spells hspells, ih]

theorem IsFirstNameless.zero {token : String} {tokens : List String} (h : IsNameless token) :
    IsFirstNameless (token :: tokens) 0 token :=
  ⟨rfl, h, fun _ hlt => absurd hlt (Nat.not_lt_zero _)⟩

theorem IsFirstNameless.succ {first token : String} {tokens : List String} {k : Nat}
    (hfirst : ¬ IsNameless first) (h : IsFirstNameless tokens k token) :
    IsFirstNameless (first :: tokens) (k + 1) token where
  at_place := h.at_place
  nameless := h.nameless
  named_before j hlt earlier hearlier := by
    cases j with
    | zero =>
      obtain rfl := Option.some.inj hearlier
      exact hfirst
    | succ j => exact h.named_before j (by omega) earlier hearlier

theorem IsFirstNameless.unique {tokens : List String} {k l : Nat} {token other : String}
    (h : IsFirstNameless tokens k token) (h' : IsFirstNameless tokens l other) :
    k = l ∧ token = other := by
  have hkl : ¬ k < l := fun hlt => h'.named_before k hlt token h.at_place h.nameless
  have hlk : ¬ l < k := fun hlt => h.named_before l hlt other h'.at_place h'.nameless
  obtain rfl : k = l := by omega
  exact ⟨rfl, Option.some.inj (h.at_place.symm.trans h'.at_place)⟩

theorem parseAll_cases (position : Nat) (tokens : List String) :
    (∃ steps, parseAll position tokens = .ok steps) ∨
      ∃ k token, IsFirstNameless tokens k token ∧
        parseAll position tokens = .error (.malformedStep (position + k) token) := by
  induction tokens generalizing position with
  | nil => exact Or.inl ⟨[], rfl⟩
  | cons token tokens ih =>
    rcases isNameless_or_spells token with hbad | ⟨step, hstep⟩
    · exact Or.inr ⟨0, token, .zero hbad, parseAll_cons_of_isNameless hbad position tokens⟩
    · rw [parseAll_cons_of_spells hstep]
      rcases ih (position + 1) with ⟨steps, hsteps⟩ | ⟨k, bad, hfirst, herror⟩
      · left
        rw [hsteps]
        exact ⟨step :: steps, rfl⟩
      · right
        refine ⟨k + 1, bad, hfirst.succ hstep.not_isNameless, ?_⟩
        rw [herror, Nat.add_right_comm, Nat.add_assoc]
        rfl

theorem parseAll_eq_error_iff {position : Nat} {tokens : List String} {e : ChainError} :
    parseAll position tokens = .error e ↔
      ∃ k token, IsFirstNameless tokens k token ∧ e = .malformedStep (position + k) token := by
  rcases parseAll_cases position tokens with ⟨steps, hsteps⟩ | ⟨k, token, hfirst, herror⟩
  · rw [hsteps]
    constructor
    · intro h
      cases h
    · rintro ⟨k, token, hfirst, _⟩
      have hmem := List.mem_of_getElem? hfirst.at_place
      exact absurd hfirst.nameless (not_isNameless_of_mem (parseAll_eq_ok_iff.mp hsteps) token hmem)
  · rw [herror, Except.error.injEq]
    constructor
    · rintro rfl
      exact ⟨k, token, hfirst, rfl⟩
    · rintro ⟨l, other, hother, rfl⟩
      obtain ⟨rfl, rfl⟩ := hfirst.unique hother
      rfl

theorem parseSpec_eq_parseAll (spec : String) : parseSpec spec = parseAll 0 (tokens spec) := by
  rw [parseSpec, Text.pieces_eq_splitOn]
  rfl

theorem specText_of_parseSpec {spec : String} {steps : List Step}
    (h : parseSpec spec = .ok steps) : specText steps = spec := by
  rw [parseSpec_eq_parseAll, parseAll_eq_ok_iff] at h
  have hchars : steps.map (fun step => step.text.toList) = spec.toList.splitOn '|' := by
    calc
      steps.map (fun step => step.text.toList) = (steps.map text).map String.toList := by
        rw [List.map_map]
        rfl
      _ = (tokens spec).map String.toList := by rw [map_text_of_spells h]
      _ = spec.toList.splitOn '|' := by simp [tokens, Function.comp_def]
  rw [specText, hchars, Text.glue_eq_intercalate]
  exact (congrArg String.ofList (List.intercalate_splitOn '|')).trans String.ofList_toList

/-- Reading a specification succeeds if every token has a name, gives the step that each token
spells, blames the first token without a name otherwise, and is undone by printing the chain. -/
theorem parseSpec_follows_grammar (spec : String) :
    ((∃ steps, parseSpec spec = .ok steps) ↔ ∀ token ∈ tokens spec, ¬ IsNameless token) ∧
      (∀ e, parseSpec spec = .error e ↔
        ∃ k token, IsFirstNameless (tokens spec) k token ∧ e = .malformedStep k token) ∧
      (∀ steps, parseSpec spec = .ok steps ↔ List.Forall₂ Spells (tokens spec) steps) ∧
      (Chain.parse spec).map Chain.steps = parseSpec spec ∧
      ∀ chain, Chain.parse spec = .ok chain → chain.text = spec := by
  refine ⟨?_, ?_, ?_, Chain.map_steps_parse spec, ?_⟩
  · rw [parseSpec_eq_parseAll]
    constructor
    · rintro ⟨steps, hsteps⟩
      exact not_isNameless_of_mem (parseAll_eq_ok_iff.mp hsteps)
    · intro hnamed
      rcases parseAll_cases 0 (tokens spec) with hsteps | ⟨k, token, hfirst, _⟩
      · exact hsteps
      · exact absurd hfirst.nameless (hnamed token (List.mem_of_getElem? hfirst.at_place))
  · intro e
    rw [parseSpec_eq_parseAll, parseAll_eq_error_iff]
    simp only [Nat.zero_add]
  · intro steps
    rw [parseSpec_eq_parseAll, parseAll_eq_ok_iff]
  · intro chain hchain
    have hsteps := Chain.map_steps_parse spec
    rw [hchain] at hsteps
    exact specText_of_parseSpec hsteps.symm

/-- Empty arguments and arguments with colons come back as they were written. -/
theorem parseSpec_follows_grammar_empty_args :
    ∃ chain, Chain.parse "formata_data:d/m/Y H:i,,Y|trim:|x" = .ok chain ∧
      chain.text = "formata_data:d/m/Y H:i,,Y|trim:|x" :=
  ⟨_, rfl, (parseSpec_follows_grammar _).2.2.2.2 _ rfl⟩

end Step

end FilterChain
