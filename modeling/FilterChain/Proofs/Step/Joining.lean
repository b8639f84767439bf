import FilterChain.Proofs.Step.Grammar

/-!
# Joined specifications

Two specifications with a bar between them read as the steps of the first and then those of the
second. A fault of the second is reported at its place behind the steps of the first.
-/

namespace FilterChain

def ChainError.behind (count : Nat) : ChainError → ChainError
  | .malformedStep position token => .malformedStep (position + count) token
  | e => e

namespace Step

theorem tokens_join (s₁ s₂ : String) : tokens (s₁ ++ "|" ++ s₂) = tokens s₁ ++ tokens s₂ := by
  have hchars : (s₁ ++ "|" ++ s₂).toList = s₁.toList ++ '|' :: s₂.toList := by simp
  rw [tokens, hchars, List.splitOn_append_cons_self, List.map_append]
  rfl

theorem parseAll_behind (tokens : List String) (position count : Nat) :
    parseAll (position + count) tokens =
      (parseAll position tokens).mapError (·.behind count) := by
  induction tokens generalizing position with
  | nil => rfl
  | cons token tokens ih =>
    rcases isNameless_or_spells token with hbad | ⟨step, hstep⟩
    · rw [parseAll_cons_of_isNameless hbad, parseAll_cons_of_isNameless hbad]
      rfl
    · rw [parseAll_cons_of_spells hstep, parseAll_cons_of_spells hstep, Nat.add_right_comm, ih]
      cases parseAll (position + 1) tokens <;> rfl

theorem parseAll_append (position : Nat) (front back : List String) :
    parseAll position (front ++ back) = do
      let first ← parseAll position front
      let second ← parseAll (position + front.length) back
      return first ++ second := by
  induction front generalizing position with
  | nil =>
    show parseAll position back = (parseAll position back).bind fun second => .ok second
    cases parseAll position back <;> rfl
  | cons token front ih =>
    rcases isNameless_or_spells token with hbad | ⟨step, hstep⟩
    · rw [List.cons_append, parseAll_cons_of_isNameless hbad, parseAll_cons_of_isNameless hbad]
      rfl
    · have hlength : position + 1 + front.length = position + (token :: front).length := by
        rw [List.length_cons]
        omega
      rw [List.cons_append, parseAll_cons_of_spells hstep, parseAll_cons_of_spells hstep, ih,
        hlength]
      cases parseAll (position + 1) front with
      | error e => rfl
      | ok first => cases parseAll (position + (token :: front).length) back <;> rfl

/-- The steps of two joined specifications, or the fault that comes first. -/
theorem parseSpec_join (s₁ s₂ : String) :
    parseSpec (s₁ ++ "|" ++ s₂) =
      match parseSpec s₁, parseSpec s₂ with
      | .error e, _ => .error e
      | .ok first, .error e => .error (e.behind first.length)
      | .ok first, .ok second => .ok (first ++ second) := by
  simp only [parseSpec_eq_parseAll, tokens_join, parseAll_append]
  cases hfirst : parseAll 0 (tokens s₁) with
  | error e => rfl
  | ok first =>
    rw [← length_of_parseAll hfirst, parseAll_behind]
    cases parseAll 0 (tokens s₂) <;> rfl

end Step

end FilterChain
