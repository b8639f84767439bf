import FilterChain.Proofs.Step.Grammar

/-!
# Printed chains

A chain prints as text that reads back exactly if no argument of its steps holds a bar or a comma.
Colons and empty arguments do no harm, since only the first colon divides a step and the reader
keeps empty pieces. Chains that were read have such arguments only; chains that are put together
from steps are held to usable names, but their arguments are free.
-/

namespace FilterChain

namespace Step

/-- No argument holds a mark that would end it. -/
def HasPlainArgs (step : Step) : Prop :=
  ∀ arg ∈ step.args, '|' ∉ arg.toList ∧ ',' ∉ arg.toList

instance (step : Step) : Decidable step.HasPlainArgs :=
  inferInstanceAs (Decidable (∀ arg ∈ step.args, '|' ∉ arg.toList ∧ ',' ∉ arg.toList))

theorem Spells.hasPlainArgs {token : String} {step : Step} (h : Spells token step)
    (hbar : '|' ∉ token.toList) : step.HasPlainArgs := by
  cases h with
  | bare _ _ =>
    intro arg harg
    cases harg
  | @listed name rest _ _ htoken =>
    intro arg harg
    obtain ⟨piece, hpiece, rfl⟩ := List.mem_map.mp harg
    rw [String.toList_ofList]
    refine ⟨fun hc => hbar ?_, Text.not_mem_of_mem_splitOn hpiece⟩
    rw [htoken]
    exact List.mem_append_right _ (List.mem_cons_of_mem _ (Text.mem_of_mem_splitOn hpiece hc))

theorem hasPlainArgs_of_parseSpec {spec : String} {steps : List Step}
    (h : parseSpec spec = .ok steps) : ∀ step ∈ steps, step.HasPlainArgs := by
  rw [parseSpec_eq_parseAll, parseAll_eq_ok_iff] at h
  intro step hstep
  obtain ⟨i, hi, rfl⟩ := List.mem_iff_getElem.mp hstep
  have hi' : i < (tokens spec).length := by rwa [h.length_eq]
  obtain ⟨piece, hpiece, htoken⟩ := List.mem_map.mp (List.getElem_mem hi')
  refine (h.get hi' hi).hasPlainArgs ?_
  rw [List.get_eq_getElem, ← htoken, String.toList_ofList]
  exact Text.not_mem_of_mem_splitOn hpiece

theorem toList_text_of_args_ne_nil {step : Step} (h : step.args ≠ []) :
    step.text.toList =
      step.name.toList ++ ':' :: Text.glue ',' (step.args.map String.toList) := by
  rw [text, if_neg h, String.toList_ofList]
  rfl

theorem bar_not_mem_text {step : Step} (hname : '|' ∉ step.name.toList)
    (hargs : step.HasPlainArgs) : '|' ∉ step.text.toList := by
  intro hbar
  by_cases hnil : step.args = []
  · rw [text, if_pos hnil] at hbar
    exact hname hbar
  · rw [toList_text_of_args_ne_nil hnil] at hbar
    rcases List.mem_append.mp hbar with hbar | hbar
    · exact hname hbar
    · rcases List.mem_cons.mp hbar with heq | hbar
      · exact absurd heq (by decide)
      · rcases Text.eq_or_mem_of_mem_glue hbar with heq | ⟨piece, hpiece, hc⟩
        · exact absurd heq (by decide)
        · obtain ⟨arg, harg, rfl⟩ := List.mem_map.mp hpiece
          exact (hargs arg harg).1 hc

theorem spells_text {step : Step} (hname : step.name ≠ "") (hcolon : ':' ∉ step.name.toList)
    (hargs : step.HasPlainArgs) : Spells step.text step := by
  obtain ⟨name, args⟩ := step
  by_cases hnil : args = []
  · subst hnil
    exact .bare hname hcolon
  · have hplain : ∀ piece ∈ args.map String.toList, ',' ∉ piece := by
      intro piece hpiece
      obtain ⟨arg, harg, rfl⟩ := List.mem_map.mp hpiece
      exact (hargs arg harg).2
    have hsplit : (Text.glue ',' (args.map String.toList)).splitOn ',' = args.map String.toList :=
      Text.splitOn_glue hplain (mt List.map_eq_nil_iff.mp hnil)
    have hback :
        ((Text.glue ',' (args.map String.toList)).splitOn ',').map String.ofList = args := by
      rw [hsplit, List.map_map]
      simp [Function.comp_def]
    have htext : (text ⟨name, args⟩).toList =
        name.toList ++ ':' :: Text.glue ',' (args.map String.toList) :=
      toList_text_of_args_ne_nil hnil
    have hspells := Spells.listed hname hcolon htext
    rwa [hback] at hspells

theorem tokens_specText {steps : List Step} (hne : steps ≠ [])
    (hbar : ∀ step ∈ steps, '|' ∉ step.text.toList) :
    tokens (specText steps) = steps.map text := by
  have hpieces : ∀ piece ∈ steps.map (fun step => step.text.toList), '|' ∉ piece := by
    intro piece hpiece
    obtain ⟨step, hstep, rfl⟩ := List.mem_map.mp hpiece
    exact hbar step hstep
  have hsplit : (specText steps).toList.splitOn '|' = steps.map fun step => step.text.toList := by
    rw [specText, String.toList_ofList]
    exact Text.splitOn_glue hpieces (mt List.map_eq_nil_iff.mp hne)
  rw [tokens, hsplit, List.map_map]
  simp [Function.comp_def]

/-- Steps with usable names read back as they were printed exactly if their arguments are plain. -/
theorem parseSpec_specText_iff {steps : List Step} (hne : steps ≠ [])
    (hnames : ∀ step ∈ steps, ¬ IsUnusableName step.name) :
    parseSpec (specText steps) = .ok steps ↔ ∀ step ∈ steps, step.HasPlainArgs := by
  constructor
  · exact hasPlainArgs_of_parseSpec
  · intro hargs
    have hname : ∀ step ∈ steps,
        step.name ≠ "" ∧ '|' ∉ step.name.toList ∧ ':' ∉ step.name.toList := by
      intro step hstep
      simpa [IsUnusableName] using hnames step hstep
    have htokens := tokens_specText hne fun step hstep =>
      bar_not_mem_text (hname step hstep).2.1 (hargs step hstep)
    rw [parseSpec_eq_parseAll, parseAll_eq_ok_iff, htokens, List.forall₂_map_left_iff,
      List.forall₂_same]
    intro step hstep
    exact spells_text (hname step hstep).1 (hname step hstep).2.2 (hargs step hstep)

end Step

namespace Chain

variable {steps : List Step} {chain : Chain}

theorem eq_of_steps_eq {other : Chain} (h : chain.steps = other.steps) : chain = other := by
  cases chain
  cases other
  cases h
  rfl

theorem parse_eq_ok_iff {spec : String} :
    parse spec = .ok chain ↔ Step.parseSpec spec = .ok chain.steps := by
  rw [← map_steps_parse]
  cases parse spec with
  | error e => simp [Except.map]
  | ok other =>
    simp only [Except.map, Except.ok.injEq]
    exact ⟨congrArg steps, eq_of_steps_eq⟩

theorem text_of_parse {spec : String} (h : parse spec = .ok chain) : chain.text = spec :=
  Step.specText_of_parseSpec (parse_eq_ok_iff.mp h)

theorem exists_parse_eq_ok {spec : String} (h : Step.parseSpec spec = .ok steps) :
    ∃ chain, parse spec = .ok chain ∧ chain.steps = steps := by
  cases hparse : parse spec with
  | error e =>
    rw [← map_steps_parse, hparse] at h
    cases h
  | ok chain =>
    exact ⟨chain, rfl, Except.ok.inj ((parse_eq_ok_iff.mp hparse).symm.trans h)⟩

theorem parse_of_parseSpec_error {spec : String} {e : ChainError}
    (h : Step.parseSpec spec = .error e) : parse spec = .error e := by
  cases hparse : parse spec with
  | error other =>
    rw [← map_steps_parse, hparse] at h
    rw [Except.error.inj h]
  | ok chain => cases h.symm.trans (parse_eq_ok_iff.mp hparse)

theorem ofSteps_eq_ok_iff : ofSteps steps = .ok chain ↔ chain.steps = steps := by
  unfold ofSteps
  split
  · next hnil =>
    subst hnil
    constructor
    · intro h
      cases h
    · intro h
      exact absurd h chain.ne_nil
  · next hne =>
    split
    · next fault hfault =>
      constructor
      · intro h
        cases h
      · rintro rfl
        rw [firstFault?_eq_none_iff.mpr chain.usable] at hfault
        cases hfault
    · constructor
      · intro h
        obtain rfl := Except.ok.inj h
        rfl
      · intro h
        exact congrArg Except.ok (eq_of_steps_eq h.symm)

theorem firstFault?_append_cons {front : List Step} {step : Step} {back : List Step}
    (hfront : ∀ s ∈ front, ¬ IsUnusableName s.name) (hstep : IsUnusableName step.name)
    (position : Nat) :
    firstFault? position (front ++ step :: back) =
      some (.malformedStep (position + front.length) step.text) := by
  induction front generalizing position with
  | nil =>
    rw [List.nil_append, firstFault?, isUsableName_eq_false_iff.mpr hstep]
    rfl
  | cons first front ih =>
    have hfirst := isUsableName_eq_true_iff.mpr (hfront first List.mem_cons_self)
    have hlength : position + 1 + front.length = position + (first :: front).length := by
      rw [List.length_cons]
      omega
    rw [List.cons_append, firstFault?, if_pos hfirst,
      ih (fun s hs => hfront s (List.mem_cons_of_mem _ hs)), hlength]

theorem exists_first_unusable (h : ¬ ∀ step ∈ steps, isUsableName step.name = true) :
    ∃ front step back, steps = front ++ step :: back ∧
      (∀ s ∈ front, ¬ IsUnusableName s.name) ∧ IsUnusableName step.name := by
  cases hfind : steps.find? fun step => !isUsableName step.name with
  | none =>
    refine absurd (fun step hstep => ?_) h
    simpa using List.find?_eq_none.mp hfind step hstep
  | some step =>
    obtain ⟨hstep, front, back, hsplit, hfront⟩ := List.find?_eq_some_iff_append.mp hfind
    refine ⟨front, step, back, hsplit, fun s hs => ?_, ?_⟩
    · exact isUsableName_eq_true_iff.mp (by simpa using hfront s hs)
    · exact isUsableName_eq_false_iff.mp (by simpa using hstep)

theorem ofSteps_of_firstFault? {fault : ChainError} (hne : steps ≠ [])
    (h : firstFault? 0 steps = some fault) : ofSteps steps = .error fault := by
  unfold ofSteps
  rw [dif_neg hne]
  split
  · next other hother => rw [Option.some.inj (hother.symm.trans h)]
  · next hnone => cases hnone.symm.trans h

theorem ofSteps_eq_error_iff {e : ChainError} :
    ofSteps steps = .error e ↔
      steps = [] ∧ e = .malformedStep 0 "" ∨
        ∃ front step back, steps = front ++ step :: back ∧
          (∀ s ∈ front, ¬ IsUnusableName s.name) ∧ IsUnusableName step.name ∧
            e = .malformedStep front.length step.text := by
  constructor
  · intro h
    by_cases hnil : steps = []
    · subst hnil
      exact Or.inl ⟨rfl, (Except.error.inj h).symm⟩
    · right
      have hbad : ¬ ∀ step ∈ steps, isUsableName step.name = true := by
        intro husable
        have hok := ofSteps_eq_ok_iff.mpr (rfl : (Chain.mk steps hnil husable).steps = steps)
        cases h.symm.trans hok
      obtain ⟨front, step, back, rfl, hfront, hstep⟩ := exists_first_unusable hbad
      have hfault := ofSteps_of_firstFault? hnil (firstFault?_append_cons hfront hstep 0)
      rw [h, Nat.zero_add] at hfault
      exact ⟨front, step, back, rfl, hfront, hstep, Except.error.inj hfault⟩
  · rintro (⟨rfl, rfl⟩ | ⟨front, step, back, rfl, hfront, hstep, rfl⟩)
    · rfl
    · have hne : front ++ step :: back ≠ [] := by simp
      have hfault := ofSteps_of_firstFault? hne (firstFault?_append_cons hfront hstep 0)
      rwa [Nat.zero_add] at hfault

/-- A list of steps is refused if it is empty, or for its first unusable name, and makes a chain
otherwise. Every chain that was read is made of its steps again. A chain reads back as it was
printed exactly if its arguments are plain, and otherwise its text is malformed or spells
other steps. -/
theorem ofSteps_agrees_with_parse (steps : List Step) :
    (∀ e, ofSteps steps = .error e ↔
      steps = [] ∧ e = .malformedStep 0 "" ∨
        ∃ front step back, steps = front ++ step :: back ∧
          (∀ s ∈ front, ¬ IsUnusableName s.name) ∧ IsUnusableName step.name ∧
            e = .malformedStep front.length step.text) ∧
      (∀ chain, ofSteps steps = .ok chain ↔ chain.steps = steps) ∧
      (∀ spec chain, parse spec = .ok chain → ofSteps chain.steps = .ok chain) ∧
      ∀ chain, ofSteps steps = .ok chain →
        (parse chain.text = .ok chain ↔ ∀ step ∈ steps, step.HasPlainArgs) ∧
        ((¬ ∀ step ∈ steps, step.HasPlainArgs) →
          (∃ e, parse chain.text = .error e) ∨
            ∃ other, parse chain.text = .ok other ∧ other.steps ≠ steps) := by
  refine ⟨fun _ => ofSteps_eq_error_iff, fun _ => ofSteps_eq_ok_iff,
    fun _ chain _ => ofSteps_eq_ok_iff.mpr rfl, ?_⟩
  intro chain hchain
  obtain rfl := ofSteps_eq_ok_iff.mp hchain
  have hround : parse chain.text = .ok chain ↔ ∀ step ∈ chain.steps, step.HasPlainArgs := by
    rw [parse_eq_ok_iff, text]
    exact Step.parseSpec_specText_iff chain.ne_nil fun step hstep =>
      isUsableName_eq_true_iff.mp (chain.usable step hstep)
  refine ⟨hround, fun hargs => ?_⟩
  cases hparse : parse chain.text with
  | error e => exact Or.inl ⟨e, rfl⟩
  | ok other =>
    refine Or.inr ⟨other, rfl, fun hsteps => hargs ?_⟩
    rwa [hparse, eq_of_steps_eq hsteps, eq_self_iff_true, true_iff] at hround

/-- Colons and empty arguments read back, and an argument with a comma reads back as two. -/
theorem ofSteps_agrees_with_parse_free_args :
    (∃ chain, ofSteps [⟨"formata_data", ["H:i", ""]⟩, ⟨"trim", [""]⟩] = .ok chain ∧
      parse chain.text = .ok chain) ∧
    ∃ chain, ofSteps [⟨"mascara", ["#,#"]⟩] = .ok chain ∧
      ((∃ e, parse chain.text = .error e) ∨
        ∃ other, parse chain.text = .ok other ∧ other.steps ≠ [⟨"mascara", ["#,#"]⟩]) := by
  refine ⟨⟨⟨_, by decide, by decide⟩, rfl, ?_⟩, ⟨_, by decide, by decide⟩, rfl, ?_⟩
  · exact ((ofSteps_agrees_with_parse [⟨"formata_data", ["H:i", ""]⟩, ⟨"trim", [""]⟩]).2.2.2
      _ rfl).1.mpr (by decide)
  · exact ((ofSteps_agrees_with_parse [⟨"mascara", ["#,#"]⟩]).2.2.2 _ rfl).2 (by decide)

end Chain

end FilterChain
