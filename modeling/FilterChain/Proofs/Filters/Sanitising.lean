import FilterChain.Proofs.Filters.Addresses
import FilterChain.Proofs.Run.Step
import FilterChain.Registry

/-!
# Chains of sanitisers

A class filter keeps the characters of one class, all of them ASCII, and the accent filter leaves
only ASCII behind and does not change it. So the first step of a chain of such filters makes the
text ASCII, and behind it the class filters commute and the accent filter does nothing. What matters
is which class filters are in the chain and whether the first step is the accent filter.
-/

namespace FilterChain.Filters

variable {registry : Registry} {step : Step} {steps rest : List Step} {cs : List Char} {c d : Char}
  {v : Value} {s : String}

def accentFilter : String := "removeAcentos"

def classFilters : List (String × (Char → Bool)) :=
  [
    ("digitos", Text.isAsciiDigit),
    ("alfanumericos", fun c => Text.isAsciiDigit c || Text.isAsciiLetter c || c == ' '),
    ("letras", fun c => Text.isAsciiLetter c || c == ' ')
  ]

def classOf? (step : Step) : Option (Char → Bool) :=
  classFilters.lookup step.name

def IsClassFilter (step : Step) : Prop :=
  (classOf? step).isSome = true

def IsSanitiser (step : Step) : Prop :=
  step.name = accentFilter ∨ IsClassFilter step

instance : DecidablePred IsClassFilter := fun step =>
  inferInstanceAs (Decidable ((classOf? step).isSome = true))

instance : DecidablePred IsSanitiser := fun step =>
  inferInstanceAs (Decidable (step.name = accentFilter ∨ IsClassFilter step))

/-- A step with the accent filter stands in front of every class filter of a chain. -/
def AccentsGoFirst (steps : List Step) : Prop :=
  ∃ front step back, steps = front ++ step :: back ∧ step.name = accentFilter ∧
    ∀ other ∈ front, ¬ IsClassFilter other

/-- Whether a step leaves a character in place: a class filter asks for its class, and any other
step takes none away. -/
def keeps (step : Step) (c : Char) : Bool :=
  (classOf? step).all fun isOfClass => isOfClass c

def allKeep (steps : List Step) (c : Char) : Bool :=
  steps.all fun step => keeps step c

def sanitise (step : Step) (cs : List Char) : List Char :=
  if step.name = accentFilter then cs.filterMap plain? else cs.filter (keeps step)

theorem isAscii_of_classFilter :
    ∀ filter ∈ classFilters, ∀ c, filter.2 c = true → Text.isAscii c = true := by
  have hspace : Text.isAscii ' ' = true := rfl
  have hdigit (c : Char) (hc : Text.isAsciiDigit c = true) : Text.isAscii c = true :=
    Text.isAscii_of_isAsciiWord (Or.inr (Or.inl hc))
  have hletter (c : Char) (hc : Text.isAsciiLetter c = true) : Text.isAscii c = true :=
    Text.isAscii_of_isAsciiWord (Or.inl hc)
  simp only [classFilters, List.forall_mem_cons, List.not_mem_nil, false_imp_iff, implies_true,
    and_true, Bool.or_eq_true, beq_iff_eq]
  refine ⟨hdigit, fun c hc => ?_, fun c hc => ?_⟩
  · rcases hc with (hc | hc) | rfl
    · exact hdigit c hc
    · exact hletter c hc
    · exact hspace
  · rcases hc with hc | rfl
    · exact hletter c hc
    · exact hspace

theorem isAscii_of_plain? (h : plain? c = some d) : Text.isAscii d = true := by
  have hplain : ∀ group ∈ accentGroups, Text.isAscii group.2 = true := by
    decide
  unfold plain? at h
  split at h
  · next group hgroup =>
    obtain rfl := Option.some.inj h
    exact hplain group (List.mem_of_find?_eq_some hgroup)
  · next hnone =>
    split at h
    · next hascii =>
      obtain rfl := Option.some.inj h
      exact hascii
    · cases h

theorem exists_mem_classFilters (hstep : IsClassFilter step) :
    ∃ isOfClass, (step.name, isOfClass) ∈ classFilters ∧ classOf? step = some isOfClass := by
  obtain ⟨isOfClass, hclass⟩ := Option.isSome_iff_exists.mp hstep
  obtain ⟨front, back, hfilters, -⟩ := List.lookup_eq_some_iff.mp hclass
  refine ⟨isOfClass, ?_, hclass⟩
  rw [hfilters]
  exact List.mem_append_right front List.mem_cons_self

theorem isAscii_of_keeps (hstep : IsClassFilter step) (hc : keeps step c = true) :
    Text.isAscii c = true := by
  obtain ⟨isOfClass, hmem, hclass⟩ := exists_mem_classFilters hstep
  rw [keeps, hclass] at hc
  exact isAscii_of_classFilter _ hmem c hc

theorem classOf?_of_accents (h : step.name = accentFilter) : classOf? step = none := by
  rw [classOf?, h]
  rfl

theorem keeps_of_accents (h : step.name = accentFilter) (c : Char) : keeps step c = true := by
  rw [keeps, classOf?_of_accents h]
  rfl

theorem isAscii_of_mem_sanitise (hstep : IsSanitiser step) :
    ∀ c ∈ sanitise step cs, Text.isAscii c = true := by
  intro c hc
  unfold sanitise at hc
  split at hc
  · obtain ⟨d, -, hd⟩ := List.mem_filterMap.mp hc
    exact isAscii_of_plain? hd
  · next haccents => exact isAscii_of_keeps (hstep.resolve_left haccents) (List.mem_filter.mp hc).2

/-- Every sanitiser takes an ASCII text for what it keeps of it, also the accent filter. -/
theorem sanitise_of_isAscii (hcs : ∀ c ∈ cs, Text.isAscii c = true) :
    sanitise step cs = cs.filter (keeps step) := by
  unfold sanitise
  split
  · next haccents =>
    have hplain : cs.filterMap plain? = cs.filterMap some :=
      List.filterMap_congr fun c hc => plain?_of_isAscii (hcs c hc)
    rw [hplain, List.filterMap_some,
      List.filter_eq_self.mpr fun c _ => keeps_of_accents haccents c]
  · rfl

theorem filter_allKeep_cons (step : Step) (rest : List Step) (cs : List Char) :
    (cs.filter (keeps step)).filter (allKeep rest) = cs.filter (allKeep (step :: rest)) := by
  rw [List.filter_filter]
  exact List.filter_congr fun c _ => Bool.and_comm _ _

theorem takes_sanitise (hget : registry.get? step.name = Registry.builtin.get? step.name)
    (hstep : IsSanitiser step) (hs : v.asText = .ok s) :
    registry.Takes step v (.text (String.ofList (sanitise step s.toList))) := by
  obtain ⟨name, args⟩ := step
  rcases hstep with haccents | hclass
  · obtain rfl : name = accentFilter := haccents
    exact (Registry.takes_unary_iff (hget.trans rfl)).mpr (onText_of_asText hs _)
  · obtain ⟨isOfClass, hmem, -⟩ := exists_mem_classFilters hclass
    simp only [classFilters, List.mem_cons, Prod.mk.injEq, List.not_mem_nil, or_false] at hmem
    rcases hmem with ⟨rfl, -⟩ | ⟨rfl, -⟩ | ⟨rfl, -⟩
    · exact (Registry.takes_unary_iff (hget.trans rfl)).mpr (onText_of_asText hs keepDigits)
    · exact (Registry.takes_unary_iff (hget.trans rfl)).mpr (onText_of_asText hs keepAlphanumeric)
    · exact (Registry.takes_unary_iff (hget.trans rfl)).mpr (onText_of_asText hs keepLetters)

theorem outcome_plain_of_isAscii
    (hget : ∀ step ∈ steps, registry.get? step.name = Registry.builtin.get? step.name)
    (hsteps : ∀ step ∈ steps, IsSanitiser step) (hcs : ∀ c ∈ cs, Text.isAscii c = true) :
    (Run.plain registry steps (.text (String.ofList cs))).outcome =
      .ok (.text (String.ofList (cs.filter (allKeep steps)))) := by
  induction steps generalizing cs with
  | nil =>
    have hall : cs.filter (allKeep []) = cs := List.filter_eq_self.mpr fun _ _ => rfl
    rw [hall]
    rfl
  | cons step rest ih =>
    obtain ⟨hgetStep, hgetRest⟩ := List.forall_mem_cons.mp hget
    obtain ⟨hstep, hrest⟩ := List.forall_mem_cons.mp hsteps
    have hfiltered : ∀ c ∈ cs.filter (keeps step), Text.isAscii c = true :=
      fun c hc => hcs c (List.mem_filter.mp hc).1
    have htakes := takes_sanitise hgetStep hstep (v := .text (String.ofList cs)) rfl
    rw [String.toList_ofList, sanitise_of_isAscii hcs] at htakes
    rw [Run.plain_cons_of_takes htakes, ← filter_allKeep_cons]
    exact ih hgetRest hrest hfiltered

/-- The first sanitiser of a chain makes the text of any scalar ASCII. -/
theorem outcome_plain_cons
    (hget : ∀ other ∈ step :: rest, registry.get? other.name = Registry.builtin.get? other.name)
    (hsteps : ∀ other ∈ step :: rest, IsSanitiser other) (hs : v.asText = .ok s) :
    (Run.plain registry (step :: rest) v).outcome =
      .ok (.text (String.ofList ((sanitise step s.toList).filter (allKeep rest)))) := by
  obtain ⟨hgetStep, hgetRest⟩ := List.forall_mem_cons.mp hget
  obtain ⟨hstep, hrest⟩ := List.forall_mem_cons.mp hsteps
  rw [Run.plain_cons_of_takes (takes_sanitise hgetStep hstep hs)]
  exact outcome_plain_of_isAscii hgetRest hrest (isAscii_of_mem_sanitise hstep)

theorem accentsGoFirst_cons_iff (hstep : IsSanitiser step) :
    AccentsGoFirst (step :: rest) ↔ step.name = accentFilter := by
  constructor
  · rintro ⟨front, accents, back, hsplit, hname, hfront⟩
    cases front with
    | nil =>
      obtain ⟨rfl, -⟩ := List.cons.inj hsplit
      exact hname
    | cons first front =>
      obtain ⟨rfl, -⟩ := List.cons.inj hsplit
      exact hstep.resolve_right (hfront _ List.mem_cons_self)
  · exact fun hname => ⟨[], step, rest, rfl, hname, List.forall_mem_nil _⟩

theorem lookup_of_mem_classFilters :
    ∀ filter ∈ classFilters, classFilters.lookup filter.1 = some filter.2 :=
  List.forall_mem_cons.mpr ⟨rfl, List.forall_mem_cons.mpr ⟨rfl, List.forall_mem_singleton.mpr rfl⟩⟩

theorem allKeep_iff : allKeep steps c = true ↔
    ∀ filter ∈ classFilters, filter.1 ∈ steps.map Step.name → filter.2 c = true := by
  rw [allKeep, List.all_eq_true]
  constructor
  · intro hall filter hfilter hmem
    obtain ⟨step, hstep, hname⟩ := List.mem_map.mp hmem
    have hkeeps := hall step hstep
    rwa [keeps, classOf?, hname, lookup_of_mem_classFilters filter hfilter] at hkeeps
  · intro hall step hstep
    cases hclass : classOf? step with
    | none =>
      rw [keeps, hclass]
      rfl
    | some isOfClass =>
      have hisSome : IsClassFilter step := Option.isSome_iff_exists.mpr ⟨_, hclass⟩
      obtain ⟨other, hmem, hother⟩ := exists_mem_classFilters hisSome
      rw [keeps, hother]
      exact hall _ hmem (List.mem_map_of_mem hstep)

theorem allKeep_append_accents (h : step.name = accentFilter) (front back : List Step) (c : Char) :
    allKeep (front ++ step :: back) c = allKeep (front ++ back) c := by
  simp only [allKeep, List.all_append, List.all_cons, keeps_of_accents h, Bool.true_and]

theorem outcome_of_accentsGoFirst
    (hget : ∀ step, IsSanitiser step → registry.get? step.name = Registry.builtin.get? step.name)
    (hne : steps ≠ []) (hsteps : ∀ step ∈ steps, IsSanitiser step) (hs : v.asText = .ok s) :
    (AccentsGoFirst steps → (Run.plain registry steps v).outcome =
      .ok (.text (String.ofList ((s.toList.filterMap plain?).filter (allKeep steps))))) ∧
    (¬ AccentsGoFirst steps → (Run.plain registry steps v).outcome =
      .ok (.text (String.ofList (s.toList.filter (allKeep steps))))) := by
  obtain ⟨step, rest, rfl⟩ := List.exists_cons_of_ne_nil hne
  obtain ⟨hstep, -⟩ := List.forall_mem_cons.mp hsteps
  rw [accentsGoFirst_cons_iff hstep,
    outcome_plain_cons (fun other hother => hget other (hsteps other hother)) hsteps hs]
  constructor
  · intro haccents
    have hkept : (s.toList.filterMap plain?).filter (keeps step) = s.toList.filterMap plain? :=
      List.filter_eq_self.mpr fun c _ => keeps_of_accents haccents c
    rw [sanitise, if_pos haccents, ← filter_allKeep_cons, hkept]
  · intro hclass
    rw [sanitise, if_neg hclass, filter_allKeep_cons]

theorem outcome_congr {others : List Step}
    (hget : ∀ step, IsSanitiser step → registry.get? step.name = Registry.builtin.get? step.name)
    (hne : steps ≠ []) (hsteps : ∀ step ∈ steps, IsSanitiser step)
    (hothers : others ≠ []) (hsanitisers : ∀ step ∈ others, IsSanitiser step)
    (hfirst : AccentsGoFirst others ↔ AccentsGoFirst steps)
    (hkeep : ∀ c, allKeep others c = allKeep steps c) (hs : v.asText = .ok s) :
    (Run.plain registry others v).outcome = (Run.plain registry steps v).outcome := by
  obtain ⟨hplain, hkept⟩ := outcome_of_accentsGoFirst hget hne hsteps hs
  obtain ⟨hplain', hkept'⟩ := outcome_of_accentsGoFirst hget hothers hsanitisers hs
  have hsame : allKeep others = allKeep steps := funext hkeep
  by_cases h : AccentsGoFirst steps
  · rw [hplain h, hplain' (hfirst.mpr h), hsame]
  · rw [hkept h, hkept' (mt hfirst.mp h), hsame]

/-- A chain of sanitisers gives the characters that all the class filters in it keep: those of the
text without accents if the accent filter stands in front of every class filter, and those of the
text itself if it does not. So class filters can change places and be repeated, and behind one of
them the accent filter can be left out. -/
theorem sanitisers_have_normal_form
    (hget : ∀ step, IsSanitiser step → registry.get? step.name = Registry.builtin.get? step.name)
    (hne : steps ≠ []) (hsteps : ∀ step ∈ steps, IsSanitiser step)
    (hv : v.isContainer = false) :
    ∃ s, v.asText = .ok s ∧
      (AccentsGoFirst steps → (Run.plain registry steps v).outcome =
        .ok (.text (String.ofList ((s.toList.filterMap plain?).filter (allKeep steps))))) ∧
      (¬ AccentsGoFirst steps → (Run.plain registry steps v).outcome =
        .ok (.text (String.ofList (s.toList.filter (allKeep steps))))) ∧
      (∀ others, others ≠ [] → (∀ step ∈ others, IsSanitiser step) →
        (∀ filter ∈ classFilters,
          filter.1 ∈ others.map Step.name ↔ filter.1 ∈ steps.map Step.name) →
        (AccentsGoFirst others ↔ AccentsGoFirst steps) →
        (Run.plain registry others v).outcome = (Run.plain registry steps v).outcome) ∧
      ∀ front step back, steps = front ++ step :: back → step.name = accentFilter →
        (∃ other ∈ front, IsClassFilter other) →
        (Run.plain registry (front ++ back) v).outcome =
          (Run.plain registry steps v).outcome := by
  obtain ⟨s, hs⟩ := Value.exists_asText_eq_ok hv
  obtain ⟨hplain, hkept⟩ := outcome_of_accentsGoFirst hget hne hsteps hs
  refine ⟨s, hs, hplain, hkept, ?_, ?_⟩
  · intro others hothers hsanitisers hnames hfirst
    refine outcome_congr hget hne hsteps hothers hsanitisers hfirst (fun c => ?_) hs
    rw [Bool.eq_iff_iff, allKeep_iff, allKeep_iff]
    exact forall₂_congr fun filter hfilter => imp_congr_left (hnames filter hfilter)
  · rintro front step back rfl haccents ⟨other, hother, -⟩
    obtain ⟨first, front, rfl⟩ := List.exists_cons_of_ne_nil (List.ne_nil_of_mem hother)
    have hfirst : IsSanitiser first := hsteps first List.mem_cons_self
    have hshort : ∀ step ∈ first :: front ++ back, IsSanitiser step := by
      intro other hmem
      refine hsteps other ?_
      rcases List.mem_append.mp hmem with hmem | hmem
      · exact List.mem_append_left _ hmem
      · exact List.mem_append_right _ (List.mem_cons_of_mem _ hmem)
    refine outcome_congr hget hne hsteps (List.cons_ne_nil _ _) hshort ?_ (fun c => ?_) hs
    · exact (accentsGoFirst_cons_iff hfirst).trans (accentsGoFirst_cons_iff hfirst).symm
    · exact (allKeep_append_accents haccents _ back c).symm

/-- A chain with the accents gone first keeps the a of `ã` in another order and without its second
accent filter as well, and one with the letters first loses it. -/
theorem sanitisers_have_normal_form_sao_paulo :
    (Run.plain Registry.builtin [⟨"removeAcentos", []⟩, ⟨"letras", []⟩, ⟨"removeAcentos", ["x"]⟩,
      ⟨"alfanumericos", []⟩] (.text "São Paulo 01º")).outcome = .ok (.text "Sao Paulo ") ∧
    (Run.plain Registry.builtin [⟨"removeAcentos", []⟩, ⟨"alfanumericos", []⟩, ⟨"letras", []⟩,
      ⟨"letras", []⟩] (.text "São Paulo 01º")).outcome = .ok (.text "Sao Paulo ") ∧
    (Run.plain Registry.builtin [⟨"removeAcentos", []⟩, ⟨"letras", []⟩, ⟨"alfanumericos", []⟩]
      (.text "São Paulo 01º")).outcome = .ok (.text "Sao Paulo ") ∧
    (Run.plain Registry.builtin [⟨"letras", []⟩, ⟨"removeAcentos", []⟩]
      (.text "São Paulo 01º")).outcome = .ok (.text "So Paulo ") := by
  have hv : (Value.text "São Paulo 01º").isContainer = false := rfl
  have hfirst (rest : List Step) : AccentsGoFirst (⟨"removeAcentos", []⟩ :: rest) :=
    (accentsGoFirst_cons_iff (Or.inl rfl)).mpr rfl
  have hlast : ¬ AccentsGoFirst [⟨"letras", []⟩, ⟨"removeAcentos", []⟩] :=
    mt (accentsGoFirst_cons_iff (by decide)).mp (by decide)
  have hlong : ∀ step ∈ [⟨"removeAcentos", []⟩, ⟨"letras", []⟩, ⟨"removeAcentos", ["x"]⟩,
      ⟨"alfanumericos", []⟩], IsSanitiser step := by decide
  have hshort : ∀ step ∈ [⟨"letras", []⟩, ⟨"removeAcentos", []⟩], IsSanitiser step := by decide
  obtain ⟨s, hs, hplain, -, hsame, hwithout⟩ :=
    sanitisers_have_normal_form (fun _ _ => rfl) (List.cons_ne_nil _ _) hlong hv
  obtain ⟨s', hs', -, hkept, -⟩ :=
    sanitisers_have_normal_form (fun _ _ => rfl) (List.cons_ne_nil _ _) hshort hv
  obtain rfl := Except.ok.inj hs
  obtain rfl := Except.ok.inj hs'
  have hclean : (Run.plain Registry.builtin [⟨"removeAcentos", []⟩, ⟨"letras", []⟩,
      ⟨"removeAcentos", ["x"]⟩, ⟨"alfanumericos", []⟩] (.text "São Paulo 01º")).outcome =
      .ok (.text "Sao Paulo ") :=
    (hplain (hfirst _)).trans (by decide +kernel)
  refine ⟨hclean, ?_, ?_, (hkept hlast).trans (by decide +kernel)⟩
  · have hothers := hsame [⟨"removeAcentos", []⟩, ⟨"alfanumericos", []⟩, ⟨"letras", []⟩,
      ⟨"letras", []⟩] (by decide) (by decide) (by decide) (iff_of_true (hfirst _) (hfirst _))
    exact hothers.trans hclean
  · have hless := hwithout [⟨"removeAcentos", []⟩, ⟨"letras", []⟩] ⟨"removeAcentos", ["x"]⟩
      [⟨"alfanumericos", []⟩] rfl rfl ⟨⟨"letras", []⟩, by decide⟩
    exact hless.trans hclean

end FilterChain.Filters
