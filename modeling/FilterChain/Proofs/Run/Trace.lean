import FilterChain.Proofs.Run.Sequence

/-!
# Traces of runs

The steps that a run completes have a trace: records that are numbered, named after the steps,
linked by their values, and each true of the registry. Every run completes a first part of its
steps, and the rest is empty or stops at once, so the trace says all about its report.
-/

namespace FilterChain

namespace StepRecord

def step (record : StepRecord) : Step :=
  ⟨record.name, record.args⟩

def call (record : StepRecord) : Call :=
  ⟨record.name, record.args, record.input⟩

end StepRecord

namespace Run

variable {registry : Registry}

/-- Records that account for all the steps, from one value to another, numbered from `start`. -/
structure IsTrace (registry : Registry) (start : Nat) (steps : List Step) (value : Value)
    (records : List StepRecord) (last : Value) : Prop where
  steps_eq : records.map StepRecord.step = steps
  numbered : ∀ i record, records[i]? = some record → record.index = start + i
  starts : ∀ record, records.head? = some record → record.input = value
  linked : ∀ i a b, records[i]? = some a → records[i + 1]? = some b → b.input = a.output
  ends : last = (records.getLast?.map StepRecord.output).getD value
  taken : ∀ record ∈ records, registry.Takes record.step record.input record.output

theorem last_output_cons (record : StepRecord) (records : List StepRecord) (value : Value) :
    ((record :: records).getLast?.map StepRecord.output).getD value =
      (records.getLast?.map StepRecord.output).getD record.output := by
  rw [List.getLast?_cons]
  cases records.getLast? <;> rfl

namespace IsTrace

variable {start : Nat} {steps : List Step} {value last : Value} {record : StepRecord}
  {records : List StepRecord}

theorem nil (registry : Registry) (start : Nat) (value : Value) :
    IsTrace registry start [] value [] value where
  steps_eq := rfl
  numbered _ _ h := by simp at h
  starts _ h := by simp at h
  linked _ _ _ h := by simp at h
  ends := rfl
  taken _ h := by simp at h

theorem cons {output : Value} {s : Step} (here : registry.Takes s value output)
    (rest : IsTrace registry (start + 1) steps output records last) :
    IsTrace registry start (s :: steps) value (⟨start, s.name, s.args, value, output⟩ :: records)
      last where
  steps_eq := by
    rw [List.map_cons, rest.steps_eq]
    rfl
  numbered i record h := by
    cases i with
    | zero =>
      obtain rfl := Option.some.inj h
      rfl
    | succ i =>
      rw [rest.numbered i record h]
      omega
  starts record h := by
    obtain rfl := Option.some.inj h
    rfl
  linked i a b ha hb := by
    cases i with
    | zero =>
      obtain rfl := Option.some.inj ha
      exact rest.starts b (by rw [List.head?_eq_getElem?]; exact hb)
    | succ i => exact rest.linked i a b ha hb
  ends := by rw [rest.ends, last_output_cons]
  taken record h := by
    rcases List.mem_cons.mp h with rfl | h
    · exact here
    · exact rest.taken record h

theorem eq_nil (h : IsTrace registry start steps value [] last) : steps = [] ∧ last = value :=
  ⟨h.steps_eq.symm, h.ends⟩

theorem uncons (h : IsTrace registry start steps value (record :: records) last) :
    ∃ rest, steps = record.step :: rest ∧
      record = ⟨start, record.name, record.args, value, record.output⟩ ∧
      registry.Takes record.step value record.output ∧
      IsTrace registry (start + 1) rest record.output records last := by
  have hindex : record.index = start := h.numbered 0 record rfl
  have hinput : record.input = value := h.starts record rfl
  have htaken := h.taken record List.mem_cons_self
  rw [hinput] at htaken
  refine ⟨records.map StepRecord.step, h.steps_eq.symm, ?_, htaken, ?_⟩
  · rw [← hindex, ← hinput]
  · refine ⟨rfl, ?_, ?_, ?_, ?_, ?_⟩
    · intro i next hnext
      rw [h.numbered (i + 1) next hnext]
      omega
    · intro next hnext
      rw [List.head?_eq_getElem?] at hnext
      exact h.linked 0 record next rfl hnext
    · intro i a b ha hb
      exact h.linked (i + 1) a b ha hb
    · rw [h.ends, last_output_cons]
    · exact fun next hnext => h.taken next (List.mem_cons_of_mem _ hnext)

end IsTrace

/-- No steps are left, or the first of them stops on the value. -/
def Halts (registry : Registry) (rest : List Step) (value : Value) : Prop :=
  ∀ s, rest.head? = some s → ∃ e, registry.Stops s value e

/-- Every run completes a first part of its steps and halts behind it. -/
theorem exists_isTrace (registry : Registry) (start : Nat) (steps : List Step) (value : Value) :
    ∃ completed rest records last, steps = completed ++ rest ∧
      IsTrace registry start completed value records last ∧ Halts registry rest last := by
  induction steps generalizing start value with
  | nil => exact ⟨[], [], [], value, rfl, .nil registry start value, by simp [Halts]⟩
  | cons s steps ih =>
    rcases registry.takes_or_stops s value with ⟨output, htakes⟩ | hstops
    · obtain ⟨completed, rest, records, last, rfl, htrace, hhalts⟩ := ih (start + 1) output
      exact ⟨s :: completed, rest, _, last, rfl, htrace.cons htakes, hhalts⟩
    · refine ⟨[], s :: steps, [], value, rfl, .nil registry start value, ?_⟩
      intro other hother
      obtain rfl := Option.some.inj hother
      exact hstops

/-- A run of the steps completes the first `k` of them and halts there on a value. -/
structure HaltsAt (registry : Registry) (steps : List Step) (value : Value) (k : Nat)
    (records : List StepRecord) (current : Value) : Prop where
  le_length : k ≤ steps.length
  completes : IsTrace registry 0 (steps.take k) value records current
  halts : Halts registry (steps.drop k) current

theorem exists_haltsAt (registry : Registry) (steps : List Step) (value : Value) :
    ∃ k records current, HaltsAt registry steps value k records current := by
  obtain ⟨completed, rest, records, last, rfl, htrace, hhalts⟩ :=
    exists_isTrace registry 0 steps value
  refine ⟨completed.length, records, last, by simp, ?_, ?_⟩
  · rwa [List.take_left]
  · rwa [List.drop_left]

theorem HaltsAt.length_records {steps : List Step} {value current : Value} {k : Nat}
    {records : List StepRecord} (h : HaltsAt registry steps value k records current) :
    records.length = k := by
  rw [← List.length_map StepRecord.step, h.completes.steps_eq, List.length_take,
    Nat.min_eq_left h.le_length]

def recordWarnings (record : StepRecord) : List Log.Entry :=
  warnings record.step record.input record.output

def recordEntry (record : StepRecord) : Log.Entry :=
  stepEntry record.index record.step record.input record.output

variable {start : Nat} {completed : List Step} {value last : Value} {records : List StepRecord}

theorem plain_of_isTrace (h : IsTrace registry start completed value records last) :
    plain registry completed value =
      ⟨.ok last, records.flatMap recordWarnings, records.map StepRecord.call⟩ := by
  induction records generalizing start completed value with
  | nil =>
    obtain ⟨rfl, rfl⟩ := h.eq_nil
    rfl
  | cons record records ih =>
    obtain ⟨steps, rfl, hrecord, htakes, htail⟩ := h.uncons
    rw [plain_cons_of_takes htakes, ih htail, hrecord]
    rfl

theorem traced_of_isTrace (h : IsTrace registry start completed value records last) :
    traced registry start completed value =
      ⟨.ok (last, records),
        records.flatMap (fun record => recordWarnings record ++ [recordEntry record]),
        records.map StepRecord.call⟩ := by
  induction records generalizing start completed value with
  | nil =>
    obtain ⟨rfl, rfl⟩ := h.eq_nil
    rfl
  | cons record records ih =>
    obtain ⟨steps, rfl, hrecord, htakes, htail⟩ := h.uncons
    rw [traced_cons_of_takes htakes, ih htail, hrecord]
    simp [recordWarnings, recordEntry, StepRecord.step, StepRecord.call, Except.map]

theorem plain_of_stops {s : Step} {e : ChainError}
    (h : IsTrace registry start completed value records last) (hstops : registry.Stops s last e)
    (rest : List Step) :
    plain registry (completed ++ s :: rest) value =
      ⟨.error e, records.flatMap recordWarnings ++ [.error e.message],
        records.map StepRecord.call ++
          if registry.enters s then [⟨s.name, s.args, last⟩] else []⟩ := by
  simp only [plain_append, plain_of_isTrace h, Report.andThen, plain_cons_of_stops hstops]

theorem traced_of_stops {s : Step} {e : ChainError}
    (h : IsTrace registry start completed value records last) (hstops : registry.Stops s last e)
    (rest : List Step) :
    traced registry start (completed ++ s :: rest) value =
      ⟨.error e,
        records.flatMap (fun record => recordWarnings record ++ [recordEntry record]) ++
          [.error s!"step #{start + records.length} {e.message}"],
        records.map StepRecord.call ++
          if registry.enters s then [⟨s.name, s.args, last⟩] else []⟩ := by
  have hlength : completed.length = records.length := by rw [← h.steps_eq, List.length_map]
  simp only [traced_append, traced_of_isTrace h, Report.andThen, traced_cons_of_stops hstops,
    Report.map, hlength]
  rfl

section HaltsAt

variable {steps : List Step} {k : Nat} {current : Value}

theorem HaltsAt.reports_of_drop_eq_nil (h : HaltsAt registry steps value k records current)
    (hrest : steps.drop k = []) :
    plain registry steps value =
        ⟨.ok current, records.flatMap recordWarnings, records.map StepRecord.call⟩ ∧
      traced registry 0 steps value =
        ⟨.ok (current, records),
          records.flatMap (fun record => recordWarnings record ++ [recordEntry record]),
          records.map StepRecord.call⟩ := by
  have hsplit := List.take_append_drop k steps
  have htrace := h.completes
  rw [hrest, List.append_nil] at hsplit
  rw [hsplit] at htrace
  exact ⟨plain_of_isTrace htrace, traced_of_isTrace htrace⟩

theorem HaltsAt.reports_of_drop_eq_cons {s : Step} {rest : List Step} {e : ChainError}
    (h : HaltsAt registry steps value k records current) (hrest : steps.drop k = s :: rest)
    (hstops : registry.Stops s current e) :
    plain registry steps value =
        ⟨.error e, records.flatMap recordWarnings ++ [.error e.message],
          records.map StepRecord.call ++
            if registry.enters s then [⟨s.name, s.args, current⟩] else []⟩ ∧
      traced registry 0 steps value =
        ⟨.error e,
          records.flatMap (fun record => recordWarnings record ++ [recordEntry record]) ++
            [.error s!"step #{k} {e.message}"],
          records.map StepRecord.call ++
            if registry.enters s then [⟨s.name, s.args, current⟩] else []⟩ := by
  have hsplit := List.take_append_drop k steps
  have hplain := plain_of_stops h.completes hstops rest
  have htraced := traced_of_stops h.completes hstops rest
  rw [hrest] at hsplit
  rw [hsplit] at hplain htraced
  rw [h.length_records, Nat.zero_add] at htraced
  exact ⟨hplain, htraced⟩

/-- A run that halts behind its first `k` steps either has no further step or stops at the next
one, and the trace of those `k` steps tells what it reports. -/
theorem HaltsAt.reports (h : HaltsAt registry steps value k records current) :
    (steps.drop k = [] ∧
      plain registry steps value =
        ⟨.ok current, records.flatMap recordWarnings, records.map StepRecord.call⟩ ∧
      traced registry 0 steps value =
        ⟨.ok (current, records),
          records.flatMap (fun record => recordWarnings record ++ [recordEntry record]),
          records.map StepRecord.call⟩) ∨
      ∃ s rest e, steps.drop k = s :: rest ∧ registry.Stops s current e ∧
        plain registry steps value =
          ⟨.error e, records.flatMap recordWarnings ++ [.error e.message],
            records.map StepRecord.call ++
              if registry.enters s then [⟨s.name, s.args, current⟩] else []⟩ ∧
        traced registry 0 steps value =
          ⟨.error e,
            records.flatMap (fun record => recordWarnings record ++ [recordEntry record]) ++
              [.error s!"step #{k} {e.message}"],
            records.map StepRecord.call ++
              if registry.enters s then [⟨s.name, s.args, current⟩] else []⟩ := by
  cases hrest : steps.drop k with
  | nil => exact Or.inl ⟨rfl, h.reports_of_drop_eq_nil hrest⟩
  | cons s rest =>
    obtain ⟨e, hstops⟩ := h.halts s (by rw [hrest]; rfl)
    exact Or.inr ⟨s, rest, e, rfl, hstops, h.reports_of_drop_eq_cons hrest hstops⟩

end HaltsAt

theorem map_fst_outcome_traced (registry : Registry) (start : Nat) (steps : List Step)
    (value : Value) :
    (traced registry start steps value).outcome.map Prod.fst =
      (plain registry steps value).outcome := by
  obtain ⟨completed, rest, records, last, rfl, htrace, hhalts⟩ :=
    exists_isTrace registry start steps value
  cases rest with
  | nil =>
    rw [List.append_nil, plain_of_isTrace htrace, traced_of_isTrace htrace]
    rfl
  | cons s rest =>
    obtain ⟨e, hstops⟩ := hhalts s rfl
    rw [plain_of_stops htrace hstops, traced_of_stops htrace hstops]
    rfl

theorem outcome_traced_eq_error_iff {start : Nat} {steps : List Step} {value : Value}
    {e : ChainError} :
    (traced registry start steps value).outcome = .error e ↔
      (plain registry steps value).outcome = .error e := by
  rw [← map_fst_outcome_traced registry start steps value]
  cases (traced registry start steps value).outcome <;> simp [Except.map]

theorem exists_isTrace_of_outcome_eq_ok {steps : List Step} {value last : Value}
    (h : (plain registry steps value).outcome = .ok last) (start : Nat) :
    ∃ records, IsTrace registry start steps value records last := by
  obtain ⟨completed, rest, records, current, rfl, htrace, hhalts⟩ :=
    exists_isTrace registry start steps value
  cases rest with
  | nil =>
    rw [List.append_nil, plain_of_isTrace htrace] at h
    obtain rfl := Except.ok.inj h
    exact ⟨records, (List.append_nil completed).symm ▸ htrace⟩
  | cons s rest =>
    obtain ⟨e, hstops⟩ := hhalts s rfl
    rw [plain_of_stops htrace hstops] at h
    cases h

/-- A traced run and a plain one end in the same value or in the same error, and a traced run
succeeds with exactly the records that account for all its steps. -/
theorem traced_agrees_with_plain (registry : Registry) (steps : List Step) (value : Value) :
    (traced registry 0 steps value).outcome.map Prod.fst = (plain registry steps value).outcome ∧
      ∀ last records, (traced registry 0 steps value).outcome = .ok (last, records) ↔
        IsTrace registry 0 steps value records last := by
  obtain ⟨completed, rest, records, last, rfl, htrace, hhalts⟩ :=
    exists_isTrace registry 0 steps value
  cases rest with
  | nil =>
    rw [List.append_nil, plain_of_isTrace htrace, traced_of_isTrace htrace]
    refine ⟨rfl, fun other others => ?_⟩
    constructor
    · intro h
      obtain ⟨rfl, rfl⟩ := Prod.mk.inj (Except.ok.inj h)
      exact htrace
    · intro h
      have hsame := (traced_of_isTrace htrace).symm.trans (traced_of_isTrace h)
      exact congrArg Report.outcome hsame
  | cons s rest =>
    obtain ⟨e, hstops⟩ := hhalts s rfl
    rw [plain_of_stops htrace hstops, traced_of_stops htrace hstops]
    refine ⟨rfl, fun other others => ?_⟩
    constructor
    · intro h
      cases h
    · intro h
      have hsame := (traced_of_stops htrace hstops rest).symm.trans (traced_of_isTrace h)
      exact congrArg Report.outcome hsame

end Run

end FilterChain
