import FilterChain.CommandLine
import FilterChain.Proofs.Document.Lines
import FilterChain.Proofs.Registry.Registration
import FilterChain.Proofs.Run.Trace
import FilterChain.Proofs.Step.Printing
import FilterChain.Proofs.Text.Trimming

/-!
# Applying a specification from the command line

The command that applies a specification takes its input from an argument or from standard input. It
ends as the specification ends on the built-in operations: what it prints to standard output is the
result, and nothing if there is none.
-/

namespace FilterChain

namespace CommandLine

variable {filter stdin raw : String} {value? : Option String} {json trace : Bool} {input : Value}
  {message : String}

def isLineBreak (c : Char) : Bool :=
  c = '\n' || c = '\r'

structure IsTrimmed (whole text : List Char) : Prop where
  breaks : ∃ ends, whole = text ++ ends ∧ ∀ c ∈ ends, isLineBreak c = true
  maximal : ∀ c, text.getLast? = some c → isLineBreak c = false

theorem isTrimmed_trimEndBy (whole : List Char) :
    IsTrimmed whole (Text.trimEndBy isLineBreak whole) where
  breaks := by
    refine ⟨(whole.reverse.takeWhile isLineBreak).reverse, ?_, ?_⟩
    · rw [Text.trimEndBy, ← List.reverse_append, List.takeWhile_append_dropWhile,
        List.reverse_reverse]
    · intro c hc
      exact List.all_eq_true.mp List.all_takeWhile c (List.mem_reverse.mp hc)
  maximal c hc := by
    rw [Text.trimEndBy, List.getLast?_reverse] at hc
    exact Text.not_of_head?_dropWhile hc

theorem IsTrimmed.eq_trimEndBy {whole text : List Char} (h : IsTrimmed whole text) :
    text = Text.trimEndBy isLineBreak whole := by
  obtain ⟨ends, rfl, hends⟩ := h.breaks
  rw [Text.trimEndBy_append hends, Text.trimEndBy_of_getLast? h.maximal]

/-- The text that a command takes as its input. -/
inductive IsRaw (stdin : String) : Option String → String → Prop where
  | argument (value : String) : IsRaw stdin (some value) value
  | piped {raw : String} (h : IsTrimmed stdin.toList raw.toList) (hne : raw ≠ "") :
      IsRaw stdin none raw

inductive IsInput (stdin : String) (value? : Option String) : (json : Bool) → Value → Prop where
  | text {raw : String} (hraw : IsRaw stdin value? raw) : IsInput stdin value? false (.text raw)
  | json {raw : String} {v : Value} (hraw : IsRaw stdin value? raw)
      (hread : Value.read raw = .ok v) : IsInput stdin value? true v

theorem isTrimmed_iff {whole text : String} :
    IsTrimmed whole.toList text.toList ↔
      text = String.ofList (Text.trimEndBy isLineBreak whole.toList) := by
  constructor
  · intro h
    rw [← h.eq_trimEndBy, String.ofList_toList]
  · rintro rfl
    rw [String.toList_ofList]
    exact isTrimmed_trimEndBy _

theorem IsRaw.taken (h : IsRaw stdin value? raw) :
    value?.elim (readInput stdin) .ok = .ok raw := by
  cases h with
  | argument => rfl
  | piped h hne =>
    obtain rfl := isTrimmed_iff.mp h
    exact if_neg hne

theorem IsInput.taken (h : IsInput stdin value? json input) :
    ∃ raw, value?.elim (readInput stdin) .ok = .ok raw ∧ inputValue json raw = .ok input := by
  cases h with
  | text hraw => exact ⟨_, hraw.taken, rfl⟩
  | json hraw hread =>
    refine ⟨_, hraw.taken, ?_⟩
    rw [inputValue, if_pos rfl, hread]
    rfl

def printed (steps : List Step) (input : Value) : (trace : Bool) → Except ChainError Printed
  | true =>
    (Run.traced .builtin 0 steps input).outcome.map fun (result, records) =>
      (result.toLines ++ "\n", String.join (records.map traceLine))
  | false => (Run.plain .builtin steps input).outcome.map fun result => (result.toLines ++ "\n", "")

theorem apply_of_isInput (h : IsInput stdin value? json input) (filter : String) (trace : Bool) :
    apply filter value? json trace stdin =
      ((Chain.parse filter).bind fun chain => printed chain.steps input trace).mapError .chain := by
  obtain ⟨raw, hraw, hinput⟩ := h.taken
  simp only [apply, hraw, bind, Except.bind, hinput]
  cases hparse : Chain.parse filter with
  | error e => rfl
  | ok chain =>
    cases trace with
    | true =>
      simp only [printed, Except.mapError, if_pos]
      cases (Run.traced .builtin 0 chain.steps input).outcome <;> rfl
    | false =>
      simp only [printed, Except.mapError, Bool.false_eq_true, if_false]
      cases (Run.plain .builtin chain.steps input).outcome <;> rfl

theorem apply_of_malformed {e : ChainError} (h : IsInput stdin value? json input)
    (hspec : Step.parseSpec filter = .error e) (trace : Bool) :
    apply filter value? json trace stdin = .error (.chain e) := by
  rw [apply_of_isInput h, Chain.parse_of_parseSpec_error hspec]
  rfl

theorem apply_of_outcome_eq_error {e : ChainError} (h : IsInput stdin value? json input)
    (houtcome : (Registry.builtin.apply filter input).outcome = .error e) (trace : Bool) :
    apply filter value? json trace stdin = .error (.chain e) := by
  cases hspec : Step.parseSpec filter with
  | error fault =>
    rw [Registry.apply_of_parseSpec_error hspec] at houtcome
    obtain rfl := Except.error.inj houtcome
    exact apply_of_malformed h hspec trace
  | ok steps =>
    obtain ⟨chain, hparse, rfl⟩ := Chain.exists_parse_eq_ok hspec
    rw [Registry.apply_of_parseSpec_ok hspec] at houtcome
    -- A traced run is another run: that it fails with the same error is a fact about both.
    have htraced : (Run.traced .builtin 0 chain.steps input).outcome = .error e :=
      Run.outcome_traced_eq_error_iff.mpr houtcome
    have hprinted : printed chain.steps input trace = .error e := by
      cases trace with
      | true => rw [printed, htraced, Except.map]
      | false => rw [printed, houtcome, Except.map]
    rw [apply_of_isInput h, hparse, Except.bind, hprinted, Except.mapError]

theorem apply_of_outcome_eq_ok {result : Value} (h : IsInput stdin value? json input)
    (houtcome : (Registry.builtin.apply filter input).outcome = .ok result) :
    ∃ steps records, Step.parseSpec filter = .ok steps ∧
      Run.IsTrace .builtin 0 steps input records result ∧
      ∀ trace, apply filter value? json trace stdin =
        .ok (result.toLines ++ "\n",
          if trace then String.join (records.map traceLine) else "") := by
  cases hspec : Step.parseSpec filter with
  | error fault =>
    rw [Registry.apply_of_parseSpec_error hspec] at houtcome
    cases houtcome
  | ok steps =>
    obtain ⟨chain, hparse, rfl⟩ := Chain.exists_parse_eq_ok hspec
    rw [Registry.apply_of_parseSpec_ok hspec] at houtcome
    obtain ⟨records, htrace⟩ := Run.exists_isTrace_of_outcome_eq_ok houtcome 0
    refine ⟨chain.steps, records, rfl, htrace, fun trace => ?_⟩
    rw [apply_of_isInput h, hparse, Except.bind]
    cases trace with
    | true => rw [printed, Run.traced_of_isTrace htrace, Except.map, if_pos rfl, Except.mapError]
    | false => rw [printed, houtcome, Except.map, if_neg Bool.false_ne_true, Except.mapError]

def traceText (record : StepRecord) : String :=
  s!"   #{record.index} {record.name}: {record.input.toText} -> {record.output.toText}"

theorem traceLine_eq (record : StepRecord) : traceLine record = traceText record ++ "\n" :=
  rfl

theorem lineBreak_not_mem_toText (v : Value) : '\n' ∉ v.toText.toList :=
  fun h => absurd (v.visible_toText _ h) (by decide)

theorem lineBreak_not_mem_decimalDigits (n : Nat) : '\n' ∉ decimalDigits n :=
  fun h => absurd (isAsciiDigit_of_mem_decimalDigits h) (by decide)

theorem lineBreak_not_mem_traceText {record : StepRecord} (h : '\n' ∉ record.name.toList) :
    '\n' ∉ (traceText record).toList := by
  have hindex := lineBreak_not_mem_decimalDigits record.index
  have hinput := lineBreak_not_mem_toText record.input
  have houtput := lineBreak_not_mem_toText record.output
  rw [decimalDigits] at hindex
  simp [traceText, toString, h, hindex, hinput, houtput]

theorem lineBreak_not_mem_builtins :
    ∀ operation ∈ Filters.builtins, '\n' ∉ operation.name.toList := by
  decide

theorem lineBreak_not_mem_name {start : Nat} {steps : List Step} {value last : Value}
    {records : List StepRecord} (h : Run.IsTrace .builtin start steps value records last) :
    ∀ record ∈ records, '\n' ∉ record.name.toList := by
  intro record hrecord
  obtain ⟨operation, hget, -⟩ := h.taken record hrecord
  obtain ⟨hmem, hname⟩ := (Registry.get?_eq_some_iff _ _ _).mp hget
  have hsame : record.name = operation.name := hname.symm
  rw [hsame]
  exact lineBreak_not_mem_builtins operation (Registry.mem_builtins_of_mem_builtin hmem)

def failed (message : String) : Outcome :=
  .finished 1 "" s!"❌ Error: {message}\n"

variable (env : List (String × String)) (file? : Option String)

theorem run_of_outcome_eq_error {e : ChainError} (h : IsInput stdin value? json input)
    (houtcome : (Registry.builtin.apply filter input).outcome = .error e) (trace : Bool) :
    (Command.apply filter value? json trace).run stdin env file? =
      failed s!"Filter error: {e.message}" := by
  have hmessage : (Failure.chain e).message = s!"Filter error: {e.message}" := rfl
  rw [← hmessage]
  simp only [Command.run, apply_of_outcome_eq_error h houtcome, finish, failed]

/-- Every step of a successful run has a line of the trace, and a trace is printed if it is asked
for. -/
theorem run_of_outcome_eq_ok {result : Value} (h : IsInput stdin value? json input)
    (houtcome : (Registry.builtin.apply filter input).outcome = .ok result) :
    ∃ steps records, Step.parseSpec filter = .ok steps ∧
      Run.IsTrace .builtin 0 steps input records result ∧
      (∀ record ∈ records, '\n' ∉ (traceText record).toList) ∧
      ∀ trace, (Command.apply filter value? json trace).run stdin env file? =
        .finished 0 (Value.inLines result.toText ++ "\n")
          (if trace then String.join (records.map fun record => traceText record ++ "\n")
            else "") := by
  obtain ⟨steps, records, hspec, htrace, happly⟩ := apply_of_outcome_eq_ok h houtcome
  refine ⟨steps, records, hspec, htrace, ?_, fun trace => ?_⟩
  · exact fun record hrecord =>
      lineBreak_not_mem_traceText (lineBreak_not_mem_name htrace record hrecord)
  · simp only [Command.run, happly, finish, funext traceLine_eq, result.toLines_eq_inLines]

end CommandLine

end FilterChain
