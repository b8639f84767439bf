import FilterChain.Proofs.Run.Trace
import Mathlib.Data.List.TakeWhile

/-!
# The log of a run

A plain run logs a warning for every usable value that becomes null, and at last the error that
it stops with. A traced run logs a note on every step besides, behind the warning of the step, and
puts the number of the step in front of the error. Without notes and number its log is that of the
plain run.
-/

namespace FilterChain

namespace StepRecord

/-- The step made null out of a value that was neither null nor a text of blanks. -/
def LosesValue (record : StepRecord) : Prop :=
  record.output = .null ∧ record.input ≠ .null ∧
    ∀ s, record.input = .text s → Text.strip s ≠ ""

theorem losesValue_iff (record : StepRecord) :
    record.LosesValue ↔ record.output = .null ∧ Run.isBlank record.input = false := by
  unfold LosesValue
  cases record.input <;> simp [Run.isBlank, Text.strip]

instance (record : StepRecord) : Decidable record.LosesValue :=
  decidable_of_iff _ record.losesValue_iff.symm

def lossEntries (record : StepRecord) : List Log.Entry :=
  if record.LosesValue then [⟨.warning, s!"{record.name}: {record.input.toText} became null", 1⟩]
  else []

def note (record : StepRecord) : Log.Entry :=
  ⟨.info, s!"#{record.index} {record.step.text}: {record.input.toText} -> {record.output.toText}", 1⟩

end StepRecord

namespace Log.Entry

/-- A message without the word "step", a number sign, a number and a space in front of it. -/
def unnumbered (message : String) : String :=
  match (message.toList.dropPrefix? "step #".toList).map (List.dropWhile Char.isDigit) with
  | some (' ' :: rest) => String.ofList rest
  | _ => message

/-- What is left of an entry without notes on steps and without the numbers of steps in errors. -/
def untraced? (entry : Entry) : Option Entry :=
  if entry.level = .info ∧ entry.indent = 1 then none
  else if entry.level = .error then some { entry with message := unnumbered entry.message }
  else some entry

theorem unnumbered_step (k : Nat) (message : String) :
    unnumbered s!"step #{k} {message}" = message := by
  have hchars : (s!"step #{k} {message}").toList =
      "step #".toList ++ (Nat.toDigits 10 k ++ ' ' :: message.toList) := by
    simp [toString]
  have hprefix : (s!"step #{k} {message}").toList.dropPrefix? "step #".toList =
      some (Nat.toDigits 10 k ++ ' ' :: message.toList) :=
    List.dropPrefix?_eq_some_iff.mpr ⟨_, hchars, BEq.rfl⟩
  have hdigits : ∀ c ∈ Nat.toDigits 10 k, c.isDigit = true := fun c hc =>
    Nat.isDigit_of_mem_toDigits (by decide) (by decide) hc
  have hrest : (Nat.toDigits 10 k ++ ' ' :: message.toList).dropWhile Char.isDigit =
      ' ' :: message.toList := by
    rw [List.dropWhile_append_of_pos hdigits]
    rfl
  rw [unnumbered, hprefix, Option.map_some, hrest]
  exact String.ofList_toList

end Log.Entry

namespace Run

variable {registry : Registry}

theorem recordWarnings_eq_lossEntries (record : StepRecord) :
    recordWarnings record = record.lossEntries := by
  have hiff : (record.output = .null ∧ (!isBlank record.input) = true) ↔ record.LosesValue := by
    rw [record.losesValue_iff, Bool.not_eq_true']
  exact if_congr hiff rfl rfl

theorem filterMap_untraced?_warnings (s : Step) (input output : Value) :
    (warnings s input output).filterMap Log.Entry.untraced? = warnings s input output := by
  unfold warnings
  split <;> rfl

theorem untraced?_stepEntry (index : Nat) (s : Step) (input output : Value) :
    (stepEntry index s input output).untraced? = none :=
  rfl

theorem untraced?_stepError (index : Nat) (message : String) :
    (Log.Entry.error s!"step #{index} {message}").untraced? = some (.error message) :=
  congrArg (fun m => some (Log.Entry.error m)) (Log.Entry.unnumbered_step index message)

theorem filterMap_untraced?_traced (registry : Registry) (index : Nat) (steps : List Step)
    (value : Value) :
    (traced registry index steps value).entries.filterMap Log.Entry.untraced? =
      (plain registry steps value).entries := by
  induction steps generalizing index value with
  | nil => rfl
  | cons s steps ih =>
    rcases registry.takes_or_stops s value with ⟨output, htakes⟩ | ⟨e, hstops⟩
    · -- The warnings of the step stay, and its note goes.
      rw [plain_cons_of_takes htakes, traced_cons_of_takes htakes]
      simp only [List.filterMap_append, filterMap_untraced?_warnings,
        List.filterMap_cons_none (untraced?_stepEntry index s value output), ih]
    · rw [plain_cons_of_stops hstops, traced_cons_of_stops hstops]
      exact List.filterMap_cons_some (untraced?_stepError index e.message)

/-- A plain run logs the lost values of the steps that it completes, in their order, and then its
error if it fails. A traced run logs a note on each of these steps besides, right behind the
warning, and its error with the number of the failing step. Nothing else is logged, and without
the notes and the number the two logs are the same. -/
theorem entries_account_for_run (registry : Registry) (steps : List Step) (value : Value) :
    (∃ k records current, HaltsAt registry steps value k records current) ∧
    (∀ k records current, HaltsAt registry steps value k records current →
      (plain registry steps value).entries =
        records.flatMap StepRecord.lossEntries ++
          (match (plain registry steps value).outcome with
          | .ok _ => []
          | .error e => [⟨.error, e.message, 0⟩]) ∧
      (traced registry 0 steps value).entries =
        records.flatMap (fun record => record.lossEntries ++ [record.note]) ++
          (match (traced registry 0 steps value).outcome with
          | .ok _ => []
          | .error e => [⟨.error, s!"step #{k} {e.message}", 0⟩])) ∧
    (traced registry 0 steps value).entries.filterMap Log.Entry.untraced? =
      (plain registry steps value).entries := by
  refine ⟨exists_haltsAt registry steps value, ?_,
    filterMap_untraced?_traced registry 0 steps value⟩
  intro k records current hhalts
  have hwarnings : recordWarnings = StepRecord.lossEntries := funext recordWarnings_eq_lossEntries
  rcases hhalts.reports with ⟨-, hplain, htraced⟩ | ⟨s, rest, e, -, -, hplain, htraced⟩
  · rw [hplain, htraced, hwarnings, List.append_nil, List.append_nil]
    exact ⟨rfl, rfl⟩
  · rw [hplain, htraced, hwarnings]
    exact ⟨rfl, rfl⟩

def lossyRegistry : Registry :=
  Registry.empty.put (.unary "perde" "" fun _ => .ok .null)

theorem entries_account_for_run_lost_text :
    (plain lossyRegistry [⟨"perde", []⟩, ⟨"naoExiste", ["1"]⟩] (.text " x")).entries =
      [⟨.warning, "perde: \" x\" became null", 1⟩,
        ⟨.error, "filter \"naoExiste\" does not exist", 0⟩] ∧
    (traced lossyRegistry 0 [⟨"perde", []⟩, ⟨"naoExiste", ["1"]⟩] (.text " x")).entries =
      [⟨.warning, "perde: \" x\" became null", 1⟩, ⟨.info, "#0 perde: \" x\" -> null", 1⟩,
        ⟨.error, "step #1 filter \"naoExiste\" does not exist", 0⟩] := by
  have hfirst : lossyRegistry.Takes ⟨"perde", []⟩ (.text " x") .null := ⟨_, rfl, rfl⟩
  have hhalts : HaltsAt lossyRegistry [⟨"perde", []⟩, ⟨"naoExiste", ["1"]⟩] (.text " x") 1
      [⟨0, "perde", [], .text " x", .null⟩] .null := by
    refine ⟨by decide, (IsTrace.nil _ 1 _).cons hfirst, ?_⟩
    intro s hs
    obtain rfl := Option.some.inj hs
    exact ⟨_, .unknown rfl⟩
  obtain ⟨hplain, htraced⟩ := (entries_account_for_run _ _ _).2.1 1 _ _ hhalts
  exact ⟨hplain.trans (by decide), htraced.trans (by decide)⟩

end Run

end FilterChain
