import FilterChain.Proofs.Settings.EnvFile
import FilterChain.Proofs.Settings.Variables

/-!
# Settings from a file and from an environment

A file can be read by itself, or loaded into an environment that is read. By itself its last
assignment of each name counts, and loaded its first one, as a variable that is set is not set
again. So the two ways agree on files that assign no name twice, and on others if the first and the
last assignment of a name mean the same and the ones between them are not refused.
-/

namespace FilterChain.Settings

open Fields (valuesOf firsts)

variable {α : Type} {name text path : String} {vars env : List (String × String)}
  {settings : Settings}

/-- The first and the last value of a name mean the same. -/
def HasOneMeaning (name : String) (Means : String → α → Prop) (vars : List (String × String)) :
    Prop :=
  ∀ first last, (valuesOf name vars).head? = some first →
    (valuesOf name vars).getLast? = some last → ∀ a, Means first a ↔ Means last a

structure AreSettled (vars : List (String × String)) : Prop where
  port : HasOneMeaning "FILTROS_PORT" IsPort vars
  logEcho : HasOneMeaning "FILTROS_LOG_ECHO" IsSwitch vars
  defaultFilter : HasOneMeaning "FILTROS_DEFAULT_FILTER" IsFilter vars

theorem getLast?_valuesOf_firsts (name : String) (vars : List (String × String)) :
    (valuesOf name (firsts vars)).getLast? = (valuesOf name vars).head? := by
  rw [Fields.valuesOf_firsts]
  cases valuesOf name vars <;> rfl

theorem HasOneMeaning.isLast_firsts_iff {Means : String → α → Prop} {default a : α}
    (h : HasOneMeaning name Means vars) :
    IsLast name Means default (firsts vars) a ↔ IsLast name Means default vars a := by
  rw [IsLast, IsLast, getLast?_valuesOf_firsts]
  rcases List.eq_nil_or_concat' (valuesOf name vars) with hnone | ⟨front, last, hlast⟩
  · rw [hnone]
    rfl
  · have hend : (valuesOf name vars).getLast? = some last := hlast ▸ List.getLast?_concat
    obtain ⟨first, hfirst⟩ : ∃ first, (valuesOf name vars).head? = some first := by
      rw [hlast]
      cases front <;> exact ⟨_, rfl⟩
    rw [hend, hfirst]
    exact h first last hfirst hend a

/-- Where no value means two things, values that decide a field alike mean the same. -/
theorem HasOneMeaning.of_isLast {Means : String → α → Prop} {default a : α}
    (hunique : ∀ value a b, Means value a → Means value b → a = b)
    (hfirsts : IsLast name Means default (firsts vars) a)
    (hvars : IsLast name Means default vars a) : HasOneMeaning name Means vars := by
  intro first last hfirst hlast b
  rw [IsLast, getLast?_valuesOf_firsts, hfirst] at hfirsts
  rw [IsLast, hlast] at hvars
  dsimp only at hfirsts hvars
  constructor
  · intro h
    rwa [hunique _ _ _ h hfirsts]
  · intro h
    rwa [hunique _ _ _ h hvars]

theorem DecidedBy.areSettled (hfirsts : settings.DecidedBy (firsts vars))
    (hvars : settings.DecidedBy vars) : AreSettled vars where
  port := .of_isLast (fun value a b ha hb => by
    rw [← readPort?_eq_some_iff] at ha hb
    exact Option.some.inj (ha.symm.trans hb)) hfirsts.port hvars.port
  logEcho := .of_isLast (fun value a b ha hb => by
    rw [← readSwitch?_eq_some_iff] at ha hb
    exact Option.some.inj (ha.symm.trans hb)) hfirsts.logEcho hvars.logEcho
  defaultFilter := .of_isLast (fun value a b ha hb => by
    rw [← readFilter_eq_iff] at ha hb
    exact ha.symm.trans hb) hfirsts.defaultFilter hvars.defaultFilter

theorem AreSettled.decidedBy_firsts_iff (h : AreSettled vars) :
    settings.DecidedBy (firsts vars) ↔ settings.DecidedBy vars := by
  constructor
  · rintro ⟨hport, hecho, hfilter⟩
    exact ⟨h.port.isLast_firsts_iff.mp hport, h.logEcho.isLast_firsts_iff.mp hecho,
      h.defaultFilter.isLast_firsts_iff.mp hfilter⟩
  · rintro ⟨hport, hecho, hfilter⟩
    exact ⟨h.port.isLast_firsts_iff.mpr hport, h.logEcho.isLast_firsts_iff.mpr hecho,
      h.defaultFilter.isLast_firsts_iff.mpr hfilter⟩

theorem not_refused_firsts (h : ∀ var ∈ vars, ∀ e, ¬ Refused var e) :
    ∀ var ∈ firsts vars, ∀ e, ¬ Refused var e :=
  fun var hvar => h var (Fields.firsts_subset vars hvar)

theorem agree_ofVars_firsts_iff :
    Agree (ofVars (firsts vars)) (ofVars vars) ↔
      (∃ var ∈ firsts vars, ∃ e, Refused var e) ∨
        (∀ var ∈ vars, ∀ e, ¬ Refused var e) ∧ AreSettled vars := by
  constructor
  · intro hagree
    by_cases hrefused : ∃ var ∈ firsts vars, ∃ e, Refused var e
    · exact .inl hrefused
    · -- The settings are the same, so they tie the meanings of first and last values together.
      obtain ⟨settings, hfirsts⟩ := exists_ofVars_eq_ok_iff.mpr fun var hvar e h =>
        hrefused ⟨var, hvar, e, h⟩
      have hvars := (hagree settings).mp hfirsts
      exact .inr ⟨(ofVars_eq_ok_iff.mp hvars).1,
        (ofVars_eq_ok_iff.mp hfirsts).2.areSettled (ofVars_eq_ok_iff.mp hvars).2⟩
  · rintro (⟨var, hvar, e, hrefused⟩ | ⟨haccepted, hsettled⟩) settings
    · exact iff_of_false
        (fun h => (ofVars_eq_ok_iff.mp h).1 var hvar e hrefused)
        (fun h => (ofVars_eq_ok_iff.mp h).1 var (Fields.firsts_subset vars hvar) e hrefused)
    · rw [ofVars_eq_ok_iff, ofVars_eq_ok_iff, hsettled.decidedBy_firsts_iff,
        and_iff_right haccepted, and_iff_right (not_refused_firsts haccepted)]

/-- A plain file by itself and loaded into an environment without settings of its own. -/
theorem sources_of_isPlain (htext : EnvFile.IsPlain text)
    (henv : ∀ name ∈ variableNames, name ∉ Fields.names env) (path : String) :
    ∃ pairs, EnvFile.assignments [] text = .ok pairs ∧
      ofFile path (some text) = ofVars pairs ∧
      Agree (ofEnvironment env (some text)) (ofVars (firsts pairs)) := by
  obtain ⟨pairs, hassigned, hload⟩ := htext.exists_assignments
  obtain ⟨stored, hstored, hvalues⟩ := hload env
  refine ⟨pairs, hassigned [], ?_, ?_⟩
  · rw [ofFile]
    simp only [hassigned]
  · have hofVars : ofEnvironment env (some text) = ofVars stored := by
      rw [ofEnvironment]
      simp only [hstored]
      rfl
    rw [hofVars]
    refine agree_ofVars_of_values fun name hname => ?_
    rw [hvalues, if_pos (Fields.valuesOf_of_not_mem (henv name hname)), Fields.valuesOf_firsts]

/-- A plain file that is read by itself is decided by its last assignments, and one that is loaded
into an environment by its first ones. If a file can be used by itself, it can be loaded. The two
ways agree on a file if, and only if, a first assignment is refused, or none at all is refused and
the first and the last assignment of each name mean the same. So they do if no name is assigned
twice. -/
theorem file_and_environment_agree_iff (htext : EnvFile.IsPlain text)
    (henv : ∀ name ∈ variableNames, name ∉ Fields.names env) (path : String) :
    ∃ pairs, EnvFile.assignments [] text = .ok pairs ∧
      ofFile path (some text) = ofVars pairs ∧
      Agree (ofEnvironment env (some text)) (ofVars (firsts pairs)) ∧
      ((∃ settings, ofFile path (some text) = .ok settings) →
        ∃ settings, ofEnvironment env (some text) = .ok settings) ∧
      ((∀ name ∈ variableNames, (valuesOf name pairs).length ≤ 1) →
        Agree (ofEnvironment env (some text)) (ofFile path (some text))) ∧
      (Agree (ofEnvironment env (some text)) (ofFile path (some text)) ↔
        (∃ var ∈ firsts pairs, ∃ e, Refused var e) ∨
          (∀ var ∈ pairs, ∀ e, ¬ Refused var e) ∧ AreSettled pairs) := by
  obtain ⟨pairs, hassigned, hfile, hloaded⟩ := sources_of_isPlain htext henv path
  refine ⟨pairs, hassigned, hfile, hloaded, ?_, ?_, ?_⟩
  · rw [hfile, exists_ofVars_eq_ok_iff]
    intro h
    obtain ⟨settings, hsettings⟩ := exists_ofVars_eq_ok_iff.mpr (not_refused_firsts h)
    exact ⟨settings, (hloaded settings).mpr hsettings⟩
  · intro honce
    have hsame : Agree (ofVars (firsts pairs)) (ofVars pairs) :=
      agree_ofVars_of_values fun name hname => by
        rw [Fields.valuesOf_firsts, List.take_of_length_le (honce name hname)]
    rw [hfile]
    exact fun settings => (hloaded settings).trans (hsame settings)
  · rw [hfile, ← agree_ofVars_firsts_iff]
    exact forall_congr' fun settings => iff_congr (hloaded settings) Iff.rfl

def switchedBack : String :=
  "# echo\nFILTROS_LOG_ECHO = on\nexport FILTROS_LOG_ECHO='0' # no\nFILTROS_LOG_ECHO=\"YES\"\n"

theorem file_and_environment_agree_iff_switchedBack :
    EnvFile.IsPlain switchedBack ∧
      Agree (ofEnvironment [("HOME", "/")] (some switchedBack))
        (ofFile ".env" (some switchedBack)) := by
  have htext : EnvFile.IsPlain switchedBack :=
    EnvFile.isPlain_of_all_readsPlainly (by decide +kernel) (by decide +kernel)
  have henv : ∀ name ∈ variableNames, name ∉ Fields.names [("HOME", "/")] := by decide
  obtain ⟨pairs, hassigned, -, -, -, -, hiff⟩ := file_and_environment_agree_iff htext henv ".env"
  obtain rfl : [("FILTROS_LOG_ECHO", "on"), ("FILTROS_LOG_ECHO", "0"),
      ("FILTROS_LOG_ECHO", "YES")] = pairs :=
    Except.ok.inj (.trans (by decide +kernel) hassigned)
  refine ⟨htext, hiff.mpr (.inr ⟨fun var hvar => refusal?_eq_none_iff.mp ?_, ?_, ?_, ?_⟩)⟩
  · revert var
    decide
  · rintro _ _ ⟨⟩
  · rintro _ _ ⟨⟩ ⟨⟩ on
    rw [← readSwitch?_eq_some_iff, (by decide : readSwitch? "on" = readSwitch? "YES")]
    exact readSwitch?_eq_some_iff
  · rintro _ _ ⟨⟩

theorem port_assigned_twice_is_read_apart :
    EnvFile.IsPlain "FILTROS_PORT=1\nFILTROS_PORT=2\n" ∧
      ofEnvironment [] (some "FILTROS_PORT=1\nFILTROS_PORT=2\n") = .ok ⟨1, true, none⟩ ∧
      ofFile ".env" (some "FILTROS_PORT=1\nFILTROS_PORT=2\n") = .ok ⟨2, true, none⟩ ∧
      ¬ Agree (ofEnvironment [] (some "FILTROS_PORT=1\nFILTROS_PORT=2\n"))
        (ofFile ".env" (some "FILTROS_PORT=1\nFILTROS_PORT=2\n")) := by
  have hloaded : ofEnvironment [] (some "FILTROS_PORT=1\nFILTROS_PORT=2\n") =
      .ok ⟨1, true, none⟩ := by
    decide
  have hfile : ofFile ".env" (some "FILTROS_PORT=1\nFILTROS_PORT=2\n") =
      .ok ⟨2, true, none⟩ := by
    decide
  refine ⟨EnvFile.isPlain_of_all_readsPlainly (by decide) (by decide), hloaded, hfile, fun h => ?_⟩
  have hsame := (h _).mp hloaded
  rw [hfile] at hsame
  exact absurd hsame (by decide)

end FilterChain.Settings
