import FilterChain.Proofs.Number.Numeral
import FilterChain.Proofs.Value.Fields
import FilterChain.Settings

/-!
# Settings from variables

Each variable is put into the settings by itself, so the first bad one is reported, whatever stands
behind it. If there is none, the last variable of each name decides its field. It follows that
other variables can stand anywhere, and that variables of different names can trade places.
-/

namespace FilterChain.Settings

open Fields (valuesOf)

def variableNames : List String :=
  ["FILTROS_PORT", "FILTROS_LOG_ECHO", "FILTROS_DEFAULT_FILTER"]

def IsPort (value : String) (port : Nat) : Prop :=
  Bounds.port.IsNumeral (Text.strip value).toList port

def switchWords : Bool → List String
  | true => ["1", "true", "yes", "on"]
  | false => ["0", "false", "no", "off"]

/-- One of the words, with its ASCII letters in any case and blanks around it. -/
def IsSwitch (value : String) (on : Bool) : Prop :=
  ∃ word ∈ switchWords on, (Text.strip value).toList.map Text.lowerAscii = word.toList

/-- Blanks alone mean no filter, and otherwise they are left out at both ends. -/
inductive IsFilter (value : String) : Option String → Prop where
  | unset (h : Text.strip value = "") : IsFilter value none
  | filter (h : Text.strip value ≠ "") : IsFilter value (some (Text.strip value))

/-- A variable with a bad value, and the error that reports it. -/
inductive Refused : String × String → SettingsError → Prop where
  | port {value : String} (h : ∀ n, ¬ IsPort value n) :
      Refused ("FILTROS_PORT", value) (.port value)
  | logEcho {value : String} (h : ∀ on, ¬ IsSwitch value on) :
      Refused ("FILTROS_LOG_ECHO", value) (.logEcho value)

variable {α : Type} {value name : String} {var : String × String} {e : SettingsError}
  {vars others : List (String × String)} {settings : Settings}

theorem readPort?_eq_some_iff {port : Nat} : readPort? value = some port ↔ IsPort value port := by
  rw [IsPort, Text.strip, String.toList_ofList,
    ← Bounds.read_eq_ok_iff (by decide) (by decide), readPort?]
  split
  · next n hread =>
    obtain ⟨-, hlow, -⟩ := (Bounds.read_eq_ok_iff (by decide) (by decide)).mp hread
    obtain ⟨m, rfl⟩ := Int.eq_ofNat_of_zero_le hlow
    rw [hread, Except.ok.injEq, Int.natCast_inj, Option.some.injEq, Int.toNat_natCast]
  · next hread => simp [hread]

theorem readPort?_eq_none_iff : readPort? value = none ↔ ∀ port, ¬ IsPort value port := by
  simp only [Option.eq_none_iff_forall_ne_some, ne_eq, readPort?_eq_some_iff]

theorem isSwitch_iff {on : Bool} :
    IsSwitch value on ↔
      String.ofList ((Text.trimBy Text.isBlank value.toList).map Text.lowerAscii) ∈
        switchWords on := by
  rw [IsSwitch, Text.strip, String.toList_ofList]
  constructor
  · rintro ⟨word, hword, heq⟩
    rwa [heq, String.ofList_toList]
  · intro h
    exact ⟨_, h, (String.toList_ofList).symm⟩

theorem disjoint_switchWords : ∀ word ∈ switchWords true, word ∉ switchWords false := by
  decide

theorem readSwitch?_eq_some_iff {on : Bool} : readSwitch? value = some on ↔ IsSwitch value on := by
  rw [isSwitch_iff]
  show (if _ ∈ switchWords true then some true
    else if _ ∈ switchWords false then some false else none) = some on ↔ _
  split
  · next htrue =>
    cases on with
    | true => exact iff_of_true rfl htrue
    | false => exact iff_of_false (by simp) (disjoint_switchWords _ htrue)
  · next htrue =>
    cases on with
    | true => exact iff_of_false (by split <;> simp) htrue
    | false => simp

theorem readSwitch?_eq_none_iff : readSwitch? value = none ↔ ∀ on, ¬ IsSwitch value on := by
  simp only [Option.eq_none_iff_forall_ne_some, ne_eq, readSwitch?_eq_some_iff]

theorem readFilter_eq_iff {filter? : Option String} :
    readFilter value = filter? ↔ IsFilter value filter? := by
  show (if _ then _ else _) = filter? ↔ _
  split
  · next hblank =>
    constructor
    · rintro rfl
      exact .unset hblank
    · rintro (_ | hfilter)
      · rfl
      · exact absurd hblank hfilter
  · next hfilter =>
    constructor
    · rintro rfl
      exact .filter hfilter
    · rintro (hblank | _)
      · exact absurd hblank hfilter
      · rfl

theorem Refused.message_eq (h : Refused var e) :
    ∃ wanted : String, e.message = s!"{var.1} must be {wanted}, got '{var.2}'" := by
  cases h with
  | port => exact ⟨"a port number", rfl⟩
  | logEcho => exact ⟨"true or false", rfl⟩

def refusal? (var : String × String) : Option SettingsError :=
  if var.1 = "FILTROS_PORT" then
    if readPort? var.2 = none then some (.port var.2) else none
  else if var.1 = "FILTROS_LOG_ECHO" then
    if readSwitch? var.2 = none then some (.logEcho var.2) else none
  else none

theorem refusal?_eq_some_iff : refusal? var = some e ↔ Refused var e := by
  obtain ⟨name, value⟩ := var
  constructor
  · intro h
    simp only [refusal?] at h
    split at h
    · next hname =>
      obtain rfl : name = "FILTROS_PORT" := hname
      obtain ⟨hnone, he⟩ := Option.ite_none_right_eq_some.mp h
      obtain rfl := Option.some.inj he
      exact .port (readPort?_eq_none_iff.mp hnone)
    · split at h
      · next hname =>
        obtain rfl : name = "FILTROS_LOG_ECHO" := hname
        obtain ⟨hnone, he⟩ := Option.ite_none_right_eq_some.mp h
        obtain rfl := Option.some.inj he
        exact .logEcho (readSwitch?_eq_none_iff.mp hnone)
      · cases h
  · rintro (h | h)
    · simp [refusal?, readPort?_eq_none_iff.mpr h]
    · simp [refusal?, readSwitch?_eq_none_iff.mpr h]

theorem refusal?_eq_none_iff : refusal? var = none ↔ ∀ e, ¬ Refused var e := by
  simp only [Option.eq_none_iff_forall_ne_some, ne_eq, refusal?_eq_some_iff]

def under (name : String) (read : String → Option α) (var : String × String) : Option α :=
  if var.1 = name then read var.2 else none

def put (settings : Settings) (var : String × String) : Settings where
  port := (under "FILTROS_PORT" readPort? var).getD settings.port
  logEcho := (under "FILTROS_LOG_ECHO" readSwitch? var).getD settings.logEcho
  defaultFilter? :=
    (under "FILTROS_DEFAULT_FILTER" (some <| readFilter ·) var).getD settings.defaultFilter?

theorem setVar_eq (settings : Settings) (var : String × String) :
    setVar settings var =
      match refusal? var with
      | some e => .error e
      | none => .ok (settings.put var) := by
  obtain ⟨name, value⟩ := var
  by_cases hport : name = "FILTROS_PORT"
  · subst hport
    cases hread : readPort? value <;> simp [setVar, refusal?, put, under, hread]
  · by_cases hecho : name = "FILTROS_LOG_ECHO"
    · subst hecho
      cases hread : readSwitch? value <;> simp [setVar, refusal?, put, under, hread]
    · by_cases hfilter : name = "FILTROS_DEFAULT_FILTER"
      · subst hfilter
        simp [setVar, refusal?, put, under]
      · simp [setVar, refusal?, put, under, hport, hecho, hfilter]

theorem foldlM_setVar (settings : Settings) (vars : List (String × String)) :
    vars.foldlM setVar settings =
      match vars.findSome? refusal? with
      | some e => .error e
      | none => .ok (vars.foldl put settings) := by
  -- Each variable changes the settings, so they vary in the induction.
  induction vars generalizing settings with
  | nil => rfl
  | cons var vars ih =>
    rw [List.foldlM_cons, setVar_eq, List.findSome?_cons]
    cases refusal? var with
    | some e => rfl
    | none => exact ih (settings.put var)

def lastOf (name : String) (read : String → Option α) (default : α)
    (vars : List (String × String)) : α :=
  ((valuesOf name vars).filterMap read).getLast?.getD default

theorem lastOf_cons (name : String) (read : String → Option α) (default : α)
    (var : String × String) (vars : List (String × String)) :
    lastOf name read default (var :: vars) =
      lastOf name read ((under name read var).getD default) vars := by
  obtain ⟨key, value⟩ := var
  by_cases h : key = name
  · subst h
    rw [lastOf, Fields.valuesOf_cons_self, lastOf, under, if_pos rfl]
    cases hread : read value with
    | none => rw [List.filterMap_cons_none hread, Option.getD_none]
    | some a => rw [List.filterMap_cons_some hread, List.getLast?_cons, Option.getD_some,
        Option.getD_some]
  · rw [lastOf, Fields.valuesOf_cons_of_ne h, under, if_neg h, Option.getD_none]
    rfl

theorem foldl_put (settings : Settings) (vars : List (String × String)) :
    vars.foldl put settings =
      ⟨lastOf "FILTROS_PORT" readPort? settings.port vars,
        lastOf "FILTROS_LOG_ECHO" readSwitch? settings.logEcho vars,
        lastOf "FILTROS_DEFAULT_FILTER" (some <| readFilter ·) settings.defaultFilter? vars⟩ := by
  induction vars generalizing settings with
  | nil => rfl
  | cons var vars ih =>
    rw [List.foldl_cons, ih, lastOf_cons, lastOf_cons, lastOf_cons]
    rfl

/-- A field is what the last value of its name means, and has its default without any. -/
def IsLast (name : String) (Means : String → α → Prop) (default : α)
    (vars : List (String × String)) (a : α) : Prop :=
  match (valuesOf name vars).getLast? with
  | some value => Means value a
  | none => a = default

theorem isLast_iff {read : String → Option α} {Means : String → α → Prop} {default a : α}
    (hread : ∀ value a, read value = some a ↔ Means value a)
    (h : ∀ value ∈ valuesOf name vars, read value ≠ none) :
    IsLast name Means default vars a ↔ a = lastOf name read default vars := by
  rw [IsLast, lastOf]
  rcases List.eq_nil_or_concat' (valuesOf name vars) with hnone | ⟨front, value, hlast⟩
  · rw [hnone]
    rfl
  · -- The last value can be read, so no value in front of it takes its place.
    rw [hlast] at h ⊢
    obtain ⟨b, hb⟩ := Option.ne_none_iff_exists'.mp (h value (by simp))
    rw [List.filterMap_append, List.filterMap_cons_some hb, List.filterMap_nil,
      List.getLast?_concat, List.getLast?_concat, Option.getD_some]
    dsimp only
    rw [← hread, hb, Option.some.injEq, eq_comm]

/-- Every field is decided by the last variable of its name. -/
structure DecidedBy (settings : Settings) (vars : List (String × String)) : Prop where
  port : IsLast "FILTROS_PORT" IsPort 3000 vars settings.port
  logEcho : IsLast "FILTROS_LOG_ECHO" IsSwitch true vars settings.logEcho
  defaultFilter : IsLast "FILTROS_DEFAULT_FILTER" IsFilter none vars settings.defaultFilter?

theorem decidedBy_iff (h : ∀ var ∈ vars, ∀ e, ¬ Refused var e) :
    settings.DecidedBy vars ↔ settings = vars.foldl put initial := by
  have hport : ∀ value ∈ valuesOf "FILTROS_PORT" vars, readPort? value ≠ none :=
    fun value hvalue hnone =>
      h _ (Fields.mem_valuesOf_iff.mp hvalue) _ (.port (readPort?_eq_none_iff.mp hnone))
  have hecho : ∀ value ∈ valuesOf "FILTROS_LOG_ECHO" vars, readSwitch? value ≠ none :=
    fun value hvalue hnone =>
      h _ (Fields.mem_valuesOf_iff.mp hvalue) _ (.logEcho (readSwitch?_eq_none_iff.mp hnone))
  have hfilter (value : String) (filter? : Option String) :
      some (readFilter value) = some filter? ↔ IsFilter value filter? := by
    rw [Option.some.injEq, readFilter_eq_iff]
  rw [foldl_put]
  constructor
  · rintro ⟨hp, he, hf⟩
    rw [isLast_iff (fun _ _ => readPort?_eq_some_iff) hport] at hp
    rw [isLast_iff (fun _ _ => readSwitch?_eq_some_iff) hecho] at he
    rw [isLast_iff hfilter (by simp)] at hf
    cases settings
    rw [mk.injEq]
    exact ⟨hp, he, hf⟩
  · rintro rfl
    exact ⟨(isLast_iff (fun _ _ => readPort?_eq_some_iff) hport).mpr rfl,
      (isLast_iff (fun _ _ => readSwitch?_eq_some_iff) hecho).mpr rfl,
      (isLast_iff hfilter (by simp)).mpr rfl⟩

theorem ofVars_eq_error_iff :
    ofVars vars = .error e ↔
      ∃ front var rest, vars = front ++ var :: rest ∧
        (∀ other ∈ front, ∀ e, ¬ Refused other e) ∧ Refused var e := by
  have hfirst : ofVars vars = .error e ↔ vars.findSome? refusal? = some e := by
    rw [ofVars, foldlM_setVar]
    cases vars.findSome? refusal? <;> simp
  rw [hfirst, List.findSome?_eq_some_iff]
  simp only [refusal?_eq_some_iff, refusal?_eq_none_iff, and_comm]

theorem ofVars_eq_ok_iff :
    ofVars vars = .ok settings ↔
      (∀ var ∈ vars, ∀ e, ¬ Refused var e) ∧ settings.DecidedBy vars := by
  have hnone : vars.findSome? refusal? = none ↔ ∀ var ∈ vars, ∀ e, ¬ Refused var e := by
    simp only [List.findSome?_eq_none_iff, refusal?_eq_none_iff]
  rw [ofVars, foldlM_setVar]
  cases hfind : vars.findSome? refusal? with
  | some e =>
    refine iff_of_false nofun fun h => ?_
    rw [hnone.mpr h.1] at hfind
    cases hfind
  | none =>
    rw [Except.ok.injEq, decidedBy_iff (hnone.mp hfind), and_iff_right (hnone.mp hfind), eq_comm]

theorem exists_ofVars_eq_error_iff :
    (∃ e, ofVars vars = .error e) ↔ ∃ var ∈ vars, ∃ e, Refused var e := by
  constructor
  · rintro ⟨e, h⟩
    obtain ⟨front, var, rest, rfl, -, hvar⟩ := ofVars_eq_error_iff.mp h
    exact ⟨var, by simp, e, hvar⟩
  · rintro ⟨var, hvar, e, hrefused⟩
    cases h : ofVars vars with
    | error e => exact ⟨e, rfl⟩
    | ok settings => exact absurd hrefused ((ofVars_eq_ok_iff.mp h).1 var hvar e)

theorem exists_ofVars_eq_ok_iff :
    (∃ settings, ofVars vars = .ok settings) ↔ ∀ var ∈ vars, ∀ e, ¬ Refused var e := by
  constructor
  · rintro ⟨settings, h⟩
    exact (ofVars_eq_ok_iff.mp h).1
  · intro h
    cases hrun : ofVars vars with
    | ok settings => exact ⟨settings, rfl⟩
    | error e =>
      obtain ⟨var, hvar, e, hrefused⟩ := exists_ofVars_eq_error_iff.mp ⟨e, hrun⟩
      exact absurd hrefused (h var hvar e)

theorem setVar_of_unknown (h : var.1 ∉ variableNames) (settings : Settings) :
    setVar settings var = .ok settings := by
  simp only [variableNames, List.mem_cons, List.not_mem_nil, or_false, not_or] at h
  rw [setVar, if_neg h.1, if_neg h.2.1, if_neg h.2.2]

theorem ofVars_filter (vars : List (String × String)) :
    ofVars (vars.filter (·.1 ∈ variableNames)) = ofVars vars := by
  rw [ofVars, ofVars]
  generalize initial = settings
  induction vars generalizing settings with
  | nil => rfl
  | cons var vars ih =>
    rw [List.filter_cons, List.foldlM_cons]
    split
    · rw [List.foldlM_cons]
      exact bind_congr fun settings => ih settings
    · next hname =>
      rw [setVar_of_unknown (by simpa using hname), ih]
      rfl

theorem Refused.name_mem (h : Refused var e) : var.1 ∈ variableNames := by
  cases h <;> simp [variableNames]

theorem exists_refused_iff :
    (∃ var ∈ vars, ∃ e, Refused var e) ↔
      (∃ value, ("FILTROS_PORT", value) ∈ vars ∧ ∀ port, ¬ IsPort value port) ∨
        ∃ value, ("FILTROS_LOG_ECHO", value) ∈ vars ∧ ∀ on, ¬ IsSwitch value on := by
  constructor
  · rintro ⟨_, hvar, _, @⟨value, h⟩ | @⟨value, h⟩⟩
    · exact .inl ⟨value, hvar, h⟩
    · exact .inr ⟨value, hvar, h⟩
  · rintro (⟨value, hvar, h⟩ | ⟨value, hvar, h⟩)
    · exact ⟨_, hvar, _, .port h⟩
    · exact ⟨_, hvar, _, .logEcho h⟩

/-- Variables are accepted alike if those of each known name have the same values in order. -/
theorem DecidedBy.congr (h : ∀ name ∈ variableNames, valuesOf name others = valuesOf name vars)
    (hdecided : settings.DecidedBy vars) : settings.DecidedBy others := by
  obtain ⟨hport, hecho, hfilter⟩ := hdecided
  simp only [IsLast, ← h _ (show "FILTROS_PORT" ∈ variableNames by simp [variableNames]),
    ← h _ (show "FILTROS_LOG_ECHO" ∈ variableNames by simp [variableNames]),
    ← h _ (show "FILTROS_DEFAULT_FILTER" ∈ variableNames by simp [variableNames])]
    at hport hecho hfilter
  exact ⟨hport, hecho, hfilter⟩

def Agree (outcome other : Except SettingsError Settings) : Prop :=
  ∀ settings, outcome = .ok settings ↔ other = .ok settings

theorem ofVars_eq_ok_of_values
    (h : ∀ name ∈ variableNames, valuesOf name others = valuesOf name vars)
    (hok : ofVars vars = .ok settings) : ofVars others = .ok settings := by
  obtain ⟨haccepted, hdecided⟩ := ofVars_eq_ok_iff.mp hok
  refine ofVars_eq_ok_iff.mpr ⟨fun var hvar e hrefused => haccepted var ?_ e hrefused,
    hdecided.congr h⟩
  rw [← Fields.mem_valuesOf_iff, ← h _ hrefused.name_mem, Fields.mem_valuesOf_iff]
  exact hvar

theorem agree_ofVars_of_values
    (h : ∀ name ∈ variableNames, valuesOf name others = valuesOf name vars) :
    Agree (ofVars others) (ofVars vars) :=
  fun _ => ⟨ofVars_eq_ok_of_values fun name hname => (h name hname).symm,
    ofVars_eq_ok_of_values h⟩

/-- Variables are refused for a bad port or a bad truth value, and the first of them in the list is
reported by its name and value. Otherwise each field is decided by the last variable of its name. So
variables of other names can be put in and left out anywhere, and variables of different names can
trade places. -/
theorem last_variables_decide_settings (vars : List (String × String)) :
    ((∃ e, ofVars vars = .error e) ↔
      (∃ value, ("FILTROS_PORT", value) ∈ vars ∧ ∀ port, ¬ IsPort value port) ∨
        ∃ value, ("FILTROS_LOG_ECHO", value) ∈ vars ∧ ∀ on, ¬ IsSwitch value on) ∧
    (∀ e, ofVars vars = .error e ↔
      ∃ front var rest, vars = front ++ var :: rest ∧
        (∀ other ∈ front, ∀ e, ¬ Refused other e) ∧ Refused var e) ∧
    (∀ var e, Refused var e →
      ∃ wanted : String, e.message = s!"{var.1} must be {wanted}, got '{var.2}'") ∧
    (∀ settings, ofVars vars = .ok settings ↔
      (∀ var ∈ vars, ∀ e, ¬ Refused var e) ∧ settings.DecidedBy vars) ∧
    (∀ others, others.filter (·.1 ∈ variableNames) = vars.filter (·.1 ∈ variableNames) →
      ofVars others = ofVars vars) ∧
    ∀ others, (∀ name ∈ variableNames, valuesOf name others = valuesOf name vars) →
      Agree (ofVars others) (ofVars vars) := by
  refine ⟨exists_ofVars_eq_error_iff.trans exists_refused_iff, fun _ => ofVars_eq_error_iff,
    fun _ _ => Refused.message_eq, fun _ => ofVars_eq_ok_iff, fun others h => ?_,
    fun _ => agree_ofVars_of_values⟩
  rw [← ofVars_filter others, h, ofVars_filter]

/-- A blank filter takes the one before it back, and a bad port is reported although a good one
follows. -/
theorem last_variables_decide_settings_interleaved :
    Agree
      (ofVars [("FILTROS_DEFAULT_FILTER", "trim"), ("FILTROS_DEFAULT_FILTER", "\t"),
        ("FILTROS_LOG_ECHO", " oFF"), ("FILTROS_PORT", "80"), ("FILTROS_PORT", "8080")])
      (ofVars [("FILTROS_PORT", "80"), ("FILTROS_DEFAULT_FILTER", "trim"), ("PATH", "/bin"),
        ("FILTROS_PORT", "8080"), ("FILTROS_LOG_ECHO", " oFF"),
        ("FILTROS_DEFAULT_FILTER", "\t")]) ∧
    ofVars [("FILTROS_LOG_ECHO", "0"), ("FILTROS_PORT", "x1"), ("FILTROS_LOG_ECHO", "maybe"),
      ("FILTROS_PORT", "1")] = .error (.port "x1") ∧
    ofVars [("FILTROS_PORT", " +80 "), ("FILTROS_DEFAULT_FILTER", "trim"), ("PATH", "/bin"),
      ("FILTROS_PORT", "8080"), ("FILTROS_DEFAULT_FILTER", "\t")] = .ok ⟨8080, true, none⟩ := by
  obtain ⟨-, hreport, -, -, -, -⟩ := last_variables_decide_settings
    [("FILTROS_LOG_ECHO", "0"), ("FILTROS_PORT", "x1"), ("FILTROS_LOG_ECHO", "maybe"),
      ("FILTROS_PORT", "1")]
  obtain ⟨-, -, -, hsettings, -, -⟩ := last_variables_decide_settings
    [("FILTROS_PORT", " +80 "), ("FILTROS_DEFAULT_FILTER", "trim"), ("PATH", "/bin"),
      ("FILTROS_PORT", "8080"), ("FILTROS_DEFAULT_FILTER", "\t")]
  refine ⟨(last_variables_decide_settings _).2.2.2.2.2 _ (by decide), ?_, ?_⟩
  · refine (hreport _).mpr ⟨[("FILTROS_LOG_ECHO", "0")], _, _, rfl, ?_, ?_⟩
    · rw [List.forall_mem_singleton]
      exact refusal?_eq_none_iff.mp (by decide)
    · exact refusal?_eq_some_iff.mp (by decide)
  · refine (hsettings _).mpr ⟨fun var hvar => refusal?_eq_none_iff.mp ?_, ?_, ?_, ?_⟩
    · revert var
      decide
    · exact readPort?_eq_some_iff.mp (by decide : readPort? "8080" = some 8080)
    · rfl
    · exact .unset (by decide : Text.strip "\t" = "")

end FilterChain.Settings
