import FilterChain.Proofs.Outcome
import FilterChain.Proofs.Text.Trimming
import FilterChain.Proofs.Value.Fields
import FilterChain.Settings.EnvFile

/-!
# Files without faults and references

A file is plain if each of its lines is well formed and refers to no variable. Such a file does not
start with a byte order mark, which only one of the two ways to read a file leaves out. Both ways
find the same assignments in it. In the one they are all kept in order, and in the other the first
of each name is put into the environment, unless the name is already there.
-/

namespace FilterChain.EnvFile

open Fields (valuesOf)

/-- The text does not end inside of a line. Every line can be read, and is read alike whatever the
variables hold, so that it puts none of them in. An environment can hold what is assigned. -/
structure IsPlain (text : String) : Prop where
  closed : (logicalLines [] .complete (physicalLines text.toList)).2 = none
  reads : ∀ line ∈ (logicalLines [] .complete (physicalLines text.toList)).1, ∃ pair?,
    (∀ lookup, readLine lookup line = .ok pair?) ∧ ∀ pair ∈ pair?, '\x00' ∉ pair.2.toList

variable {lookup other : Lookup} {c : Char} {cs input line pending : List Char}
  {lines : List (List Char)} {mode : Mode} {key name text : String} {cursor next : Cursor}
  {env pairs : List (String × String)}

def ValueMode.readsName : ValueMode → Bool
  | .name _ _ | .braced _ _ => true
  | .bare | .escaped _ | .single | .double | .done => false

theorem readsName_outside (quoted : Bool) : (ValueMode.outside quoted).readsName = false := by
  cases quoted <;> rfl

theorem readChars_congr {index : Nat} {mode : ValueMode} (hmode : mode.readsName = false)
    (h : '$' ∉ cs) :
    readChars lookup input index mode cs = readChars other input index mode cs := by
  -- Only a dollar sign begins a name, so the modes that read names do not come up.
  induction cs generalizing index mode with
  | nil =>
    cases mode with
    | escaped quoted => cases quoted <;> rfl
    | name => cases hmode
    | _ => rfl
  | cons c cs ih =>
    rw [List.mem_cons, not_or, eq_comm] at h
    have hnext (mode : ValueMode) (hmode : mode.readsName = false) (index : Nat) :
        readChars lookup input index mode cs = readChars other input index mode cs :=
      ih hmode h.2
    cases mode with
    | name => cases hmode
    | braced => cases hmode
    | bare =>
      simp only [readChars, if_neg h.1, hnext .bare rfl, hnext .single rfl, hnext .double rfl,
        hnext (.escaped false) rfl, hnext .done rfl]
    | escaped quoted => simp only [readChars, hnext _ (readsName_outside quoted)]
    | single => simp only [readChars, hnext .bare rfl, hnext .single rfl]
    | double =>
      simp only [readChars, if_neg h.1, hnext .bare rfl, hnext (.escaped true) rfl,
        hnext .double rfl]
    | done => simp only [readChars, hnext .done rfl]

theorem suffix_of_readKey (h : readKey input cursor = .ok (key, next)) :
    next.rest <:+ cursor.rest := by
  unfold readKey at h
  split at h
  · cases h
  · split at h
    · obtain ⟨-, rfl⟩ := Prod.mk.inj (Except.ok.inj h)
      exact (List.dropWhile_suffix _).trans (List.dropWhile_suffix _)
    · cases h

theorem suffix_of_readEquals (h : readEquals input cursor = .ok next) :
    next.rest <:+ cursor.rest := by
  unfold readEquals at h
  split at h
  · next r hrest =>
    obtain rfl := Except.ok.inj h
    rw [hrest]
    exact (List.dropWhile_suffix _).trans (List.suffix_cons _ _)
  · cases h

theorem suffix_of_readTarget (h : readTarget input cursor = .ok (key, next)) :
    next.rest <:+ cursor.rest := by
  obtain ⟨⟨first, middle⟩, hfirst, h⟩ := bind_eq_ok_iff.mp h
  have hmiddle := suffix_of_readKey hfirst
  dsimp only at h
  split at h
  · split at h
    · next hequals =>
      obtain ⟨-, rfl⟩ := Prod.mk.inj (Except.ok.inj h)
      exact (suffix_of_readEquals hequals).trans hmiddle
    · obtain ⟨⟨second, last⟩, hsecond, h⟩ := bind_eq_ok_iff.mp h
      obtain ⟨last, hequals, h⟩ := bind_eq_ok_iff.mp h
      obtain ⟨-, rfl⟩ := Prod.mk.inj (Except.ok.inj h)
      exact ((suffix_of_readEquals hequals).trans (suffix_of_readKey hsecond)).trans hmiddle
  · obtain ⟨last, hequals, h⟩ := bind_eq_ok_iff.mp h
    obtain ⟨-, rfl⟩ := Prod.mk.inj (Except.ok.inj h)
    exact (suffix_of_readEquals hequals).trans hmiddle

/-- A line without a dollar sign is read alike whatever the variables hold. -/
theorem readLine_congr (h : '$' ∉ line) : readLine lookup line = readLine other line := by
  have hstart : ∀ c ∈ (Text.trimEndBy Text.isBlank line).dropWhile Text.isBlank, c ∈ line :=
    fun c hc => (Text.trimEndBy_prefix _ line).subset ((List.dropWhile_suffix _).subset hc)
  simp only [readLine]
  split
  · rfl
  · cases htarget : readTarget (Text.trimEndBy Text.isBlank line)
      (Cursor.mk line (Text.trimEndBy Text.isBlank line)).skipBlanks with
    | error fault => rfl
    | ok target =>
      have hrest : '$' ∉ target.2.rest := fun hc =>
        h (hstart _ ((suffix_of_readTarget htarget).subset hc))
      have hvalue : readValue lookup target.2.rest = readValue other target.2.rest :=
        readChars_congr rfl hrest
      show (if _ then _ else _) = (if _ then _ else _)
      rw [hvalue]

def readsPlainly (line : List Char) : Bool :=
  '$' ∉ line &&
    match readLine (fun _ => "") line with
    | .ok none => true
    | .ok (some pair) => '\x00' ∉ pair.2.toList
    | .error _ => false

theorem isPlain_of_all_readsPlainly
    (hclosed : (logicalLines [] .complete (physicalLines text.toList)).2 = none)
    (h : (logicalLines [] .complete (physicalLines text.toList)).1.all readsPlainly = true) :
    IsPlain text := by
  refine ⟨hclosed, fun line hline => ?_⟩
  have hplain := List.all_eq_true.mp h line hline
  rw [readsPlainly, Bool.and_eq_true, decide_eq_true_eq] at hplain
  obtain ⟨hdollar, hplain⟩ := hplain
  split at hplain
  · next hread => exact ⟨none, fun _ => (readLine_congr hdollar).trans hread, nofun⟩
  · next pair hread =>
    refine ⟨some pair, fun _ => (readLine_congr hdollar).trans hread, ?_⟩
    rintro _ ⟨⟩
    exact of_decide_eq_true hplain
  · cases hplain

/-- A character that a logical line cannot start with, neither as a blank nor otherwise. -/
structure IsStray (c : Char) : Prop where
  not_blank : Text.isBlank c = false
  not_comment : c ≠ '#'
  not_key : startsKey c = false

theorem readLine_of_isStray (h : IsStray c) (pair? : Option (String × String)) :
    readLine lookup (c :: cs) ≠ .ok pair? := by
  have hstart := Text.trimEndBy_cons_of_not h.not_blank cs
  have hskip : (c :: Text.trimEndBy Text.isBlank cs).dropWhile Text.isBlank =
      c :: Text.trimEndBy Text.isBlank cs :=
    List.dropWhile_cons_of_neg (by simp [h.not_blank])
  intro hread
  rw [readLine, hstart, Cursor.skipBlanks, hskip, if_neg (by simp [h.not_comment])] at hread
  obtain ⟨target, htarget, -⟩ := bind_eq_ok_iff.mp hread
  obtain ⟨named, hnamed, -⟩ := bind_eq_ok_iff.mp htarget
  simp [readKey, h.not_key] at hnamed

def Begins (c : Char) (result : List (List Char) × Option Fault) : Prop :=
  result.2 ≠ none ∨ ∃ rest others, result.1 = (c :: rest) :: others

theorem exists_dropLast_eq_cons {d : Char} (hlast : (c :: cs).getLast? = some d) (hne : d ≠ c) :
    ∃ rest, (c :: cs).dropLast = c :: rest := by
  cases cs with
  | nil => exact absurd (Option.some.inj hlast).symm hne
  | cons b bs => exact ⟨(b :: bs).dropLast, rfl⟩

theorem exists_chomp_eq_cons (h : Text.isBlank c = false) (cs : List Char) :
    ∃ rest, chomp (c :: cs) = c :: rest := by
  have hne {d : Char} (hd : Text.isBlank d = true) : d ≠ c := by
    rintro rfl
    rw [h] at hd
    cases hd
  rw [chomp]
  split
  · next hends =>
    obtain ⟨rest, hrest⟩ :=
      exists_dropLast_eq_cons (of_decide_eq_true hends) (hne (by decide : Text.isBlank '\n' = true))
    rw [hrest]
    dsimp only
    split
    · next hreturn =>
      exact exists_dropLast_eq_cons hreturn (hne (by decide : Text.isBlank '\r' = true))
    · exact ⟨rest, rfl⟩
  · exact ⟨cs, rfl⟩

theorem startsComment_of_isStray (h : IsStray c) : startsComment (c :: cs) = false := by
  rw [startsComment, List.dropWhile_cons_of_neg (by simp [h.not_blank])]
  simp [h.not_comment]

theorem begins_logicalLines_cons (h : IsStray c) (hwhole : ∃ rest, pending ++ line = c :: rest)
    (hread : ∃ rest, pending ++ (follow mode line).1 = c :: rest)
    (hnext : ∀ mode ≠ .complete, Begins c (logicalLines (pending ++ line) mode lines)) :
    Begins c (logicalLines pending mode (line :: lines)) := by
  obtain ⟨whole, hwhole⟩ := hwhole
  rw [logicalLines]
  simp only [hwhole, startsComment_of_isStray h] at hnext ⊢
  rw [if_neg Bool.false_ne_true]
  split
  · next read hfollow =>
    rw [hfollow] at hread
    obtain ⟨rest, hrest⟩ := hread
    exact .inr ⟨rest, _, congrArg (· :: _) hrest⟩
  · obtain ⟨rest, hrest⟩ := exists_chomp_eq_cons h.not_blank whole
    exact .inr ⟨rest, _, congrArg (· :: _) hrest⟩
  · next mode hmode _ => exact hnext mode hmode

theorem begins_logicalLines_of_pending (h : IsStray c) (hmode : mode ≠ .complete) :
    Begins c (logicalLines (c :: cs) mode lines) := by
  -- Lines are joined at the end of what is pending, whose front stays as it is.
  induction lines generalizing cs mode with
  | nil =>
    rw [logicalLines, if_neg hmode]
    exact .inl nofun
  | cons line lines ih =>
    exact begins_logicalLines_cons h ⟨_, rfl⟩ ⟨_, rfl⟩ fun mode hmode => ih hmode

theorem begins_logicalLines (h : IsStray c) :
    Begins c (logicalLines [] .complete (physicalLines (c :: cs))) := by
  have hbreak : c ≠ '\n' := by
    rintro rfl
    exact absurd h.not_blank (by decide)
  obtain ⟨line, lines, hlines⟩ : ∃ line lines, physicalLines (c :: cs) = (c :: line) :: lines := by
    rw [physicalLines, if_neg hbreak]
    split <;> exact ⟨_, _, rfl⟩
  rw [hlines]
  refine begins_logicalLines_cons h ⟨line, rfl⟩ ?_
    fun mode hmode => begins_logicalLines_of_pending h hmode
  rw [follow]
  split
  · next hnone =>
    rw [Mode.next?] at hnone
    split at hnone <;> cases hnone
  · exact ⟨_, rfl⟩

theorem IsPlain.not_isStray (h : IsPlain text) (hfirst : text.toList = c :: cs) : ¬ IsStray c := by
  intro hstray
  have hbegins : Begins c (logicalLines [] .complete (physicalLines text.toList)) :=
    hfirst ▸ begins_logicalLines hstray
  rcases hbegins with hopen | ⟨rest, others, hlines⟩
  · exact hopen h.closed
  · obtain ⟨pair?, hread, -⟩ := h.reads (c :: rest) (hlines ▸ List.mem_cons_self)
    exact readLine_of_isStray hstray pair? (hread fun _ => "")

theorem isStray_byteOrderMark (h : c.toNat = 0xFEFF) : IsStray c := by
  obtain rfl : c = '\uFEFF' := Char.toNat_inj.mp h
  exact ⟨by decide, by decide, by decide⟩

theorem IsPlain.load_eq (h : IsPlain text) (env : List (String × String)) :
    load env text =
      loadLines env [] (logicalLines [] .complete (physicalLines text.toList)).1 := by
  rw [load]
  split
  · next c cs hfirst =>
    rw [if_neg fun hmark => h.not_isStray hfirst (isStray_byteOrderMark hmark), hfirst]
  · next hnil => rw [hnil]

/-- Lines that refer to no variable assign the same pairs to any environment. -/
theorem exists_assigned (h : ∀ line ∈ lines, ∃ pair?,
      (∀ lookup, readLine lookup line = .ok pair?) ∧ ∀ pair ∈ pair?, '\x00' ∉ pair.2.toList) :
    ∃ pairs : List (String × String), (∀ pair ∈ pairs, '\x00' ∉ pair.2.toList) ∧
      ∀ env assigned, lines.foldlM (assignLine env) assigned = .ok (pairs.reverse ++ assigned) ∧
        loadLines env assigned lines = pairs.foldlM store env := by
  -- What is assigned so far serves references alone, so the lines assign the same behind all of it.
  induction lines with
  | nil => exact ⟨[], List.forall_mem_nil _, fun _ _ => ⟨rfl, rfl⟩⟩
  | cons line lines ih =>
    obtain ⟨⟨pair?, hread, hpair⟩, hlines⟩ := List.forall_mem_cons.mp h
    obtain ⟨pairs, hpairs, hrun⟩ := ih hlines
    cases pair? with
    | none =>
      refine ⟨pairs, hpairs, fun env assigned => ?_⟩
      rw [List.foldlM_cons, assignLine, loadLines, hread]
      exact hrun env assigned
    | some pair =>
      refine ⟨pair :: pairs, List.forall_mem_cons.mpr ⟨hpair pair rfl, hpairs⟩,
        fun env assigned => ?_⟩
      rw [List.foldlM_cons, assignLine, loadLines, hread, List.reverse_cons, List.append_assoc,
        List.foldlM_cons]
      exact ⟨(hrun env (pair :: assigned)).1,
        bind_congr fun env => (hrun env (pair :: assigned)).2⟩

theorem exists_store {pair : String × String} (h : '\x00' ∉ pair.2.toList)
    (env : List (String × String)) :
    ∃ stored, store env pair = .ok stored ∧
      ∀ name, valuesOf name stored =
        if valuesOf name env = [] then valuesOf name [pair] else valuesOf name env := by
  have hother {name : String} (hne : pair.1 ≠ name) : valuesOf name [pair] = [] :=
    Fields.valuesOf_cons_of_ne hne
  rw [store, Fields.lookup_eq_head?_valuesOf, if_neg h]
  split
  · next hset =>
    refine ⟨env, rfl, fun name => ?_⟩
    split
    · next hnone =>
      have hne : pair.1 ≠ name := by
        rintro rfl
        rw [hnone] at hset
        cases hset
      rw [hnone, hother hne]
    · rfl
  · next hunset =>
    refine ⟨env ++ [pair], rfl, fun name => ?_⟩
    rw [Fields.valuesOf_append]
    split
    · next hnone => rw [hnone, List.nil_append]
    · next hsome =>
      have hne : pair.1 ≠ name := by
        rintro rfl
        exact hunset (List.isSome_head?.mpr hsome)
      rw [hother hne, List.append_nil]

/-- Each name keeps the values that it has, and otherwise gets the first one that is assigned. -/
theorem exists_foldlM_store (h : ∀ pair ∈ pairs, '\x00' ∉ pair.2.toList)
    (env : List (String × String)) :
    ∃ stored, pairs.foldlM store env = .ok stored ∧
      ∀ name, valuesOf name stored =
        if valuesOf name env = [] then (valuesOf name pairs).take 1 else valuesOf name env := by
  induction pairs generalizing env with
  | nil =>
    refine ⟨env, rfl, fun name => ?_⟩
    split
    · next hnone => exact hnone
    · rfl
  | cons pair pairs ih =>
    obtain ⟨hpair, hpairs⟩ := List.forall_mem_cons.mp h
    obtain ⟨middle, hstore, hmiddle⟩ := exists_store hpair env
    obtain ⟨stored, hrun, hstored⟩ := ih hpairs middle
    refine ⟨stored, ?_, fun name => ?_⟩
    · rw [List.foldlM_cons, hstore]
      exact hrun
    · rw [hstored, hmiddle]
      by_cases hset : valuesOf name env = []
      · rw [if_pos hset, if_pos hset]
        obtain ⟨key, value⟩ := pair
        by_cases hkey : key = name
        · subst hkey
          rw [Fields.valuesOf_cons_self, Fields.valuesOf_cons_self, if_neg (List.cons_ne_nil _ _)]
          rfl
        · rw [Fields.valuesOf_cons_of_ne hkey, Fields.valuesOf_cons_of_ne hkey]
          exact if_pos rfl
      · rw [if_neg hset, if_neg hset, if_neg hset]

theorem IsPlain.exists_assignments (h : IsPlain text) :
    ∃ pairs, (∀ env, assignments env text = .ok pairs) ∧
      ∀ env, ∃ stored, load env text = .ok stored ∧
        ∀ name, valuesOf name stored =
          if valuesOf name env = [] then (valuesOf name pairs).take 1 else valuesOf name env := by
  obtain ⟨pairs, hpairs, hrun⟩ := exists_assigned h.reads
  refine ⟨pairs, fun env => ?_, fun env => ?_⟩
  · have hlines := (hrun env []).1
    rw [List.append_nil] at hlines
    rw [assignments]
    simp only [hlines, h.closed]
    exact congrArg Except.ok pairs.reverse_reverse
  · obtain ⟨stored, hstore, hstored⟩ := exists_foldlM_store hpairs env
    exact ⟨stored, by rw [h.load_eq, (hrun env []).2, hstore], hstored⟩

end FilterChain.EnvFile
