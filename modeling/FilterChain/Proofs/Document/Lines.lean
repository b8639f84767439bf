import FilterChain.Proofs.Document.Values
import FilterChain.Proofs.Document.Written
import FilterChain.Proofs.Filters.Limits
import FilterChain.Proofs.Filters.Notation

/-!
# Values with one item a line

The text with one item a line is the compact text with breaks in it. A line ends behind a bracket
that opens, behind a comma and in front of a bracket that closes, but there is no break between the
brackets of an empty list or record, and none inside of quotes; the next line is indented by two
spaces for each bracket that is open there. So both texts of a value are read back as the value.
-/

namespace FilterChain.Value

/-- Where a character of a compact text stands: outside of quotes, with a line to be broken or not,
inside of them, or behind a backslash there. -/
inductive Place where
  | outside (due : Bool)
  | quoted
  | escaped

def newLine (depth : Nat) : List Char :=
  '\n' :: List.replicate (2 * depth) ' '

/-- The lines of a compact text that goes on inside of `depth` brackets. -/
def breakLines : Place → (depth : Nat) → List Char → List Char
  | _, _, [] => []
  | .escaped, depth, c :: cs => c :: breakLines .quoted depth cs
  | .quoted, depth, c :: cs =>
    c :: breakLines
      (if c = '\\' then .escaped else if c = '\x22' then .outside false else .quoted) depth cs
  | .outside due, depth, c :: cs =>
    if c = ']' ∨ c = '\x7d' then
      (if due then [] else newLine (depth - 1)) ++ c :: breakLines (.outside false) (depth - 1) cs
    else
      (if due then newLine depth else []) ++ c ::
        if c = '[' ∨ c = '\x7b' then breakLines (.outside true) (depth + 1) cs
        else if c = ',' then breakLines (.outside true) depth cs
        else if c = ':' then ' ' :: breakLines (.outside false) depth cs
        else breakLines (if c = '\x22' then .quoted else .outside false) depth cs

def inLines (text : String) : String :=
  String.ofList (breakLines (.outside false) 0 text.toList)

variable {depth : Nat} {c : Char} {cs rest : List Char}

theorem breakLines_due (h : c ≠ ']' ∧ c ≠ '\x7d') :
    breakLines (.outside true) depth (c :: cs) =
      newLine depth ++ breakLines (.outside false) depth (c :: cs) := by
  simp [breakLines, h]

theorem breakLines_numeral (h : ∀ c ∈ cs, IsNumeral c) :
    breakLines (.outside false) depth (cs ++ rest) =
      cs ++ breakLines (.outside false) depth rest := by
  have hmarks : ∀ d ∈ [']', '\x7d', '[', '\x7b', ',', ':', '\x22'], ¬ IsNumeral d := by decide
  simp only [List.forall_mem_cons] at hmarks
  induction cs with
  | nil => rfl
  | cons c cs ih =>
    obtain ⟨hc, hcs⟩ := List.forall_mem_cons.mp h
    have hne {d : Char} (hd : ¬ IsNumeral d) : c ≠ d := fun heq => hd (heq ▸ hc)
    rw [List.cons_append, List.cons_append, ← ih hcs]
    simp [breakLines, hne, hmarks]

theorem breakLines_escape (c : Char) (rest : List Char) :
    breakLines .quoted depth (escape c ++ rest) = escape c ++ breakLines .quoted depth rest := by
  unfold escape
  iterate 7 split; simp [breakLines]
  split
  · next h =>
    have hhigh : ∀ n < 16, hexDigit n ≠ '\\' ∧ hexDigit n ≠ '\x22' := by decide
    simp [breakLines, hhigh (c.toNat / 16) (by omega), hhigh (c.toNat % 16) (by omega)]
  · next hquote hslash _ _ _ _ _ _ => simp [breakLines, hquote, hslash]

theorem breakLines_quote (s : String) (rest : List Char) :
    breakLines (.outside false) depth (quote s rest) =
      quote s (breakLines (.outside false) depth rest) := by
  have hbody (cs : List Char) :
      breakLines .quoted depth (cs.flatMap escape ++ '\x22' :: rest) =
        cs.flatMap escape ++ '\x22' :: breakLines (.outside false) depth rest := by
    induction cs with
    | nil => simp [breakLines]
    | cons c cs ih => simp [List.flatMap_cons, breakLines_escape, ih]
  simp [quote, breakLines, hbody]

theorem breakLines_closing (due : Bool) (h : c = ']' ∨ c = '\x7d') :
    breakLines (.outside due) (depth + 1) (c :: cs) =
      (if due then [] else newLine depth) ++ c :: breakLines (.outside false) depth cs := by
  simp [breakLines, h]

theorem breakLines_comma :
    breakLines (.outside false) depth (',' :: cs) = ',' :: breakLines (.outside true) depth cs := by
  simp [breakLines]

theorem breakLines_items (below : Nat) {items : List Value}
    (h : ∀ v ∈ items, ∀ below depth rest,
      breakLines (.outside false) depth (v.write .compact below rest) =
        v.write .lines depth (breakLines (.outside false) depth rest)) :
    breakLines (.outside true) (depth + 1) (writeItems .compact below items (']' :: rest)) =
      writeItems .lines depth items (']' :: breakLines (.outside false) depth rest) := by
  induction items with
  | nil => exact breakLines_closing true (.inl rfl)
  | cons v vs ih =>
    obtain ⟨hv, hvs⟩ := List.forall_mem_cons.mp h
    obtain ⟨more, hmore⟩ := exists_writeItems .compact below v vs (']' :: rest)
    obtain ⟨c, cs, hcs, -, hclosing⟩ := exists_write_cons .compact (below + 1) v more
    -- No item starts with a bracket that closes, so the break that is due comes in front of it.
    have hdue : breakLines (.outside true) (depth + 1)
        (writeItems .compact below (v :: vs) (']' :: rest)) =
          newLine (depth + 1) ++ breakLines (.outside false) (depth + 1)
            (writeItems .compact below (v :: vs) (']' :: rest)) := by
      rw [hmore, hcs]
      exact breakLines_due hclosing
    rw [hdue]
    cases vs with
    | nil =>
      have hlast := hv (below + 1) (depth + 1) (']' :: rest)
      rw [breakLines_closing false (.inl rfl)] at hlast
      exact congrArg (newLine (depth + 1) ++ ·) hlast
    | cons w vs =>
      have hfirst := hv (below + 1) (depth + 1) (',' :: writeItems .compact below (w :: vs)
        (']' :: rest))
      rw [breakLines_comma, ih hvs] at hfirst
      exact congrArg (newLine (depth + 1) ++ ·) hfirst

theorem breakLines_field {name : String} :
    breakLines (.outside true) depth (quote name (':' :: cs)) =
      newLine depth ++ quote name (':' :: ' ' :: breakLines (.outside false) depth cs) := by
  have hcolon : breakLines (.outside false) depth (':' :: cs) =
      ':' :: ' ' :: breakLines (.outside false) depth cs := by
    simp [breakLines]
  rw [← hcolon, ← breakLines_quote]
  exact breakLines_due (by decide)

theorem breakLines_fields (below : Nat) {fields : List (String × Value)}
    (h : ∀ field ∈ fields, ∀ below depth rest,
      breakLines (.outside false) depth (field.2.write .compact below rest) =
        field.2.write .lines depth (breakLines (.outside false) depth rest)) :
    breakLines (.outside true) (depth + 1)
        (writeFields .compact below fields ('\x7d' :: rest)) =
      writeFields .lines depth fields ('\x7d' :: breakLines (.outside false) depth rest) := by
  induction fields with
  | nil => exact breakLines_closing true (.inr rfl)
  | cons field fs ih =>
    obtain ⟨hv, hfs⟩ := List.forall_mem_cons.mp h
    have hbreak {cs ds : List Char} (hcs : breakLines (.outside false) (depth + 1) cs = ds) :
        breakLines (.outside true) (depth + 1) (quote field.1 (':' :: cs)) =
          newLine (depth + 1) ++ quote field.1 (':' :: ' ' :: ds) := by
      rw [breakLines_field, hcs]
    cases fs with
    | nil =>
      have hlast := hv (below + 1) (depth + 1) ('\x7d' :: rest)
      rw [breakLines_closing false (.inr rfl)] at hlast
      exact hbreak hlast
    | cons g fs =>
      have hfirst := hv (below + 1) (depth + 1) (',' :: writeFields .compact below (g :: fs)
        ('\x7d' :: rest))
      rw [breakLines_comma, ih hfs] at hfirst
      exact hbreak hfirst

theorem breakLines_write (v : Value) (below depth : Nat) (rest : List Char) :
    breakLines (.outside false) depth (v.write .compact below rest) =
      v.write .lines depth (breakLines (.outside false) depth rest) := by
  induction v using Value.induction generalizing below depth rest with
  | scalar v hscalar =>
    cases v with
    | null => rfl
    | bool b => cases b <;> rfl
    | number n => exact breakLines_numeral (isNumeral_of_mem_text n)
    | text s => exact breakLines_quote s rest
    | list | record => cases hscalar
  | list items ih =>
    rw [write, write, ← breakLines_items below ih]
    simp [breakLines]
  | record fields ih =>
    rw [write, write, ← breakLines_fields below ih]
    simp [breakLines]

/-- The text with one item a line is the compact text, broken into lines. -/
theorem toLines_eq_inLines (v : Value) : v.toLines = inLines v.toText := by
  rw [toLines, inLines, toText, render, String.toList_ofList, breakLines_write]
  rfl

example : inLines "[1,\x7b\"a\":[],\"b\":\",\"\x7d]" =
    "[\n  1,\n  \x7b\n    \"a\": [],\n    \"b\": \",\"\n  \x7d\n]" := by
  decide

/-- A text is read as a value. A number is read exactly from a text of its own; inside of a list or
a record it is read as the numbers of documents are. -/
structure IsReadFrom (v : Value) (text : String) : Prop where
  document : ∀ room ≤ Document.maxDepth, v.Readable room →
    Document.read text.toList = (Document.ofValue v, none)
  value : ∀ room ≤ Document.maxDepth, v.Readable room → v.HasDistinctNames →
    Value.read text = .ok v
  whole : ∀ n, v = .number (.whole n) → SpellsWhole true text.toList n
  binary : ∀ x, v = .number (.binary x) → Quantity.read? text.toList = some (.finite x)

theorem isReadFrom_write {style : Style} (hstyle : style.IsBlank) (v : Value) :
    v.IsReadFrom (String.ofList (v.write style 0 [])) where
  document room hroom hreadable := by
    rw [String.toList_ofList]
    exact Document.read_write hstyle hreadable hroom
  value room hroom hreadable hnames := by
    rw [Value.read, String.toList_ofList, Document.read_write hstyle hreadable hroom]
    dsimp only
    rw [Document.toValue_ofValue hnames]
    rfl
  whole n hn := by
    rw [hn, write, List.append_nil, String.toList_ofList]
    exact Filters.spellsWhole_text n
  binary x hx := by
    rw [hx, write, List.append_nil, String.toList_ofList]
    exact Number.read?_text (.binary x) x rfl

theorem isReadFrom_toText (v : Value) : v.IsReadFrom v.toText :=
  isReadFrom_write Style.isBlank_compact v

end FilterChain.Value
