/-!
# Sorted runs of code points

A character class is kept as the list of its maximal runs, in increasing order.
-/

namespace FilterChain.Text

/-- Whether `n` lies in one of the runs, which are given by their ends in increasing order. -/
def inRanges : List (Nat × Nat) → Nat → Bool
  | [], _ => false
  | (first, last) :: rest, n => if n < first then false else n ≤ last || inRanges rest n

def areIncreasing : List (Nat × Nat) → Bool
  | [] => true
  | [run] => run.1 ≤ run.2
  | run :: next :: rest => run.1 ≤ run.2 && run.2 < next.1 && areIncreasing (next :: rest)

theorem lt_of_areIncreasing {run other : Nat × Nat} {rest : List (Nat × Nat)}
    (h : areIncreasing (run :: rest) = true) (hother : other ∈ rest) : run.2 < other.1 := by
  induction rest generalizing run with
  | nil => simp at hother
  | cons next rest ih =>
    simp only [areIncreasing, Bool.and_eq_true, decide_eq_true_eq] at h
    obtain ⟨⟨_, hlt⟩, hrest⟩ := h
    rcases List.mem_cons.mp hother with rfl | hother
    · exact hlt
    · have hnext := ih hrest hother
      have hle : next.1 ≤ next.2 := by
        cases rest with
        | nil => simpa [areIncreasing] using hrest
        | cons third rest =>
          simp only [areIncreasing, Bool.and_eq_true, decide_eq_true_eq] at hrest
          exact hrest.1.1
      omega

/-- The search through increasing runs finds what lies in any of them. -/
theorem inRanges_iff {runs : List (Nat × Nat)} (h : areIncreasing runs = true) {n : Nat} :
    inRanges runs n = true ↔ ∃ run ∈ runs, run.1 ≤ n ∧ n ≤ run.2 := by
  induction runs with
  | nil => simp [inRanges]
  | cons run rest ih =>
    have hrest : areIncreasing rest = true := by
      cases rest with
      | nil => rfl
      | cons next rest =>
        simp only [areIncreasing, Bool.and_eq_true] at h
        exact h.2
    have hle : run.1 ≤ run.2 := by
      cases rest <;> simp_all [areIncreasing]
    unfold inRanges
    split
    · next hlt =>
      constructor
      · intro hf
        simp at hf
      · rintro ⟨other, hother, hge, _⟩
        rcases List.mem_cons.mp hother with rfl | hother
        · omega
        · have := lt_of_areIncreasing h hother
          omega
    · next hge =>
      simp only [Bool.or_eq_true, decide_eq_true_eq, ih hrest]
      constructor
      · rintro (hn | ⟨other, hother, hn⟩)
        · exact ⟨run, List.mem_cons_self, by omega, hn⟩
        · exact ⟨other, List.mem_cons_of_mem _ hother, hn⟩
      · rintro ⟨other, hother, hn⟩
        rcases List.mem_cons.mp hother with rfl | hother
        · exact Or.inl hn.2
        · exact Or.inr ⟨other, hother, hn⟩

def isAsciiDigit (c : Char) : Bool :=
  '0' ≤ c && c ≤ '9'

def isAsciiLetter (c : Char) : Bool :=
  ('a' ≤ c && c ≤ 'z') || ('A' ≤ c && c ≤ 'Z')

def isAscii (c : Char) : Bool :=
  c.toNat < 128

def lowerAscii (c : Char) : Char :=
  if 'A' ≤ c ∧ c ≤ 'Z' then Char.ofNat (c.toNat + 32) else c

def upperAscii (c : Char) : Char :=
  if 'a' ≤ c ∧ c ≤ 'z' then Char.ofNat (c.toNat - 32) else c

end FilterChain.Text
