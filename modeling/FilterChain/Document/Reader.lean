import FilterChain.Document.Scalar

/-!
# Reading documents

Containers are read with a stack of those that are still open. Every step takes at least one
character off the front of the text, so that the reading ends; where the text breaks off, all
open containers are closed around the cut.
-/

namespace FilterChain

namespace Document

theorem length_scanWord {d : Document} {word cs r : List Char}
    (h : (scanWord d word cs).rest? = some r) : r.length ≤ cs.length := by
  induction word generalizing cs with
  | nil => simp [scanWord] at h; simp [h]
  | cons w ws ih =>
    cases cs with
    | nil => simp [scanWord, Scan.broken] at h
    | cons c cs =>
      unfold scanWord at h
      split at h
      · exact Nat.le_succ_of_le (ih h)
      · simp [Scan.broken] at h

theorem length_dropWhile_le (p : Char → Bool) (cs : List Char) :
    (cs.dropWhile p).length ≤ cs.length :=
  (List.dropWhile_sublist p).length_le

theorem length_scanPower {b : Bool} {n : Nat} {k s : Int} {cs r : List Char}
    (h : (scanPower b n k s cs).rest? = some r) : r.length ≤ cs.length := by
  cases cs with
  | nil => simp [scanPower, Scan.broken] at h
  | cons d ds =>
    simp only [scanPower] at h
    split at h
    · obtain rfl := Option.some.inj h
      exact length_dropWhile_le _ _
    · simp [Scan.broken] at h

theorem length_scanExponent {b : Bool} {n : Nat} {k : Int} {cs r : List Char}
    (h : (scanExponent b n k cs).rest? = some r) : r.length ≤ cs.length := by
  unfold scanExponent at h
  split at h
  · exact Nat.le_succ_of_le (length_scanPower h)
  · exact Nat.le_succ_of_le (length_scanPower h)
  · exact length_scanPower h

theorem length_scanFraction {b : Bool} {digits cs r : List Char}
    (h : (scanFraction b digits cs).rest? = some r) : r.length ≤ cs.length := by
  unfold scanFraction at h
  split at h
  · next t =>
    have ht := length_dropWhile_le Text.isAsciiDigit t
    simp only at h
    split at h
    · simp [Scan.broken] at h
    · split at h
      · next u hu =>
        have := length_scanExponent h
        simp [hu] at ht ⊢
        omega
      · next u hu =>
        have := length_scanExponent h
        simp [hu] at ht ⊢
        omega
      · obtain rfl := Option.some.inj h
        simp
        omega
  · exact Nat.le_succ_of_le (length_scanExponent h)
  · exact Nat.le_succ_of_le (length_scanExponent h)
  · obtain rfl := Option.some.inj h
    exact Nat.le_refl _

theorem length_scanUnsigned {b : Bool} {c : Char} {cs r : List Char}
    (h : (scanUnsigned b (c :: cs)).rest? = some r) : r.length ≤ cs.length := by
  unfold scanUnsigned at h
  split at h
  · simp_all
  · next hc =>
    obtain ⟨rfl, rfl⟩ := List.cons.inj hc
    split at h
    · exact length_scanFraction h
    · split at h
      · simp [Scan.broken] at h
      · exact length_scanFraction h
  · next hc =>
    obtain ⟨rfl, rfl⟩ := List.cons.inj hc
    split at h
    · next hd =>
      rw [List.dropWhile_cons_of_pos hd] at h
      exact Nat.le_trans (length_scanFraction h) (length_dropWhile_le _ _)
    · simp [Scan.broken] at h

namespace Quoted

@[simp] theorem rest_prepend (c : Char) (q : Quoted) : (q.prepend c).rest = q.rest := rfl

@[simp] theorem rest_withFlaw (f : Fault) (q : Quoted) : (q.withFlaw f).rest = q.rest := rfl

@[simp] theorem rest_afterLead (l : Option Nat) (cs : List Char) (q : Quoted) :
    (q.afterLead l cs).rest = q.rest := by
  unfold afterLead
  split <;> rfl

@[simp] theorem rest_broken (c : Cause) (n : Nat) (cs r : List Char) :
    (Quoted.broken c n cs).rest ≠ .ok r := by
  simp [Quoted.broken]

end Quoted

theorem length_scanQuoted {l : Option Nat} {cs r : List Char}
    (h : (scanQuoted l cs).rest = .ok r) : r.length ≤ cs.length := by
  fun_induction scanQuoted l cs <;> simp_all <;> omega

theorem length_scanScalar {c : Char} {cs r : List Char}
    (h : (scanScalar c cs).rest? = some r) : r.length ≤ cs.length := by
  unfold scanScalar at h
  split at h
  · exact length_scanWord h
  split at h
  · exact length_scanWord h
  split at h
  · exact length_scanWord h
  split at h
  · cases cs with
    | nil => simp [scanUnsigned, Scan.broken] at h
    | cons d ds => exact Nat.le_succ_of_le (length_scanUnsigned h)
  split at h
  · exact length_scanUnsigned h
  split at h
  · unfold scanText at h
    simp only at h
    split at h
    · next hq =>
      obtain rfl := Option.some.inj h
      exact length_scanQuoted hq
    · simp at h
  · simp [Scan.broken] at h

/-- A container that is still open: its parts so far, the last one first, and the flaw it has if
it stands too deep. A record also has the key of the field that is being read. -/
inductive Frame where
  | list (flaw? : Option Fault) (items : List Document)
  | record (flaw? : Option Fault) (fields : List (Key × Document)) (key : Key)

def noKey : Key :=
  ⟨"", none⟩

inductive Expect where
  | value
  | firstItem (flaw? : Option Fault)
  | firstKey (flaw? : Option Fault)
  | nextItem
  | nextKey (flaw? : Option Fault) (fields : List (Key × Document))
  | colon (flaw? : Option Fault) (fields : List (Key × Document)) (key : Key)
  | after (document : Document)

def mark (flaw? : Option Fault) (d : Document) : Document :=
  match flaw? with
  | some fault => .flawed fault d
  | none => d

def Frame.close : Frame → Document → Document
  | .list flaw? items, d => mark flaw? (.list (d :: items).reverse)
  | .record flaw? fields key, d => mark flaw? (.record ((key, d) :: fields).reverse)

/-- Closes all open containers around the place where the text breaks off. -/
def closeAll (stack : List Frame) (d : Document) : Document :=
  stack.foldl (fun d frame => frame.close d) d

def isSeparatorBlank (c : Char) : Bool :=
  c = ' ' || c = '\n' || c = '\t' || c = '\r'

def cutShort (stack : List Frame) (cause : Cause) (rest : List Char) : Document × List Char :=
  (closeAll stack (.cut (.at cause 1 rest)), [])

def depthFlaw? (depth : Nat) (rest : List Char) : Option Fault :=
  if maxDepth ≤ depth then some (.at .tooDeep 1 rest) else none

def Expect.within : List Frame → Expect → List Frame
  | stack, .firstItem flaw? => .list flaw? [] :: stack
  | stack, .firstKey flaw? => .record flaw? [] noKey :: stack
  | stack, .nextKey flaw? fields => .record flaw? fields noKey :: stack
  | stack, .colon flaw? fields key => .record flaw? fields key :: stack
  | .list flaw? items :: stack, .after d => .list flaw? (d :: items) :: stack
  | .record flaw? fields key :: stack, .after d => .record flaw? ((key, d) :: fields) noKey :: stack
  | stack, _ => stack

def Expect.endCause : List Frame → Expect → Cause
  | _, .firstItem _ => .endInList
  | _, .firstKey _ => .endInRecord
  | _, .colon _ _ _ => .endInRecord
  | .list _ _ :: _, .after _ => .endInList
  | .record _ _ _ :: _, .after _ => .endInRecord
  | _, _ => .endInValue

/-- Where a value may start without a character being read before it. -/
def Expect.rank : Expect → Nat
  | .firstItem _ => 1
  | .nextItem => 1
  | _ => 0

/-- Reads on, and answers with the outermost document and the text behind it. -/
def run (stack : List Frame) (expect : Expect) (cs : List Char) : Document × List Char :=
  match _hcs : cs.dropWhile isSeparatorBlank with
  | [] =>
    match stack, expect with
    | [], .after d => (d, [])
    | _, _ => cutShort (expect.within stack) (expect.endCause stack) []
  | c :: r =>
    match expect with
    | .value =>
      if c = '[' then run stack (.firstItem (depthFlaw? stack.length (c :: r))) r
      else if c = '{' then run stack (.firstKey (depthFlaw? stack.length (c :: r))) r
      else
        match _hs : (scanScalar c r).rest? with
        | some rest => run stack (.after (scanScalar c r).document) rest
        | none => (closeAll stack (scanScalar c r).document, [])
    | .firstItem flaw? =>
      if c = ']' then run stack (.after (mark flaw? (.list []))) r
      else run (.list flaw? [] :: stack) .value (c :: r)
    | .nextItem =>
      if c = ']' then cutShort stack .trailingComma (c :: r) else run stack .value (c :: r)
    | .firstKey flaw? =>
      if c = '}' then run stack (.after (mark flaw? (.record []))) r
      else if c = '\x22' then
        match _hs : scanQuoted none r with
        | ⟨key, keyFlaw?, .ok rest⟩ =>
          run stack (.colon flaw? [] ⟨String.ofList key, keyFlaw?⟩) rest
        | ⟨_, keyFlaw?, .error fault⟩ =>
          (closeAll (.record flaw? [] noKey :: stack) (.cut (keyFlaw?.getD fault)), [])
      else cutShort (.record flaw? [] noKey :: stack) .keyNotText (c :: r)
    | .nextKey flaw? fields =>
      if c = '\x22' then
        match _hs : scanQuoted none r with
        | ⟨key, keyFlaw?, .ok rest⟩ =>
          run stack (.colon flaw? fields ⟨String.ofList key, keyFlaw?⟩) rest
        | ⟨_, keyFlaw?, .error fault⟩ =>
          (closeAll (.record flaw? fields noKey :: stack) (.cut (keyFlaw?.getD fault)), [])
      else
        cutShort (.record flaw? fields noKey :: stack)
          (if c = '}' then .trailingComma else .keyNotText) (c :: r)
    | .colon flaw? fields key =>
      if c = ':' then run (.record flaw? fields key :: stack) .value r
      else cutShort (.record flaw? fields key :: stack) .expectedColon (c :: r)
    | .after d =>
      match stack with
      | [] => (d, c :: r)
      | .list flaw? items :: outer =>
        if c = ',' then run (.list flaw? (d :: items) :: outer) .nextItem r
        else if c = ']' then run outer (.after (Frame.close (.list flaw? items) d)) r
        else cutShort (.list flaw? (d :: items) :: outer) .expectedListEnd (c :: r)
      | .record flaw? fields key :: outer =>
        if c = ',' then run outer (.nextKey flaw? ((key, d) :: fields)) r
        else if c = '}' then run outer (.after (Frame.close (.record flaw? fields key) d)) r
        else cutShort (.record flaw? ((key, d) :: fields) noKey :: outer) .expectedRecordEnd (c :: r)
termination_by 2 * cs.length + expect.rank
decreasing_by
  all_goals
    have hlen := length_dropWhile_le isSeparatorBlank cs
    rw [_hcs] at hlen
    simp only [List.length_cons] at hlen
  all_goals first
    | (simp only [Expect.rank, List.length_cons]; omega)
    | (have hle := length_scanScalar _hs; simp only [Expect.rank]; omega)
    | (have hle := length_scanQuoted (congrArg Quoted.rest _hs); simp only [Expect.rank]; omega)

def read (cs : List Char) : Document × Option Fault :=
  let (document, rest) := run [] .value cs
  match rest.dropWhile isSeparatorBlank with
  | [] => (document, none)
  | c :: r => (document, some (.at .trailingCharacters 1 (c :: r)))

end Document

def Value.read (s : String) : Except Document.Fault Value :=
  match Document.read s.toList with
  | (document, trailing?) => do
    let v ← document.toValue
    match trailing? with
    | some fault => throw fault
    | none => return v

end FilterChain
