import FilterChain.Proofs.Document.Values
import FilterChain.Proofs.Outcome
import FilterChain.Wire.Decoder

/-!
# Slots of a record that is read

The fields of a record are read one after the other, and each that is known fills a slot. As slots
do not depend on each other, a slot takes what the fields of its own name give: nothing if there is
none, the content if there is one, and no record is accepted with two of them. From this it follows
in which respects two records are read alike.
-/

namespace FilterChain

namespace Decoder

open Fields (valuesOf)

/-- The place in a state for the content of the field of a name. -/
structure Slot (σ : Type) where
  Content : Type
  name : String
  decoder : Decoder Content
  get : σ → Option Content
  set : σ → Option Content → σ

variable {σ α : Type} {slots : List (Slot σ)} {p slot : Slot σ} {s t : σ}

namespace Slot

def fill (slot : Slot σ) (d : Document) (s : σ) : Except DecodeError σ :=
  (once (slot.get s) slot.decoder d).map (slot.set s)

/-- What a slot that held the one content holds behind fields of its name with the given values. -/
inductive Takes (slot : Slot σ) : List Value → Option slot.Content → Option slot.Content → Prop
    where
  | nothing (held : Option slot.Content) : slot.Takes [] held held
  | content {v : Value} {a : slot.Content} (h : slot.decoder (.ofValue v) = .ok a) :
      slot.Takes [v] none (some a)

variable {before after : Option slot.Content} {v : Value} {vs ws : List Value}

theorem takes_nil_iff : slot.Takes [] before after ↔ after = before := by
  constructor
  · rintro ⟨⟩
    rfl
  · rintro rfl
    exact .nothing _

theorem takes_cons_iff :
    slot.Takes (v :: vs) before after ↔
      before = none ∧ ∃ a, slot.decoder (.ofValue v) = .ok a ∧ slot.Takes vs (some a) after := by
  constructor
  · rintro ⟨⟩
    next a h => exact ⟨rfl, a, h, .nothing _⟩
  · rintro ⟨rfl, a, h, ⟨⟩⟩
    exact .content h

theorem Takes.of_perm (h : slot.Takes vs before after) (hperm : vs.Perm ws) :
    slot.Takes ws before after := by
  cases h with
  | nothing held =>
    obtain rfl := List.nil_perm.mp hperm
    exact .nothing _
  | content h =>
    obtain rfl := List.singleton_perm.mp hperm
    exact .content h

theorem fill_eq_ok_iff {d : Document} :
    slot.fill d s = .ok t ↔
      slot.get s = none ∧ ∃ a, slot.decoder d = .ok a ∧ slot.set s (some a) = t := by
  change slot.set s <$> once (slot.get s) slot.decoder d = .ok t ↔ _
  rw [map_eq_ok_iff]
  cases hget : slot.get s with
  | some a => simp [once]
  | none =>
    change (∃ a?, some <$> slot.decoder d = .ok a? ∧ _) ↔ _
    simp [map_eq_ok_iff]

end Slot

/-- Reads a field into the first slot of its name. -/
def fill : List (Slot σ) → String → Document → σ → Option (Except DecodeError σ)
  | [], _, _, _ => none
  | slot :: slots, name, d, s =>
    if name = slot.name then some (slot.fill d s) else fill slots name d s

theorem fill_of_not_mem {name : String} (h : name ∉ slots.map Slot.name) (d : Document) (s : σ) :
    fill slots name d s = none := by
  induction slots with
  | nil => rfl
  | cons p slots ih =>
    rw [fill, if_neg (List.ne_of_not_mem_cons h), ih (List.not_mem_of_not_mem_cons h)]

theorem fill_of_mem (hnames : (slots.map Slot.name).Nodup) (h : slot ∈ slots) (d : Document)
    (s : σ) : fill slots slot.name d s = some (slot.fill d s) := by
  induction slots with
  | nil => cases h
  | cons p slots ih =>
    obtain ⟨hnew, hslots⟩ := List.nodup_cons.mp hnames
    rw [fill]
    rcases List.mem_cons.mp h with rfl | h
    · rw [if_pos rfl]
    · have hne : slot.name ≠ p.name := fun heq => hnew (heq ▸ List.mem_map_of_mem h)
      rw [if_neg hne, ih hslots h]

/-- Slots that go by different names, keep apart what is put into them, and are all there is to a
state. -/
structure Slot.Independent (slots : List (Slot σ)) : Prop where
  nodup : (slots.map Slot.name).Nodup
  get_set : ∀ slot ∈ slots, ∀ s a, slot.get (slot.set s a) = a
  get_set_of_ne : ∀ p ∈ slots, ∀ q ∈ slots, p.name ≠ q.name → ∀ s a, q.get (p.set s a) = q.get s
  ext : ∀ s t, (∀ slot ∈ slots, slot.get s = slot.get t) → s = t

namespace Slot

theorem Independent.forall_iff (hslots : Independent slots) (hp : p ∈ slots) {P : Slot σ → Prop} :
    (∀ slot ∈ slots, P slot) ↔ P p ∧ ∀ slot ∈ slots, p.name ≠ slot.name → P slot := by
  constructor
  · exact fun h => ⟨h p hp, fun slot hslot _ => h slot hslot⟩
  · rintro ⟨hself, hothers⟩ slot hslot
    by_cases hsame : p.name = slot.name
    · obtain rfl := List.inj_on_of_nodup_map hslots.nodup hp hslot hsame
      exact hself
    · exact hothers slot hslot hsame

theorem Independent.set_get (hslots : Independent slots) (hp : p ∈ slots) (s : σ) :
    p.set s (p.get s) = s := by
  refine hslots.ext _ _ ((hslots.forall_iff hp).mpr ⟨hslots.get_set p hp s _, ?_⟩)
  exact fun slot hslot hne => hslots.get_set_of_ne p hp slot hslot hne s _

/-- What the fields of a record make of a state: each slot takes what those of its name give. -/
def AllTake (slots : List (Slot σ)) (fs : List (String × Value)) (s t : σ) : Prop :=
  ∀ slot ∈ slots, slot.Takes (valuesOf slot.name fs) (slot.get s) (slot.get t)

variable {fs : List (String × Value)} {v : Value}

theorem allTake_nil_iff (hslots : Independent slots) : AllTake slots [] s t ↔ s = t := by
  constructor
  · exact fun h => hslots.ext s t fun slot hslot => (takes_nil_iff.mp (h slot hslot)).symm
  · rintro rfl slot -
    exact .nothing _

theorem allTake_cons_iff (hslots : Independent slots) (hp : p ∈ slots) :
    AllTake slots ((p.name, v) :: fs) s t ↔
      p.get s = none ∧
        ∃ a, p.decoder (.ofValue v) = .ok a ∧ AllTake slots fs (p.set s (some a)) t := by
  have hrest (a : p.Content) : AllTake slots fs (p.set s (some a)) t ↔
      p.Takes (valuesOf p.name fs) (some a) (p.get t) ∧ ∀ slot ∈ slots, p.name ≠ slot.name →
        slot.Takes (valuesOf slot.name ((p.name, v) :: fs)) (slot.get s) (slot.get t) := by
    rw [AllTake, hslots.forall_iff hp, hslots.get_set p hp]
    refine and_congr_right fun _ => forall₂_congr fun slot hslot => forall_congr' fun hne => ?_
    rw [Fields.valuesOf_cons_of_ne hne, hslots.get_set_of_ne p hp slot hslot hne]
  rw [AllTake, hslots.forall_iff hp, Fields.valuesOf_cons_self, takes_cons_iff]
  simp only [hrest]
  constructor
  · rintro ⟨⟨hnone, a, ha, hself⟩, hothers⟩
    exact ⟨hnone, a, ha, hself, hothers⟩
  · rintro ⟨hnone, a, ha, hself, hothers⟩
    exact ⟨⟨hnone, a, ha, hself⟩, hothers⟩

theorem allTake_cons_iff_of_not_mem {name : String} (hname : name ∉ slots.map Slot.name) :
    AllTake slots ((name, v) :: fs) s t ↔ AllTake slots fs s t := by
  refine forall₂_congr fun slot hslot => ?_
  have hne : name ≠ slot.name := fun heq => hname (heq ▸ List.mem_map_of_mem hslot)
  rw [Fields.valuesOf_cons_of_ne hne]

end Slot

section Fields

variable {name : String} {v : Value} {fs others : List (String × Value)}

theorem fields_cons_of_mem (hslots : Slot.Independent slots) (hslot : slot ∈ slots) (v : Value)
    (fs : List (String × Value)) (s : σ) :
    fields (fill slots) (Document.ofFields ((slot.name, v) :: fs)) s =
      slot.fill (.ofValue v) s >>= fields (fill slots) (Document.ofFields fs) := by
  rw [Document.ofFields, fields, fill_of_mem hslots.nodup hslot]

theorem fields_cons_of_not_mem (hname : name ∉ slots.map Slot.name) (v : Value)
    (fs : List (String × Value)) (s : σ) :
    fields (fill slots) (Document.ofFields ((name, v) :: fs)) s =
      fields (fill slots) (Document.ofFields fs) s := by
  rw [Document.ofFields, fields, fill_of_not_mem hname]
  dsimp only
  rw [skip, Document.firstCut?_ofValue]
  rfl

theorem fields_eq_ok_iff (hslots : Slot.Independent slots) :
    fields (fill slots) (Document.ofFields fs) s = .ok t ↔ Slot.AllTake slots fs s t := by
  induction fs generalizing s with
  | nil => rw [Slot.allTake_nil_iff hslots, Document.ofFields, fields, Except.ok.injEq]
  | cons field fs ih =>
    obtain ⟨name, v⟩ := field
    by_cases hname : name ∈ slots.map Slot.name
    · obtain ⟨p, hp, rfl⟩ := List.mem_map.mp hname
      rw [fields_cons_of_mem hslots hp, bind_eq_ok_iff, Slot.allTake_cons_iff hslots hp]
      simp only [Slot.fill_eq_ok_iff, ih]
      constructor
      · rintro ⟨_, ⟨hnone, a, ha, rfl⟩, h⟩
        exact ⟨hnone, a, ha, h⟩
      · rintro ⟨hnone, a, ha, h⟩
        exact ⟨_, ⟨hnone, a, ha, rfl⟩, h⟩
    · rw [fields_cons_of_not_mem hname, ih, Slot.allTake_cons_iff_of_not_mem hname]

theorem fields_filter (hslots : Slot.Independent slots) (fs : List (String × Value)) (s : σ) :
    fields (fill slots) (Document.ofFields (fs.filter (·.1 ∈ slots.map Slot.name))) s =
      fields (fill slots) (Document.ofFields fs) s := by
  induction fs generalizing s with
  | nil => rfl
  | cons field fs ih =>
    obtain ⟨name, v⟩ := field
    by_cases hname : name ∈ slots.map Slot.name
    · rw [List.filter_cons_of_pos (by simpa using hname)]
      obtain ⟨p, hp, rfl⟩ := List.mem_map.mp hname
      rw [fields_cons_of_mem hslots hp, fields_cons_of_mem hslots hp, funext ih]
    · rw [List.filter_cons_of_neg (by simpa using hname), fields_cons_of_not_mem hname, ih]

theorem fields_induction {P : σ → Prop} {field : String → Document → σ →
    Option (Except DecodeError σ)}
    (hfield : ∀ name d s t, P s → field name d s = some (.ok t) → P t)
    {ds : List (Document.Key × Document)} (hs : P s) (h : fields field ds s = .ok t) : P t := by
  induction ds generalizing s with
  | nil =>
    cases h
    exact hs
  | cons first ds ih =>
    obtain ⟨⟨name, flaw?⟩, d⟩ := first
    cases flaw? with
    | some flaw => cases h
    | none =>
      rw [fields] at h
      cases hresult : field name d s with
      | none =>
        rw [hresult] at h
        obtain ⟨-, -, h⟩ := bind_eq_ok_iff.mp h
        exact ih hs h
      | some result =>
        rw [hresult] at h
        obtain ⟨middle, rfl, h⟩ := bind_eq_ok_iff.mp h
        exact ih (hfield name d s middle hs hresult) h

theorem recordOf_induction {P : σ → Prop} {names : List String}
    {field : String → Document → σ → Option (Except DecodeError σ)}
    (hfield : ∀ name d s t, P s → field name d s = some (.ok t) → P t) (hs : P s) {d : Document}
    (h : recordOf names field s d = .ok t) : P t := by
  cases d with
  | record ds => exact fields_induction hfield hs h
  | list items =>
    obtain ⟨last, hlast, h⟩ := bind_eq_ok_iff.mp h
    split at h
    · cases h
    · cases h
      exact fields_induction hfield hs hlast
  | null | bool | number | text | flawed | cut => cases h

def Decoded (slots : List (Slot σ)) (s : σ) : Prop :=
  ∀ slot ∈ slots, ∀ a, slot.get s = some a → ∃ d, slot.decoder d = .ok a

theorem Decoded.of_fill (hslots : Slot.Independent slots) {name : String} {d : Document}
    (hs : Decoded slots s) (h : fill slots name d s = some (.ok t)) : Decoded slots t := by
  by_cases hname : name ∈ slots.map Slot.name
  · obtain ⟨p, hp, rfl⟩ := List.mem_map.mp hname
    rw [fill_of_mem hslots.nodup hp, Option.some.injEq, Slot.fill_eq_ok_iff] at h
    obtain ⟨-, content, hcontent, rfl⟩ := h
    refine (hslots.forall_iff hp).mpr ⟨fun a ha => ?_, fun slot hslot hne a ha => ?_⟩
    · rw [hslots.get_set p hp] at ha
      exact ⟨d, Option.some.inj ha ▸ hcontent⟩
    · rw [hslots.get_set_of_ne p hp slot hslot hne] at ha
      exact hs slot hslot a ha
  · rw [fill_of_not_mem hname] at h
    cases h

end Fields

/-- How a type is read from records: the slots, and what is made of their contents. -/
structure RecordForm (α : Type) where
  State : Type
  slots : List (Slot State)
  initial : State
  finish : State → Except DecodeError α
  independent : Slot.Independent slots
  get_initial : ∀ slot ∈ slots, slot.get initial = none

namespace RecordForm

variable {form : RecordForm α} {slot : Slot form.State} {t : form.State} {x : α}
  {fs others : List (String × Value)}

def decode (form : RecordForm α) : Decoder α :=
  fun d => recordOf (form.slots.map Slot.name) (fill form.slots) form.initial d >>= form.finish

/-- The state behind the fields of a record, which holds in each slot what the slot takes. -/
def Ends (form : RecordForm α) (fs : List (String × Value)) (t : form.State) : Prop :=
  ∀ slot ∈ form.slots, slot.Takes (valuesOf slot.name fs) none (slot.get t)

def EndsBeside (form : RecordForm α) (slot : Slot form.State) (fs : List (String × Value))
    (t : form.State) : Prop :=
  ∀ other ∈ form.slots, slot.name ≠ other.name →
    other.Takes (valuesOf other.name fs) none (other.get t)

theorem decode_record_eq_ok_iff (form : RecordForm α) {fs : List (String × Value)} {x : α} :
    form.decode (.ofValue (.record fs)) = .ok x ↔ ∃ t, form.Ends fs t ∧ form.finish t = .ok x := by
  rw [decode, Document.ofValue, recordOf, bind_eq_ok_iff]
  simp only [fields_eq_ok_iff form.independent]
  refine exists_congr fun t => and_congr_left fun _ => ?_
  exact forall₂_congr fun slot hslot => by rw [form.get_initial slot hslot]

theorem ends_iff (hslot : slot ∈ form.slots) :
    form.Ends fs t ↔
      slot.Takes (valuesOf slot.name fs) none (slot.get t) ∧ form.EndsBeside slot fs t :=
  form.independent.forall_iff hslot

theorem endsBeside_cons_iff {v : Value} :
    form.EndsBeside slot ((slot.name, v) :: fs) t ↔ form.EndsBeside slot fs t := by
  refine forall₂_congr fun other _ => forall_congr' fun hne => ?_
  rw [Fields.valuesOf_cons_of_ne hne]

theorem ends_cons_iff (hslot : slot ∈ form.slots) {v : Value} :
    form.Ends ((slot.name, v) :: fs) t ↔
      slot.Takes (v :: valuesOf slot.name fs) none (slot.get t) ∧ form.EndsBeside slot fs t := by
  rw [ends_iff hslot, Fields.valuesOf_cons_self, endsBeside_cons_iff]

theorem endsBeside_set_iff (hslot : slot ∈ form.slots) {a : Option slot.Content} :
    form.EndsBeside slot fs (slot.set t a) ↔ form.EndsBeside slot fs t := by
  refine forall₂_congr fun other hother => forall_congr' fun hne => ?_
  rw [form.independent.get_set_of_ne slot hslot other hother hne]

theorem exists_decoded (form : RecordForm α) {d : Document} {x : α} (h : form.decode d = .ok x) :
    ∃ t, Decoded form.slots t ∧ form.finish t = .ok x := by
  obtain ⟨t, ht, hfinish⟩ := bind_eq_ok_iff.mp h
  refine ⟨t, recordOf_induction (fun _ _ _ _ hs => hs.of_fill form.independent) ?_ ht, hfinish⟩
  intro slot hslot a ha
  rw [form.get_initial slot hslot] at ha
  cases ha

theorem decode_perm (h : fs.Perm others) (hx : form.decode (.ofValue (.record fs)) = .ok x) :
    form.decode (.ofValue (.record others)) = .ok x := by
  obtain ⟨t, hends, hfinish⟩ := form.decode_record_eq_ok_iff.mp hx
  refine form.decode_record_eq_ok_iff.mpr ⟨t, fun slot hslot => ?_, hfinish⟩
  exact (hends slot hslot).of_perm (Fields.valuesOf_perm h slot.name)

theorem decode_filter (form : RecordForm α) (fs : List (String × Value)) :
    form.decode (.ofValue (.record (fs.filter (·.1 ∈ form.slots.map Slot.name)))) =
      form.decode (.ofValue (.record fs)) := by
  simp only [decode, Document.ofValue, recordOf, fields_filter form.independent]

theorem decode_cons_congr (hslot : slot ∈ form.slots) {v w : Value}
    (hvalues : ∀ a, slot.decoder (.ofValue v) = .ok a → slot.decoder (.ofValue w) = .ok a)
    (hx : form.decode (.ofValue (.record ((slot.name, v) :: fs))) = .ok x) :
    form.decode (.ofValue (.record ((slot.name, w) :: fs))) = .ok x := by
  obtain ⟨t, hends, hfinish⟩ := form.decode_record_eq_ok_iff.mp hx
  obtain ⟨hself, hbeside⟩ := (ends_cons_iff hslot).mp hends
  obtain ⟨hnone, a, ha, hrest⟩ := Slot.takes_cons_iff.mp hself
  refine form.decode_record_eq_ok_iff.mpr ⟨t, (ends_cons_iff hslot).mpr ⟨?_, hbeside⟩, hfinish⟩
  exact Slot.takes_cons_iff.mpr ⟨hnone, a, hvalues a ha, hrest⟩

/-- If an empty slot comes to the same as one with a certain content, a field with that content can
be left out. -/
theorem decode_cons_default (hslot : slot ∈ form.slots) {v : Value} {a : slot.Content}
    (hcontent : slot.decoder (.ofValue v) = .ok a)
    (hfinish : ∀ t, form.finish (slot.set t (some a)) = form.finish (slot.set t none))
    (hnew : slot.name ∉ Fields.names fs) :
    form.decode (.ofValue (.record ((slot.name, v) :: fs))) = .ok x ↔
      form.decode (.ofValue (.record fs)) = .ok x := by
  have hset := form.independent.get_set slot hslot
  have hself := form.independent.set_get hslot
  have hnone := Fields.valuesOf_of_not_mem hnew
  have hwith (t : form.State) : form.Ends ((slot.name, v) :: fs) t ↔
      slot.get t = some a ∧ form.EndsBeside slot fs t := by
    rw [ends_cons_iff hslot, hnone, Slot.takes_cons_iff, hcontent]
    simp [Slot.takes_nil_iff]
  have hwithout (t : form.State) : form.Ends fs t ↔
      slot.get t = none ∧ form.EndsBeside slot fs t := by
    rw [ends_iff hslot, hnone, Slot.takes_nil_iff]
  simp only [decode_record_eq_ok_iff, hwith, hwithout]
  constructor
  · rintro ⟨t, ⟨hget, hbeside⟩, hx⟩
    refine ⟨slot.set t none, ⟨hset t none, (endsBeside_set_iff hslot).mpr hbeside⟩, ?_⟩
    rw [← hfinish, ← hget, hself, hx]
  · rintro ⟨t, ⟨hget, hbeside⟩, hx⟩
    refine ⟨slot.set t (some a), ⟨hset t _, (endsBeside_set_iff hslot).mpr hbeside⟩, ?_⟩
    rw [hfinish, ← hget, hself, hx]

theorem exists_finish_of_not_mem (hslot : slot ∈ form.slots) (hnew : slot.name ∉ Fields.names fs)
    (hx : form.decode (.ofValue (.record fs)) = .ok x) :
    ∃ t, form.finish (slot.set t none) = .ok x := by
  obtain ⟨t, hends, hfinish⟩ := form.decode_record_eq_ok_iff.mp hx
  have hget := hends slot hslot
  rw [Fields.valuesOf_of_not_mem hnew, Slot.takes_nil_iff] at hget
  exact ⟨t, by rwa [← hget, form.independent.set_get hslot]⟩

end RecordForm

end Decoder

end FilterChain
