import FilterChain.Proofs.Wire.Slots

/-!
# Wire forms without loss

Each type that travels is read back from the value that it is written as, and records of a type that
differ in the order of their fields, in fields that are not known, or in a field that may be left
out are read alike.
-/

namespace FilterChain

namespace Decoder

theorem need_eq_ok_iff {α : Type} {place? : Option α} {a : α} :
    need place? = .ok a ↔ place? = some a := by
  cases place? <;> simp [need]

theorem value_ofValue {v : Value} (h : v.HasDistinctNames) : value (.ofValue v) = .ok v := by
  rw [value, Document.toValue_ofValue h]
  rfl

theorem hasDistinctNames_of_value {d : Document} {v : Value} (h : value d = .ok v) :
    v.HasDistinctNames := by
  rw [value] at h
  cases hvalue : d.toValue with
  | error fault =>
    rw [hvalue] at h
    cases h
  | ok w =>
    rw [hvalue] at h
    cases h
    exact Document.hasDistinctNames_of_toValue d hvalue

theorem natUpTo_ofNat {bound n : Nat} (h : n ≤ bound) :
    natUpTo bound (.ofValue (.ofNat n)) = .ok n :=
  if_pos ⟨Int.natCast_nonneg n, Int.ofNat_le.mpr h⟩

theorem le_of_natUpTo {bound n : Nat} {d : Document} (h : natUpTo bound d = .ok n) : n ≤ bound := by
  cases d with
  | number m =>
    cases m with
    | whole m =>
      rw [natUpTo] at h
      split at h
      · cases h
        omega
      · cases h
    | binary => cases h
  | null | bool | text | list | record | flawed | cut => cases h

theorem listOf_ofValue {α : Type} {decoder : Decoder α} {encode : α → Value} {xs : List α}
    (h : ∀ x ∈ xs, decoder (.ofValue (encode x)) = .ok x) :
    listOf decoder (.ofValue (.list (xs.map encode))) = .ok xs := by
  rw [Document.ofValue, listOf, Document.ofItems_eq_map, List.map_map]
  refine mapM_eq_ok_iff.mpr (List.forall₂_map_left_iff.mpr (List.forall₂_same.mpr ?_))
  exact h

theorem listOf_congr {α : Type} {decoder : Decoder α} {items others : List Value} {xs : List α}
    (h : List.Forall₂ (fun v w => ∀ x, decoder (.ofValue v) = .ok x → decoder (.ofValue w) = .ok x)
      items others)
    (hxs : listOf decoder (.ofValue (.list items)) = .ok xs) :
    listOf decoder (.ofValue (.list others)) = .ok xs := by
  simp only [Document.ofValue, listOf, Document.ofItems_eq_map, mapM_eq_ok_iff,
    List.forall₂_map_left_iff] at hxs ⊢
  exact forall₂_of_common h hxs fun v _ w x himp hx => himp x hx

theorem listOf_ofTexts (texts : List String) :
    listOf .text (.ofValue (.ofTexts texts)) = .ok texts :=
  listOf_ofValue fun _ _ => rfl

theorem exists_eq_ok_of_listOf {α : Type} {decoder : Decoder α} {d : Document} {xs : List α}
    (h : listOf decoder d = .ok xs) : ∀ x ∈ xs, ∃ e, decoder e = .ok x := by
  cases d with
  | list items => exact exists_eq_ok_of_mapM h
  | null | bool | number | text | record | flawed | cut => cases h

theorem eq_ok_of_orNull {α : Type} {decoder : Decoder α} {d : Document} {a : α}
    (h : orNull decoder d = .ok (some a)) : decoder d = .ok a := by
  cases d with
  | null => cases h
  | bool | number | text | list | record | flawed | cut =>
    obtain ⟨b, hb, heq⟩ := map_eq_ok_iff.mp h
    cases heq
    exact hb

theorem orNull_ofText? (text? : Option String) :
    orNull .text (.ofValue (.ofText? text?)) = .ok text? := by
  cases text? <;> rfl

end Decoder

open Decoder (RecordForm)

namespace Step

def form : RecordForm Step where
  State := Slots
  slots :=
    [⟨String, "name", .text, Slots.name?, fun s a => { s with name? := a }⟩,
      ⟨List String, "args", .listOf .text, Slots.args?, fun s a => { s with args? := a }⟩]
  initial := ⟨none, none⟩
  finish s := do return ⟨← Decoder.need s.name?, s.args?.getD []⟩
  independent :=
    { nodup := by decide
      get_set := by simp
      get_set_of_ne := by simp
      ext := fun ⟨_, _⟩ ⟨_, _⟩ h => by simpa using h }
  get_initial := by simp

theorem decode_eq : decode = form.decode :=
  rfl

theorem decode_ofValue (step : Step) : decode (.ofValue step.toValue) = .ok step := by
  rw [decode_eq]
  refine form.decode_record_eq_ok_iff.mpr ⟨⟨some step.name, some step.args⟩, ?_, rfl⟩
  refine List.forall_mem_cons.mpr ⟨.content rfl, ?_⟩
  refine List.forall_mem_cons.mpr ⟨.content (Decoder.listOf_ofTexts step.args), ?_⟩
  exact List.forall_mem_nil _

end Step

namespace StepRecord

/-- A position of a machine word, and values with the names of each record apart. -/
structure IsProper (record : StepRecord) : Prop where
  index_le : record.index ≤ 0xFFFFFFFFFFFFFFFF
  input : record.input.HasDistinctNames
  output : record.output.HasDistinctNames

def form : RecordForm StepRecord where
  State := Slots
  slots :=
    [⟨Nat, "index", .natUpTo 0xFFFFFFFFFFFFFFFF, Slots.index?, fun s a => { s with index? := a }⟩,
      ⟨String, "name", .text, Slots.name?, fun s a => { s with name? := a }⟩,
      ⟨List String, "args", .listOf .text, Slots.args?, fun s a => { s with args? := a }⟩,
      ⟨Value, "input", .value, Slots.input?, fun s a => { s with input? := a }⟩,
      ⟨Value, "output", .value, Slots.output?, fun s a => { s with output? := a }⟩]
  initial := ⟨none, none, none, none, none⟩
  finish s := do
    return ⟨← Decoder.need s.index?, ← Decoder.need s.name?, ← Decoder.need s.args?,
      ← Decoder.need s.input?, ← Decoder.need s.output?⟩
  independent :=
    { nodup := by decide
      get_set := by simp
      get_set_of_ne := by simp
      ext := fun ⟨_, _, _, _, _⟩ ⟨_, _, _, _, _⟩ h => by simpa using h }
  get_initial := by simp

theorem decode_eq : decode = form.decode :=
  rfl

theorem decode_ofValue {record : StepRecord} (h : record.IsProper) :
    decode (.ofValue record.toValue) = .ok record := by
  rw [decode_eq]
  refine form.decode_record_eq_ok_iff.mpr ⟨⟨some record.index, some record.name, some record.args,
    some record.input, some record.output⟩, ?_, rfl⟩
  refine List.forall_mem_cons.mpr ⟨.content (Decoder.natUpTo_ofNat h.index_le), ?_⟩
  refine List.forall_mem_cons.mpr ⟨.content rfl, ?_⟩
  refine List.forall_mem_cons.mpr ⟨.content (Decoder.listOf_ofTexts record.args), ?_⟩
  refine List.forall_mem_cons.mpr ⟨.content (Decoder.value_ofValue h.input), ?_⟩
  refine List.forall_mem_cons.mpr ⟨.content (Decoder.value_ofValue h.output), ?_⟩
  exact List.forall_mem_nil _

theorem isProper_of_decode {d : Document} {record : StepRecord} (h : decode d = .ok record) :
    record.IsProper := by
  obtain ⟨t, ht, hfinish⟩ := form.exists_decoded h
  obtain ⟨hindex, ht⟩ := List.forall_mem_cons.mp ht
  obtain ⟨-, ht⟩ := List.forall_mem_cons.mp ht
  obtain ⟨-, ht⟩ := List.forall_mem_cons.mp ht
  obtain ⟨hinput, ht⟩ := List.forall_mem_cons.mp ht
  obtain ⟨houtput, -⟩ := List.forall_mem_cons.mp ht
  simp only [form, bind_eq_ok_iff, Decoder.need_eq_ok_iff] at hfinish
  obtain ⟨index, hi, name, -, args, -, input, hin, output, hout, h⟩ := hfinish
  cases h
  obtain ⟨_, hindex⟩ := hindex index hi
  obtain ⟨_, hinput⟩ := hinput input hin
  obtain ⟨_, houtput⟩ := houtput output hout
  exact ⟨Decoder.le_of_natUpTo hindex, Decoder.hasDistinctNames_of_value hinput,
    Decoder.hasDistinctNames_of_value houtput⟩

end StepRecord

namespace Log

theorem Level.ofName?_name (level : Level) : Level.ofName? level.name = some level := by
  cases level <;> decide

theorem Level.decode_name (level : Level) :
    Level.decode (.ofValue (.text level.name)) = .ok level := by
  rw [Document.ofValue, Level.decode, ofName?_name]
  rfl

namespace Entry

def form : RecordForm Entry where
  State := Slots
  slots :=
    [⟨Level, "level", Level.decode, Slots.level?, fun s a => { s with level? := a }⟩,
      ⟨String, "message", .text, Slots.message?, fun s a => { s with message? := a }⟩,
      ⟨Nat, "indent", .natUpTo 255, Slots.indent?, fun s a => { s with indent? := a }⟩]
  initial := ⟨none, none, none⟩
  finish s := do
    return ⟨← Decoder.need s.level?, ← Decoder.need s.message?, (s.indent?.getD 0).toUInt8⟩
  independent :=
    { nodup := by decide
      get_set := by simp
      get_set_of_ne := by simp
      ext := fun ⟨_, _, _⟩ ⟨_, _, _⟩ h => by simpa using h }
  get_initial := by simp

theorem decode_eq : decode = form.decode :=
  rfl

theorem decode_ofValue (entry : Entry) : decode (.ofValue entry.toValue) = .ok entry := by
  have hindent : entry.indent.toNat ≤ 255 := Nat.le_of_lt_succ entry.indent.toNat_lt
  have hfinish : form.finish ⟨some entry.level, some entry.message, some entry.indent.toNat⟩ =
      .ok entry := by
    change Except.ok (Entry.mk entry.level entry.message (.ofNat entry.indent.toNat)) = .ok entry
    rw [UInt8.ofNat_toNat]
  rw [decode_eq]
  refine form.decode_record_eq_ok_iff.mpr ⟨_, ?_, hfinish⟩
  refine List.forall_mem_cons.mpr ⟨.content entry.level.decode_name, ?_⟩
  refine List.forall_mem_cons.mpr ⟨.content rfl, ?_⟩
  refine List.forall_mem_cons.mpr ⟨.content (Decoder.natUpTo_ofNat hindent), ?_⟩
  exact List.forall_mem_nil _

end Entry

end Log

namespace ApplyRequest

def form : RecordForm ApplyRequest where
  State := Slots
  slots :=
    [⟨Option String, "filter", .orNull .text, Slots.filter?, fun s a => { s with filter? := a }⟩,
      ⟨Value, "value", .value, Slots.value?, fun s a => { s with value? := a }⟩,
      ⟨Bool, "trace", .bool, Slots.trace?, fun s a => { s with trace? := a }⟩]
  initial := ⟨none, none, none⟩
  finish s := return ⟨s.filter?.getD none, s.value?.getD .null, s.trace?.getD false⟩
  independent :=
    { nodup := by decide
      get_set := by simp
      get_set_of_ne := by simp
      ext := fun ⟨_, _, _⟩ ⟨_, _, _⟩ h => by simpa using h }
  get_initial := by simp

theorem decode_eq : decode = form.decode :=
  rfl

theorem decode_ofValue {request : ApplyRequest} (h : request.value.HasDistinctNames) :
    decode (.ofValue request.toValue) = .ok request := by
  rw [decode_eq]
  refine form.decode_record_eq_ok_iff.mpr
    ⟨⟨some request.filter?, some request.value, some request.trace⟩, ?_, rfl⟩
  refine List.forall_mem_cons.mpr ⟨.content (Decoder.orNull_ofText? request.filter?), ?_⟩
  refine List.forall_mem_cons.mpr ⟨.content (Decoder.value_ofValue h), ?_⟩
  refine List.forall_mem_cons.mpr ⟨.content rfl, ?_⟩
  exact List.forall_mem_nil _

theorem hasDistinctNames_of_decode {d : Document} {request : ApplyRequest}
    (h : decode d = .ok request) : request.value.HasDistinctNames := by
  obtain ⟨t, ht, hfinish⟩ := form.exists_decoded h
  obtain ⟨-, ht⟩ := List.forall_mem_cons.mp ht
  obtain ⟨hvalue, -⟩ := List.forall_mem_cons.mp ht
  cases hfinish
  change (t.value?.getD .null).HasDistinctNames
  cases hget : t.value? with
  | none => exact Value.hasDistinctNames_of_not_isContainer rfl
  | some v =>
    obtain ⟨_, hvalue⟩ := hvalue v hget
    exact Decoder.hasDistinctNames_of_value hvalue

end ApplyRequest

namespace ApplyResponse

/-- A result with the names of each record apart, and a trace of proper records. -/
structure IsProper (response : ApplyResponse) : Prop where
  result : response.result.HasDistinctNames
  trace : ∀ records, response.trace? = some records → ∀ record ∈ records, record.IsProper

def form : RecordForm ApplyResponse where
  State := Slots
  slots :=
    [⟨String, "requestId", .text, Slots.requestId?, fun s a => { s with requestId? := a }⟩,
      ⟨String, "status", .text, Slots.status?, fun s a => { s with status? := a }⟩,
      ⟨String, "filter", .text, Slots.filter?, fun s a => { s with filter? := a }⟩,
      ⟨Value, "result", .value, Slots.result?, fun s a => { s with result? := a }⟩,
      ⟨Option (List StepRecord), "trace", .orNull (.listOf StepRecord.decode), Slots.trace?,
        fun s a => { s with trace? := a }⟩]
  initial := ⟨none, none, none, none, none⟩
  finish s := do
    return ⟨← Decoder.need s.requestId?, ← Decoder.need s.status?, ← Decoder.need s.filter?,
      ← Decoder.need s.result?, s.trace?.getD none⟩
  independent :=
    { nodup := by decide
      get_set := by simp
      get_set_of_ne := by simp
      ext := fun ⟨_, _, _, _, _⟩ ⟨_, _, _, _, _⟩ h => by simpa using h }
  get_initial := by simp

theorem decode_eq : decode = form.decode :=
  rfl

theorem decode_ofValue {response : ApplyResponse} (h : response.IsProper) :
    decode (.ofValue response.toValue) = .ok response := by
  rw [decode_eq]
  obtain ⟨requestId, status, filter, result, trace?⟩ := response
  obtain ⟨hresult, htrace⟩ := h
  have hresult := Decoder.value_ofValue hresult
  cases trace? with
  | none =>
    refine form.decode_record_eq_ok_iff.mpr
      ⟨⟨some requestId, some status, some filter, some result, none⟩, ?_, rfl⟩
    refine List.forall_mem_cons.mpr ⟨.content rfl, ?_⟩
    refine List.forall_mem_cons.mpr ⟨.content rfl, ?_⟩
    refine List.forall_mem_cons.mpr ⟨.content rfl, ?_⟩
    refine List.forall_mem_cons.mpr ⟨.content hresult, ?_⟩
    refine List.forall_mem_cons.mpr ⟨.nothing none, ?_⟩
    exact List.forall_mem_nil _
  | some records =>
    have hrecords : Decoder.orNull (.listOf StepRecord.decode)
        (.ofValue (.list (records.map StepRecord.toValue))) = .ok (some records) := by
      have hlist := Decoder.listOf_ofValue fun record hrecord =>
        StepRecord.decode_ofValue (htrace records rfl record hrecord)
      exact congrArg (Except.map some) hlist
    refine form.decode_record_eq_ok_iff.mpr
      ⟨⟨some requestId, some status, some filter, some result, some (some records)⟩, ?_, rfl⟩
    refine List.forall_mem_cons.mpr ⟨.content rfl, ?_⟩
    refine List.forall_mem_cons.mpr ⟨.content rfl, ?_⟩
    refine List.forall_mem_cons.mpr ⟨.content rfl, ?_⟩
    refine List.forall_mem_cons.mpr ⟨.content hresult, ?_⟩
    refine List.forall_mem_cons.mpr ⟨.content hrecords, ?_⟩
    exact List.forall_mem_nil _

theorem isProper_of_decode {d : Document} {response : ApplyResponse}
    (h : decode d = .ok response) : response.IsProper := by
  obtain ⟨t, ht, hfinish⟩ := form.exists_decoded h
  obtain ⟨-, ht⟩ := List.forall_mem_cons.mp ht
  obtain ⟨-, ht⟩ := List.forall_mem_cons.mp ht
  obtain ⟨-, ht⟩ := List.forall_mem_cons.mp ht
  obtain ⟨hresult, ht⟩ := List.forall_mem_cons.mp ht
  obtain ⟨htrace, -⟩ := List.forall_mem_cons.mp ht
  simp only [form, bind_eq_ok_iff, Decoder.need_eq_ok_iff] at hfinish
  obtain ⟨requestId, -, status, -, filter, -, result, hres, h⟩ := hfinish
  cases h
  obtain ⟨_, hresult⟩ := hresult result hres
  refine ⟨Decoder.hasDistinctNames_of_value hresult, fun records hrecords record hrecord => ?_⟩
  have hget : t.trace? = some (some records) :=
    (Option.getD_eq_iff.mp hrecords).resolve_right fun h => nomatch h.2
  obtain ⟨_, htrace⟩ := htrace (some records) hget
  have hlist := Decoder.eq_ok_of_orNull htrace
  obtain ⟨_, hread⟩ := Decoder.exists_eq_ok_of_listOf hlist record hrecord
  exact StepRecord.isProper_of_decode hread

theorem decode_trace_congr {fields : List (String × Value)} {items others : List Value}
    (h : List.Forall₂ (fun v w => ∀ record, StepRecord.decode (.ofValue v) = .ok record →
      StepRecord.decode (.ofValue w) = .ok record) items others) {x : ApplyResponse}
    (hx : decode (.ofValue (.record (("trace", .list items) :: fields))) = .ok x) :
    decode (.ofValue (.record (("trace", .list others) :: fields))) = .ok x := by
  have htrace : ∀ trace?,
      Decoder.orNull (.listOf StepRecord.decode) (.ofValue (.list items)) = .ok trace? →
        Decoder.orNull (.listOf StepRecord.decode) (.ofValue (.list others)) = .ok trace? := by
    intro trace? hread
    obtain ⟨records, hrecords, rfl⟩ := map_eq_ok_iff.mp hread
    exact map_eq_ok_iff.mpr ⟨records, Decoder.listOf_congr h hrecords, rfl⟩
  have hslot : (⟨Option (List StepRecord), "trace", .orNull (.listOf StepRecord.decode),
      Slots.trace?, fun s a => { s with trace? := a }⟩ : Decoder.Slot Slots) ∈ form.slots :=
    .tail _ (.tail _ (.tail _ (.tail _ (.head _))))
  exact RecordForm.decode_cons_congr hslot htrace hx

end ApplyResponse

namespace Wire

/-- A field that may be left out: what it is when it is not, and what then holds of what is read. -/
structure Default (α : Type) where
  name : String
  value : Value
  Holds : α → Prop

/-- Two values are read as the same, or neither is read. -/
def ReadAlike {α : Type} (decode : Decoder α) (v w : Value) : Prop :=
  ∀ x, decode (.ofValue v) = .ok x ↔ decode (.ofValue w) = .ok x

/-- A type travels without loss. What is proper is read back from what it is written as, and only
what is proper is ever read. Records are read alike with their fields in another order, with or
without fields of unknown names, and with or without a field that is as it is by default. -/
structure IsFaithful {α : Type} (encode : α → Value) (decode : Decoder α) (IsProper : α → Prop)
    (known : List String) (defaults : List (Default α)) : Prop where
  roundTrip : ∀ x, IsProper x → decode (.ofValue (encode x)) = .ok x
  proper : ∀ d x, decode d = .ok x → IsProper x
  order : ∀ fields others : List (String × Value), fields.Perm others →
    ReadAlike decode (.record fields) (.record others)
  unknown : ∀ fields : List (String × Value),
    decode (.ofValue (.record (fields.filter (·.1 ∈ known)))) = decode (.ofValue (.record fields))
  absent : ∀ default ∈ defaults, ∀ fields : List (String × Value),
    default.name ∉ Fields.names fields →
      ReadAlike decode (.record fields) (.record ((default.name, default.value) :: fields)) ∧
        ∀ x, decode (.ofValue (.record fields)) = .ok x → default.Holds x

def MayStayEmpty {α : Type} (form : RecordForm α) (default : Default α) : Prop :=
  ∃ slot ∈ form.slots, slot.name = default.name ∧
    (∃ a, slot.decoder (.ofValue default.value) = .ok a ∧
      ∀ t, form.finish (slot.set t (some a)) = form.finish (slot.set t none)) ∧
    ∀ t x, form.finish (slot.set t none) = .ok x → default.Holds x

theorem isFaithful_of_form {α : Type} (form : RecordForm α) {encode : α → Value}
    {IsProper : α → Prop} {defaults : List (Default α)}
    (hread : ∀ x, IsProper x → form.decode (.ofValue (encode x)) = .ok x)
    (hproper : ∀ d x, form.decode d = .ok x → IsProper x)
    (hdefaults : ∀ default ∈ defaults, MayStayEmpty form default) :
    IsFaithful encode form.decode IsProper (form.slots.map Decoder.Slot.name) defaults where
  roundTrip := hread
  proper := hproper
  order _ _ h _ := ⟨RecordForm.decode_perm h, RecordForm.decode_perm h.symm⟩
  unknown := form.decode_filter
  absent default hdefault fields hnew := by
    obtain ⟨slot, hslot, hname, ⟨a, hcontent, hfinish⟩, hholds⟩ := hdefaults default hdefault
    rw [← hname] at hnew ⊢
    constructor
    · exact fun _ => (RecordForm.decode_cons_default hslot hcontent hfinish hnew).symm
    · intro x hx
      obtain ⟨t, ht⟩ := RecordForm.exists_finish_of_not_mem hslot hnew hx
      exact hholds t x ht

theorem isFaithful_step :
    IsFaithful Step.toValue Step.decode (fun _ => True) ["name", "args"]
      [⟨"args", .list [], (·.args = [])⟩] := by
  rw [Step.decode_eq]
  refine isFaithful_of_form Step.form (fun step _ => step.decode_ofValue) (fun _ _ _ => trivial) ?_
  refine List.forall_mem_singleton.mpr ⟨_, .tail _ (.head _), rfl, ⟨[], rfl, fun _ => rfl⟩, ?_⟩
  intro t step h
  obtain ⟨name, -, h⟩ := bind_eq_ok_iff.mp h
  cases h
  rfl

theorem isFaithful_stepRecord :
    IsFaithful StepRecord.toValue StepRecord.decode StepRecord.IsProper
      ["index", "name", "args", "input", "output"] [] := by
  rw [StepRecord.decode_eq]
  exact isFaithful_of_form StepRecord.form (fun _ => StepRecord.decode_ofValue)
    (fun _ _ => StepRecord.isProper_of_decode) (List.forall_mem_nil _)

theorem isFaithful_entry :
    IsFaithful Log.Entry.toValue Log.Entry.decode (fun _ => True) ["level", "message", "indent"]
      [⟨"indent", .ofNat 0, (·.indent = 0)⟩] := by
  rw [Log.Entry.decode_eq]
  refine isFaithful_of_form Log.Entry.form (fun entry _ => entry.decode_ofValue)
    (fun _ _ _ => trivial) ?_
  refine List.forall_mem_singleton.mpr
    ⟨_, .tail _ (.tail _ (.head _)), rfl, ⟨0, rfl, fun _ => rfl⟩, ?_⟩
  intro t entry h
  obtain ⟨level, -, h⟩ := bind_eq_ok_iff.mp h
  obtain ⟨message, -, h⟩ := bind_eq_ok_iff.mp h
  cases h
  rfl

theorem isFaithful_request :
    IsFaithful ApplyRequest.toValue ApplyRequest.decode (·.value.HasDistinctNames)
      ["filter", "value", "trace"]
      [⟨"filter", .null, (·.filter? = none)⟩, ⟨"value", .null, (·.value = .null)⟩,
        ⟨"trace", .bool false, (·.trace = false)⟩] := by
  rw [ApplyRequest.decode_eq]
  refine isFaithful_of_form ApplyRequest.form (fun _ => ApplyRequest.decode_ofValue)
    (fun _ _ => ApplyRequest.hasDistinctNames_of_decode) ?_
  simp only [List.forall_mem_cons]
  refine ⟨⟨_, .head _, rfl, ⟨none, rfl, fun _ => rfl⟩, ?_⟩,
    ⟨_, .tail _ (.head _), rfl, ⟨.null, rfl, fun _ => rfl⟩, ?_⟩,
    ⟨_, .tail _ (.tail _ (.head _)), rfl, ⟨false, rfl, fun _ => rfl⟩, ?_⟩, List.forall_mem_nil _⟩
  all_goals
    intro t request h
    cases h
    rfl

theorem isFaithful_response :
    IsFaithful ApplyResponse.toValue ApplyResponse.decode ApplyResponse.IsProper
      ["requestId", "status", "filter", "result", "trace"]
      [⟨"trace", .null, (·.trace? = none)⟩] := by
  rw [ApplyResponse.decode_eq]
  refine isFaithful_of_form ApplyResponse.form (fun _ => ApplyResponse.decode_ofValue)
    (fun _ _ => ApplyResponse.isProper_of_decode) ?_
  refine List.forall_mem_singleton.mpr ⟨_, .tail _ (.tail _ (.tail _ (.tail _ (.head _)))), rfl,
    ⟨none, rfl, fun _ => rfl⟩, ?_⟩
  intro t response h
  obtain ⟨requestId, -, h⟩ := bind_eq_ok_iff.mp h
  obtain ⟨status, -, h⟩ := bind_eq_ok_iff.mp h
  obtain ⟨filter, -, h⟩ := bind_eq_ok_iff.mp h
  obtain ⟨result, -, h⟩ := bind_eq_ok_iff.mp h
  cases h
  rfl

/-- Steps, records of steps, log entries, requests and responses travel without loss, and a response
can hold each record of its trace in any form that is read as that record. -/
theorem wire_forms_are_faithful :
    IsFaithful Step.toValue Step.decode (fun _ => True) ["name", "args"]
        [⟨"args", .list [], (·.args = [])⟩] ∧
      IsFaithful StepRecord.toValue StepRecord.decode StepRecord.IsProper
        ["index", "name", "args", "input", "output"] [] ∧
      IsFaithful Log.Entry.toValue Log.Entry.decode (fun _ => True) ["level", "message", "indent"]
        [⟨"indent", .ofNat 0, (·.indent = 0)⟩] ∧
      IsFaithful ApplyRequest.toValue ApplyRequest.decode (·.value.HasDistinctNames)
        ["filter", "value", "trace"]
        [⟨"filter", .null, (·.filter? = none)⟩, ⟨"value", .null, (·.value = .null)⟩,
          ⟨"trace", .bool false, (·.trace = false)⟩] ∧
      IsFaithful ApplyResponse.toValue ApplyResponse.decode ApplyResponse.IsProper
        ["requestId", "status", "filter", "result", "trace"]
        [⟨"trace", .null, (·.trace? = none)⟩] ∧
      ∀ (items others : List Value) (fields : List (String × Value)),
        List.Forall₂ (ReadAlike StepRecord.decode) items others →
          ReadAlike ApplyResponse.decode (.record (("trace", .list items) :: fields))
            (.record (("trace", .list others) :: fields)) := by
  refine ⟨isFaithful_step, isFaithful_stepRecord, isFaithful_entry, isFaithful_request,
    isFaithful_response, fun items others fields h x => ⟨?_, ?_⟩⟩
  · exact ApplyResponse.decode_trace_congr (h.imp fun _ _ halike record => (halike record).mp)
  · exact ApplyResponse.decode_trace_congr
      (h.flip.imp fun _ _ halike record => (halike record).mpr)

/-- A response without a trace, with an empty one, and with one that has null in nested values. -/
theorem wire_forms_are_faithful_traces :
    let nested := Value.record [("a", .null), ("b", .list [.null])]
    let bare : ApplyResponse := ⟨"1", "ok", "", nested, none⟩
    let empty : ApplyResponse := ⟨"1", "ok", "", nested, some []⟩
    let traced : ApplyResponse := ⟨"1", "ok", "", nested, some [⟨0, "", [""], nested, .null⟩]⟩
    nested.HasDistinctNames ∧ ApplyResponse.decode (.ofValue bare.toValue) = .ok bare ∧
      ApplyResponse.decode (.ofValue empty.toValue) = .ok empty ∧
      ApplyResponse.decode (.ofValue traced.toValue) = .ok traced := by
  intro nested bare empty traced
  have hnull : Value.null.HasDistinctNames := Value.hasDistinctNames_of_not_isContainer rfl
  have hnested : nested.HasDistinctNames := by
    refine Value.hasDistinctNames_record_iff.mpr ⟨by decide, ?_⟩
    refine List.forall_mem_cons.mpr ⟨hnull, List.forall_mem_singleton.mpr ?_⟩
    exact Value.hasDistinctNames_list_iff.mpr (List.forall_mem_singleton.mpr hnull)
  obtain ⟨-, -, -, -, hresponse, -⟩ := wire_forms_are_faithful
  refine ⟨hnested, hresponse.roundTrip _ ⟨hnested, nofun⟩,
    hresponse.roundTrip _ ⟨hnested, ?_⟩, hresponse.roundTrip _ ⟨hnested, ?_⟩⟩
  · rintro _ ⟨⟩
    exact List.forall_mem_nil _
  · rintro _ ⟨⟩
    exact List.forall_mem_singleton.mpr ⟨Nat.zero_le _, hnested, hnull⟩

end Wire

end FilterChain
