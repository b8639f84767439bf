import FilterChain.Proofs.Document.Written
import FilterChain.Proofs.Log.Channel
import FilterChain.Proofs.Text.Cutting
import FilterChain.Proofs.Wire.Forms
import FilterChain.Service.Server

/-!
# Event streams give entries back

A stream of events is cut at its blank lines, and each frame is read as an entry. As the text of an
entry is on one line, nothing that stands in a message can end its frame or start another one.
-/

namespace FilterChain

theorem decodeText_toText {α : Type} {room : Nat} {v : Value} (decoder : Decoder α)
    (h : v.Readable room) (hroom : room ≤ Document.maxDepth) :
    decodeText decoder v.toText = decoder (Document.ofValue v) := by
  rw [decodeText, Document.read_toText h hroom]
  exact bind_pure _

namespace Log

namespace Entry

def jsonText (entry : Entry) : List Char :=
  entry.toValue.toText.toList

theorem visible_jsonText (entry : Entry) : ∀ c ∈ entry.jsonText, 32 ≤ c.toNat :=
  Value.visible_toText entry.toValue

theorem not_mem_jsonText {c : Char} (hc : c.toNat < 32) (entry : Entry) : c ∉ entry.jsonText :=
  fun h => absurd (entry.visible_jsonText c h) (Nat.not_le.mpr hc)

theorem readable_toValue (entry : Entry) : entry.toValue.Readable 1 := by
  have hlt := entry.indent.toNat_lt
  obtain ⟨c, cs, hlegible⟩ :=
    Number.legible_whole (n := entry.indent.toNat) ⟨by omega, by omega⟩
  refine .record ?_
  simp only [List.forall_mem_cons]
  exact ⟨.text 0 _, .text 0 _, .number 0 hlegible, List.forall_mem_nil _⟩

theorem decodeText_jsonText (entry : Entry) :
    decodeText decode (String.ofList entry.jsonText) = .ok entry := by
  rw [jsonText, String.ofList_toList, decodeText_toText decode entry.readable_toValue (by decide),
    decode_ofValue]

end Entry

/-- What is written for an event: a data line for each line of its payload, and a blank line. -/
def event (payload : List Char) : List Char :=
  (Text.pieces '\n' payload).flatMap (fun line => "data: ".toList ++ line ++ ['\n']) ++ ['\n']

/-- The frames of a stream, each of which ends in front of a blank line. -/
def frames : List Char → List (List Char)
  | [] => []
  | '\n' :: '\n' :: cs => [] :: frames cs
  | c :: cs => Text.extendFirst c (frames cs)

def decodeFrame (frame : List Char) : Except DecodeError Entry :=
  match frame.dropPrefix? "data: ".toList with
  | some data => decodeText Entry.decode (String.ofList data)
  | none => .error .notJson

theorem event_of_not_mem {payload : List Char} (h : '\n' ∉ payload) :
    event payload = "data: ".toList ++ payload ++ ['\n', '\n'] := by
  have hline : Text.pieces '\n' payload = [payload] :=
    (Text.pieces_eq_splitOn '\n' payload).trans
      (Text.splitOn_glue (List.forall_mem_singleton.mpr h) (List.cons_ne_nil _ _))
  rw [event, hline]
  simp

theorem frames_append {line : List Char} (h : '\n' ∉ line) (rest : List Char) :
    frames (line ++ '\n' :: '\n' :: rest) = line :: frames rest := by
  induction line with
  | nil => rw [List.nil_append, frames]
  | cons c line ih =>
    have hc : c ≠ '\n' := fun heq => h (heq ▸ List.mem_cons_self)
    have hline : '\n' ∉ line := fun hmem => h (List.mem_cons_of_mem _ hmem)
    -- The case of two line feeds does not apply, as the first character is none.
    rw [List.cons_append, frames, ih hline, Text.extendFirst]
    exact fun _ heq => absurd heq hc

namespace Entry

def dataLine (entry : Entry) : List Char :=
  "data: ".toList ++ entry.jsonText

theorem not_mem_dataLine (entry : Entry) : '\n' ∉ entry.dataLine := by
  intro h
  rcases List.mem_append.mp h with h | h
  · exact absurd h (by decide)
  · exact entry.not_mem_jsonText (by decide) h

theorem frame_eq (entry : Entry) (rest : List Char) :
    entry.frame rest = entry.dataLine ++ '\n' :: '\n' :: rest := by
  change "data: ".toList ++ entry.toValue.render ('\n' :: '\n' :: rest) = _
  rw [Value.render_eq_toText_append, ← List.append_assoc]
  rfl

theorem event_jsonText (entry : Entry) : event entry.jsonText = entry.dataLine ++ ['\n', '\n'] :=
  event_of_not_mem (entry.not_mem_jsonText (by decide))

theorem decodeFrame_dataLine (entry : Entry) : decodeFrame entry.dataLine = .ok entry := by
  have hdata : entry.dataLine.dropPrefix? "data: ".toList = some entry.jsonText :=
    List.dropPrefix?_eq_some_iff.mpr ⟨_, rfl, BEq.rfl⟩
  rw [decodeFrame, hdata]
  exact entry.decodeText_jsonText

end Entry

theorem eventStream_eq_flatMap (entries : List Entry) :
    eventStream entries = entries.flatMap fun entry => event entry.jsonText := by
  induction entries with
  | nil => rfl
  | cons entry entries ih =>
    rw [eventStream, entry.frame_eq, ih, List.flatMap_cons, entry.event_jsonText,
      List.append_assoc]
    rfl

theorem frames_eventStream (entries : List Entry) :
    frames (eventStream entries) = entries.map Entry.dataLine := by
  induction entries with
  | nil => rfl
  | cons entry entries ih =>
    rw [eventStream, entry.frame_eq, frames_append entry.not_mem_dataLine, ih, List.map_cons]

theorem decode_frames_eventStream (entries : List Entry) :
    (frames (eventStream entries)).map decodeFrame = entries.map .ok := by
  rw [frames_eventStream, List.map_map]
  refine List.map_congr_left fun entry _ => ?_
  rw [Function.comp_apply, entry.decodeFrame_dataLine]

theorem entries_append (front back : List Delivery) :
    Delivery.entries (front ++ back) = Delivery.entries front ++ Delivery.entries back := by
  induction front with
  | nil => rfl
  | cons delivery front ih =>
    cases delivery with
    | entry e => exact congrArg (e :: ·) ih
    | lagged n => exact ih

theorem entries_map_entry (entries : List Entry) :
    Delivery.entries (entries.map .entry) = entries := by
  induction entries with
  | nil => rfl
  | cons e entries ih => exact congrArg (e :: ·) ih

theorem streamText_lagged (front back : List Delivery) (missed : Nat) :
    streamText (front ++ .lagged missed :: back) = streamText (front ++ back) := by
  rw [streamText, streamText, entries_append, entries_append]
  rfl

namespace Channel

variable {channel : Channel} {subscriber : Nat}

theorem Serves.publishAll (h : channel.Serves subscriber) (entries : List Entry) :
    (channel.publishAll entries).Serves subscriber ∧
      (channel.publishAll entries).waiting subscriber = channel.waiting subscriber ++ entries := by
  induction entries generalizing channel with
  | nil => exact ⟨h, (List.append_nil _).symm⟩
  | cons entry entries ih =>
    obtain ⟨hserves, hwaiting⟩ := h.after_publish entry
    obtain ⟨hlast, hall⟩ := ih hserves
    refine ⟨hlast, hall.trans ?_⟩
    rw [hwaiting, List.append_assoc]
    rfl

theorem Serves.entries_drain (h : channel.Serves subscriber) :
    Delivery.entries (channel.drain subscriber).1 =
      (channel.waiting subscriber).drop ((channel.waiting subscriber).length - capacity) := by
  rw [h.drain_eq, length_waiting]
  dsimp only
  split
  · rw [Delivery.entries, entries_map_entry]
  · next hkept =>
    rw [entries_map_entry, Nat.sub_eq_zero_of_le (Nat.not_lt.mp hkept), List.drop_zero]

end Channel

end Log

namespace Server

open Log

theorem handle_logs (server : Server) (requestId : String) {request : HttpRequest}
    (hmethod : request.method = "GET") (hpath : request.path = "/api/logs") :
    server.handle requestId request = server.openStream := by
  have hroute : Route.ofPath? "/api/logs" = some .logs := by decide
  have hoptions : ¬ "GET" = "OPTIONS" := by decide
  have hhead : ¬ "GET" = "HEAD" := by decide
  simp only [handle, hmethod, hpath, hroute, hoptions, hhead, Route.answers, answer]
  rfl

/-- A stream that has just been opened carries the entries that are logged from then on, except for
those that are no longer kept when it is read. -/
theorem readStream_openStream (server : Server) (entries : List Entry) :
    let opened := server.openStream.2
    ({ opened with channel := opened.channel.publishAll entries }).readStream.1 =
      String.ofList (eventStream (entries.drop (entries.length - capacity))) := by
  intro opened
  obtain ⟨hserves, hnothing⟩ := server.channel.serves_subscribe
  obtain ⟨hlast, hwaiting⟩ := hserves.publishAll entries
  rw [hnothing, List.nil_append] at hwaiting
  have hdrain := hlast.entries_drain
  rw [hwaiting] at hdrain
  rw [readStream, ← hdrain]
  rfl

end Server

/-- Event streams give entries back, whatever characters stand in their messages. An entry makes one
frame, a data line with its JSON text in front of a blank line; what is cut at the blank lines of a
stream and read as entries are the entries that were delivered, and gaps leave no trace. What a
server carries on a stream is the stream of the newest entries logged since it was opened. -/
theorem streams_give_entries_back :
    (∀ deliveries : List Log.Delivery,
      (Log.streamText deliveries).toList =
          (Log.Delivery.entries deliveries).flatMap (fun entry => Log.event entry.jsonText) ∧
        (Log.frames (Log.streamText deliveries).toList).map Log.decodeFrame =
          (Log.Delivery.entries deliveries).map .ok) ∧
    (∀ entry : Log.Entry,
      Log.event entry.jsonText = "data: ".toList ++ entry.jsonText ++ ['\n', '\n'] ∧
        '\n' ∉ entry.jsonText ∧ '\r' ∉ entry.jsonText) ∧
    (∀ front back missed,
      Log.streamText (front ++ .lagged missed :: back) = Log.streamText (front ++ back)) ∧
    (∀ (server : Server) (requestId : String) (request : HttpRequest) (entries : List Log.Entry),
      request.method = "GET" → request.path = "/api/logs" →
        let opened := (server.handle requestId request).2
        let logged := { opened with channel := opened.channel.publishAll entries }
        let carried := entries.drop (entries.length - Log.capacity)
        logged.readStream.1 = Log.streamText (carried.map .entry) ∧
          (Log.frames logged.readStream.1.toList).map Log.decodeFrame = carried.map .ok) := by
  refine ⟨fun deliveries => ?_, fun entry => ?_, Log.streamText_lagged, ?_⟩
  · rw [Log.streamText, String.toList_ofList]
    exact ⟨Log.eventStream_eq_flatMap _, Log.decode_frames_eventStream _⟩
  · exact ⟨entry.event_jsonText, entry.not_mem_jsonText (by decide),
      entry.not_mem_jsonText (by decide)⟩
  · intro server requestId request entries hmethod hpath
    rw [server.handle_logs requestId hmethod hpath]
    intro opened logged carried
    have hread : logged.readStream.1 = String.ofList (Log.eventStream carried) :=
      server.readStream_openStream entries
    rw [hread, Log.streamText, Log.entries_map_entry, String.toList_ofList]
    exact ⟨rfl, Log.decode_frames_eventStream carried⟩

/-- A message that looks like the end of a frame and the start of another is one entry. -/
theorem streams_give_entries_back_forged_frame :
    let forged := Log.Entry.error "x\n\ndata: \x7b\x22level\x22:\r\\"
    (Log.frames (Log.streamText [.entry forged, .lagged 7, .entry (.info "ok")]).toList).map
        Log.decodeFrame = [.ok forged, .ok (.info "ok")] ∧
      let opened := ((Server.start ⟨.builtin, none⟩).handle "1" ⟨"GET", "/api/logs", [], ""⟩).2
      let logged := { opened with channel := opened.channel.publishAll [forged] }
      (Log.frames logged.readStream.1.toList).map Log.decodeFrame = [.ok forged] := by
  obtain ⟨hdeliveries, -, -, hserver⟩ := streams_give_entries_back
  exact ⟨(hdeliveries _).2, (hserver _ _ _ [_] rfl rfl).2⟩

end FilterChain
