import FilterChain.Proofs.Document.Lines
import FilterChain.Proofs.Service.EventStream
import FilterChain.Proofs.Value.Fields

/-!
# Answers over HTTP

What a client can tell of an answer: its status, and the fields of the body that its text is read
back as. A reply with a result shows the result and the specification that gave it, with the records
of the steps if there are any; a refusal shows what went wrong, and no result.
-/

namespace FilterChain

/-- An answer that has a status, and a body that is declared as JSON and read back from its text. -/
structure HttpResponse.Carries (response : HttpResponse) (status : Nat) (body : Value) : Prop where
  status_eq : response.status = status
  declared : ("content-type", "application/json") ∈ response.headers
  body_eq : response.body? = some body.toText
  read : body.IsReadFrom body.toText

theorem HttpResponse.carries_json (status : Nat) (body : Value) :
    (HttpResponse.json status body).Carries status body where
  status_eq := rfl
  declared := .tail _ (.tail _ (.head _))
  body_eq := rfl
  read := body.isReadFrom_toText

structure StepRecord.IsShownBy (record : StepRecord) (shown : Value) : Prop where
  index : shown.field? "index" = some (.number (.whole record.index))
  name : shown.field? "name" = some (.text record.name)
  args : shown.field? "args" = some (.list (record.args.map .text))
  input : shown.field? "input" = some record.input
  output : shown.field? "output" = some record.output

theorem StepRecord.isShownBy_toValue (record : StepRecord) : record.IsShownBy record.toValue :=
  ⟨rfl, rfl, rfl, rfl, rfl⟩

def AreShownBy (records : List StepRecord) (shown : Value) : Prop :=
  ∃ items, shown = .list items ∧ List.Forall₂ StepRecord.IsShownBy records items

/-- A body that shows a result, with a trace if and only if there are records. -/
structure ShowsResult (body : Value) (requestId filter : String) (result : Value)
    (trace? : Option (List StepRecord)) : Prop where
  requestId : body.field? "requestId" = some (.text requestId)
  status : body.field? "status" = some (.text "ok")
  filter : body.field? "filter" = some (.text filter)
  result : body.field? "result" = some result
  trace : Option.Rel AreShownBy trace? (body.field? "trace")

/-- A body that shows a failure, without a result. -/
structure ShowsFailure (body : Value) (requestId kind message : String) : Prop where
  requestId : body.field? "requestId" = some (.text requestId)
  status : body.field? "status" = some (.text "error")
  kind : body.field? "kind" = some (.text kind)
  error : body.field? "error" = some (.text message)
  result : body.field? "result" = none
  trace : body.field? "trace" = none

theorem showsResult_toValue (requestId filter : String) (result : Value)
    (trace? : Option (List StepRecord)) :
    ShowsResult (ApplyResponse.ofResult requestId filter result trace?).toValue requestId filter
      result trace? where
  requestId := rfl
  status := rfl
  filter := rfl
  result := rfl
  trace := by
    cases trace? with
    | none => exact .none
    | some records =>
      refine .some ⟨_, rfl, List.forall₂_map_right_iff.mpr (List.forall₂_same.mpr ?_)⟩
      exact fun record _ => record.isShownBy_toValue

theorem showsFailure_failureValue (requestId kind message : String) :
    ShowsFailure (failureValue requestId kind message) requestId kind message :=
  ⟨rfl, rfl, rfl, rfl, rfl, rfl⟩

namespace HttpResponse

def Grants (response : HttpResponse) (requestId filter : String) (result : Value)
    (trace? : Option (List StepRecord)) : Prop :=
  ∃ body, response.Carries 200 body ∧ ShowsResult body requestId filter result trace?

def Refuses (response : HttpResponse) (requestId kind message : String) : Prop :=
  ∃ body, response.Carries 400 body ∧ ShowsFailure body requestId kind message

/-- Two answers of one status, the first of which may have a trace on top of what the second has. -/
def AddsTrace (traced plain : HttpResponse) : Prop :=
  ∃ status body shorter, traced.Carries status body ∧ plain.Carries status shorter ∧
    shorter.field? "trace" = none ∧ ∀ name ≠ "trace", body.field? name = shorter.field? name

end HttpResponse

namespace Server

theorem grants_replyResponse (requestId filter : String) (result : Value)
    (trace? : Option (List StepRecord)) :
    (replyResponse requestId (.done (.ofResult requestId filter result trace?))).Grants requestId
      filter result trace? :=
  ⟨_, HttpResponse.carries_json 200 _, showsResult_toValue requestId filter result trace?⟩

theorem refuses_replyResponse (requestId kind message : String) :
    (replyResponse requestId (.refused kind message)).Refuses requestId kind message :=
  ⟨_, HttpResponse.carries_json 400 _, showsFailure_failureValue requestId kind message⟩

end Server

/-- A request to run a specification, as it comes in: of the right method and route, with a body
that is declared as JSON and is read as the request. -/
structure HttpRequest.Asks (http : HttpRequest) (request : ApplyRequest) : Prop where
  method : http.method = "POST"
  route : Route.ofPath? http.path = some .apply
  declared : ∃ header, http.headers.find? (fun header =>
      header.1.toList.map Text.lowerAscii = "content-type".toList) = some header ∧
    MediaType.isJson header.2 = true
  decoded : decodeText ApplyRequest.decode http.body = .ok request

namespace Server

variable (server : Server) (requestId : String) {http : HttpRequest} {request : ApplyRequest}

theorem handle_of_asks (h : http.Asks request) :
    server.handle requestId http =
      (replyResponse requestId (server.service.apply requestId request).1,
        { server with
          channel := server.channel.publishAll (server.service.apply requestId request).2 }) := by
  obtain ⟨header, hheader, hjson⟩ := h.declared
  have hanswers : Route.apply.answers "POST" = true := rfl
  have hoptions : ¬ "POST" = "OPTIONS" := by decide
  have hhead : ¬ "POST" = "HEAD" := by decide
  simp only [handle, h.method, h.route, hanswers, hoptions, hhead, answer, applyBody, hheader,
    hjson, h.decoded]
  rfl

theorem waiting_handle_of_asks (h : http.Asks request) {subscriber : Nat}
    (hserves : server.channel.Serves subscriber) :
    (server.handle requestId http).2.channel.waiting subscriber =
      server.channel.waiting subscriber ++ (server.service.apply requestId request).2 := by
  rw [handle_of_asks server requestId h]
  exact (hserves.publishAll _).2

end Server

end FilterChain
