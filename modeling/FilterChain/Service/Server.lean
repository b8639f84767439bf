import FilterChain.Service
import FilterChain.Service.EventStream
import FilterChain.Service.MediaType

/-!
# The server

Routes of the service over HTTP, and the answers of each. Entries that requests log go to the
channel of the server, from which a client may open a stream of events.
-/

namespace FilterChain

structure HttpRequest where
  method : String
  path : String
  headers : List (String × String)
  body : String
  deriving DecidableEq, Repr

/-- An answer; bodies that are not JSON are left to the transport. -/
structure HttpResponse where
  status : Nat
  headers : List (String × String)
  body? : Option String
  deriving DecidableEq, Repr

inductive Route where
  | health
  | operations
  | apply
  | logs
  deriving DecidableEq, Repr

namespace Route

/-- The route of a path, whatever query or fragment stands behind it. -/
def ofPath? (path : String) : Option Route :=
  let route := String.ofList (path.toList.takeWhile fun c => c != '?' && c != '#')
  if route = "/" ∨ route = "/health" then some .health
  else if route = "/api/operations" then some .operations
  else if route = "/api/apply" then some .apply
  else if route = "/api/logs" then some .logs
  else none

def allow : Route → String
  | .apply => "POST"
  | _ => "GET,HEAD"

def answers (route : Route) (method : String) : Bool :=
  match route with
  | .apply => method = "POST"
  | _ => method = "GET" || method = "HEAD"

end Route

namespace HttpResponse

def originHeader : String × String :=
  ("access-control-allow-origin", "*")

def exposeHeader : String × String :=
  ("access-control-expose-headers", "content-type")

def bare (status : Nat) (headers : List (String × String)) : HttpResponse :=
  ⟨status, originHeader :: exposeHeader :: headers, none⟩

def json (status : Nat) (body : Value) : HttpResponse :=
  ⟨status, [originHeader, exposeHeader, ("content-type", "application/json")],
    some body.toText⟩

def plainText (status : Nat) : HttpResponse :=
  bare status [("content-type", "text/plain; charset=utf-8")]

def allowHeader (route : Route) : String × String :=
  ("allow", route.allow)

def preflight (route? : Option Route) : HttpResponse :=
  ⟨200,
    [originHeader, ("access-control-allow-methods", "GET,POST,OPTIONS"),
      ("access-control-allow-headers", "content-type,accept")] ++
      (route?.map allowHeader).toList, none⟩

def withoutBody (response : HttpResponse) : HttpResponse :=
  { response with body? := response.body?.map fun _ => "" }

end HttpResponse

def healthValue : Value :=
  .record
    [("status", .text "ok"), ("service", .text "filtros"), ("version", .text "0.1.0"),
      ("endpoints", .record
        [("apply", .text "POST /api/apply"), ("operations", .text "GET /api/operations"),
          ("logs", .text "GET /api/logs (SSE)")])]

/-- A service with the channel that its requests log to. At most one stream is open: the
subscriber `stream?`. -/
structure Server where
  service : Service
  channel : Log.Channel
  stream? : Option Nat

namespace Server

def start (service : Service) : Server :=
  ⟨service, .empty, none⟩

def replyResponse (requestId : String) : Reply → HttpResponse
  | .done response => .json 200 response.toValue
  | .refused kind message => .json 400 (failureValue requestId kind message)

def applyBody (server : Server) (requestId : String) (request : HttpRequest) :
    HttpResponse × Server :=
  let contentType? :=
    request.headers.find? fun header =>
      header.1.toList.map Text.lowerAscii = "content-type".toList
  match contentType? with
  | none => (.plainText 415, server)
  | some (_, contentType) =>
    if MediaType.isJson contentType then
      match decodeText ApplyRequest.decode request.body with
      | .error .notJson => (.plainText 400, server)
      | .error .mismatch => (.plainText 422, server)
      | .ok applyRequest =>
        let (reply, entries) := server.service.apply requestId applyRequest
        (replyResponse requestId reply,
          { server with channel := server.channel.publishAll entries })
    else (.plainText 415, server)

def openStream (server : Server) : HttpResponse × Server :=
  (.bare 200 [("content-type", "text/event-stream")],
    { server with
      channel := server.channel.subscribe
      stream? := some server.channel.receivers.length })

def answer (server : Server) (requestId : String) (route : Route) (request : HttpRequest) :
    HttpResponse × Server :=
  match route with
  | .health => (.json 200 healthValue, server)
  | .operations => (.json 200 server.service.registry.listing, server)
  | .apply => server.applyBody requestId request
  | .logs => server.openStream

/-- Answers a request, under an identifier that its answer may carry. -/
def handle (server : Server) (requestId : String) (request : HttpRequest) :
    HttpResponse × Server :=
  let route? := Route.ofPath? request.path
  if request.method = "OPTIONS" then (.preflight route?, server)
  else
    match route? with
    | none => (.bare 404 [], server)
    | some route =>
      if !route.answers request.method then (.bare 405 [HttpResponse.allowHeader route], server)
      else if request.method = "HEAD" then
        ((server.answer requestId route request).1.withoutBody, server)
      else server.answer requestId route request

/-- What the open stream has carried since it was read last. -/
def readStream (server : Server) : String × Server :=
  match server.stream? with
  | none => ("", server)
  | some subscriber =>
    let (deliveries, channel) := server.channel.drain subscriber
    (Log.streamText deliveries, { server with channel := channel })

end Server

end FilterChain
