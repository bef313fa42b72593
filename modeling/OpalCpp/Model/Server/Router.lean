import OpalCpp.Machine.OrderedMap
import OpalCpp.Machine.Selection
import OpalCpp.Model.Http.Headers
import OpalCpp.Model.Http.Uri

/-! # The routers

URI patterns, the matcher and the table of routes by method, and the two routers over them: that of requests and that
of WebSocket upgrades. The matcher and the scan over a bucket are those of both, which differ in what an entry is.
-/

namespace OpalCpp.Server

open scoped Bytes
open Bytes (ascii)
open Delimited (cut join)
open Http (HttpRequest HttpResponse Headers)

/-- The code and the message are safe in a JSON string. -/
def makeErrorResponse (status : ℤ) (code message : Bytes) : HttpResponse where
  status := status
  headers := ({} : Headers).set (ascii "content-type") (ascii "application/json")
  body := ascii "\x7b\"code\":\"" ++ code ++ ascii "\",\"message\":\"" ++ message ++ ascii "\"\x7d"

namespace Segment

inductive Kind where
  | literal | label | greedy
deriving DecidableEq, Repr

end Segment

/-- A literal text or the name of a label. -/
structure Segment where
  kind : Segment.Kind := .literal
  text : Bytes
deriving DecidableEq

/-- Values captured from the labels, by their names. -/
abbrev PathLabels := List (Bytes × Bytes)

/-! ## Patterns -/

def parseSegment (pattern raw : Bytes) : Outcome Segment :=
  if 2 ≤ raw.length ∧ raw.head? = some '\x7b'.toUInt8 ∧ raw.getLast? = some '\x7d'.toUInt8 then
    let name := raw.substr 1 (raw.length - 2)
    let greedy := name.getLast? = some '+'.toUInt8
    let text := if greedy then name.dropLast else name
    if text = [] then .error (.Validation ("router: empty label in pattern: " ++ pattern.text))
    else .ok ⟨if greedy then .greedy else .label, text⟩
  else if raw = [] then .error (.Validation ("router: empty segment in pattern: " ++ pattern.text))
  else .ok ⟨.literal, raw⟩

/-- The loop over the segments; a greedy label is refused when another segment follows it. -/
def parseSegments (pattern rest : Bytes) : Outcome (List Segment) :=
  match _split : cut '/'.toUInt8 rest with
  | (raw, none) => (parseSegment pattern raw).map ([·])
  | (raw, some rest) => do
    let segment ← parseSegment pattern raw
    if segment.kind = .greedy then
      .error (.Validation ("router: greedy label must be the final segment: " ++ pattern.text))
    else return segment :: (← parseSegments pattern rest)
termination_by rest.length
decreasing_by exact Delimited.length_of_cut _split

def parsePattern (pattern : Bytes) : Outcome (List Segment) :=
  if pattern.head? ≠ some '/'.toUInt8 then
    .error (.Validation ("router: pattern must start with '/': " ++ pattern.text))
  else if pattern.tail = [] then .ok []
  else parseSegments pattern pattern.tail

/-! ## Matching -/

/-- The loop over the pattern and the segments of the target. The lengths have been compared, so that
there is a segment for each of the pattern. -/
def matchLoop (labels : PathLabels) : List Segment → List Bytes → Option PathLabels
  | [], _ => some labels
  | _ :: _, [] => none
  | expected :: pattern, segment :: segments =>
    match expected.kind with
    | .literal => if segment ≠ expected.text then none else matchLoop labels pattern segments
    | .label =>
      if segment = [] then none
      else matchLoop (OrderedMap.tryEmplace expected.text segment labels) pattern segments
    | .greedy =>
      -- The joined value is empty only when a lone empty segment remains.
      if segments = [] ∧ segment = [] then none
      else some (OrderedMap.tryEmplace expected.text (join '/'.toUInt8 (segment :: segments)) labels)

def hasGreedy (pattern : List Segment) : Bool := pattern.getLast?.any (·.kind = .greedy)

/-- The labels of a pattern that matches. A null `labels` of the source asks only whether there are. -/
def matchSegments (pattern : List Segment) (segments : List Bytes) : Option PathLabels :=
  if hasGreedy pattern then if segments.length < pattern.length then none else matchLoop [] pattern segments
  else if segments.length ≠ pattern.length then none
  else matchLoop [] pattern segments

def rank (segment : Segment) : ℕ :=
  match segment.kind with
  | .literal => 0
  | .label => 1
  | .greedy => 2

/-- Segment by segment: a literal beats a label beats a greedy label, and the longer pattern wins when a
prefix ties. -/
def moreSpecific : List Segment → List Segment → Bool
  | a :: as, b :: bs => if rank a ≠ rank b then rank a < rank b else moreSpecific as bs
  | as, bs => bs.length < as.length

def sameShape : List Segment → List Segment → Bool
  | a :: as, b :: bs => a.kind = b.kind && (a.kind ≠ .literal || a.text = b.text) && sameShape as bs
  | [], [] => true
  | _, _ => false

/-- The decoded target without one trailing empty segment, so that `/a/` matches `/a`. -/
def normalizedTarget (request : HttpRequest) : Outcome Http.RequestTarget :=
  (Http.parseRequestTarget request.target).map fun target =>
    if target.pathSegments.getLast? = some [] then { target with pathSegments := target.pathSegments.dropLast }
    else target

/-! ## Tables of routes -/

/-- The entries of each method, in the order in which they were added. -/
abbrev Routes (Entry : Type*) := List (Bytes × List Entry)

section Tables

variable {Entry : Type*} (segments : Entry → List Segment)

/-- The body of `Add`: the pattern is parsed, the method gets a bucket, and a route of the same shape is
a conflict. -/
def addRoute (routes : Routes Entry) (method pattern : Bytes) (entry : List Segment → Entry) :
    Routes Entry × Outcome Unit :=
  match parsePattern pattern with
  | .error error => (routes, .error error)
  | .ok parsed =>
    let routes := OrderedMap.tryEmplace method [] routes
    if ((OrderedMap.find? method routes).getD []).any fun existing => sameShape (segments existing) parsed then
      (routes, .error (.Validation ("router: conflicting route: " ++ method.text ++ " " ++ pattern.text)))
    else (OrderedMap.modify method (· ++ [entry parsed]) routes, .ok ())

/-- The scan over the bucket of the method. -/
def findBest (routes : Routes Entry) (method : Bytes) (target : List Bytes) : Option Entry :=
  (OrderedMap.find? method routes).bind <|
    Selection.select (fun route => (matchSegments (segments route) target).isSome)
      (fun route best => moreSpecific (segments route) (segments best))

/-- The other methods that have a route for the target, in the order of the map, as the `Allow` value. -/
def allowed (routes : Routes Entry) (method : Bytes) (target : List Bytes) : Bytes :=
  routes.foldl (fun allow (other, bucket) =>
    if other = method then allow
    else if !bucket.any fun route => (matchSegments (segments route) target).isSome then allow
    else (if allow = [] then allow else allow ++ ascii ", ") ++ other) []

/-- The answer when no route of the method matches. -/
def missed (routes : Routes Entry) (method : Bytes) (target : List Bytes) : HttpResponse :=
  let allow := allowed segments routes method target
  if allow ≠ [] then
    let response := makeErrorResponse 405 (ascii "MethodNotAllowed") (ascii "method not allowed")
    { response with headers := response.headers.set (ascii "allow") allow }
  else makeErrorResponse 404 (ascii "NotFound") (ascii "no route matches the request")

end Tables

/-! ## `Router` -/

structure RequestContext where
  labels : PathLabels := []
  queryParams : List (Bytes × Bytes) := []
  request : Option HttpRequest := none
deriving DecidableEq

abbrev RouteHandler := HttpRequest → RequestContext → HttpResponse

structure RouteEntry where
  segments : List Segment
  handler : RouteHandler
  operation : Bytes

structure Router where
  routes : Routes RouteEntry := []

namespace Router

def add (router : Router) (method pattern : Bytes) (handler : RouteHandler) (operation : Bytes := []) :
    Router × Outcome Unit :=
  let (routes, outcome) := addRoute RouteEntry.segments router.routes method pattern
    fun segments => { segments, handler, operation }
  (⟨routes⟩, outcome)

/-- `Route` up to the call of the handler: the route it calls and with what, or the error response. -/
def dispatch (router : Router) (request : HttpRequest) : Except HttpResponse (RouteEntry × RequestContext) :=
  match normalizedTarget request with
  | .error _ => .error (makeErrorResponse 400 (ascii "BadRequest") (ascii "malformed request target"))
  | .ok target =>
    match findBest RouteEntry.segments router.routes request.method target.pathSegments with
    | none => .error (missed RouteEntry.segments router.routes request.method target.pathSegments)
    | some best =>
      .ok (best, {
        labels := (matchSegments best.segments target.pathSegments).getD []
        queryParams := target.queryParams
        request := some request })

def route (router : Router) (request : HttpRequest) : HttpResponse :=
  match router.dispatch request with
  | .error response => response
  | .ok (best, context) =>
    let response := best.handler request context
    if best.operation ≠ [] then { response with operation := best.operation } else response

end Router

/-! ## `WebSocketRouter`

The tables are those of `Router` with other entries. The gate decides whether an upgrade is admitted,
and a dispatcher matches the request once more when the session is there. What the callbacks of the two
seams are is a parameter.
-/

/-- What the routes of a router serve; it is set by the first successful addition. -/
inductive Seam where
  | none | borrowed | shared
deriving DecidableEq, Repr

/-- A callback may be absent, as an empty `std::function` is. -/
structure StreamRoute (Serve ServeSession : Type*) where
  segments : List Segment
  serve : Option Serve := none
  serveSession : Option ServeSession := none
  operation : Bytes

structure WebSocketRouter (Serve ServeSession : Type*) where
  routes : Routes (StreamRoute Serve ServeSession) := []
  seam : Seam := .none

namespace WebSocketRouter

variable {Serve ServeSession : Type*}

def routeName (method pattern : Bytes) : String := method.text ++ " " ++ pattern.text

/-- The shared tail of both additions. Only a successful one latches the seam. -/
def addRoute (router : WebSocketRouter Serve ServeSession) (method pattern : Bytes)
    (route : List Segment → StreamRoute Serve ServeSession) (seam : Seam) :
    WebSocketRouter Serve ServeSession × Outcome Unit :=
  match Server.addRoute StreamRoute.segments router.routes method pattern route with
  | (routes, .error error) => ({ router with routes }, .error error)
  | (routes, .ok ()) => (⟨routes, seam⟩, .ok ())

def add (router : WebSocketRouter Serve ServeSession) (method pattern : Bytes) (serve : Option Serve)
    (operation : Bytes := []) : WebSocketRouter Serve ServeSession × Outcome Unit :=
  if router.seam = .shared then
    (router, .error (.Validation ("router: cannot Add " ++ routeName method pattern ++
      ": this router serves the shared seam (AddSession/on_websocket_session); one router mounts one " ++
      "dispatcher, so its routes serve one seam")))
  else addRoute router method pattern (fun segments => { segments, serve, operation }) .borrowed

def addSession (router : WebSocketRouter Serve ServeSession) (method pattern : Bytes) (serve : Option ServeSession)
    (operation : Bytes := []) : WebSocketRouter Serve ServeSession × Outcome Unit :=
  if router.seam = .borrowed then
    (router, .error (.Validation ("router: cannot AddSession " ++ routeName method pattern ++
      ": this router serves the borrowed seam (Add/on_websocket); one router mounts one dispatcher, " ++
      "so its routes serve one seam")))
  else addRoute router method pattern (fun segments => { segments, serveSession := serve, operation }) .shared

/-- The refusal of an upgrade; nothing where a route admits it. -/
def gate (router : WebSocketRouter Serve ServeSession) (request : HttpRequest) : Option HttpResponse :=
  match normalizedTarget request with
  | .error _ => some (makeErrorResponse 400 (ascii "BadRequest") (ascii "malformed request target"))
  | .ok target =>
    if (findBest StreamRoute.segments router.routes request.method target.pathSegments).isSome then none
    else some (missed StreamRoute.segments router.routes request.method target.pathSegments)

/-- The route of an accepted upgrade and its context. -/
def matchForServe (router : WebSocketRouter Serve ServeSession) (request : HttpRequest) :
    Option (StreamRoute Serve ServeSession × RequestContext) :=
  match normalizedTarget request with
  | .error _ => none
  | .ok target =>
    (findBest StreamRoute.segments router.routes request.method target.pathSegments).map fun best =>
      (best, {
        labels := (matchSegments best.segments target.pathSegments).getD []
        queryParams := target.queryParams
        request := some request })

end WebSocketRouter

end OpalCpp.Server
