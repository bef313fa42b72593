import OpalCpp.Model.Server.Router

/-! # Routes of generated servers

What the generators of servers and of clients write for the operations of a service with `@http` traits: the
check for ambiguous routes, the routes that the unary operations add, and the target of their requests: a literal of
the pattern goes into it as it stands, the text of a label through an encoder.
-/

namespace OpalCpp.Http

open Server (Segment)

/-- The piece of a segment, by the texts of the label members. -/
def targetPiece (labels : Bytes → Bytes) (segment : Segment) : Bytes :=
  match segment.kind with
  | .literal => segment.text
  | .label => encodePathSegment (labels segment.text)
  | .greedy => encodeGreedyPathSegment (labels segment.text)

/-- `writeTarget`: the target that the generated code builds. -/
def writeTarget (pathPrefix : Bytes) (segments : List Segment) (labels : Bytes → Bytes) (query : QueryString) : Bytes :=
  segments.foldl (fun target segment => target ++ '/'.toUInt8 :: targetPiece labels segment) pathPrefix ++ query.toString

end OpalCpp.Http

namespace OpalCpp.Server

open Bytes (ascii)
open Http (QueryString)

/-- An operation with its `@http` trait, and what its handler makes of a request. -/
structure HttpOperation where
  id : Bytes
  name : Bytes
  method : Bytes
  segments : List Segment
  queryLiterals : List (Bytes × Bytes) := []
  streaming : Bool := false
  handler : RouteHandler := fun _ _ => {}

/-! ## The server -/

/-- A segment of the URI in the router's grammar. -/
def patternPiece (segment : Segment) : Bytes :=
  match segment.kind with
  | .greedy => ascii "\x7b" ++ segment.text ++ ascii "+\x7d"
  | .label => ascii "\x7b" ++ segment.text ++ ascii "\x7d"
  | .literal => segment.text

def routePattern (segments : List Segment) : Bytes :=
  let pattern := segments.foldl (fun pattern segment => pattern ++ '/'.toUInt8 :: patternPiece segment) []
  if pattern.length = 0 then ascii "/" else pattern

/-- A segment where labels are interchangeable. -/
def shapePiece (segment : Segment) : Bytes :=
  match segment.kind with
  | .greedy => ascii "\x7b+\x7d"
  | .label => ascii "\x7b\x7d"
  | .literal => segment.text

namespace HttpOperation

def routeShape (operation : HttpOperation) : Bytes :=
  operation.segments.foldl (fun shape segment => shape ++ '/'.toUInt8 :: shapePiece segment) operation.method

end HttpOperation

/-- `rejectRouteConflicts`: generation fails with the first operation whose shape one before it has. -/
def rejectRouteConflicts (seen : List HttpOperation) : List HttpOperation → Except String Unit
  | [] => .ok ()
  | operation :: operations =>
    match seen.find? fun existing => existing.routeShape = operation.routeShape with
    | some existing =>
      .error (ascii "cpp-codegen: ambiguous routes: " ++ existing.id ++ ascii " and " ++ operation.id ++
        ascii " share the route shape '" ++ operation.routeShape ++ ascii "'").text
    | none => rejectRouteConflicts (seen ++ [operation]) operations

def unaryOperations (operations : List HttpOperation) : List HttpOperation := operations.filter (!·.streaming)

/-- `writeRoute`, whose result is discarded. -/
def writeRoute (router : Router) (operation : HttpOperation) : Router × Outcome Unit :=
  router.add operation.method (routePattern operation.segments) operation.handler operation.name

/-- The router of the generated server. -/
def generatedRouter (operations : List HttpOperation) : Router :=
  (unaryOperations operations).foldl (fun router operation => (writeRoute router operation).1) {}

/-! ## The client -/

/-- The literals of the URI in the order of their keys, with flags for the empty ones, and then what the members
add. -/
def writeQuery (literals members : List (Bytes × Bytes)) : QueryString :=
  let query := literals.foldl (fun query (key, value) => if value = [] then query.addFlag key else query.add key value) {}
  members.foldl (fun query (key, value) => query.add key value) query

/-- The target for an endpoint without a path of its own, by the texts of the labels. -/
def HttpOperation.target (operation : HttpOperation) (labels : Bytes → Bytes) (members : List (Bytes × Bytes)) : Bytes :=
  Http.writeTarget [] operation.segments labels (writeQuery operation.queryLiterals members)

end OpalCpp.Server
