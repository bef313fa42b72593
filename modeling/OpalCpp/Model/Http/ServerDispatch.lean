import OpalCpp.Model.Http.Headers
import OpalCpp.Model.Http.TraceContext
import OpalCpp.Model.Http.Transport

/-! # Calls of a handler

`InvokeHandlerGuarded`, which every server transport calls its handler through: a request gets a trace context, an
exception becomes a response, and a server error is correlated with the trace.
-/

namespace OpalCpp.Http

open Bytes (ascii)

/-- A handler answers or throws. -/
abbrev RequestHandler := HttpRequest → Except Thrown HttpResponse

/-- A request has one valid `traceparent`, its own or the one that is minted. -/
def ensureInboundTraceIdentity (minted : TraceContext) (request : HttpRequest) : HttpRequest :=
  let own : Bool :=
    match request.headers.getAll (ascii "traceparent") with
    | [value] => (parseTraceparent value).isSome
    | _ => false
  if own then request
  else
    { request with
      headers := (request.headers.set (ascii "traceparent") (formatTraceparent minted)).remove (ascii "tracestate") }

def requestTraceId (request : HttpRequest) : Bytes :=
  ((parseTraceparent ((request.headers.get? (ascii "traceparent")).getD [])).map TraceContext.traceId).getD []

/-- The response for an exception; the log line beside it has what was thrown. -/
def internalError (request : HttpRequest) : HttpResponse :=
  let correlationId := requestTraceId request
  { status := 500
    headers :=
      Headers.set (Headers.set {} (ascii "content-type") (ascii "application/json")) (ascii "x-correlation-id") correlationId
    body := ascii "\x7b\"message\":\"internal error\",\"correlationId\":\"" ++ correlationId ++ ascii "\"\x7d" }

/-- A correlation id of the handler stays. -/
def correlateServerError (request : HttpRequest) (response : HttpResponse) : HttpResponse :=
  if response.status < 500 ∨ response.headers.has (ascii "x-correlation-id") then response
  else { response with headers := response.headers.set (ascii "x-correlation-id") (requestTraceId request) }

/-- `InvokeHandlerGuarded`; an empty handler is none. -/
def invokeHandlerGuarded (handler : Option RequestHandler) (minted : TraceContext) (request : HttpRequest) : HttpResponse :=
  match handler with
  | none => { status := 503 }
  | some handler =>
    let request := ensureInboundTraceIdentity minted request
    match handler request with
    | .ok response => correlateServerError request response
    | .error _ => internalError request

end OpalCpp.Http
