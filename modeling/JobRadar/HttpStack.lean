import JobRadar.HttpErrors
import JobRadar.Middleware
import JobRadar.RateLimit

namespace JobRadar

open Middleware Python

namespace Http

structure HttpSettings extends RateLimitSettings where
  securityHeadersEnabled : Bool := true
  csrfEnabled : Bool := false
  hstsEnabled : Bool := false

structure Request extends HttpRequest where
  method : Text
  csrfCookie : Option Text := none
  accessCookie : Option Text := none
  refreshCookie : Option Text := none
  xCsrfToken : Option Text := none
  xRequestId : Option Text := none

/-- What happens to be the case when a request arrives: the clock, the state of Redis and the
uuid that is drawn. -/
structure Moment where
  now : Nat
  fault : RedisFault := .none
  uuid : Text

structure Labels where
  method : Text
  route : Text
  status : Text
  deriving DecidableEq

structure Metrics where
  requests : Labels → Nat := fun _ => 0
  errors : Labels → Nat := fun _ => 0

def Metrics.recordHttpRequest (metrics : Metrics) (method route : Text) (status : Nat) : Metrics :=
  let labels : Labels := ⟨method, route, text (toString status)⟩
  { requests := Function.update metrics.requests labels (metrics.requests labels + 1)
    errors :=
      if 500 ≤ status then Function.update metrics.errors labels (metrics.errors labels + 1)
      else metrics.errors }

/-- What the layers leave on a request: its id and the path of the route it was given to. -/
structure Scope where
  requestId : Option Text := none
  route : Option Text := none

def Scope.id (scope : Scope) : Text := scope.requestId.getD (text "unknown")

structure Server (σ : Type) where
  app : σ
  counters : Counters := fun _ => 0
  metrics : Metrics := {}

structure Connection (σ : Type) extends Server σ where
  scope : Scope := {}

variable {σ β : Type}

abbrev WebService (σ β : Type) := Service (Connection σ) Request Raised (Response β)

abbrev WebLayer (σ β : Type) := Layer (Connection σ) Request Raised (Response β)

/-- What a route returns: data for the envelope, or what is sent without one. -/
inductive RouteResult (β : Type)
  | enveloped (status : Nat) (data : β) (apiVersion : String := "v1")
      (page pageSize total : Option Nat := none)
  | bare (status : Nat) (content : β)
  | noContent
  | unready (postgres redis : Bool)

/-- `success_response`, and the bodies outside the envelope. -/
def RouteResult.response (requestId : Text) : RouteResult β → Response β
  | .enveloped status data apiVersion page pageSize total =>
    { status := status
      body := .success data ⟨requestId, text apiVersion, page, pageSize, total⟩ }
  | .bare status content => { status := status, body := .bare content }
  | .noContent => { status := 204, body := .empty }
  | .unready postgres redis =>
    { status := 503
      body := .error ⟨text "DEPENDENCY_UNAVAILABLE",
        text "One or more dependencies are unavailable",
        .obj [(text "postgres", .bool postgres), (text "redis", .bool redis)], requestId⟩ }

/-- The routes: for a request and its id, the state after it, the path of the route that took it
and what the route returns or raises. -/
abbrev Application (σ β : Type) :=
  Request → Text → σ → σ × Option Text × Except Raised (RouteResult β)

def routes (lib : HttpLibrary) (app : Application σ β) : WebService σ β := fun request conn =>
  let (state, route, result) := app request conn.scope.id conn.app
  ({ conn with app := state, scope := { conn.scope with route := route } },
    match result with
    | .ok result => .ok (result.response conn.scope.id)
    | .error raised => .error (sessionScope lib raised))

/-- The handlers of `register_exception_handlers`, the one for `Exception` apart. -/
def exceptionMiddleware (lib : HttpLibrary) : WebLayer σ β := fun next request conn =>
  match next request conn with
  | (conn, .ok response) => (conn, .ok response)
  | (conn, .error raised) =>
    match handlerFor lib conn.scope.id raised with
    | some response => (conn, .ok response)
    | none => (conn, .error raised)

/-- `CORSMiddleware`: it answers a preflight request itself and adds headers of its own to the
other responses. -/
structure Cors (β : Type) where
  preflight : Request → Option (Nat × Headers × β)
  decorate : Request → Headers → Headers
  decorate_other : ∀ request headers name,
    name ∉ ["access-control-allow-origin", "access-control-allow-credentials",
      "access-control-expose-headers", "vary"] → decorate request headers name = headers name

def corsMiddleware (cors : Cors β) : WebLayer σ β := fun next request conn =>
  match cors.preflight request with
  | some (status, headers, content) =>
    (conn, .ok { status := status, headers := headers, body := .bare content })
  | none =>
    match next request conn with
    | (conn, .ok response) =>
      (conn, .ok { response with headers := cors.decorate request response.headers })
    | (conn, .error raised) => (conn, .error raised)

def unsafeMethods : List Text := [text "POST", text "PUT", text "PATCH", text "DELETE"]

/-- `bool(value)` of a text that may be missing. -/
def given : Option Text → Bool
  | some (_ :: _) => true
  | _ => false

def csrfRefuses (cfg : HttpSettings) (request : Request) : Bool :=
  cfg.csrfEnabled && unsafeMethods.contains request.method &&
    (given request.accessCookie || given request.refreshCookie) &&
    (!given request.csrfCookie || request.xCsrfToken != request.csrfCookie)

def csrfMiddleware (cfg : HttpSettings) : WebLayer σ β := fun next request conn =>
  if csrfRefuses cfg request then
    (conn, .ok (errorResponse 403 (text "CSRF_VALIDATION_FAILED") (text "CSRF validation failed")
      conn.scope.id))
  else next request conn

def docsPolicy : String :=
  "default-src 'self'; script-src 'self' https://cdn.jsdelivr.net 'unsafe-inline'; " ++
    "style-src 'self' https://cdn.jsdelivr.net 'unsafe-inline'; " ++
    "img-src 'self' data: https://fastapi.tiangolo.com; frame-ancestors 'none'"

def securityHeaders (cfg : HttpSettings) (path : Text) : List (String × String) :=
  [("x-content-type-options", "nosniff"), ("x-frame-options", "DENY"),
    ("referrer-policy", "strict-origin-when-cross-origin"),
    ("permissions-policy", "camera=(), microphone=(), geolocation=()"),
    ("content-security-policy",
      if [text "/docs", text "/redoc"].contains path then docsPolicy
      else "default-src 'self'; frame-ancestors 'none'")] ++
    if cfg.hstsEnabled then
      [("strict-transport-security", "max-age=31536000; includeSubDomains")] else []

/-- The assignments of a list of headers, one after another. -/
def Response.setAll (response : Response β) (headers : List (String × Text)) : Response β :=
  headers.foldl (fun response header => response.set header.1 header.2) response

def securityHeadersMiddleware (cfg : HttpSettings) : WebLayer σ β := fun next request conn =>
  match next request conn with
  | (conn, .ok response) =>
    (conn, .ok (if cfg.securityHeadersEnabled then
      response.setAll ((securityHeaders cfg request.path).map fun h => (h.1, text h.2))
      else response))
  | (conn, .error raised) => (conn, .error raised)

def rateLimitHeaders (result : RateLimitResult) : List (String × Text) :=
  [("x-ratelimit-limit", text (toString result.limit)),
    ("x-ratelimit-remaining", text (toString result.remaining)),
    ("x-ratelimit-reset", text (toString result.resetAt)),
    ("retry-after", text (toString result.retryAfter))]

/-- `rate_limit_middleware`, around the verdict of the limiter. -/
def rateLimitLayer (lib : HttpLibrary) (cfg : HttpSettings) (m : Moment) : WebLayer σ β :=
  fun next request conn =>
    let (counters, reply) := rateLimitMiddleware lib.sha256 cfg.toRateLimitSettings m.fault m.now
      conn.counters request.toHttpRequest
    let conn := { conn with counters := counters }
    match reply with
    | .unavailable =>
      (conn, .ok (errorResponse 503 (text "RATE_LIMIT_UNAVAILABLE")
        (text "rate limiting unavailable") conn.scope.id))
    | .exceeded result =>
      (conn, .ok ((errorResponse 429 (text "RATE_LIMIT_EXCEEDED") (text "too many requests")
        conn.scope.id).setAll (rateLimitHeaders result)))
    | .passed none => next request conn
    | .passed (some result) =>
      match next request conn with
      | (conn, .ok response) => (conn, .ok (response.setAll (rateLimitHeaders result)))
      | (conn, .error raised) => (conn, .error raised)

def Connection.record (conn : Connection σ) (request : Request) (status : Nat) : Connection σ :=
  { conn with
    metrics := conn.metrics.recordHttpRequest request.method
      (conn.scope.route.getD request.path) status }

def requestIdOf (m : Moment) (request : Request) : Text := orText request.xRequestId m.uuid

def requestIdMiddleware (m : Moment) : WebLayer σ β := fun next request conn =>
  let id := requestIdOf m request
  match next request { conn with scope := { conn.scope with requestId := some id } } with
  | (conn, .error raised) => (conn.record request 500, .error raised)
  | (conn, .ok response) =>
    (conn.record request response.status, .ok (response.set "x-request-id" id))

structure WebApp (σ β : Type) where
  lib : HttpLibrary
  cfg : HttpSettings
  cors : Cors β
  app : Application σ β

/-- The middleware of `create_app`, the last one added outermost. -/
def WebApp.layers (web : WebApp σ β) (m : Moment) : List (WebLayer σ β) :=
  [requestIdMiddleware m, rateLimitLayer web.lib web.cfg m, securityHeadersMiddleware web.cfg,
    csrfMiddleware web.cfg, corsMiddleware web.cors, exceptionMiddleware web.lib]

def WebApp.service (web : WebApp σ β) (m : Moment) : WebService σ β :=
  around (web.layers m) (routes web.lib web.app)

/-- A request from its arrival to what the client receives. What no layer handled is answered
by the handler for `Exception`, outside all of them. -/
def WebApp.handle (web : WebApp σ β) (m : Moment) (request : Request) (server : Server σ) :
    Connection σ × Response β :=
  match web.service m request { server with } with
  | (conn, .ok response) => (conn, response)
  | (conn, .error _) => (conn, unexpectedErrorHandler conn.scope.id)

end Http

end JobRadar
