import JobRadar.PythonText
import Mathlib.Logic.Function.Basic

namespace JobRadar

open Python

structure RateLimitSettings where
  rateLimitEnabled : Bool := true
  rateLimitWindowSeconds : Nat := 60
  rateLimitGeneralRequests : Nat := 100
  rateLimitAuthRequests : Nat := 10
  rateLimitFailOpen : Bool := true
  trustedProxyIps : Text := []
  one_le_rateLimitWindowSeconds : 1 ≤ rateLimitWindowSeconds := by decide
  one_le_rateLimitGeneralRequests : 1 ≤ rateLimitGeneralRequests := by decide
  one_le_rateLimitAuthRequests : 1 ≤ rateLimitAuthRequests := by decide

structure HttpRequest where
  path : Text
  client : Option Text
  authorization : Option Text := none
  xForwardedFor : Option Text := none

structure RateLimitResult where
  allowed : Bool
  limit : Nat
  remaining : Nat
  retryAfter : Nat
  resetAt : Nat
  deriving DecidableEq

/-- The two Redis commands of a check, and which of them fails. -/
inductive RedisFault
  | none
  | incr
  | expire
  deriving DecidableEq

/-- The counters by Redis key. A key expires a window after its first hit, when no check
asks for it any more. -/
abbrev Counters := Text → Nat

def redisKey (key : Text) (bucket : Nat) : Text :=
  text "rate-limit:" ++ key ++ text ":" ++ text (toString bucket)

/-- The verdict on the `count`-th request of a window. -/
def RateLimitResult.of (now limit windowSeconds count : Nat) : RateLimitResult :=
  let resetAt := (now / windowSeconds + 1) * windowSeconds
  { allowed := count ≤ limit
    limit := limit
    remaining := limit - count
    retryAfter := max 1 (resetAt - now)
    resetAt := resetAt }

/-- `RateLimiter.check`; without a result it raises a Redis error. -/
def RateLimiter.check (counters : Counters) (fault : RedisFault) (now : Nat) (key : Text)
    (limit windowSeconds : Nat) : Counters × Option RateLimitResult :=
  let key := redisKey key (now / windowSeconds)
  let count := counters key + 1
  let result := RateLimitResult.of now limit windowSeconds count
  match fault with
  | .incr => (counters, .none)
  | .expire => (Function.update counters key count, if count = 1 then .none else some result)
  | .none => (Function.update counters key count, some result)

def trustedProxies (cfg : RateLimitSettings) : List Text :=
  (cfg.trustedProxyIps.splitComma.map Text.strip).filter (· ≠ [])

def clientIp (request : HttpRequest) (cfg : RateLimitSettings) : Text :=
  let peer := request.client.getD (text "unknown")
  if peer ∈ trustedProxies cfg then
    let forwarded := (Text.beforeComma (request.xForwardedFor.getD [])).strip
    if forwarded ≠ [] then forwarded else peer
  else peer

/-- The identity that is counted, for a digest function `sha256` to hexadecimal text. -/
def identityKey (sha256 : Text → Text) (request : HttpRequest) (cfg : RateLimitSettings) : Text :=
  let authorization := request.authorization.getD []
  if authorization.lower.startsWith (text "bearer ") = true ∧ authorization.drop 7 ≠ [] then
    text "token:" ++ (sha256 (authorization.drop 7)).take 24
  else text "ip:" ++ clientIp request cfg

def isAuthPath (path : Text) : Bool :=
  path.startsWith (text "/api/v1/auth/") || path.startsWith (text "/api/v2/auth/")

def isExempt (path : Text) : Bool :=
  path.startsWith (text "/health") ||
    [text "/metrics", text "/docs", text "/openapi.json", text "/redoc"].contains path

/-- The middleware counts the request. -/
def limited (cfg : RateLimitSettings) (path : Text) : Bool :=
  cfg.rateLimitEnabled && path.startsWith (text "/api/") && !isExempt path

inductive RateLimitReply
  | passed (result : Option RateLimitResult)
  | unavailable
  | exceeded (result : RateLimitResult)
  deriving DecidableEq

/-- Status, code and message of an error reply. -/
def RateLimitReply.error : RateLimitReply → Option (Nat × String × String)
  | .passed _ => none
  | .unavailable => some (503, "RATE_LIMIT_UNAVAILABLE", "rate limiting unavailable")
  | .exceeded _ => some (429, "RATE_LIMIT_EXCEEDED", "too many requests")

def RateLimitReply.result : RateLimitReply → Option RateLimitResult
  | .passed result => result
  | .unavailable => none
  | .exceeded result => some result

def RateLimitResult.headers (result : RateLimitResult) : List (String × Nat) :=
  [("X-RateLimit-Limit", result.limit), ("X-RateLimit-Remaining", result.remaining),
    ("X-RateLimit-Reset", result.resetAt), ("Retry-After", result.retryAfter)]

def RateLimitReply.letsThrough : RateLimitReply → Bool
  | .passed _ => true
  | _ => false

/-- The reply to a request that was counted. -/
def RateLimitResult.reply (result : RateLimitResult) : RateLimitReply :=
  if result.allowed = true then .passed (some result) else .exceeded result

@[simp] theorem RateLimitResult.letsThrough_reply (result : RateLimitResult) :
    result.reply.letsThrough = result.allowed := by
  unfold reply
  cases h : result.allowed <;> simp [RateLimitReply.letsThrough]

@[simp] theorem RateLimitResult.result_reply (result : RateLimitResult) :
    result.reply.result = some result := by
  unfold reply
  split <;> rfl

def rateLimitOf (cfg : RateLimitSettings) (path : Text) : Nat :=
  if isAuthPath path then cfg.rateLimitAuthRequests else cfg.rateLimitGeneralRequests

def rateLimitMiddleware (sha256 : Text → Text) (cfg : RateLimitSettings) (fault : RedisFault)
    (now : Nat) (counters : Counters) (request : HttpRequest) : Counters × RateLimitReply :=
  if limited cfg request.path = false then (counters, .passed none)
  else
    match RateLimiter.check counters fault now (identityKey sha256 request cfg)
        (rateLimitOf cfg request.path) cfg.rateLimitWindowSeconds with
    | (counters, none) =>
      if cfg.rateLimitFailOpen = true ∧ isAuthPath request.path = false then
        (counters, .passed none)
      else (counters, .unavailable)
    | (counters, some result) => (counters, result.reply)

theorem middleware_counted {sha256 : Text → Text} {cfg : RateLimitSettings} {now : Nat}
    {request : HttpRequest} (hlimited : limited cfg request.path = true) (counters : Counters) :
    rateLimitMiddleware sha256 cfg .none now counters request =
      let key := redisKey (identityKey sha256 request cfg) (now / cfg.rateLimitWindowSeconds)
      (Function.update counters key (counters key + 1), (RateLimitResult.of now
        (rateLimitOf cfg request.path) cfg.rateLimitWindowSeconds (counters key + 1)).reply) := by
  simp [rateLimitMiddleware, hlimited, RateLimiter.check]

/-- A request as it arrives: when, and what Redis does. -/
structure Arrival where
  now : Nat
  fault : RedisFault
  request : HttpRequest

def serve (sha256 : Text → Text) (cfg : RateLimitSettings) :
    Counters → List Arrival → List RateLimitReply
  | _, [] => []
  | counters, a :: rest =>
    let (counters, reply) := rateLimitMiddleware sha256 cfg a.fault a.now counters a.request
    reply :: serve sha256 cfg counters rest

end JobRadar
