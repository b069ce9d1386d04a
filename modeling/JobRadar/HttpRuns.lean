import JobRadar.ErrorContract
import JobRadar.RateLimitEvasion
import JobRadar.Sequence

namespace JobRadar

open Middleware Python Sequence

namespace Http

variable {σ β : Type} {lib : HttpLibrary} {cfg : HttpSettings} {cors : Cors β} {m : Moment}
  {next : WebService σ β} {web : WebApp σ β} {request : Request} {conn : Connection σ}

section States

theorem exceptionMiddleware_state : (exceptionMiddleware lib next request conn).1 =
    (next request conn).1 := by
  rcases hnext : next request conn with ⟨conn', raised | response⟩
  · simp only [exceptionMiddleware, hnext]
    split
    next => rfl
    next => rfl
  · simp only [exceptionMiddleware, hnext]

theorem corsMiddleware_state : (corsMiddleware cors next request conn).1 =
    if (cors.preflight request).isNone then (next request conn).1 else conn := by
  unfold corsMiddleware
  cases cors.preflight request with
  | some answer => rfl
  | none =>
    rcases hnext : next request conn with ⟨conn', raised | response⟩
    · rfl
    · rfl

theorem csrfMiddleware_state : (csrfMiddleware cfg next request conn).1 =
    if csrfRefuses cfg request then conn else (next request conn).1 := by
  unfold csrfMiddleware
  split
  next => rfl
  next => rfl

theorem securityHeadersMiddleware_state : (securityHeadersMiddleware cfg next request conn).1 =
    (next request conn).1 := by
  rcases hnext : next request conn with ⟨conn', raised | response⟩
  · simp only [securityHeadersMiddleware, hnext]
  · simp only [securityHeadersMiddleware, hnext]

/-- Neither the CSRF check nor the CORS layer answers the request. -/
def WebApp.opens (web : WebApp σ β) (request : Request) : Bool :=
  !csrfRefuses web.cfg request && (web.cors.preflight request).isNone

theorem guarded_state (web : WebApp σ β) (m : Moment) (request : Request) (conn : Connection σ) :
    (web.guarded m request conn).1 =
      if web.opens request then (routes web.lib web.app request conn).1 else conn := by
  have hguarded : web.guarded m request conn = securityHeadersMiddleware web.cfg
      (csrfMiddleware web.cfg (corsMiddleware web.cors (exceptionMiddleware web.lib
        (routes web.lib web.app)))) request conn := rfl
  rw [hguarded, securityHeadersMiddleware_state, csrfMiddleware_state, corsMiddleware_state,
    exceptionMiddleware_state, WebApp.opens]
  cases csrfRefuses web.cfg request with
  | true => simp
  | false => simp

theorem inner_state (web : WebApp σ β) (m : Moment) (request : Request) (conn : Connection σ) :
    (web.inner m request conn).1 =
      if (web.limit m request conn.counters).2.letsThrough && web.opens request then
        (routes web.lib web.app request
          { conn with counters := (web.limit m request conn.counters).1 }).1
      else { conn with counters := (web.limit m request conn.counters).1 } := by
  rcases hlimiter : web.limit m request conn.counters with ⟨counters, reply⟩
  have hguarded := guarded_state web m request { conn with counters := counters }
  unfold WebApp.limit at hlimiter
  simp only [inner_eq, rateLimitLayer, hlimiter]
  cases reply with
  | unavailable => rfl
  | exceeded result => rfl
  | passed result =>
    rw [RateLimitReply.letsThrough, Bool.true_and, ← hguarded]
    cases result with
    | none => rfl
    | some result =>
      rcases web.guarded m request { conn with counters := counters } with
        ⟨conn', raised | response⟩
      · rfl
      · rfl

/-- What a request does to the server, apart from what is recorded of it. -/
def WebApp.effect (web : WebApp σ β) (m : Moment) (request : Request) (server : Server σ) :
    Connection σ :=
  let conn := WebApp.identified m request server
  let conn := { conn with counters := (web.limit m request conn.counters).1 }
  if (web.limit m request server.counters).2.letsThrough && web.opens request then
    (routes web.lib web.app request conn).1
  else conn

theorem handle_state (web : WebApp σ β) (m : Moment) (request : Request) (server : Server σ) :
    (web.handle m request server).1 =
      (web.effect m request server).record request (web.handle m request server).2.status := by
  have hinner := inner_state web m request (WebApp.identified m request server)
  change (web.inner m request (WebApp.identified m request server)).1 =
    web.effect m request server at hinner
  rw [← hinner, handle_eq]
  rcases web.inner m request (WebApp.identified m request server) with ⟨conn, raised | response⟩
  · rfl
  · rfl

end States

abbrev HttpArrival := Moment × Request

def WebApp.step (web : WebApp σ β) (server : Server σ) (a : HttpArrival) : Server σ :=
  (web.handle a.1 a.2 server).1.toServer

section Metrics

/-- The labels of the answer that the client receives. -/
def WebApp.labels (web : WebApp σ β) (c : Call HttpArrival (Server σ)) : Labels where
  method := c.call.2.method
  route := (web.handle c.call.1 c.call.2 c.before).1.scope.route.getD c.call.2.path
  status := text (toString (web.handle c.call.1 c.call.2 c.before).2.status)

def WebApp.serverError (web : WebApp σ β) (c : Call HttpArrival (Server σ)) : Bool :=
  500 ≤ (web.handle c.call.1 c.call.2 c.before).2.status

theorem effect_metrics (web : WebApp σ β) (m : Moment) (request : Request) (server : Server σ) :
    (web.effect m request server).metrics = server.metrics := by
  unfold WebApp.effect
  dsimp only
  split
  next => rfl
  next => rfl

theorem handle_metrics (web : WebApp σ β) (m : Moment) (request : Request) (server : Server σ) :
    (web.handle m request server).1.metrics = server.metrics.recordHttpRequest request.method
      ((web.handle m request server).1.scope.route.getD request.path)
      (web.handle m request server).2.status := by
  have hstate := handle_state web m request server
  have hroute : (web.handle m request server).1.scope = (web.effect m request server).scope := by
    rw [hstate, Connection.record]
  rw [hroute, hstate, Connection.record, effect_metrics]

theorem requests_recordHttpRequest (metrics : Metrics) (method route : Text) (status : Nat)
    (labels : Labels) : (metrics.recordHttpRequest method route status).requests labels =
      metrics.requests labels +
        if (⟨method, route, text (toString status)⟩ : Labels) = labels then 1 else 0 := by
  simp only [Metrics.recordHttpRequest, Function.update_apply, eq_comm (a := labels)]
  split
  next h => rw [h]
  next => rfl

theorem errors_recordHttpRequest (metrics : Metrics) (method route : Text) (status : Nat)
    (labels : Labels) : (metrics.recordHttpRequest method route status).errors labels =
      metrics.errors labels +
        if 500 ≤ status ∧ (⟨method, route, text (toString status)⟩ : Labels) = labels then 1
          else 0 := by
  by_cases hstatus : 500 ≤ status
  · simp only [Metrics.recordHttpRequest, hstatus, if_true, Function.update_apply,
      eq_comm (a := labels), true_and]
    split
    next h => rw [h]
    next => rfl
  · simp [Metrics.recordHttpRequest, hstatus]

end Metrics

section Admission

theorem effect_counters (web : WebApp σ β) (m : Moment) (request : Request) (server : Server σ) :
    (web.effect m request server).counters = (web.limit m request server.counters).1 := by
  unfold WebApp.effect
  dsimp only
  split
  next => rfl
  next => rfl

theorem effect_app (web : WebApp σ β) (m : Moment) (request : Request) (server : Server σ) :
    (web.effect m request server).app =
      if (web.limit m request server.counters).2.letsThrough && web.opens request then
        (web.app request (requestIdOf m request) server.app).1
      else server.app := by
  unfold WebApp.effect
  dsimp only
  split
  next => rfl
  next => rfl

/-- The limiter alone. -/
def WebApp.limitStep (web : WebApp σ β) (counters : Counters) (a : HttpArrival) : Counters :=
  (web.limit a.1 a.2 counters).1

/-- The routes alone. -/
def WebApp.appStep (web : WebApp σ β) (state : σ) (a : HttpArrival) : σ :=
  (web.app a.2 (requestIdOf a.1 a.2) state).1

/-- The requests that come to the routes, by the counters they meet. -/
def WebApp.admitted (web : WebApp σ β) : Counters → List HttpArrival → List HttpArrival
  | _, [] => []
  | counters, a :: rest =>
    if (web.limit a.1 a.2 counters).2.letsThrough && web.opens a.2 then
      a :: web.admitted (web.limitStep counters a) rest
    else web.admitted (web.limitStep counters a) rest

theorem step_counters (web : WebApp σ β) (server : Server σ) (a : HttpArrival) :
    (web.step server a).counters = web.limitStep server.counters a := by
  have hstate := congrArg (fun conn => conn.counters) (handle_state web a.1 a.2 server)
  exact hstate.trans (effect_counters web a.1 a.2 server)

theorem step_app (web : WebApp σ β) (server : Server σ) (a : HttpArrival) :
    (web.step server a).app =
      if (web.limit a.1 a.2 server.counters).2.letsThrough && web.opens a.2 then
        web.appStep server.app a
      else server.app := by
  have hstate := congrArg (fun conn => conn.app) (handle_state web a.1 a.2 server)
  exact hstate.trans (effect_app web a.1 a.2 server)

/-- A run of requests comes apart: the limiter counts as if there were no application, and the
application runs as if it were given nothing but the requests that are admitted. -/
theorem run_decomposes (web : WebApp σ β) (server : Server σ) (arrivals : List HttpArrival) :
    (arrivals.foldl web.step server).counters = arrivals.foldl web.limitStep server.counters ∧
      (arrivals.foldl web.step server).app =
        (web.admitted server.counters arrivals).foldl web.appStep server.app := by
  induction arrivals generalizing server with
  | nil => exact ⟨rfl, rfl⟩
  | cons a rest ih =>
    obtain ⟨hcounters, happ⟩ := ih (web.step server a)
    rw [step_counters] at hcounters happ
    rw [step_app] at happ
    refine ⟨hcounters, ?_⟩
    rw [List.foldl_cons, happ, WebApp.admitted]
    split
    next => rfl
    next => rfl

/-- The limiter counts the request on the authentication limit, in the window and for the key. -/
structure WebApp.CountsAuth (web : WebApp σ β) (bucket : Nat) (key : Text) (a : HttpArrival) :
    Prop where
  enabled : limited web.cfg.toRateLimitSettings a.2.path = true
  auth : isAuthPath a.2.path = true
  bucket : a.1.now / web.cfg.rateLimitWindowSeconds = bucket
  key : identityKey web.lib.sha256 a.2.toHttpRequest web.cfg.toRateLimitSettings = key

instance (web : WebApp σ β) (bucket : Nat) (key : Text) (a : HttpArrival) :
    Decidable (web.CountsAuth bucket key a) :=
  decidable_of_iff (limited web.cfg.toRateLimitSettings a.2.path = true ∧
      isAuthPath a.2.path = true ∧ a.1.now / web.cfg.rateLimitWindowSeconds = bucket ∧
      identityKey web.lib.sha256 a.2.toHttpRequest web.cfg.toRateLimitSettings = key)
    ⟨fun h => ⟨h.1, h.2.1, h.2.2.1, h.2.2.2⟩, fun h => ⟨h.enabled, h.auth, h.bucket, h.key⟩⟩

theorem check_counters_le (counters : Counters) (fault : RedisFault) (now limit window : Nat)
    (identity key : Text) :
    counters key ≤ (RateLimiter.check counters fault now identity limit window).1 key := by
  have hupdate : ∀ k : Text, counters key ≤ Function.update counters k (counters k + 1) key := by
    intro k
    rw [Function.update_apply]
    split
    next h => exact h ▸ Nat.le_succ _
    next => exact Nat.le_refl _
  cases fault with
  | none => exact hupdate _
  | incr => exact Nat.le_refl _
  | expire => exact hupdate _

theorem limitStep_le (web : WebApp σ β) (counters : Counters) (a : HttpArrival) (key : Text) :
    counters key ≤ web.limitStep counters a key := by
  unfold WebApp.limitStep WebApp.limit rateLimitMiddleware
  split
  next => exact Nat.le_refl _
  next =>
    have hcheck := check_counters_le counters a.1.fault a.1.now
      (rateLimitOf web.cfg.toRateLimitSettings a.2.path) web.cfg.rateLimitWindowSeconds
      (identityKey web.lib.sha256 a.2.toHttpRequest web.cfg.toRateLimitSettings) key
    rcases hresult : RateLimiter.check counters a.1.fault a.1.now
      (identityKey web.lib.sha256 a.2.toHttpRequest web.cfg.toRateLimitSettings)
      (rateLimitOf web.cfg.toRateLimitSettings a.2.path) web.cfg.rateLimitWindowSeconds with
      ⟨after, none | result⟩
    · rw [hresult] at hcheck
      dsimp only
      split
      next => exact hcheck
      next => exact hcheck
    · rw [hresult] at hcheck
      exact hcheck

theorem limitStep_auth {a : HttpArrival} {bucket : Nat} {key : Text} (counters : Counters)
    (hcounts : web.CountsAuth bucket key a)
    (hlets : (web.limit a.1 a.2 counters).2.letsThrough = true) :
    web.limitStep counters a (redisKey key bucket) = counters (redisKey key bucket) + 1 ∧
      counters (redisKey key bucket) + 1 ≤ web.cfg.rateLimitAuthRequests := by
  have hcounted : CountedAuth web.cfg.toRateLimitSettings bucket
      ⟨a.1.now, a.1.fault, a.2.toHttpRequest⟩ :=
    ⟨hcounts.enabled, hcounts.auth, hcounts.bucket⟩
  have hkey : Arrival.key web.lib.sha256 web.cfg.toRateLimitSettings bucket
      ⟨a.1.now, a.1.fault, a.2.toHttpRequest⟩ = redisKey key bucket := by
    rw [Arrival.key, hcounts.key]
  unfold WebApp.limitStep
  rcases middleware_auth web.lib.sha256 counters hcounted with hrefused | ⟨hcounters, hleft⟩
  · have hlimit : web.limit a.1 a.2 counters = (counters, .unavailable) := hrefused
    rw [hlimit] at hlets
    cases hlets
  · rw [hkey] at hcounters hleft
    have hstep : (web.limit a.1 a.2 counters).1 = Function.update counters (redisKey key bucket)
        (counters (redisKey key bucket) + 1) := hcounters
    rw [hstep, Function.update_self]
    exact ⟨rfl, hleft hlets⟩

end Admission

end Http

end JobRadar
