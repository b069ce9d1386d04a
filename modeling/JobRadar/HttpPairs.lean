import JobRadar.HttpStack

namespace JobRadar

open Middleware Python

namespace Http

variable {σ β : Type} {R : σ → σ → Prop}

/-- Two connections that differ at most in the state of the application, and there by `R`. -/
structure Connection.Pair (R : σ → σ → Prop) (conn conn' : Connection σ) : Prop where
  app : R conn.app conn'.app
  counters : conn.counters = conn'.counters
  metrics : conn.metrics = conn'.metrics
  scope : conn.scope = conn'.scope

/-- A service that answers a request alike from any pair, and leaves a pair. -/
def Paired (Q R : σ → σ → Prop) (request : Request) (service : WebService σ β) : Prop :=
  ∀ conn conn', conn.Pair Q conn' →
    (service request conn).1.Pair R (service request conn').1 ∧
      (service request conn).2 = (service request conn').2

variable {Q : σ → σ → Prop} {lib : HttpLibrary} {cfg : HttpSettings} {cors : Cors β} {m : Moment}
  {request : Request} {service : WebService σ β} {conn conn' : Connection σ}

theorem Connection.Pair.mono (h : conn.Pair Q conn') (hQ : ∀ s s', Q s s' → R s s') :
    conn.Pair R conn' := ⟨hQ _ _ h.app, h.counters, h.metrics, h.scope⟩

theorem Connection.Pair.record (h : conn.Pair R conn') (request : Request) (status : Nat) :
    (conn.record request status).Pair R (conn'.record request status) := by
  refine ⟨h.app, h.counters, ?_, h.scope⟩
  simp only [Connection.record, h.metrics, h.scope]

theorem Paired.cases (hp : Paired Q R request service) (h : conn.Pair Q conn') :
    ∃ after after' result, service request conn = (after, result) ∧
      service request conn' = (after', result) ∧ after.Pair R after' := by
  obtain ⟨hafter, hresult⟩ := hp conn conn' h
  exact ⟨_, _, _, rfl, Prod.ext rfl hresult.symm, hafter⟩

theorem paired_routes {app : Application σ β}
    (happ : ∀ id s s', Q s s' → R (app request id s).1 (app request id s').1 ∧
      (app request id s).2 = (app request id s').2) : Paired Q R request (routes lib app) := by
  intro conn conn' h
  obtain ⟨hstate, hresult⟩ := happ conn.scope.id conn.app conn'.app h.app
  rcases hs : app request conn.scope.id conn.app with ⟨state, route, result⟩
  rcases hs' : app request conn.scope.id conn'.app with ⟨state', route', result'⟩
  rw [hs, hs'] at hstate hresult
  cases hresult
  simp only [routes, ← h.scope, hs, hs']
  exact ⟨⟨hstate, h.counters, h.metrics, rfl⟩, trivial⟩

theorem paired_exception (hp : Paired Q R request service) :
    Paired Q R request (exceptionMiddleware lib service) := by
  intro conn conn' h
  obtain ⟨after, after', result, hs, hs', hafter⟩ := hp.cases h
  simp only [exceptionMiddleware, hs, hs']
  cases result with
  | ok response => exact ⟨hafter, rfl⟩
  | error raised =>
    simp only [← hafter.scope]
    cases (handlerFor lib after.scope.id raised : Option (Response β)) with
    | some response => exact ⟨hafter, rfl⟩
    | none => exact ⟨hafter, rfl⟩

theorem paired_cors (hQ : ∀ s s', Q s s' → R s s') (hp : Paired Q R request service) :
    Paired Q R request (corsMiddleware cors service) := by
  intro conn conn' h
  unfold corsMiddleware
  split
  next => exact ⟨h.mono hQ, rfl⟩
  next =>
    obtain ⟨after, after', result, hs, hs', hafter⟩ := hp.cases h
    simp only [hs, hs']
    cases result with
    | ok response => exact ⟨hafter, rfl⟩
    | error raised => exact ⟨hafter, rfl⟩

theorem paired_csrf (hQ : ∀ s s', Q s s' → R s s') (hp : Paired Q R request service) :
    Paired Q R request (csrfMiddleware cfg service) := by
  intro conn conn' h
  unfold csrfMiddleware
  split
  next => exact ⟨h.mono hQ, by rw [h.scope]⟩
  next => exact hp conn conn' h

theorem paired_securityHeaders (hp : Paired Q R request service) :
    Paired Q R request (securityHeadersMiddleware cfg service) := by
  intro conn conn' h
  obtain ⟨after, after', result, hs, hs', hafter⟩ := hp.cases h
  simp only [securityHeadersMiddleware, hs, hs']
  cases result with
  | ok response => exact ⟨hafter, rfl⟩
  | error raised => exact ⟨hafter, rfl⟩

theorem paired_rateLimit (hQ : ∀ s s', Q s s' → R s s') (hp : Paired Q R request service) :
    Paired Q R request (rateLimitLayer lib cfg m service) := by
  intro conn conn' h
  rcases hlimiter : rateLimitMiddleware lib.sha256 cfg.toRateLimitSettings m.fault m.now
    conn.counters request.toHttpRequest with ⟨counters, reply⟩
  have hcounted : Connection.Pair Q { conn with counters := counters }
      { conn' with counters := counters } := ⟨h.app, rfl, h.metrics, h.scope⟩
  simp only [rateLimitLayer, ← h.counters, hlimiter]
  cases reply with
  | unavailable => exact ⟨hcounted.mono hQ, by rw [h.scope]⟩
  | exceeded result => exact ⟨hcounted.mono hQ, by rw [h.scope]⟩
  | passed result =>
    obtain ⟨after, after', answer, hs, hs', hafter⟩ := hp.cases hcounted
    cases result with
    | none =>
      simp only [hs, hs']
      exact ⟨hafter, trivial⟩
    | some result =>
      simp only [hs, hs']
      cases answer with
      | ok response => exact ⟨hafter, rfl⟩
      | error raised => exact ⟨hafter, rfl⟩

theorem paired_requestId (hp : Paired Q R request service) :
    Paired Q R request (requestIdMiddleware m service) := by
  intro conn conn' h
  have hidentified : Connection.Pair Q
      { conn with scope := { conn.scope with requestId := some (requestIdOf m request) } }
      { conn' with scope := { conn'.scope with requestId := some (requestIdOf m request) } } :=
    ⟨h.app, h.counters, h.metrics, by rw [h.scope]⟩
  obtain ⟨after, after', result, hs, hs', hafter⟩ := hp.cases hidentified
  simp only [requestIdMiddleware, hs, hs']
  cases result with
  | ok response => exact ⟨hafter.record request response.status, rfl⟩
  | error raised => exact ⟨hafter.record request 500, rfl⟩

/-- No layer looks at the state of the application: what the routes do not tell apart, the client
does not. -/
theorem paired_handle {web : WebApp σ β} (m : Moment) (hQ : ∀ s s', Q s s' → R s s')
    (happ : ∀ id s s', Q s s' → R (web.app request id s).1 (web.app request id s').1 ∧
      (web.app request id s).2 = (web.app request id s').2)
    {server server' : Server σ} (h : Connection.Pair Q { server with } { server' with }) :
    (web.handle m request server).1.Pair R (web.handle m request server').1 ∧
      (web.handle m request server).2 = (web.handle m request server').2 := by
  have hservice : Paired Q R request (web.service m) := by
    refine around_holds (P := Paired Q R request) (paired_routes happ) ?_
    intro layer hlayer service hp
    simp only [WebApp.layers, List.mem_cons, List.not_mem_nil, or_false] at hlayer
    rcases hlayer with rfl | rfl | rfl | rfl | rfl | rfl
    · exact paired_requestId hp
    · exact paired_rateLimit hQ hp
    · exact paired_securityHeaders hp
    · exact paired_csrf hQ hp
    · exact paired_cors hQ hp
    · exact paired_exception hp
  obtain ⟨after, after', result, hs, hs', hafter⟩ := hservice.cases h
  simp only [WebApp.handle, hs, hs']
  cases result with
  | ok response => exact ⟨hafter, rfl⟩
  | error raised =>
    exact ⟨hafter, congrArg (fun scope : Scope => unexpectedErrorHandler scope.id) hafter.scope⟩

end Http

end JobRadar
