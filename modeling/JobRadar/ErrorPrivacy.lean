import JobRadar.HttpStack

namespace JobRadar

open Middleware Python

namespace Http

/-- What is left of an exception without the texts that are not meant for the client. -/
def Raised.mask (lib : HttpLibrary) : Raised → Raised
  | .app error =>
    if isMappedAppError error then .app error else .app { error with
      code := [], message := [], details := [] }
  | .validation errors => .validation errors
  | .http error => if 500 ≤ error.status then .http { error with detail := .null } else .http error
  | .sqlAlchemy error => .app (.new (translateDatabaseError lib.lower error))
  | .other _ => .other []

variable {σ β : Type}

/-- The routes with all that they raise masked. -/
def WebApp.masked (web : WebApp σ β) : WebApp σ β :=
  { web with
    app := fun request id state =>
      let (state, route, result) := web.app request id state
      (state, route, result.mapError (Raised.mask web.lib)) }

variable {lib : HttpLibrary} {cfg : HttpSettings} {cors : Cors β} {m : Moment}
  {service service' : WebService σ β} {result result' : Except Raised (Response β)}

/-- The same answer, or exceptions that no handler tells apart. -/
def Alike (lib : HttpLibrary) (result result' : Except Raised (Response β)) : Prop :=
  result = result' ∨ ∃ raised raised', result = .error raised ∧ result' = .error raised' ∧
    ∀ id, (handlerFor lib id raised : Option (Response β)) = handlerFor lib id raised'

def Indistinct (lib : HttpLibrary) (service service' : WebService σ β) : Prop :=
  ∀ request conn, (service request conn).1 = (service' request conn).1 ∧
    Alike lib (service request conn).2 (service' request conn).2

theorem handlerFor_mask (lib : HttpLibrary) (raised : Raised) (id : Text) :
    (handlerFor lib id (sessionScope lib (raised.mask lib)) : Option (Response β)) =
      handlerFor lib id (sessionScope lib raised) := by
  cases raised with
  | app error =>
    unfold Raised.mask
    dsimp only
    split
    next => rfl
    next hunmapped =>
      have hmasked : isMappedAppError { error with code := [], message := [], details := [] } =
          isMappedAppError error := rfl
      simp only [sessionScope, handlerFor, appErrorHandler, hmasked, hunmapped]
      rfl
  | validation errors => rfl
  | http error =>
    unfold Raised.mask
    dsimp only
    split
    next hserver =>
      simp only [sessionScope, handlerFor, httpExceptionHandler, hserver, if_true]
    next => rfl
  | sqlAlchemy error => rfl
  | other error => rfl

theorem indistinct_routes (web : WebApp σ β) :
    Indistinct web.lib (routes web.lib web.masked.app) (routes web.lib web.app) := by
  intro request conn
  rcases happ : web.app request conn.scope.id conn.app with ⟨state, route, raised | result⟩
  · simp only [routes, WebApp.masked, happ, Except.mapError]
    exact ⟨trivial, Or.inr ⟨_, _, rfl, rfl, handlerFor_mask web.lib raised⟩⟩
  · simp only [routes, WebApp.masked, happ, Except.mapError]
    exact ⟨trivial, Or.inl rfl⟩

theorem Indistinct.cases (h : Indistinct lib service service') (request : Request)
    (conn : Connection σ) :
    (∃ after result, service request conn = (after, result) ∧
      service' request conn = (after, result)) ∨
    ∃ after raised raised', service request conn = (after, .error raised) ∧
      service' request conn = (after, .error raised') ∧
      ∀ id, (handlerFor lib id raised : Option (Response β)) = handlerFor lib id raised' := by
  obtain ⟨hstate, halike⟩ := h request conn
  rcases hs : service request conn with ⟨after, result⟩
  rcases hs' : service' request conn with ⟨after', result'⟩
  rw [hs, hs'] at hstate halike
  obtain rfl : after = after' := hstate
  rcases halike with heq | ⟨raised, raised', heq, heq', hhandler⟩
  · obtain rfl : result = result' := heq
    exact .inl ⟨after, result, rfl, rfl⟩
  · obtain rfl : result = .error raised := heq
    obtain rfl : result' = .error raised' := heq'
    exact .inr ⟨after, raised, raised', rfl, rfl, hhandler⟩

theorem indistinct_exception (h : Indistinct lib service service') :
    Indistinct lib (exceptionMiddleware lib service) (exceptionMiddleware lib service') := by
  intro request conn
  rcases h.cases request conn with ⟨after, result, hs, hs'⟩ |
    ⟨after, raised, raised', hs, hs', hhandler⟩
  · simp only [exceptionMiddleware, hs, hs']
    exact ⟨trivial, Or.inl rfl⟩
  · simp only [exceptionMiddleware, hs, hs', hhandler]
    cases hhandled : (handlerFor lib after.scope.id raised' : Option (Response β)) with
    | some response => exact ⟨rfl, Or.inl rfl⟩
    | none => exact ⟨rfl, Or.inr ⟨raised, raised', rfl, rfl, hhandler⟩⟩

theorem indistinct_cors (h : Indistinct lib service service') :
    Indistinct lib (corsMiddleware cors service) (corsMiddleware cors service') := by
  intro request conn
  unfold corsMiddleware
  split
  next => exact ⟨rfl, Or.inl rfl⟩
  next =>
    rcases h.cases request conn with ⟨after, result, hs, hs'⟩ |
      ⟨after, raised, raised', hs, hs', hhandler⟩
    · simp only [hs, hs']
      exact ⟨trivial, Or.inl rfl⟩
    · simp only [hs, hs']
      exact ⟨trivial, Or.inr ⟨raised, raised', rfl, rfl, hhandler⟩⟩

theorem indistinct_csrf (h : Indistinct lib service service') :
    Indistinct lib (csrfMiddleware cfg service) (csrfMiddleware cfg service') := by
  intro request conn
  unfold csrfMiddleware
  split
  next => exact ⟨rfl, Or.inl rfl⟩
  next => exact h request conn

theorem indistinct_securityHeaders (h : Indistinct lib service service') :
    Indistinct lib (securityHeadersMiddleware cfg service)
      (securityHeadersMiddleware cfg service') := by
  intro request conn
  rcases h.cases request conn with ⟨after, result, hs, hs'⟩ |
    ⟨after, raised, raised', hs, hs', hhandler⟩
  · simp only [securityHeadersMiddleware, hs, hs']
    exact ⟨trivial, Or.inl rfl⟩
  · simp only [securityHeadersMiddleware, hs, hs']
    exact ⟨trivial, Or.inr ⟨raised, raised', rfl, rfl, hhandler⟩⟩

theorem indistinct_rateLimit (h : Indistinct lib service service') :
    Indistinct lib (rateLimitLayer lib cfg m service) (rateLimitLayer lib cfg m service') := by
  intro request conn
  rcases hlimiter : rateLimitMiddleware lib.sha256 cfg.toRateLimitSettings m.fault m.now
    conn.counters request.toHttpRequest with ⟨counters, reply⟩
  simp only [rateLimitLayer, hlimiter]
  cases reply with
  | unavailable => exact ⟨rfl, Or.inl rfl⟩
  | exceeded result => exact ⟨rfl, Or.inl rfl⟩
  | passed result =>
    cases result with
    | none => exact h request _
    | some result =>
      rcases h.cases request { conn with counters := counters } with
        ⟨after, result, hs, hs'⟩ | ⟨after, raised, raised', hs, hs', hhandler⟩
      · simp only [hs, hs']
        exact ⟨trivial, Or.inl rfl⟩
      · simp only [hs, hs']
        exact ⟨trivial, Or.inr ⟨raised, raised', rfl, rfl, hhandler⟩⟩

theorem indistinct_requestId (h : Indistinct lib service service') :
    Indistinct lib (requestIdMiddleware m service) (requestIdMiddleware m service') := by
  intro request conn
  unfold requestIdMiddleware
  dsimp only
  rcases h.cases request
      { conn with scope := { conn.scope with requestId := some (requestIdOf m request) } } with
    ⟨after, result, hs, hs'⟩ | ⟨after, raised, raised', hs, hs', hhandler⟩
  · simp only [hs, hs']
    exact ⟨trivial, Or.inl rfl⟩
  · simp only [hs, hs']
    exact ⟨trivial, Or.inr ⟨raised, raised', rfl, rfl, hhandler⟩⟩

theorem indistinct_service (web : WebApp σ β) (m : Moment) :
    Indistinct web.lib (web.masked.service m) (web.service m) := by
  refine around_related (R := Indistinct web.lib) (indistinct_routes web) ?_
  intro layer hlayer service service' h
  simp only [WebApp.layers, List.mem_cons, List.not_mem_nil, or_false] at hlayer
  rcases hlayer with rfl | rfl | rfl | rfl | rfl | rfl
  · exact indistinct_requestId h
  · exact indistinct_rateLimit h
  · exact indistinct_securityHeaders h
  · exact indistinct_csrf h
  · exact indistinct_cors h
  · exact indistinct_exception h

/-- The texts of exceptions that are not meant for the client change nothing of an answer or of
the state: the database's own words, those of unexpected exceptions, the detail of a server
error, and all of an application error without a status. -/
theorem masked_handle (web : WebApp σ β) (m : Moment) (request : Request) (server : Server σ) :
    web.masked.handle m request server = web.handle m request server := by
  rcases (indistinct_service web m).cases request { server with } with
    ⟨after, result, hs, hs'⟩ | ⟨after, raised, raised', hs, hs', -⟩
  · simp only [WebApp.handle, hs, hs']
  · simp only [WebApp.handle, hs, hs']

end Http

end JobRadar
