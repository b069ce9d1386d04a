import JobRadar.HttpStack

namespace JobRadar

open Middleware Python

namespace Http

variable {σ β : Type} {lib : HttpLibrary} {cfg : HttpSettings} {cors : Cors β} {m : Moment}
  {next : WebService σ β} {web : WebApp σ β}

/-- An envelope carries the id. -/
def Body.Stamped (id : Text) : Body β → Prop
  | .error detail => detail.requestId = id
  | .success _ info => info.requestId = id
  | .bare _ | .empty => True

theorem Scope.id_eq {scope : Scope} {id : Text} (h : scope.requestId = some id) :
    scope.id = id := by
  rw [Scope.id, h, Option.getD_some]

/-- The service keeps the id of a request and stamps what it answers with it. -/
def Stamps (service : WebService σ β) : Prop :=
  ∀ request conn id, conn.scope.requestId = some id →
    (service request conn).1.scope.requestId = some id ∧
      ∀ response, (service request conn).2 = .ok response → response.body.Stamped id

@[simp] theorem Response.body_set (response : Response β) (name : String) (value : Text) :
    (response.set name value).body = response.body := rfl

@[simp] theorem Response.status_set (response : Response β) (name : String) (value : Text) :
    (response.set name value).status = response.status := rfl

@[simp] theorem Response.headers_set (response : Response β) (name other : String)
    (value : Text) : (response.set name value).headers other =
      if other = name then some value else response.headers other := by
  simp [Response.set, Headers.set, Function.update_apply]

@[simp] theorem Response.body_setAll (response : Response β) (headers : List (String × Text)) :
    (response.setAll headers).body = response.body := by
  induction headers generalizing response with
  | nil => rfl
  | cons header headers ih => exact ih _

@[simp] theorem Response.status_setAll (response : Response β) (headers : List (String × Text)) :
    (response.setAll headers).status = response.status := by
  induction headers generalizing response with
  | nil => rfl
  | cons header headers ih => exact ih _

theorem Response.headers_setAll_other {headers : List (String × Text)} {name : String}
    (h : ∀ header ∈ headers, header.1 ≠ name) (response : Response β) :
    (response.setAll headers).headers name = response.headers name := by
  induction headers generalizing response with
  | nil => rfl
  | cons header headers ih =>
    have hrest := ih (fun x hx => h x (List.mem_cons_of_mem _ hx))
      (response.set header.1 header.2)
    have hne := h header (List.mem_cons_self ..)
    rw [Response.headers_set, if_neg hne.symm] at hrest
    exact hrest

/-- Of headers with names of their own, each has its value afterwards. -/
theorem Response.headers_setAll {headers : List (String × Text)}
    (hnodup : (headers.map Prod.fst).Nodup) {header : String × Text} (h : header ∈ headers)
    (response : Response β) : (response.setAll headers).headers header.1 = some header.2 := by
  induction headers generalizing response with
  | nil => simp at h
  | cons first headers ih =>
    rw [List.map_cons, List.nodup_cons] at hnodup
    rcases List.mem_cons.mp h with rfl | h
    · have hlast : ∀ x ∈ headers, x.1 ≠ header.1 := by
        intro x hx heq
        exact hnodup.1 (heq ▸ List.mem_map_of_mem hx)
      have hset := Response.headers_setAll_other hlast (response.set header.1 header.2)
      rw [Response.headers_set, if_pos rfl] at hset
      exact hset
    · exact ih hnodup.2 h (response.set first.1 first.2)

section RequestIds

theorem RouteResult.stamped (id : Text) (result : RouteResult β) :
    (result.response id).body.Stamped id := by
  cases result <;> simp [RouteResult.response, Body.Stamped]

theorem handlerFor_stamped {id : Text} {raised : Raised} {response : Response β}
    (h : handlerFor lib id raised = some response) : response.body.Stamped id := by
  cases raised with
  | app error =>
    cases Option.some.inj h
    unfold appErrorHandler
    split
    next => rfl
    next => rfl
  | validation errors =>
    cases Option.some.inj h
    rfl
  | http error =>
    cases Option.some.inj h
    unfold httpExceptionHandler
    split
    next => rfl
    next => rfl
  | sqlAlchemy error => cases h
  | other error => cases h

theorem stamps_routes (lib : HttpLibrary) (app : Application σ β) : Stamps (routes lib app) := by
  intro request conn id hid
  have hscope := Scope.id_eq hid
  refine ⟨hid, ?_⟩
  intro response hresponse
  rcases hresult : (app request conn.scope.id conn.app).2.2 with raised | result
  · simp [routes, hresult] at hresponse
  · simp only [routes, hresult, Except.ok.injEq] at hresponse
    subst hresponse
    rw [hscope]
    exact result.stamped id

theorem stamps_exception (h : Stamps next) : Stamps (exceptionMiddleware lib next) := by
  intro request conn id hid
  obtain ⟨hkeep, hstamp⟩ := h request conn id hid
  rcases hnext : next request conn with ⟨conn', raised | response⟩
  · rw [hnext] at hkeep
    simp only [exceptionMiddleware, hnext]
    split
    next handled hhandled =>
      refine ⟨hkeep, ?_⟩
      rintro response ⟨rfl⟩
      rw [Scope.id_eq hkeep] at hhandled
      exact handlerFor_stamped hhandled
    next => exact ⟨hkeep, by simp⟩
  · rw [hnext] at hkeep hstamp
    simp only [exceptionMiddleware, hnext]
    exact ⟨hkeep, hstamp⟩

theorem stamps_cors (h : Stamps next) : Stamps (corsMiddleware cors next) := by
  intro request conn id hid
  obtain ⟨hkeep, hstamp⟩ := h request conn id hid
  unfold corsMiddleware
  split
  next =>
    refine ⟨hid, ?_⟩
    rintro response ⟨rfl⟩
    trivial
  next =>
    rcases hnext : next request conn with ⟨conn', raised | response⟩
    · rw [hnext] at hkeep
      exact ⟨hkeep, by simp⟩
    · rw [hnext] at hkeep hstamp
      refine ⟨hkeep, ?_⟩
      rintro decorated ⟨rfl⟩
      exact hstamp response rfl

theorem stamps_csrf (h : Stamps next) : Stamps (csrfMiddleware cfg next) := by
  intro request conn id hid
  have hscope := Scope.id_eq hid
  unfold csrfMiddleware
  split
  next =>
    refine ⟨hid, ?_⟩
    rintro response ⟨rfl⟩
    exact hscope
  next => exact h request conn id hid

theorem stamps_securityHeaders (h : Stamps next) : Stamps (securityHeadersMiddleware cfg next) := by
  intro request conn id hid
  obtain ⟨hkeep, hstamp⟩ := h request conn id hid
  rcases hnext : next request conn with ⟨conn', raised | response⟩
  · rw [hnext] at hkeep
    simpa [securityHeadersMiddleware, hnext] using hkeep
  · rw [hnext] at hkeep hstamp
    have hbody := hstamp response rfl
    simp only [securityHeadersMiddleware, hnext]
    refine ⟨hkeep, ?_⟩
    rintro shielded ⟨rfl⟩
    split
    next => rwa [Response.body_setAll]
    next => exact hbody

theorem stamps_rateLimit (h : Stamps next) : Stamps (rateLimitLayer lib cfg m next) := by
  intro request conn id hid
  rcases hlimiter : rateLimitMiddleware lib.sha256 cfg.toRateLimitSettings m.fault m.now
    conn.counters request.toHttpRequest with ⟨counters, reply⟩
  obtain ⟨hkeep, hstamp⟩ := h request { conn with counters := counters } id hid
  have hscope := Scope.id_eq hid
  simp only [rateLimitLayer, hlimiter]
  cases reply with
  | unavailable =>
    refine ⟨hid, ?_⟩
    rintro response ⟨rfl⟩
    exact hscope
  | exceeded result =>
    refine ⟨hid, ?_⟩
    rintro response ⟨rfl⟩
    rwa [Response.body_setAll]
  | passed result =>
    cases result with
    | none => exact ⟨hkeep, hstamp⟩
    | some result =>
      dsimp only
      rcases hnext : next request { conn with counters := counters } with
        ⟨conn', raised | response⟩
      · rw [hnext] at hkeep
        exact ⟨hkeep, by simp⟩
      · rw [hnext] at hkeep hstamp
        refine ⟨hkeep, ?_⟩
        rintro limited ⟨rfl⟩
        rw [Response.body_setAll]
        exact hstamp response rfl

theorem stamps_inner (web : WebApp σ β) (m : Moment) :
    Stamps (around (web.layers m).tail (routes web.lib web.app)) := by
  refine around_holds (P := Stamps) (stamps_routes web.lib web.app) ?_
  intro layer hlayer service h
  simp only [WebApp.layers, List.tail_cons, List.mem_cons, List.not_mem_nil, or_false] at hlayer
  rcases hlayer with rfl | rfl | rfl | rfl | rfl
  · exact stamps_rateLimit h
  · exact stamps_securityHeaders h
  · exact stamps_csrf h
  · exact stamps_cors h
  · exact stamps_exception h

end RequestIds

section Escaping

/-- The limiter, for a request by itself. -/
def WebApp.limit (web : WebApp σ β) (m : Moment) (request : Request) (counters : Counters) :
    Counters × RateLimitReply :=
  rateLimitMiddleware web.lib.sha256 web.cfg.toRateLimitSettings m.fault m.now counters
    request.toHttpRequest

/-- The request gets past the limiter, the CSRF check and the CORS layer. -/
structure WebApp.Reaches (web : WebApp σ β) (m : Moment) (request : Request) (server : Server σ) :
    Prop where
  limiter : (web.limit m request server.counters).2.letsThrough = true
  csrf : csrfRefuses web.cfg request = false
  cors : web.cors.preflight request = none

def WebApp.appResult (web : WebApp σ β) (m : Moment) (request : Request) (server : Server σ) :
    Except Raised (RouteResult β) :=
  (web.app request (requestIdOf m request) server.app).2.2

/-- The route raises what no registered handler takes. -/
def WebApp.Escapes (web : WebApp σ β) (m : Moment) (request : Request) (server : Server σ) :
    Prop :=
  web.Reaches m request server ∧ ∃ error, web.appResult m request server = .error (.other error)

def Fails {α : Type} (result : Except Raised α) : Prop := ∃ raised, result = .error raised

variable {request : Request} {conn : Connection σ} {app : Application σ β}

theorem fails_routes : Fails (exceptionMiddleware lib (routes lib app) request conn).2 ↔
    ∃ error, (app request conn.scope.id conn.app).2.2 = .error (.other error) := by
  rcases hresult : (app request conn.scope.id conn.app).2.2 with raised | result
  · cases raised with
    | app error => simp [Fails, exceptionMiddleware, routes, hresult, sessionScope, handlerFor]
    | validation errors =>
      simp [Fails, exceptionMiddleware, routes, hresult, sessionScope, handlerFor]
    | http error => simp [Fails, exceptionMiddleware, routes, hresult, sessionScope, handlerFor]
    | sqlAlchemy error =>
      simp [Fails, exceptionMiddleware, routes, hresult, sessionScope, handlerFor]
    | other error => simp [Fails, exceptionMiddleware, routes, hresult, sessionScope, handlerFor]
  · simp [Fails, exceptionMiddleware, routes, hresult]

theorem fails_cors : Fails (corsMiddleware cors next request conn).2 ↔
    cors.preflight request = none ∧ Fails (next request conn).2 := by
  unfold corsMiddleware
  cases hpreflight : cors.preflight request with
  | some answer => simp [Fails]
  | none => rcases hnext : next request conn with ⟨conn', raised | response⟩ <;> simp [Fails]

theorem fails_csrf : Fails (csrfMiddleware cfg next request conn).2 ↔
    csrfRefuses cfg request = false ∧ Fails (next request conn).2 := by
  unfold csrfMiddleware
  cases csrfRefuses cfg request <;> simp [Fails]

theorem fails_securityHeaders : Fails (securityHeadersMiddleware cfg next request conn).2 ↔
    Fails (next request conn).2 := by
  rcases hnext : next request conn with ⟨conn', raised | response⟩ <;>
    simp [Fails, securityHeadersMiddleware, hnext]

theorem fails_rateLimit {counters : Counters} {reply : RateLimitReply}
    (hlimiter : web.limit m request conn.counters = (counters, reply)) :
    Fails (rateLimitLayer web.lib web.cfg m next request conn).2 ↔
      reply.letsThrough = true ∧ Fails (next request { conn with counters := counters }).2 := by
  unfold WebApp.limit at hlimiter
  simp only [rateLimitLayer, hlimiter]
  cases reply with
  | unavailable => simp [Fails, RateLimitReply.letsThrough]
  | exceeded result => simp [Fails, RateLimitReply.letsThrough]
  | passed result =>
    cases result with
    | none => simp [RateLimitReply.letsThrough]
    | some result =>
      rcases hnext : next request { conn with counters := counters } with
        ⟨conn', raised | response⟩ <;> simp [Fails, RateLimitReply.letsThrough]

theorem fails_requestId : Fails (requestIdMiddleware m next request conn).2 ↔
    Fails (next request
      { conn with scope := { conn.scope with requestId := some (requestIdOf m request) } }).2 := by
  unfold requestIdMiddleware
  dsimp only
  rcases next request
      { conn with scope := { conn.scope with requestId := some (requestIdOf m request) } } with
    ⟨conn', raised | response⟩ <;> simp [Fails]

theorem service_fails_iff (web : WebApp σ β) (m : Moment) (request : Request)
    (server : Server σ) : Fails (web.service m request { server with }).2 ↔
      web.Escapes m request server := by
  rcases hlimiter : web.limit m request server.counters with ⟨counters, reply⟩
  unfold WebApp.service WebApp.layers around
  simp only [List.foldr_cons, List.foldr_nil]
  rw [fails_requestId, fails_rateLimit hlimiter, fails_securityHeaders, fails_csrf, fails_cors,
    fails_routes]
  constructor
  · rintro ⟨hlets, hcsrf, hcors, hraised⟩
    exact ⟨⟨by rwa [hlimiter], hcsrf, hcors⟩, hraised⟩
  · rintro ⟨hreaches, hraised⟩
    have hlets := hreaches.limiter
    rw [hlimiter] at hlets
    exact ⟨hlets, hreaches.csrf, hreaches.cors, hraised⟩

end Escaping

section Answers

/-- The connection as the layers inside the request id see it. -/
def WebApp.identified (m : Moment) (request : Request) (server : Server σ) : Connection σ :=
  { server with scope := { requestId := some (requestIdOf m request) } }

def WebApp.inner (web : WebApp σ β) (m : Moment) : WebService σ β :=
  around (web.layers m).tail (routes web.lib web.app)

variable {request : Request} {server : Server σ}

theorem handle_eq (web : WebApp σ β) (m : Moment) (request : Request) (server : Server σ) :
    web.handle m request server =
      match web.inner m request (WebApp.identified m request server) with
      | (conn, .error _) => (conn.record request 500, unexpectedErrorHandler conn.scope.id)
      | (conn, .ok response) => (conn.record request response.status,
          response.set "x-request-id" (requestIdOf m request)) := by
  have hservice : web.service m request { server with } =
      requestIdMiddleware m (web.inner m) request { server with } := rfl
  simp only [WebApp.handle, hservice, requestIdMiddleware, WebApp.identified]
  rcases web.inner m request { server with scope := { requestId := some (requestIdOf m request) } }
    with ⟨conn, raised | response⟩
  · rfl
  · rfl

theorem inner_fails_iff (web : WebApp σ β) (m : Moment) (request : Request) (server : Server σ) :
    Fails (web.inner m request (WebApp.identified m request server)).2 ↔
      web.Escapes m request server := by
  have hfails : Fails (requestIdMiddleware m (web.inner m) request { server with }).2 ↔
      Fails (web.inner m request (WebApp.identified m request server)).2 := fails_requestId
  exact hfails.symm.trans (service_fails_iff web m request server)

theorem handle_escaped (h : web.Escapes m request server) :
    (web.handle m request server).2 = unexpectedErrorHandler (requestIdOf m request) := by
  obtain ⟨raised, hraised⟩ := (inner_fails_iff web m request server).mpr h
  have hkeep := (stamps_inner web m request (WebApp.identified m request server) _ rfl).1
  change (web.inner m request (WebApp.identified m request server)).1.scope.requestId =
    some (requestIdOf m request) at hkeep
  rw [handle_eq]
  rcases hinner : web.inner m request (WebApp.identified m request server) with
    ⟨conn, raised' | response⟩
  · rw [hinner] at hkeep
    simp only [Scope.id_eq hkeep]
  · simp [hinner] at hraised

/-- What is not escaped is the answer of the layers inside, with the id in its headers. -/
theorem handle_answered (h : ¬web.Escapes m request server) : ∃ conn response,
    web.inner m request (WebApp.identified m request server) = (conn, .ok response) ∧
      web.handle m request server = (conn.record request response.status,
        response.set "x-request-id" (requestIdOf m request)) := by
  rw [← inner_fails_iff] at h
  rcases hinner : web.inner m request (WebApp.identified m request server) with
    ⟨conn, raised | response⟩
  · rw [hinner] at h
    exact absurd ⟨raised, rfl⟩ h
  · refine ⟨conn, response, rfl, ?_⟩
    rw [handle_eq, hinner]

/-- Every envelope that is sent carries the id of the request, and so do the headers, except where
an exception escaped the layers. -/
theorem answers_carry_request_id (web : WebApp σ β) (m : Moment) (request : Request)
    (server : Server σ) :
    (web.handle m request server).2.body.Stamped (requestIdOf m request) ∧
      ((web.handle m request server).2.headers "x-request-id" = some (requestIdOf m request) ↔
        ¬web.Escapes m request server) := by
  by_cases hescapes : web.Escapes m request server
  · rw [handle_escaped hescapes]
    refine ⟨rfl, ?_⟩
    simp [unexpectedErrorHandler, errorResponse, Headers.empty, hescapes]
  · obtain ⟨conn, response, hinner, hhandle⟩ := handle_answered hescapes
    have hstamp := (stamps_inner web m request (WebApp.identified m request server) _ rfl).2
    rw [hhandle]
    refine ⟨hstamp response ?_, ?_⟩
    · exact congrArg Prod.snd hinner
    · simp [hescapes]

end Answers

section Example

def plainHttp : HttpLibrary where
  lower := List.map fun c => if 65 ≤ c ∧ c ≤ 90 then c + 32 else c
  capitalize := id
  sha256 := id
  str _ := []

def plainCors {β : Type} : Cors β where
  preflight _ := none
  decorate _ headers := headers
  decorate_other _ _ _ _ := rfl

/-- A service with one route, which does nothing but end like this. -/
def plainWeb (cfg : HttpSettings) (result : Except Raised (RouteResult Text)) :
    WebApp Unit Text where
  lib := plainHttp
  cfg := cfg
  cors := plainCors
  app _ _ _ := ((), some (text "/api/v1/jobs"), result)

def jobsRequest : Request where
  path := text "/api/v1/jobs"
  client := none
  method := text "GET"

end Example

end Http

end JobRadar
