import JobRadar.SecurityHeaders

namespace JobRadar

open Hierarchy Middleware Python

namespace Http

theorem errorStatusCodes_specific : errorClasses.Specific errorStatusCodes := by decide

theorem statusForAppError_eq_nearest (error : AppError) : statusForAppError error =
    (errorClasses.nearest errorStatusCodes error.cls).getD 500 := by
  rw [statusForAppError, Classes.firstMatch_eq_nearest errorStatusCodes_specific]

theorem isMappedAppError_iff (error : AppError) : isMappedAppError error = true ↔
    (errorClasses.nearest errorStatusCodes error.cls).isSome := by
  rw [← Classes.firstMatch_eq_nearest errorStatusCodes_specific,
    Classes.firstMatch_isSome_iff]
  simp [isMappedAppError, Classes.isInstance]

/-- No class is derived from those that challenge the client. -/
theorem bearerChallenge_iff (c : ErrorClass) :
    bearerChallengeErrors.any (errorClasses.isInstance c) = true ↔ c ∈ bearerChallengeErrors := by
  cases c <;> decide

variable {σ β : Type} {m : Moment} {web : WebApp σ β} {request : Request} {server : Server σ}
  {conn conn' : Connection σ} {response : Response β} {raised : Raised} {error : AppError}

/-- The layers outside the handlers leave status, body and challenge alone. -/
structure SameAnswer (response outer : Response β) : Prop where
  status : outer.status = response.status
  body : outer.body = response.body
  challenge : outer.headers "www-authenticate" = response.headers "www-authenticate"

theorem SameAnswer.trans {first second third : Response β} (h : SameAnswer first second)
    (h' : SameAnswer second third) : SameAnswer first third :=
  ⟨h'.status.trans h.status, h'.body.trans h.body, h'.challenge.trans h.challenge⟩

theorem sameAnswer_setAll {headers : List (String × Text)}
    (h : ∀ header ∈ headers, header.1 ≠ "www-authenticate") (response : Response β) :
    SameAnswer response (response.setAll headers) :=
  ⟨response.status_setAll headers, response.body_setAll headers,
    Response.headers_setAll_other h response⟩

theorem sameAnswer_securityHeaders (cfg : HttpSettings) (path : Text) (response : Response β) :
    SameAnswer response
      (response.setAll ((securityHeaders cfg path).map fun h => (h.1, text h.2))) := by
  apply sameAnswer_setAll
  intro header hheader
  obtain ⟨h, hh, rfl⟩ := List.mem_map.mp hheader
  intro heq
  have hname := securityHeaders_names hh
  change h.1 = "www-authenticate" at heq
  simp [heq] at hname

theorem sameAnswer_limit (result : RateLimitResult) (response : Response β) :
    SameAnswer response (response.setAll (rateLimitHeaders result)) := by
  apply sameAnswer_setAll
  intro header hheader heq
  have hname := rateLimitHeaders_names hheader
  simp [heq] at hname

theorem guarded_reached (hcsrf : csrfRefuses web.cfg request = false)
    (hcors : web.cors.preflight request = none)
    (h : exceptionMiddleware web.lib (routes web.lib web.app) request conn =
      (conn', .ok response)) :
    ∃ outer, web.guarded m request conn = (conn', .ok outer) ∧ SameAnswer response outer := by
  have hdecorated : corsMiddleware web.cors (exceptionMiddleware web.lib
      (routes web.lib web.app)) request conn = (conn', .ok
        { response with headers := web.cors.decorate request response.headers }) := by
    simp only [corsMiddleware, hcors, h]
  have hguarded : web.guarded m request conn = securityHeadersMiddleware web.cfg
      (csrfMiddleware web.cfg (corsMiddleware web.cors (exceptionMiddleware web.lib
        (routes web.lib web.app)))) request conn := rfl
  have hcsrfPass : ∀ next : WebService σ β, csrfMiddleware web.cfg next request conn =
      next request conn := by
    intro next
    rw [csrfMiddleware, hcsrf]
    rfl
  have hsame : SameAnswer response
      { response with headers := web.cors.decorate request response.headers } :=
    ⟨rfl, rfl, web.cors.decorate_other _ _ _ (by simp)⟩
  rw [hguarded, securityHeadersMiddleware, hcsrfPass, hdecorated]
  refine ⟨_, rfl, ?_⟩
  split
  next => exact hsame.trans (sameAnswer_securityHeaders web.cfg request.path _)
  next => exact hsame

/-- What the handlers make of a request that reaches the routes is what the client receives. -/
theorem handle_reached {counters : Counters} {reply : RateLimitReply}
    (hlimiter : web.limit m request server.counters = (counters, reply))
    (hreaches : web.Reaches m request server)
    (h : exceptionMiddleware web.lib (routes web.lib web.app) request
      { WebApp.identified m request server with counters := counters } = (conn, .ok response)) :
    SameAnswer response (web.handle m request server).2 := by
  obtain ⟨outer, hguarded, hsame⟩ := guarded_reached hreaches.csrf hreaches.cors h
  have hlets := hreaches.limiter
  rw [hlimiter] at hlets
  have hinner : ∃ limited, web.inner m request (WebApp.identified m request server) =
      (conn, .ok limited) ∧ SameAnswer outer limited := by
    have hlimit : rateLimitMiddleware web.lib.sha256 web.cfg.toRateLimitSettings m.fault m.now
        (WebApp.identified m request server).counters request.toHttpRequest =
        (counters, reply) := hlimiter
    simp only [inner_eq, rateLimitLayer, hlimit]
    cases reply with
    | unavailable => cases hlets
    | exceeded result => cases hlets
    | passed result =>
      cases result with
      | none => exact ⟨outer, hguarded, rfl, rfl, rfl⟩
      | some result =>
        refine ⟨outer.setAll (rateLimitHeaders result), ?_, sameAnswer_limit result outer⟩
        simp only [hguarded]
  obtain ⟨limited, hanswer, hlimited⟩ := hinner
  have hid : SameAnswer limited (limited.set "x-request-id" (requestIdOf m request)) := by
    refine ⟨rfl, rfl, ?_⟩
    simp
  rw [handle_eq, hanswer]
  exact (hsame.trans hlimited).trans hid

theorem challenging_mapped {c : ErrorClass} (h : c ∈ bearerChallengeErrors) :
    (errorClasses.nearest errorStatusCodes c).isSome := by
  simp only [bearerChallengeErrors, List.mem_cons, List.not_mem_nil, or_false] at h
  rcases h with rfl | rfl | rfl <;> decide

theorem exceptionMiddleware_app {lib : HttpLibrary} {app : Application σ β}
    (conn : Connection σ) (hraised : (app request conn.scope.id conn.app).2.2 = .error raised)
    (herror : sessionScope lib raised = .app error) :
    ∃ after, exceptionMiddleware lib (routes lib app) request conn =
      (after, .ok (appErrorHandler conn.scope.id error)) := by
  simp only [exceptionMiddleware, routes, hraised, herror, handlerFor]
  exact ⟨_, rfl⟩

/-- An application error that a route raises is answered with the status of its nearest ancestor
in the table, its own code, message and details, and a challenge for three of the classes. -/
theorem app_error_answered (hreaches : web.Reaches m request server)
    (hraised : web.appResult m request server = .error raised)
    (herror : sessionScope web.lib raised = .app error) :
    (web.handle m request server).2.status =
        (errorClasses.nearest errorStatusCodes error.cls).getD 500 ∧
      (web.handle m request server).2.body =
        (if (errorClasses.nearest errorStatusCodes error.cls).isSome then
          .error ⟨error.code, error.message, .arr (error.details.map .obj), requestIdOf m request⟩
        else (unexpectedErrorHandler (requestIdOf m request) : Response β).body) ∧
      (web.handle m request server).2.headers "www-authenticate" =
        if error.cls ∈ bearerChallengeErrors then some (text "Bearer") else none := by
  rcases hlimiter : web.limit m request server.counters with ⟨counters, reply⟩
  obtain ⟨conn, hhandled⟩ := exceptionMiddleware_app
    { WebApp.identified m request server with counters := counters } hraised herror
  have hsame := handle_reached hlimiter hreaches hhandled
  rw [hsame.status, hsame.body, hsame.challenge]
  unfold appErrorHandler
  by_cases hmapped : isMappedAppError error = true
  · rw [if_pos hmapped, if_pos ((isMappedAppError_iff error).mp hmapped)]
    refine ⟨statusForAppError_eq_nearest error, rfl, ?_⟩
    simp only [errorResponse, bearerChallenge_iff]
    split
    next => simp [Headers.set]
    next => rfl
  · have hnone : ¬(errorClasses.nearest errorStatusCodes error.cls).isSome := by
      rwa [← isMappedAppError_iff]
    have hunchallenged : error.cls ∉ bearerChallengeErrors :=
      fun hchallenge => hnone (challenging_mapped hchallenge)
    rw [if_neg hmapped, if_neg hnone, if_neg hunchallenged]
    rw [Option.not_isSome_iff_eq_none] at hnone
    rw [hnone]
    exact ⟨rfl, rfl, rfl⟩

def jobMissing : AppError := .new .jobNotFound

theorem missing_job_answered :
    ((plainWeb {} (.error (.app jobMissing))).handle ⟨0, .none, text "id"⟩ jobsRequest
      ⟨(), fun _ => 0, {}⟩).2.status = 404 := by
  have hreaches : (plainWeb {} (.error (.app jobMissing))).Reaches ⟨0, .none, text "id"⟩ jobsRequest
      ⟨(), fun _ => 0, {}⟩ := ⟨by decide, rfl, rfl⟩
  have hraised : (plainWeb {} (.error (.app jobMissing))).appResult ⟨0, .none, text "id"⟩
      jobsRequest ⟨(), fun _ => 0, {}⟩ = .error (.app jobMissing) := rfl
  have herror : sessionScope plainHttp (.app jobMissing) = .app jobMissing := rfl
  exact (app_error_answered hreaches hraised herror).1

end Http

end JobRadar
