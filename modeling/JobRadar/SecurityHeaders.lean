import JobRadar.HttpContract

namespace JobRadar

open Middleware Python

namespace Http

variable {σ β : Type} {cfg : HttpSettings} {m : Moment} {web : WebApp σ β} {request : Request}
  {server : Server σ} {response : Response β}

/-- The response has every security header, with the value for its path. -/
def Shielded (cfg : HttpSettings) (request : Request) (response : Response β) : Prop :=
  ∀ header ∈ securityHeaders cfg request.path, response.headers header.1 = some (text header.2)

def Unshielded (cfg : HttpSettings) (request : Request) (response : Response β) : Prop :=
  ∀ header ∈ securityHeaders cfg request.path, response.headers header.1 = none

theorem securityHeaders_nodup (cfg : HttpSettings) (path : Text) :
    ((securityHeaders cfg path).map Prod.fst).Nodup := by
  cases hhsts : cfg.hstsEnabled with
  | true => simp [securityHeaders, hhsts]
  | false => simp [securityHeaders, hhsts]

theorem securityHeaders_names {path : Text} {header : String × String}
    (h : header ∈ securityHeaders cfg path) :
    header.1 ∈ ["x-content-type-options", "x-frame-options", "referrer-policy",
      "permissions-policy", "content-security-policy", "strict-transport-security"] := by
  unfold securityHeaders at h
  simp only [List.mem_append, List.mem_cons, List.not_mem_nil, or_false] at h
  rcases h with (rfl | rfl | rfl | rfl | rfl) | h
  iterate 5 simp
  split at h
  next =>
    rw [List.mem_singleton.mp h]
    simp
  next => simp at h

theorem rateLimitHeaders_names {result : RateLimitResult} {header : String × Text}
    (h : header ∈ rateLimitHeaders result) :
    header.1 ∈ ["x-ratelimit-limit", "x-ratelimit-remaining", "x-ratelimit-reset",
      "retry-after"] := by
  simp only [rateLimitHeaders, List.mem_cons, List.not_mem_nil, or_false] at h
  rcases h with rfl | rfl | rfl | rfl <;> simp

theorem securityHeaders_ne_requestId {path : Text} {header : String × String}
    (h : header ∈ securityHeaders cfg path) : header.1 ≠ "x-request-id" := by
  intro heq
  have hname := securityHeaders_names h
  simp [heq] at hname

theorem rateLimitHeaders_ne_security {path : Text} {header : String × String}
    {result : RateLimitResult} (h : header ∈ securityHeaders cfg path) :
    ∀ limited ∈ rateLimitHeaders result, limited.1 ≠ header.1 := by
  intro limited hlimited heq
  have hname := securityHeaders_names h
  have hlimit := rateLimitHeaders_names hlimited
  simp only [List.mem_cons, List.not_mem_nil, or_false] at hlimit
  rw [← heq] at hname
  rcases hlimit with hl | hl | hl | hl <;> simp [hl] at hname

theorem Shielded.set_requestId (h : Shielded cfg request response) (id : Text) :
    Shielded cfg request (response.set "x-request-id" id) := by
  intro header hheader
  rw [Response.headers_set, if_neg (securityHeaders_ne_requestId hheader)]
  exact h header hheader

theorem Unshielded.set_requestId (h : Unshielded cfg request response) (id : Text) :
    Unshielded cfg request (response.set "x-request-id" id) := by
  intro header hheader
  rw [Response.headers_set, if_neg (securityHeaders_ne_requestId hheader)]
  exact h header hheader

theorem Shielded.setAll_limit (h : Shielded cfg request response) (result : RateLimitResult) :
    Shielded cfg request (response.setAll (rateLimitHeaders result)) := by
  intro header hheader
  rw [Response.headers_setAll_other (rateLimitHeaders_ne_security hheader)]
  exact h header hheader

/-- What leaves the layer of the security headers has them. -/
theorem securityHeadersMiddleware_shields {next : WebService σ β} {conn : Connection σ}
    (henabled : cfg.securityHeadersEnabled = true)
    (h : (securityHeadersMiddleware cfg next request conn).2 = .ok response) :
    Shielded cfg request response := by
  rcases hnext : next request conn with ⟨conn', raised | inside⟩
  · simp [securityHeadersMiddleware, hnext] at h
  · simp only [securityHeadersMiddleware, hnext, henabled, if_true, Except.ok.injEq] at h
    subst h
    intro header hheader
    have hnames : (((securityHeaders cfg request.path).map fun h => (h.1, text h.2)).map
        Prod.fst).Nodup := by
      rw [List.map_map]
      exact securityHeaders_nodup cfg request.path
    have hset : (header.1, text header.2) ∈
        (securityHeaders cfg request.path).map fun h => (h.1, text h.2) :=
      List.mem_map.mpr ⟨header, hheader, rfl⟩
    exact Response.headers_setAll hnames hset inside

section Limiter

def WebApp.guarded (web : WebApp σ β) (m : Moment) : WebService σ β :=
  around (web.layers m).tail.tail (routes web.lib web.app)

theorem inner_eq (web : WebApp σ β) (m : Moment) :
    web.inner m = rateLimitLayer web.lib web.cfg m (web.guarded m) := rfl

/-- What the limiter refuses it answers itself. -/
theorem limited_refused {conn : Connection σ}
    (hrefused : (web.limit m request conn.counters).2.letsThrough = false)
    (h : (web.inner m request conn).2 = .ok response) : Unshielded cfg request response := by
  rcases hlimiter : web.limit m request conn.counters with ⟨counters, reply⟩
  rw [hlimiter] at hrefused
  unfold WebApp.limit at hlimiter
  rw [inner_eq, rateLimitLayer, hlimiter] at h
  cases reply with
  | passed result => cases hrefused
  | unavailable =>
    cases h
    exact fun header _ => rfl
  | exceeded result =>
    cases h
    intro header hheader
    rw [Response.headers_setAll_other (rateLimitHeaders_ne_security hheader)]
    rfl

theorem limited_passed {conn : Connection σ} (henabled : web.cfg.securityHeadersEnabled = true)
    (hpassed : (web.limit m request conn.counters).2.letsThrough = true)
    (h : (web.inner m request conn).2 = .ok response) : Shielded web.cfg request response := by
  rcases hlimiter : web.limit m request conn.counters with ⟨counters, reply⟩
  rw [hlimiter] at hpassed
  unfold WebApp.limit at hlimiter
  rw [inner_eq, rateLimitLayer, hlimiter] at h
  cases reply with
  | unavailable => cases hpassed
  | exceeded result => cases hpassed
  | passed result =>
    cases result with
    | none => exact securityHeadersMiddleware_shields henabled h
    | some result =>
      rcases hguarded : web.guarded m request { conn with counters := counters } with
        ⟨conn', raised | inside⟩
      · simp [hguarded] at h
      · simp only [hguarded, Except.ok.injEq] at h
        subst h
        have hinside : Shielded web.cfg request inside :=
          securityHeadersMiddleware_shields henabled (congrArg Prod.snd hguarded)
        exact hinside.setAll_limit result

end Limiter

end Http

end JobRadar
