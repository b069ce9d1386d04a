import JobRadar.FixedWindow
import JobRadar.RateLimit

namespace JobRadar

open Python FixedWindow

/-- One try of a client at an authentication path, with the headers it chose. -/
structure AuthAttempt where
  now : Nat
  endpoint : Text
  authorization : Option Text := none
  xForwardedFor : Option Text := none

/-- How the client reaches the API: as a peer of its own, or through one trusted proxy that
appends the client's address to the header it received. -/
inductive ClientRoute (cfg : RateLimitSettings)
  | direct (peer : Text) (untrusted : peer ∉ trustedProxies cfg)
  | proxied (proxy address : Text) (trusted : proxy ∈ trustedProxies cfg)

def appendForwarded (received : Option Text) (address : Text) : Text :=
  match received with
  | none => address
  | some value => value ++ text ", " ++ address

def AuthAttempt.path (a : AuthAttempt) : Text := text "/api/v1/auth/" ++ a.endpoint

def ClientRoute.request {cfg : RateLimitSettings} (a : AuthAttempt) : ClientRoute cfg → HttpRequest
  | .direct peer _ =>
    { path := a.path
      client := some peer
      authorization := a.authorization
      xForwardedFor := a.xForwardedFor }
  | .proxied proxy address _ =>
    { path := a.path
      client := some proxy
      authorization := a.authorization
      xForwardedFor := some (appendForwarded a.xForwardedFor address) }

def ClientRoute.arrivals {cfg : RateLimitSettings} (route : ClientRoute cfg)
    (attempts : List AuthAttempt) (faults : List RedisFault) : List Arrival :=
  (attempts.zip faults).map fun x => ⟨x.1.now, x.2, route.request x.1⟩

/-- However the counters stand and whatever Redis fails at, the limit is not exceeded. -/
def AuthLimitHolds (sha256 : Text → Text) {cfg : RateLimitSettings} (route : ClientRoute cfg)
    (attempts : List AuthAttempt) : Prop :=
  ∀ counters faults, faults.length = attempts.length →
    (serve sha256 cfg counters (route.arrivals attempts faults)).countP
      RateLimitReply.letsThrough ≤ cfg.rateLimitAuthRequests

section Serving

variable {sha256 : Text → Text} {cfg : RateLimitSettings} {bucket : Nat}

/-- The requests the middleware counts against the authentication limit in one window. -/
structure CountedAuth (cfg : RateLimitSettings) (bucket : Nat) (a : Arrival) : Prop where
  limited : limited cfg a.request.path = true
  auth : isAuthPath a.request.path = true
  bucket : a.now / cfg.rateLimitWindowSeconds = bucket

def Arrival.key (sha256 : Text → Text) (cfg : RateLimitSettings) (bucket : Nat) (a : Arrival) :
    Text :=
  redisKey (identityKey sha256 a.request cfg) bucket

theorem redisKey_injective {k k' : Text} (h : redisKey k bucket = redisKey k' bucket) :
    k = k' := by
  simpa [redisKey] using h

theorem serve_cons (counters : Counters) (a : Arrival) (rest : List Arrival) :
    serve sha256 cfg counters (a :: rest) =
      (rateLimitMiddleware sha256 cfg a.fault a.now counters a.request).2 ::
      serve sha256 cfg (rateLimitMiddleware sha256 cfg a.fault a.now counters a.request).1 rest :=
  rfl

theorem middleware_auth (sha256 : Text → Text) (counters : Counters) {a : Arrival}
    (ha : CountedAuth cfg bucket a) :
    (rateLimitMiddleware sha256 cfg a.fault a.now counters a.request =
        (counters, .unavailable)) ∨
      (rateLimitMiddleware sha256 cfg a.fault a.now counters a.request).1 =
        Function.update counters (a.key sha256 cfg bucket)
          (counters (a.key sha256 cfg bucket) + 1) ∧
      ((rateLimitMiddleware sha256 cfg a.fault a.now counters a.request).2.letsThrough = true →
        counters (a.key sha256 cfg bucket) + 1 ≤ cfg.rateLimitAuthRequests) := by
  obtain ⟨hlim, hauth, rfl⟩ := ha
  cases hf : a.fault with
  | incr => exact Or.inl (by simp [rateLimitMiddleware, hlim, hauth, RateLimiter.check])
  | none =>
    rw [middleware_counted hlim]
    exact Or.inr ⟨rfl, by simp [RateLimitResult.of, rateLimitOf, hauth, Arrival.key]⟩
  | expire =>
    refine Or.inr ?_
    by_cases hfirst : counters (a.key sha256 cfg (a.now / cfg.rateLimitWindowSeconds)) = 0
    · unfold Arrival.key at hfirst
      simp [rateLimitMiddleware, hlim, hauth, RateLimiter.check, hfirst, Arrival.key,
        RateLimitReply.letsThrough]
    · unfold Arrival.key at hfirst
      simp [rateLimitMiddleware, hlim, hauth, RateLimiter.check, hfirst, Arrival.key,
        RateLimitResult.of, rateLimitOf]

theorem served_eq_admitted (counters : Counters) {arrivals : List Arrival}
    (hcounted : ∀ a ∈ arrivals, CountedAuth cfg bucket a)
    (hclean : ∀ a ∈ arrivals, a.fault = .none) :
    (serve sha256 cfg counters arrivals).countP RateLimitReply.letsThrough =
      admitted counters cfg.rateLimitAuthRequests
        (arrivals.map (Arrival.key sha256 cfg bucket)) := by
  induction arrivals generalizing counters with
  | nil => rfl
  | cons a rest ih =>
    obtain ⟨hlim, hauth, rfl⟩ := hcounted a (by simp)
    rw [serve_cons, hclean a (by simp), middleware_counted hlim, List.countP_cons, List.map_cons,
      admitted_cons, ih _ (fun x hx => hcounted x (List.mem_cons_of_mem a hx))
        (fun x hx => hclean x (List.mem_cons_of_mem a hx))]
    have hlets : (RateLimitResult.of a.now (rateLimitOf cfg a.request.path)
        cfg.rateLimitWindowSeconds (counters (a.key sha256 cfg
          (a.now / cfg.rateLimitWindowSeconds)) + 1)).reply.letsThrough = true ↔
        counters (a.key sha256 cfg (a.now / cfg.rateLimitWindowSeconds)) + 1 ≤
          cfg.rateLimitAuthRequests := by
      simp [RateLimitResult.of, rateLimitOf, hauth]
    by_cases hle : counters (a.key sha256 cfg (a.now / cfg.rateLimitWindowSeconds)) + 1 ≤
        cfg.rateLimitAuthRequests
    · rw [if_pos hle]
      exact (congrArg _ (if_pos (hlets.mpr hle))).trans (Nat.add_comm _ _)
    · rw [if_neg hle]
      exact (congrArg _ (if_neg (fun h => hle (hlets.mp h)))).trans (Nat.add_comm _ _)

theorem served_le_of_same {key : Text} (counters : Counters) {arrivals : List Arrival}
    (hcounted : ∀ a ∈ arrivals, CountedAuth cfg bucket a)
    (hsame : ∀ a ∈ arrivals, a.key sha256 cfg bucket = key) :
    (serve sha256 cfg counters arrivals).countP RateLimitReply.letsThrough ≤
      cfg.rateLimitAuthRequests - counters key := by
  induction arrivals generalizing counters with
  | nil => simp [serve]
  | cons a rest ih =>
    have hrest := fun c => ih c (fun x hx => hcounted x (List.mem_cons_of_mem a hx))
      fun x hx => hsame x (List.mem_cons_of_mem a hx)
    have hkey := hsame a (by simp)
    rw [serve_cons, List.countP_cons]
    rcases middleware_auth sha256 counters (hcounted a (by simp)) with hm | ⟨hm, hlets⟩
    · have h := hrest counters
      rw [hm]
      simpa [RateLimitReply.letsThrough] using h
    · have h := hrest (Function.update counters key (counters key + 1))
      rw [Function.update_self] at h
      rw [hkey] at hm hlets
      rw [hm]
      split
      next hpass =>
        have := hlets hpass
        omega
      next => omega

theorem serve_length (counters : Counters) (arrivals : List Arrival) :
    (serve sha256 cfg counters arrivals).length = arrivals.length := by
  induction arrivals generalizing counters with
  | nil => rfl
  | cons a rest ih => rw [serve_cons, List.length_cons, ih, List.length_cons]

end Serving

variable {sha256 : Text → Text} {cfg : RateLimitSettings} {route : ClientRoute cfg}
  {attempts : List AuthAttempt} {bucket : Nat}

theorem ClientRoute.path_request (route : ClientRoute cfg) (a : AuthAttempt) :
    (route.request a).path = a.path := by
  cases route <;> rfl

theorem limited_auth (a : AuthAttempt) : limited cfg a.path = cfg.rateLimitEnabled := by
  have hapi : a.path.startsWith (text "/api/") = true := rfl
  have hexempt : isExempt a.path = false := rfl
  simp [limited, hapi, hexempt]

theorem mem_arrivals {faults : List RedisFault} {x : Arrival}
    (hx : x ∈ route.arrivals attempts faults) :
    ∃ a ∈ attempts, x.now = a.now ∧ x.request = route.request a ∧ x.fault ∈ faults := by
  obtain ⟨⟨a, fault⟩, hm, rfl⟩ := List.mem_map.mp hx
  obtain ⟨ha, hfault⟩ := List.of_mem_zip hm
  exact ⟨a, ha, rfl, rfl, hfault⟩

theorem countedAuth_arrivals (henabled : cfg.rateLimitEnabled = true)
    (hwindow : ∀ a ∈ attempts, a.now / cfg.rateLimitWindowSeconds = bucket)
    {faults : List RedisFault} {x : Arrival} (hx : x ∈ route.arrivals attempts faults) :
    CountedAuth cfg bucket x := by
  obtain ⟨a, ha, hnow, hreq, _⟩ := mem_arrivals hx
  refine ⟨?_, ?_, by rw [hnow, hwindow a ha]⟩
  · rw [hreq, route.path_request, limited_auth, henabled]
  · rw [hreq, route.path_request]
    rfl

theorem served_unlimited (henabled : cfg.rateLimitEnabled = false) (counters : Counters)
    {arrivals : List Arrival} :
    (serve sha256 cfg counters arrivals).countP RateLimitReply.letsThrough = arrivals.length := by
  induction arrivals generalizing counters with
  | nil => rfl
  | cons a rest ih =>
    have hpass : rateLimitMiddleware sha256 cfg a.fault a.now counters a.request =
        (counters, .passed none) := by
      simp [rateLimitMiddleware, limited, henabled]
    rw [serve_cons, hpass, List.countP_cons, ih, List.length_cons]
    rfl

/-- In one window a client is held to the limit exactly when it does not try more often, or
all its tries are counted under one identity. -/
theorem auth_limit_holds_iff (sha256 : Text → Text) (route : ClientRoute cfg) (bucket : Nat)
    (hwindow : ∀ a ∈ attempts, a.now / cfg.rateLimitWindowSeconds = bucket) :
    AuthLimitHolds sha256 route attempts ↔ attempts.length ≤ cfg.rateLimitAuthRequests ∨
      cfg.rateLimitEnabled = true ∧ ∀ a ∈ attempts, ∀ b ∈ attempts,
        identityKey sha256 (route.request a) cfg = identityKey sha256 (route.request b) cfg := by
  have hlength : ∀ faults : List RedisFault, faults.length = attempts.length →
      (route.arrivals attempts faults).length = attempts.length := by
    intro faults hf
    simp [ClientRoute.arrivals, hf]
  constructor
  · intro hholds
    have hclean := hholds (fun _ => 0) (List.replicate attempts.length .none) (by simp)
    cases henabled : cfg.rateLimitEnabled with
    | false =>
      rw [served_unlimited henabled, hlength _ (by simp)] at hclean
      exact Or.inl hclean
    | true =>
      rw [served_eq_admitted _ (fun x hx => countedAuth_arrivals henabled hwindow hx),
        admitted_zero_le_iff cfg.one_le_rateLimitAuthRequests, List.length_map,
        hlength _ (by simp)] at hclean
      · refine hclean.imp_right fun hsame => ⟨rfl, ?_⟩
        intro a ha b hb
        have hkeys : ∀ c ∈ attempts, redisKey (identityKey sha256 (route.request c) cfg) bucket ∈
            (route.arrivals attempts (List.replicate attempts.length .none)).map
              (Arrival.key sha256 cfg bucket) := by
          intro c hc
          obtain ⟨i, hi, hic⟩ := List.mem_iff_getElem.mp hc
          refine List.mem_map.mpr ⟨⟨c.now, .none, route.request c⟩, ?_, rfl⟩
          refine List.mem_map.mpr ⟨(c, .none), ?_, rfl⟩
          exact List.mem_iff_getElem.mpr ⟨i, by simpa using hi, by simp [hic]⟩
        exact redisKey_injective (hsame _ (hkeys a ha) _ (hkeys b hb))
      · intro x hx
        obtain ⟨_, _, _, _, hfault⟩ := mem_arrivals hx
        exact List.eq_of_mem_replicate hfault
  · intro hcond counters faults hfaults
    by_cases hlen : attempts.length ≤ cfg.rateLimitAuthRequests
    · have hcount := List.countP_le_length (p := RateLimitReply.letsThrough)
        (l := serve sha256 cfg counters (route.arrivals attempts faults))
      rw [serve_length, hlength faults hfaults] at hcount
      exact hcount.trans hlen
    · obtain ⟨henabled, hsame⟩ := hcond.resolve_left hlen
      cases attempts with
      | nil => simp at hlen
      | cons first rest =>
        have hkey : ∀ x ∈ route.arrivals (first :: rest) faults, x.key sha256 cfg bucket =
            redisKey (identityKey sha256 (route.request first) cfg) bucket := by
          intro x hx
          obtain ⟨a, ha, _, hreq, _⟩ := mem_arrivals hx
          rw [Arrival.key, hreq, hsame a ha first (by simp)]
        have hle := served_le_of_same counters
          (fun x hx => countedAuth_arrivals henabled hwindow hx) hkey
        omega

def ownAddress : ClientRoute {} := .direct (text "203.0.113.7") (by decide)

/-- A client that sends no header of its own: the tries are counted under its address. -/
def plainAttempts : List AuthAttempt :=
  (List.range 11).map fun n => { now := 600 + n, endpoint := text "login" }

theorem plain_client_limited : AuthLimitHolds id ownAddress plainAttempts :=
  (auth_limit_holds_iff id ownAddress 10 (by decide)).mpr (Or.inr ⟨rfl, by decide⟩)

/-- The same client with a made-up bearer value for each try. -/
def bearerAttempts : List AuthAttempt :=
  (List.range 11).map fun n =>
    { now := 600 + n, endpoint := text "login"
      authorization := some (text "Bearer " ++ [97 + n]) }

def proxySettings : RateLimitSettings where
  trustedProxyIps := text "10.0.0.2"

def behindProxy : ClientRoute proxySettings :=
  .proxied (text "10.0.0.2") (text "203.0.113.7") (by decide)

/-- The same client behind the proxy, with a made-up first address for each try. -/
def forwardedAttempts : List AuthAttempt :=
  (List.range 11).map fun n =>
    { now := 600 + n, endpoint := text "login", xForwardedFor := some [97 + n] }

/-- All eleven tries pass a limit of ten, with either header. -/
theorem auth_limit_evaded :
    ¬AuthLimitHolds id ownAddress bearerAttempts ∧
      ¬AuthLimitHolds id behindProxy forwardedAttempts := by
  refine ⟨?_, ?_⟩
  · intro h
    exact absurd (h (fun _ => 0) (List.replicate 11 .none) rfl) (by decide)
  · intro h
    exact absurd (h (fun _ => 0) (List.replicate 11 .none) rfl) (by decide)

end JobRadar
