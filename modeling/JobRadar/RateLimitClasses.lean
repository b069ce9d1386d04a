import JobRadar.RateLimitEvasion

namespace JobRadar

open Python FixedWindow

/-- The requests of one class that are counted for one identity in one window. -/
structure SameWindow (sha256 : Text → Text) (cfg : RateLimitSettings) (identity : Text)
    (bucket : Nat) (a : Arrival) : Prop where
  limited : limited cfg a.request.path = true
  clean : a.fault = .none
  identity : identityKey sha256 a.request cfg = identity
  bucket : a.now / cfg.rateLimitWindowSeconds = bucket

/-- What a client learns of a reply: the decision and the remaining count. -/
def RateLimitReply.verdict (reply : RateLimitReply) : Bool × Option Nat :=
  (reply.letsThrough, reply.result.map RateLimitResult.remaining)

def Arrival.isAuth (a : Arrival) : Bool := isAuthPath a.request.path

/-- The verdicts on the requests of one class, in order. -/
def verdicts (sha256 : Text → Text) (cfg : RateLimitSettings) (counters : Counters)
    (auth : Bool) (arrivals : List Arrival) : List (Bool × Option Nat) :=
  (((arrivals.zip (serve sha256 cfg counters arrivals)).filter
    fun x => x.1.isAuth == auth).map fun x => x.2.verdict)

/-- The places of the requests of one class among all requests, from `start` on. -/
def placesFrom (auth : Bool) : Nat → List Arrival → List Nat
  | _, [] => []
  | start, a :: rest =>
    if a.isAuth = auth then start :: placesFrom auth (start + 1) rest
    else placesFrom auth (start + 1) rest

def classLimit (cfg : RateLimitSettings) (auth : Bool) : Nat :=
  if auth then cfg.rateLimitAuthRequests else cfg.rateLimitGeneralRequests

/-- The verdict on the `count`-th request of the window. -/
def verdictOn (limit count : Nat) : Bool × Option Nat := (count ≤ limit, some (limit - count))

theorem verdictOn_eq_iff {limit a b : Nat} :
    verdictOn limit a = verdictOn limit b ↔ a = b ∨ limit < a ∧ limit < b := by
  simp only [verdictOn, Prod.mk.injEq, decide_eq_decide, Option.some.injEq]
  constructor
  · rintro ⟨hle, hsub⟩
    by_cases ha : a ≤ limit
    · have hb := hle.mp ha
      exact Or.inl (by omega)
    · have hb : ¬b ≤ limit := fun hb => ha (hle.mpr hb)
      exact Or.inr (by omega)
  · rintro (rfl | ⟨ha, hb⟩)
    · exact ⟨Iff.rfl, rfl⟩
    · exact ⟨by omega, by omega⟩

section Window

variable {sha256 : Text → Text} {cfg : RateLimitSettings} {identity : Text} {bucket : Nat}
  {auth : Bool} {arrivals : List Arrival}

theorem middleware_sameWindow {a : Arrival} (ha : SameWindow sha256 cfg identity bucket a)
    (counters : Counters) :
    (rateLimitMiddleware sha256 cfg a.fault a.now counters a.request).1 =
        Function.update counters (redisKey identity bucket)
          (counters (redisKey identity bucket) + 1) ∧
      (rateLimitMiddleware sha256 cfg a.fault a.now counters a.request).2.verdict =
        verdictOn (classLimit cfg a.isAuth) (counters (redisKey identity bucket) + 1) := by
  obtain ⟨hlimited, hclean, rfl, rfl⟩ := ha
  rw [hclean, middleware_counted hlimited]
  refine ⟨rfl, ?_⟩
  simp only [RateLimitReply.verdict, RateLimitResult.letsThrough_reply,
    RateLimitResult.result_reply]
  rfl

theorem verdicts_eq_places (counters : Counters)
    (hwindow : ∀ a ∈ arrivals, SameWindow sha256 cfg identity bucket a) :
    verdicts sha256 cfg counters auth arrivals =
      (placesFrom auth (counters (redisKey identity bucket) + 1) arrivals).map
        (verdictOn (classLimit cfg auth)) := by
  induction arrivals generalizing counters with
  | nil => rfl
  | cons a rest ih =>
    obtain ⟨hcounter, hverdict⟩ := middleware_sameWindow (hwindow a (by simp)) counters
    have hrest := ih (Function.update counters (redisKey identity bucket)
      (counters (redisKey identity bucket) + 1)) fun x hx => hwindow x (List.mem_cons_of_mem a hx)
    rw [Function.update_self] at hrest
    unfold verdicts at hrest ⊢
    rw [serve_cons, hcounter, List.zip_cons_cons, List.filter_cons, placesFrom]
    by_cases hclass : a.isAuth = auth
    · rw [if_pos (by simpa using hclass), if_pos hclass, List.map_cons, List.map_cons, hrest,
        hverdict, hclass]
    · rw [if_neg (by simpa using hclass), if_neg hclass, hrest]

end Window

/-- Two sequences treat the requests of a class alike exactly when each has the same place in
both, or is over the limit in both. -/
theorem class_verdicts_eq_iff (sha256 : Text → Text) (cfg : RateLimitSettings) (identity : Text)
    (bucket : Nat) (counters : Counters) (auth : Bool) {run run' : List Arrival}
    (hrun : ∀ a ∈ run, SameWindow sha256 cfg identity bucket a)
    (hrun' : ∀ a ∈ run', SameWindow sha256 cfg identity bucket a) :
    verdicts sha256 cfg counters auth run = verdicts sha256 cfg counters auth run' ↔
      List.Forall₂ (fun p q => p = q ∨ classLimit cfg auth < p ∧ classLimit cfg auth < q)
        (placesFrom auth (counters (redisKey identity bucket) + 1) run)
        (placesFrom auth (counters (redisKey identity bucket) + 1) run') := by
  rw [verdicts_eq_places counters hrun, verdicts_eq_places counters hrun']
  rw [← List.forall₂_eq_eq_eq, List.forall₂_map_left_iff, List.forall₂_map_right_iff]
  simp only [verdictOn_eq_iff]

def getFrom (now : Nat) (path : String) : Arrival where
  now := now
  fault := .none
  request := { path := text path, client := some (text "203.0.113.7") }

def loginAlone : List Arrival := [getFrom 610 "/api/v1/auth/login"]

/-- The login comes before the listings. -/
def loginThenListings : List Arrival :=
  loginAlone ++ (List.range 10).map fun n => getFrom (611 + n) "/api/v1/jobs"

/-- The login comes after as many listings as the login limit allows requests. -/
def listingsThenLogin : List Arrival :=
  (List.range 10).map (fun n => getFrom (600 + n) "/api/v1/jobs") ++ loginAlone

theorem sameWindow_getFrom {now : Nat} {path : String}
    (hlimited : limited {} (text path) = true) (hbucket : now / 60 = 10) :
    SameWindow id {} (text "ip:203.0.113.7") 10 (getFrom now path) :=
  ⟨hlimited, rfl, rfl, hbucket⟩

theorem loginAlone_sameWindow :
    ∀ a ∈ loginAlone, SameWindow id {} (text "ip:203.0.113.7") 10 a := by
  simp only [loginAlone, List.mem_singleton, forall_eq]
  exact sameWindow_getFrom rfl rfl

theorem loginThenListings_sameWindow :
    ∀ a ∈ loginThenListings, SameWindow id {} (text "ip:203.0.113.7") 10 a := by
  intro a ha
  rcases List.mem_append.mp ha with hlogin | hlisting
  · exact loginAlone_sameWindow a hlogin
  · obtain ⟨n, hn, rfl⟩ := List.mem_map.mp hlisting
    have hn := List.mem_range.mp hn
    exact sameWindow_getFrom rfl (by omega)

/-- Listings after the login leave its verdict alone. -/
theorem listings_after_login : verdicts id {} (fun _ => 0) true loginAlone =
    verdicts id {} (fun _ => 0) true loginThenListings :=
  (class_verdicts_eq_iff id {} (text "ip:203.0.113.7") 10 (fun _ => 0) true
    loginAlone_sameWindow loginThenListings_sameWindow).mpr
    (show List.Forall₂ _ [1] [1] from .cons (Or.inl rfl) .nil)

theorem listingsThenLogin_sameWindow :
    ∀ a ∈ listingsThenLogin, SameWindow id {} (text "ip:203.0.113.7") 10 a := by
  intro a ha
  rcases List.mem_append.mp ha with hlisting | hlogin
  · obtain ⟨n, hn, rfl⟩ := List.mem_map.mp hlisting
    have hn := List.mem_range.mp hn
    exact sameWindow_getFrom rfl (by omega)
  · exact loginAlone_sameWindow a hlogin

/-- The same login is let through alone, and refused after ten listings. -/
theorem listings_use_up_login_limit :
    ((∀ a ∈ loginAlone, SameWindow id {} (text "ip:203.0.113.7") 10 a) ∧
      ∀ a ∈ listingsThenLogin, SameWindow id {} (text "ip:203.0.113.7") 10 a) ∧
    loginAlone.filter Arrival.isAuth = listingsThenLogin.filter Arrival.isAuth ∧
    verdicts id {} (fun _ => 0) true loginAlone ≠
      verdicts id {} (fun _ => 0) true listingsThenLogin :=
  ⟨⟨loginAlone_sameWindow, listingsThenLogin_sameWindow⟩, rfl, by decide⟩

end JobRadar
