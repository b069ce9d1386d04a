import JobRadar.HttpContract
import JobRadar.HttpPairs
import JobRadar.TenantIsolation
import JobRadar.UserRoutes

namespace JobRadar

open Database Http Python Sequence

section Identity

variable {db : AuthDb} {userId : Uuid}

theorem AuthDb.authSession_ofUser (sessionId : Uuid) :
    (db.ofUser userId).authSession sessionId userId = db.authSession sessionId userId := by
  change ((db.sessions.select _).find sessionId).filter _ = (db.sessions.find sessionId).filter _
  rw [Table.find_select, Option.filter_filter]
  simp

theorem AuthDb.identifiedUser_ofUser (settings : Settings) (sessionId : Option Uuid) :
    (db.ofUser userId).identifiedUser settings userId sessionId =
      db.identifiedUser settings userId sessionId := by
  have hactive : (db.ofUser userId).activeUser userId = db.activeUser userId := by
    unfold activeUser
    rw [user_ofUser]
  have hsession : (sessionId.bind fun id => (db.ofUser userId).authSession id userId) =
      sessionId.bind fun id => db.authSession id userId := by
    simp only [authSession_ofUser]
  unfold identifiedUser
  rw [hactive, hsession]

end Identity

theorem AuthDb.identifiedUser_id {cfg : Settings} {db : AuthDb} {userId : Uuid}
    {sessionId : Option Uuid} {current : CurrentUser}
    (h : db.identifiedUser cfg userId sessionId = .ok current) : current.user.id = userId := by
  have hactive : ∀ user, db.activeUser userId = some user → user.id = userId := by
    intro user huser
    exact (Table.find_eq_some_iff.mp (Option.filter_eq_some_iff.mp huser).1).2
  unfold identifiedUser at h
  split at h
  next =>
    split at h
    next => cases h
    next =>
      split at h
      next => cases h
      next =>
        split at h
        next => cases h
        next user huser =>
          cases h
          exact hactive user huser
  next =>
    split at h
    next => cases h
    next user huser =>
      cases h
      exact hactive user huser

namespace Http

/-- The request carries a token that names the user, whether or not the user may use it. -/
def RadarServer.Names (r : RadarServer) (a : RadarRequest) (userId : Uuid) : Prop :=
  ∃ token sessionId, httpBearer r.lib a.request.authorization = some (bearer ++ token) ∧
    tokenIdentity r.tokens r.access.toSettings a.now token = .ok (userId, sessionId)

theorem RadarServer.current_cases (r : RadarServer) (hrequire : r.access.authRequireToken = true)
    (a : RadarRequest) :
    (∃ e, ∀ db, getCurrentUser r.tokens r.access a.now db
        (httpBearer r.lib a.request.authorization) = (db, .error e)) ∨
      ∃ userId sessionId, r.Names a userId ∧ ∀ db, getCurrentUser r.tokens r.access a.now db
        (httpBearer r.lib a.request.authorization) =
          (db, db.identifiedUser r.access.toSettings userId sessionId) := by
  cases hheader : httpBearer r.lib a.request.authorization with
  | none =>
    refine Or.inl ⟨.authenticationRequired, fun db => ?_⟩
    simp only [getCurrentUser, hrequire, if_true]
  | some header =>
    by_cases hbearer : header.startsWith bearer = true
    · cases hidentity : tokenIdentity r.tokens r.access.toSettings a.now
          (header.drop bearer.length) with
      | error e =>
        refine Or.inl ⟨e, fun db => ?_⟩
        simp only [getCurrentUser, hbearer, if_true, hidentity]
      | ok identity =>
        obtain ⟨userId, sessionId⟩ := identity
        have hsplit : header = bearer ++ header.drop bearer.length := by
          obtain ⟨rest, hrest⟩ := List.isPrefixOf_iff_prefix.mp hbearer
          rw [← hrest, List.drop_left]
        refine Or.inr ⟨userId, sessionId, ⟨_, sessionId, hheader.trans (congrArg some hsplit),
          hidentity⟩, fun db => ?_⟩
        simp only [getCurrentUser, hbearer, if_true, hidentity]
    · refine Or.inl ⟨.authenticationRequired, fun db => ?_⟩
      simp only [getCurrentUser, hbearer, Bool.false_eq_true, if_false]

/-- The ids that the route draws are not in use. -/
def UserRoute.Fresh (route : UserRoute) (s : ApiState) : Prop :=
  ∀ action, route.action = .ok action → ∀ userId, ApiCall.WellFormed s ⟨userId, action⟩

end Http

namespace ApiState

variable {ctx : ApiContext} {userId other : Uuid} {s t : ApiState}

/-- Two states that differ in rows of the user at most. -/
structure Beyond (userId : Uuid) (s t : ApiState) : Prop where
  same : ∀ other, other ≠ userId → s.part other = t.part other
  left : s.toAppDb.OwnReferences
  right : t.toAppDb.OwnReferences

theorem Beyond.act (ctx : ApiContext) (h : Beyond userId s t) (hother : other ≠ userId)
    {action : ApiAction} (hs : ApiCall.WellFormed s ⟨other, action⟩)
    (ht : ApiCall.WellFormed t ⟨other, action⟩) :
    (s.act ctx other action).2 = (t.act ctx other action).2 ∧
      Beyond userId (s.act ctx other action).1 (t.act ctx other action).1 := by
  have hsown := act_own ctx hs
  have htown := act_own ctx ht
  dsimp only at hsown htown
  rw [h.same other hother, htown] at hsown
  obtain ⟨hpart, hreply⟩ := Prod.mk.inj hsown
  refine ⟨hreply.symm, ?_, act_references ctx h.left hs, act_references ctx h.right ht⟩
  intro u hu
  by_cases huser : u = other
  · rw [huser]
    exact hpart.symm
  · have hsother := act_other ctx h.left hs huser
    have htother := act_other ctx h.right ht huser
    dsimp only at hsother htother
    rw [hsother, htother, h.same u hu, ← share_part _ _ other, ← hpart, share_part]

end ApiState

namespace Http.RadarServer

variable {r : RadarServer} {userId : Uuid} {s t : ApiState} {a : RadarRequest}

theorem serve_beyond (hrequire : r.access.authRequireToken = true) (hnames : ¬r.Names a userId)
    {route : UserRoute} (h : s.Beyond userId t) (hs : route.Fresh s) (ht : route.Fresh t) :
    (r.serve route a.now a.request.authorization s).2 =
        (r.serve route a.now a.request.authorization t).2 ∧
      (r.serve route a.now a.request.authorization s).1.Beyond userId
        (r.serve route a.now a.request.authorization t).1 ∧
      (r.serve route a.now a.request.authorization s).1.part userId =
        (r.serve route a.now a.request.authorization s).1.share (s.part userId) := by
  unfold serve
  cases route.malformed with
  | some errors => exact ⟨rfl, h, rfl⟩
  | none =>
    rcases current_cases r hrequire a with ⟨e, hrefused⟩ | ⟨other, sessionId, hother, hcurrent⟩
    · simp only [hrefused]
      exact ⟨trivial, h, rfl⟩
    · have hne : other ≠ userId := by
        rintro rfl
        exact hnames hother
      have hsame : s.auth.identifiedUser r.access.toSettings other sessionId =
          t.auth.identifiedUser r.access.toSettings other sessionId := by
        have hauth := congrArg (fun state : ApiState => state.auth) (h.same other hne)
        have hview : s.auth.ofUser other = t.auth.ofUser other := hauth
        rw [← AuthDb.identifiedUser_ofUser, hview, AuthDb.identifiedUser_ofUser]
      simp only [hcurrent, hsame]
      cases hidentified : t.auth.identifiedUser r.access.toSettings other sessionId with
      | error e => exact ⟨rfl, h, rfl⟩
      | ok current =>
        have hid : current.user.id = other := AuthDb.identifiedUser_id hidentified
        have huser : userIdFromCurrentUser r.access r.tokens route.xUserId current.user =
            .ok other := by
          unfold userIdFromCurrentUser
          split
          next => rw [if_pos hrequire, hid]
          next => rw [hid]
        simp only [huser]
        cases haction : route.action with
        | error errors => exact ⟨rfl, h, rfl⟩
        | ok action =>
          have hsfresh := hs action haction other
          have htfresh := ht action haction other
          obtain ⟨hreply, hbeyond⟩ := h.act r.ctx hne hsfresh htfresh
          have hkept := ApiState.act_other r.ctx h.left hsfresh (Ne.symm hne)
          exact ⟨congrArg (fun result => (result.mapError ApiError.raised).map action.respond)
            hreply, hbeyond, hkept⟩

end Http.RadarServer

namespace Http

/-- What happens next: a request, or work for a user in the background. -/
inductive RadarEvent
  | request (a : RadarRequest)
  | background (c : ApiCall)

namespace RadarServer

variable {r : RadarServer} {userId : Uuid} {server server' : Server ApiState} {a : RadarRequest}

def step (r : RadarServer) (server : Server ApiState) : RadarEvent → Server ApiState
  | .request a => (r.handle a server).1
  | .background c => { server with app := (server.app.act r.ctx c.userId c.action).1 }

def answer (r : RadarServer) (server : Server ApiState) : RadarEvent → Option (Response ApiData)
  | .request a => some (r.handle a server).2
  | .background _ => none

/-- No token of the event names the user, nothing of it is done for the user, and the ids it draws
are new to the server. -/
def Outside (r : RadarServer) (userId : Uuid) (server : Server ApiState) : RadarEvent → Prop
  | .request a => ¬r.Names a userId ∧ ∀ route, a.endpoint = .user route → route.Fresh server.app
  | .background c => c.userId ≠ userId ∧ c.WellFormed server.app

/-- Two servers that differ in rows of the user at most, of which the first has those of `s₀`. -/
structure Apart (userId : Uuid) (s₀ : ApiState) (servers : Server ApiState × Server ApiState) :
    Prop where
  beyond : servers.1.app.Beyond userId servers.2.app
  counters : servers.1.counters = servers.2.counters
  metrics : servers.1.metrics = servers.2.metrics
  kept : servers.1.app.part userId = servers.1.app.share (s₀.part userId)

variable {s₀ : ApiState} {servers : Server ApiState × Server ApiState}

theorem request_apart (hrequire : r.access.authRequireToken = true) (h : Apart userId s₀ servers)
    (hleft : r.Outside userId servers.1 (.request a))
    (hright : r.Outside userId servers.2 (.request a)) :
    Apart userId s₀ ((r.handle a servers.1).1, (r.handle a servers.2).1) ∧
      (r.handle a servers.1).2 = (r.handle a servers.2).2 := by
  have happ : ∀ id s t, (s = servers.1.app ∧ t = servers.2.app) →
      (((r.web a).app a.request id s).1.Beyond userId ((r.web a).app a.request id t).1 ∧
        ((r.web a).app a.request id s).1.part userId =
          ((r.web a).app a.request id s).1.share (s₀.part userId)) ∧
        ((r.web a).app a.request id s).2 = ((r.web a).app a.request id t).2 := by
    rintro id s t ⟨rfl, rfl⟩
    simp only [web, app]
    cases hendpoint : a.endpoint with
    | missing error => exact ⟨⟨h.beyond, h.kept⟩, rfl⟩
    | anyone path result => exact ⟨⟨h.beyond, h.kept⟩, rfl⟩
    | user route =>
      obtain ⟨hreply, hbeyond, hkept⟩ := serve_beyond hrequire hleft.1 h.beyond
        (hleft.2 route hendpoint) (hright.2 route hendpoint)
      refine ⟨⟨hbeyond, ?_⟩, congrArg (Prod.mk (some route.path)) hreply⟩
      rw [h.kept] at hkept
      exact hkept
  have hservers : Connection.Pair (fun s t => s = servers.1.app ∧ t = servers.2.app)
      { servers.1 with } { servers.2 with } := ⟨⟨rfl, rfl⟩, h.counters, h.metrics, rfl⟩
  obtain ⟨hpair, hresponse⟩ := paired_handle a.moment
    (R := fun s t => s.Beyond userId t ∧ s.part userId = s.share (s₀.part userId)) (by
      rintro s t ⟨rfl, rfl⟩
      exact ⟨h.beyond, h.kept⟩) happ hservers
  exact ⟨⟨hpair.app.1, hpair.counters, hpair.metrics, hpair.app.2⟩, hresponse⟩

/-- Where tokens are required, requests without a token that names the user, of whatever kind and
in whatever order with the work that is done for others, learn nothing of the user's rows and leave
them alone. -/
theorem nothing_without_a_token {servers' : Server ApiState × Server ApiState}
    {calls : List (Call RadarEvent (Server ApiState × Server ApiState))}
    (hrequire : r.access.authRequireToken = true)
    (hbeyond : servers.1.app.Beyond userId servers.2.app)
    (hcounters : servers.1.counters = servers.2.counters)
    (hmetrics : servers.1.metrics = servers.2.metrics)
    (run : Run (fun pair e => (r.step pair.1 e, r.step pair.2 e)) servers calls servers')
    (houtside : ∀ c ∈ calls,
      r.Outside userId c.before.1 c.call ∧ r.Outside userId c.before.2 c.call) :
    (∀ c ∈ calls, r.answer c.before.1 c.call = r.answer c.before.2 c.call) ∧
      servers'.1.app.Beyond userId servers'.2.app ∧
      servers'.1.app.part userId = servers'.1.app.share (servers.1.app.part userId) := by
  have hstart : Apart userId servers.1.app servers := ⟨hbeyond, hcounters, hmetrics, rfl⟩
  have hkeep : ∀ (pair : Server ApiState × Server ApiState) (e : RadarEvent),
      Apart userId servers.1.app pair → r.Outside userId pair.1 e ∧ r.Outside userId pair.2 e →
        Apart userId servers.1.app (r.step pair.1 e, r.step pair.2 e) := by
    rintro pair e h ⟨hleft, hright⟩
    cases e with
    | request a => exact (request_apart hrequire h hleft hright).1
    | background c =>
      obtain ⟨-, hbeyond⟩ := h.beyond.act r.ctx hleft.1 hleft.2 hright.2
      have hkept := ApiState.act_other r.ctx h.beyond.left hleft.2 (Ne.symm hleft.1)
      rw [h.kept] at hkept
      exact ⟨hbeyond, h.counters, h.metrics, hkept⟩
  have hlast := run.invariant hstart hkeep houtside
  refine ⟨?_, hlast.beyond, hlast.kept⟩
  intro c hc
  have hbefore := run.invariant_before hstart hkeep houtside c hc
  obtain ⟨hleft, hright⟩ := houtside c hc
  rcases c with ⟨pair, a | call⟩
  · exact congrArg some (request_apart hrequire hbefore hleft hright).2
  · rfl

section Example

/-- Any token is the second user's. -/
def secondUsers : TokenLibrary where
  decode _ _ _ _ := some [(text "type", .str (text "access")), (text "sub", .str (text "2"))]
  uuid t := if t = text "2" then some 2 else none

def plainRadar (cfg : HttpSettings) : RadarServer where
  lib := plainHttp
  cfg := cfg
  cors := plainCors
  tokens := secondUsers
  access := { authRequireToken := true }
  ctx := plainContext

def listing : RadarRequest where
  moment := ⟨0, .none, text "id"⟩
  now := 0
  request :=
    { path := text "/api/v1/sources", client := none, method := text "GET"
      authorization := some (text "Bearer token") }
  endpoint := .user
    { path := text "/api/v1/sources", action := .ok .listSources
      served := by
        intro a ha
        cases ha
        rfl }

def acmeSource : Source := ⟨10, 1, "greenhouse", text "acme", []⟩

/-- A server with the second user, and with these sources. -/
def withSources (sources : Table Source.id) : Server ApiState where
  app :=
    { auth := { users := ⟨[{ id := 2 }], by simp⟩ }
      radar := { RadarDb.empty with sources := sources } }

theorem withSources_references (sources : Table Source.id) :
    (withSources sources).app.toAppDb.OwnReferences := by
  refine ⟨?_, ?_⟩
  · intro token htoken
    cases htoken
  · intro delivery hdelivery
    cases hdelivery

theorem listing_outside (sources : Table Source.id) :
    (plainRadar {}).Outside 1 (withSources sources) (.request listing) := by
  refine ⟨?_, ?_⟩
  · rintro ⟨token, sessionId, -, hidentity⟩
    have hsecond : tokenIdentity secondUsers (plainRadar {}).access.toSettings listing.now token =
        .ok (2, none) := rfl
    cases hsecond.symm.trans hidentity
  · intro route hroute action haction userId
    cases hroute
    cases haction
    trivial

theorem part_withSources {sources : Table Source.id} {other : Uuid}
    (hsources : sources.select (fun source => source.userId = other) = .empty) :
    (withSources sources).app.part other = (withSources .empty).app.part other := by
  have hschedules : (fun id => if (withSources sources).app.radar.sourceOf other id then
      (withSources sources).app.schedules id else {}) = fun _ => {} := by
    funext id
    exact ite_self _
  have hruns : (withSources sources).app.runs.select (fun run =>
      (withSources sources).app.radar.sourceOf other run.sourceId) = .empty :=
    Table.eq_of_rows_eq rfl
  unfold ApiState.part
  rw [hschedules, hruns]
  change ApiState.mk ⟨_, ⟨sources.select _, _, _, _, _⟩, _, _, _⟩ _ _ _ = _
  rw [hsources]
  rfl

/-- The listing is answered alike with a source of the first user and without. -/
theorem listing_answered :
    (plainRadar {}).answer (withSources ⟨[acmeSource], by simp⟩) (.request listing) =
      (plainRadar {}).answer (withSources .empty) (.request listing) := by
  have hbeyond : (withSources ⟨[acmeSource], by simp⟩).app.Beyond 1 (withSources .empty).app := by
    refine ⟨?_, withSources_references _, withSources_references _⟩
    intro other hother
    apply part_withSources
    apply Table.select_eq_empty
    intro source hsource huser
    obtain rfl : source = acmeSource := List.mem_singleton.mp hsource
    exact hother huser.symm
  have run : Run (fun pair e => ((plainRadar {}).step pair.1 e, (plainRadar {}).step pair.2 e))
      (withSources ⟨[acmeSource], by simp⟩, withSources .empty)
      [⟨(withSources ⟨[acmeSource], by simp⟩, withSources .empty), RadarEvent.request listing⟩] _ :=
    .next (RadarEvent.request listing) .start
  have houtside := nothing_without_a_token (r := plainRadar {}) rfl hbeyond rfl rfl run (by
    intro c hc
    obtain rfl := List.mem_singleton.mp hc
    exact ⟨listing_outside _, listing_outside _⟩)
  exact houtside.1 _ (List.mem_singleton.mpr rfl)

end Example

end RadarServer

end Http

end JobRadar
