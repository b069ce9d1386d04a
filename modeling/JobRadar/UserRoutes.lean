import JobRadar.CurrentUser
import JobRadar.HttpStack
import JobRadar.UserApi

namespace JobRadar

open Database Http Python

def AccessError.raised : AccessError → Http.Raised
  | .authenticationRequired => .app (.new .authenticationRequired)
  | .invalidAccessToken => .app (.new .invalidAccessToken)
  | .sessionRevoked => .app (.new .sessionRevoked)
  | .dataConflict => .app (.new .dataConflict)
  | .userAlreadyExists => .app (.new .userAlreadyExists)
  | .attributeError => .other (text "AttributeError")

def ApiError.raised : ApiError → Http.Raised
  | .app cls => .app (.new cls)
  | .typeError => .other (text "TypeError")

/-- The action has a route. -/
def ApiAction.served : ApiAction → Bool
  | .work .. | .notify .. => false
  | _ => true

/-- What the route makes of the data of its action. -/
def ApiAction.respond : ApiAction → ApiData → RouteResult ApiData
  | .createSource .., data => .enveloped 201 data
  | .runSource .., data => .enveloped 202 data
  | .updatePreferences .., data => .enveloped 201 data
  | .updatePreferencesV2 .., data => .enveloped 201 data "v2"
  | .getPreferencesV2, data => .enveloped 200 data "v2"
  | .listJobs .., .jobs jobs columns page pageSize total =>
    .enveloped 200 (.jobs jobs columns page pageSize total) "v1" (some page) (some pageSize)
      (some total)
  | .deleteMe, _ => .noContent
  | _, data => .enveloped 200 data

namespace Http

/-- `HTTPBearer(auto_error=False)`, and the text that `get_current_user` puts together again. -/
def httpBearer (lib : HttpLibrary) : Option Text → Option Text
  | none => none
  | some header =>
    let scheme := header.takeWhile (· ≠ 32)
    let credentials := (header.dropWhile (· ≠ 32)).drop 1
    if scheme ≠ [] ∧ credentials ≠ [] ∧ lib.lower scheme = text "bearer" then
      some (scheme ++ 32 :: credentials)
    else none

def userIdFromCurrentUser (cfg : AccessSettings) (lib : TokenLibrary) (xUserId : Option Text)
    (user : User) : Except Raised Uuid :=
  match xUserId with
  | some (c :: t) =>
    if cfg.authRequireToken = true then .ok user.id
    else
      match lib.uuid (c :: t) with
      | none => .error (.app (.new .invalidUserIdentifier))
      | some userId => .ok userId
  | _ => .ok user.id

/-- A route of a user as it is called: the header `X-User-ID`, what is raised over a body that is
not JSON, and the action that the parameters validate to. -/
structure UserRoute where
  path : Text
  xUserId : Option Text := none
  malformed : Option (List ValidationItem) := none
  action : Except (List ValidationItem) ApiAction
  served : ∀ a, action = .ok a → a.served = true

/-- What the router finds for a request. An open route reads no tables. -/
inductive Endpoint
  | missing (error : HttpException)
  | anyone (path : Text) (result : Except Raised (RouteResult ApiData))
  | user (route : UserRoute)

structure RadarRequest where
  moment : Moment
  now : Time
  request : Request
  endpoint : Endpoint

structure RadarServer where
  lib : HttpLibrary
  cfg : HttpSettings
  cors : Cors ApiData
  tokens : TokenLibrary
  access : AccessSettings
  ctx : ApiContext

namespace RadarServer

variable (r : RadarServer)

/-- The dependencies of a route are resolved before its parameters are judged. -/
def serve (route : UserRoute) (now : Time) (authorization : Option Text) (s : ApiState) :
    ApiState × Except Raised (RouteResult ApiData) :=
  match route.malformed with
  | some errors => (s, .error (.validation errors))
  | none =>
    match getCurrentUser r.tokens r.access now s.auth (httpBearer r.lib authorization) with
    | (auth, .error e) => ({ s with auth := auth }, .error e.raised)
    | (auth, .ok current) =>
      let s := { s with auth := auth }
      match userIdFromCurrentUser r.access r.tokens route.xUserId current.user with
      | .error e => (s, .error e)
      | .ok userId =>
        match route.action with
        | .error errors => (s, .error (.validation errors))
        | .ok action =>
          let (s, result) := s.act r.ctx userId action
          (s, (result.mapError (·.raised)).map action.respond)

def app (a : RadarRequest) : Application ApiState ApiData := fun request _ s =>
  match a.endpoint with
  | .missing error => (s, none, .error (.http error))
  | .anyone path result => (s, some path, result)
  | .user route =>
    let (s, result) := r.serve route a.now request.authorization s
    (s, some route.path, result)

def web (a : RadarRequest) : WebApp ApiState ApiData := ⟨r.lib, r.cfg, r.cors, r.app a⟩

def handle (a : RadarRequest) (server : Server ApiState) : Server ApiState × Response ApiData :=
  let (conn, response) := (r.web a).handle a.moment a.request server
  (conn.toServer, response)

end RadarServer

end Http

end JobRadar
