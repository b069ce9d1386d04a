import JobRadar.AuthService
import JobRadar.PythonJson

namespace JobRadar

open Database Python

structure AccessSettings extends Settings where
  authRequireToken : Bool := false

/-- `jwt.decode`, which gives the claims of a token with a good signature, issuer and lifetime,
and `uuid.UUID` on a text. -/
structure TokenLibrary where
  decode : (token : Text) → (secret issuer : String) → Time → Option Dict
  uuid : Text → Option Uuid

inductive AccessError
  | authenticationRequired
  | invalidAccessToken
  | sessionRevoked
  | dataConflict
  | userAlreadyExists
  | attributeError
  deriving DecidableEq

/-- The user, and the session left in the state of the request. -/
structure CurrentUser where
  user : User
  sessionId : Option Uuid
  deriving DecidableEq

def claim (claims : Dict) (key : String) : Json := Dict.getD claims key .null

/-- `uuid.UUID` asks its argument for `replace`, which only a text has. -/
def TokenLibrary.uuidOf (lib : TokenLibrary) : Json → Except AccessError Uuid
  | .str t =>
    match lib.uuid t with
    | none => .error .invalidAccessToken
    | some id => .ok id
  | _ => .error .attributeError

def decodeAccessToken (lib : TokenLibrary) (cfg : Settings) (now : Time) (token : Text) :
    Except AccessError Dict :=
  match lib.decode token cfg.jwtSecretKey cfg.jwtIssuer now with
  | none => .error .invalidAccessToken
  | some claims =>
    if (claim claims "type").asStr = some (text "access") ∧ (claim claims "sub").truthy then
      .ok claims
    else .error .invalidAccessToken

/-- The `sid` of the claims, if there is one. -/
def sessionClaim (lib : TokenLibrary) (claims : Dict) : Except AccessError (Option Uuid) :=
  if (claim claims "sid").truthy then (lib.uuidOf (claim claims "sid")).map some else .ok none

def bearer : Text := text "Bearer "

def tokenIdentity (lib : TokenLibrary) (cfg : Settings) (now : Time) (token : Text) :
    Except AccessError (Uuid × Option Uuid) :=
  match decodeAccessToken lib cfg now token with
  | .error e => .error e
  | .ok claims =>
    match lib.uuidOf (claim claims "sub") with
    | .error e => .error e
    | .ok userId => (sessionClaim lib claims).map fun sessionId => (userId, sessionId)

def localUser : User where
  id := 1
  email := some "local@example.com"

/-- Without a header a deployment that requires no token works as the local user, who is added
unless the address is taken. -/
def AuthDb.openLocalUser (db : AuthDb) : AuthDb × Except AccessError CurrentUser :=
  match db.user localUser.id with
  | some user => (db, .ok ⟨user, none⟩)
  | none =>
    if ∃ user ∈ db.users.rows, user.email = localUser.email then (db, .error .userAlreadyExists)
    else
      match db.users.insert localUser with
      | none => (db, .error .dataConflict)
      | some users => ({ db with users := users }, .ok ⟨localUser, none⟩)

/-- The checks on the rows a token names; the session is checked before the user. -/
def AuthDb.identifiedUser (cfg : Settings) (db : AuthDb) (userId : Uuid) (sessionId : Option Uuid) :
    Except AccessError CurrentUser :=
  if cfg.authSessionManagementEnabled = true then
    match sessionId.bind fun s => db.authSession s userId with
    | none => .error .sessionRevoked
    | some session =>
      if session.revokedAt ≠ none then .error .sessionRevoked
      else
        match db.activeUser userId with
        | none => .error .invalidAccessToken
        | some user => .ok ⟨user, some session.id⟩
  else
    match db.activeUser userId with
    | none => .error .invalidAccessToken
    | some user => .ok ⟨user, none⟩

def getCurrentUser (lib : TokenLibrary) (cfg : AccessSettings) (now : Time) (db : AuthDb)
    (authorization : Option Text) : AuthDb × Except AccessError CurrentUser :=
  match authorization with
  | none =>
    if cfg.authRequireToken = true then (db, .error .authenticationRequired)
    else db.openLocalUser
  | some header =>
    if header.startsWith bearer then
      match tokenIdentity lib cfg.toSettings now (header.drop bearer.length) with
      | .error e => (db, .error e)
      | .ok (userId, sessionId) => (db, db.identifiedUser cfg.toSettings userId sessionId)
    else (db, .error .authenticationRequired)

/-- The header carries an access token whose `sid` is the session. -/
def CarriesSession (lib : TokenLibrary) (cfg : Settings) (now : Time) (authorization : Option Text)
    (s : Uuid) : Prop :=
  ∃ token userId, authorization = some (bearer ++ token) ∧
    tokenIdentity lib cfg now token = .ok (userId, some s)

variable {lib : TokenLibrary} {cfg : AccessSettings} {now : Time} {db : AuthDb} {s : Uuid}

theorem getCurrentUser_revoked (hmanaged : cfg.authSessionManagementEnabled = true)
    (hrevoked : ∀ session, db.sessions.find s = some session → session.revokedAt ≠ none)
    {authorization : Option Text}
    (hcarries : CarriesSession lib cfg.toSettings now authorization s) :
    getCurrentUser lib cfg now db authorization = (db, .error .sessionRevoked) := by
  obtain ⟨token, userId, rfl, hidentity⟩ := hcarries
  have hstart : Text.startsWith (bearer ++ token) bearer = true :=
    List.isPrefixOf_iff_prefix.mpr (List.prefix_append bearer token)
  have hidentified : db.identifiedUser cfg.toSettings userId (some s) = .error .sessionRevoked := by
    simp only [AuthDb.identifiedUser, hmanaged, if_true, Option.bind_some]
    split
    next => rfl
    next session hsession =>
      have hrow : db.sessions.find s = some session := (Option.filter_eq_some_iff.mp hsession).1
      rw [if_pos (hrevoked session hrow)]
  simp only [getCurrentUser, hstart, if_true, List.drop_left, hidentity, hidentified]

end JobRadar
