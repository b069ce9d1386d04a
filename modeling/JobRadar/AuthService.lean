import JobRadar.AuthRepository

namespace JobRadar

/-- A call leaves a committed database and returns a value or raises. -/
abbrev AuthOutcome (α : Type) := AuthDb × Except AuthError α

structure RegisterDraw where
  userId : Uuid
  salt : String
  roleId : Uuid
  adminRoleId : Uuid

/-- The role of that name, created on the spot (and committed) when it does not exist. -/
def roleOrCreate (db : AuthDb) (roleId : Uuid) (name description : String) :
    Except AuthError (AuthDb × Role) :=
  match db.role name with
  | some role => .ok (db, role)
  | none => db.createRole roleId name (some description)

def register (P : Primitives) (cfg : Settings) (d : RegisterDraw) (db : AuthDb)
    (email password : String) : AuthOutcome User :=
  let email := P.lower email
  match db.userByEmail P email with
  | some _ => (db, .error .userAlreadyExists)
  | none =>
    let user : User :=
      { id := d.userId
        email := some email
        passwordHash := some (P.hashPassword d.salt password)
        status := if cfg.authEmailVerificationEnabled then .pendingVerification else .active }
    match db.users.insert user with
    | none => (db, .error .dataConflict)
    | some users =>
      match roleOrCreate { db with users := users } d.roleId cfg.defaultUserRole
          "Default user role" with
      | .error e => (db, .error e)
      | .ok (db₁, role) =>
        let db₂ := db₁.assignRole user.id role.id
        if cfg.initialAdminEmail ≠ some "" ∧ cfg.initialAdminEmail.map P.lower = some email then
          match roleOrCreate db₂ d.adminRoleId "admin" "Administrator role" with
          | .error e => (db₂, .error e)
          | .ok (db₃, adminRole) => (db₃.assignRole user.id adminRole.id, .ok user)
        else (db₂, .ok user)

/-- The failed login is counted, and from the threshold on the account is locked. -/
def recordFailedLogin (cfg : Settings) (now : Time) (user : User) : User :=
  let attempts := user.failedLoginAttempts + 1
  { user with
    failedLoginAttempts := attempts
    lockedUntil := if cfg.authMaxLoginAttempts ≤ attempts
      then some (now + timedeltaMinutes cfg.authLockoutMinutes) else user.lockedUntil }

def clearFailedLogins (user : User) : User :=
  { user with failedLoginAttempts := 0, lockedUntil := none }

def User.lockedAt (user : User) (now : Time) : Prop :=
  ∃ u, user.lockedUntil = some u ∧ now < u

instance (user : User) (now : Time) : Decidable (user.lockedAt now) :=
  match h : user.lockedUntil with
  | none => isFalse (by simp [User.lockedAt, h])
  | some u => decidable_of_iff (now < u) (by simp [User.lockedAt, h])

def User.admits (P : Primitives) (cfg : Settings) (user : User) (password : String) : Prop :=
  (∃ hashed, user.passwordHash = some hashed ∧ P.verifyPassword password hashed = true) ∧
    (user.status = .active ∨
      cfg.authEmailVerificationEnabled = true ∧ user.status = .pendingVerification)

instance (P : Primitives) (cfg : Settings) (user : User) (password : String) :
    Decidable (user.admits P cfg password) :=
  have : Decidable (∃ hashed, user.passwordHash = some hashed ∧
      P.verifyPassword password hashed = true) :=
    match h : user.passwordHash with
    | none => isFalse (by simp)
    | some hashed => decidable_of_iff (P.verifyPassword password hashed = true) (by simp)
  inferInstanceAs (Decidable (_ ∧ _))

def authenticate (P : Primitives) (cfg : Settings) (now : Time) (db : AuthDb)
    (email password : String) : AuthOutcome User :=
  match db.userByEmail P (P.lower email) with
  | none => (db, .error .invalidCredentials)
  | some user =>
    if cfg.authAccountLockoutEnabled = true ∧ user.lockedAt now then (db, .error .accountLocked)
    else if user.admits P cfg password then
      if cfg.authEmailVerificationEnabled = true ∧ user.emailVerifiedAt = none then
        (db, .error .emailVerificationRequired)
      else if cfg.authAccountLockoutEnabled = true then
        (db.updateUser user.id clearFailedLogins fun _ => rfl, .ok (clearFailedLogins user))
      else (db, .ok user)
    else if cfg.authAccountLockoutEnabled = true then
      (db.updateUser user.id (recordFailedLogin cfg now) fun _ => rfl, .error .invalidCredentials)
    else (db, .error .invalidCredentials)

def createAccessToken (cfg : Settings) (d : TokenDraw) (user : User) (roles : List String)
    (sessionId : Option Uuid) : AccessToken where
  sub := user.id
  email := user.email
  roles := roles
  jti := d.jti
  iat := d.issuedAt
  exp := d.issuedAt + timedeltaMinutes cfg.accessTokenExpireMinutes
  iss := cfg.jwtIssuer
  sid := sessionId
  secret := cfg.jwtSecretKey

/-- With session management on, a call without a session opens one; it is flushed here
and committed together with the token. -/
def openSession (cfg : Settings) (d : TokenDraw) (db : AuthDb) (user : User)
    (sessionId : Option Uuid) (metadata : SessionMetadata) :
    Except AuthError (AuthDb × Option Uuid) :=
  if cfg.authSessionManagementEnabled = true ∧ sessionId = none then
    (db.saveAuthSession { id := d.sessionId, userId := user.id, metadata := metadata }).map
      fun db => (db, some d.sessionId)
  else .ok (db, sessionId)

def newRefreshToken (P : Primitives) (cfg : Settings) (d : TokenDraw) (user : User)
    (sessionId : Option Uuid) : RefreshToken where
  id := d.tokenId
  userId := user.id
  sessionId := sessionId
  tokenHash := P.hashRefreshToken d.refresh
  familyId := d.familyId
  expiresAt := d.issuedAt + timedeltaDays cfg.refreshTokenExpireDays

/-- The part of `issue_tokens` after it read the roles. -/
def storeTokens (P : Primitives) (cfg : Settings) (d : TokenDraw) (db : AuthDb) (user : User)
    (roles : List String) (sessionId : Option Uuid) (metadata : SessionMetadata) :
    AuthOutcome TokenPair :=
  match openSession cfg d db user sessionId metadata with
  | .error e => (db, .error e)
  | .ok (opened, sessionId) =>
    match opened.saveRefreshToken (newRefreshToken P cfg d user sessionId) with
    | .error e => (db, .error e)
    | .ok saved => (saved, .ok ⟨createAccessToken cfg d user roles sessionId, d.refresh⟩)

def issueTokens (P : Primitives) (cfg : Settings) (d : TokenDraw) (db : AuthDb) (user : User)
    (sessionId : Option Uuid) (metadata : SessionMetadata) : AuthOutcome TokenPair :=
  storeTokens P cfg d db user (db.rolesOf user.id) sessionId metadata

/-- The check `refresh` makes on the row it selected. -/
def RefreshToken.usable (token : RefreshToken) (now : Time) : Prop :=
  token.revokedAt = none ∧ now < token.expiresAt

instance (token : RefreshToken) (now : Time) : Decidable (token.usable now) :=
  inferInstanceAs (Decidable (_ ∧ _))

/-- What is raised for a row that is not usable. -/
def RefreshToken.refusal (token : RefreshToken) : AuthError :=
  if token.revokedAt ≠ none then .refreshTokenReplay else .invalidRefreshToken

/-- The user a rotated token is reissued to, if the account is still active. -/
def AuthDb.activeUser (db : AuthDb) (userId : Uuid) : Option User :=
  (db.user userId).filter fun u => u.status = .active

def refresh (P : Primitives) (cfg : Settings) (now : Time) (d : TokenDraw) (db : AuthDb)
    (rawToken : String) : AuthOutcome TokenPair :=
  match db.refreshToken (P.hashRefreshToken rawToken) with
  | none => (db, .error .invalidRefreshToken)
  | some token =>
    if token.usable now then
      let db := db.revokeTokens token.familyId now
      match db.activeUser token.userId with
      | none => (db, .error .invalidRefreshToken)
      | some user => issueTokens P cfg d db user token.sessionId {}
    else (db.revokeTokens token.familyId now, .error token.refusal)

def revokeSession (cfg : Settings) (now : Time) (db : AuthDb) (userId sessionId : Uuid) :
    AuthOutcome Unit :=
  if cfg.authSessionManagementEnabled = true then
    match db.revokeAuthSession sessionId userId now with
    | (db, true) => (db, .ok ())
    | (db, false) => (db, .error .sessionNotFound)
  else (db, .error .sessionManagementDisabled)

def revokeOtherSessions (cfg : Settings) (now : Time) (db : AuthDb) (userId : Uuid)
    (currentSessionId : Option Uuid) : AuthOutcome Nat :=
  match currentSessionId with
  | none => (db, .error .currentSessionUnavailable)
  | some current =>
    if cfg.authSessionManagementEnabled = true then
      let (db, count) := db.revokeOtherAuthSessions userId current now
      (db, .ok count)
    else (db, .error .sessionManagementDisabled)

structure CodeDraw where
  issuedAt : Time
  recordId : Uuid
  code : String

def issueCode (P : Primitives) (cfg : Settings) (d : CodeDraw) (db : AuthDb) (email : String)
    (purpose : CodePurpose) : AuthOutcome (Option String) :=
  match db.userByEmail P (P.lower email) with
  | none => (db, .ok none)
  | some user =>
    let record : VerificationCode :=
      { id := d.recordId
        userId := user.id
        purpose := purpose
        codeHash := P.hashRefreshToken d.code
        expiresAt := d.issuedAt + timedeltaMinutes cfg.authOtpExpireMinutes }
    match db.saveVerificationCode record with
    | .error e => (db, .error e)
    | .ok db => (db, .ok (some d.code))

/-- The user and the live record a presented code stands for. -/
def presentedCode (P : Primitives) (now : Time) (db : AuthDb) (email code : String)
    (purpose : CodePurpose) : Option (User × VerificationCode) :=
  match db.userByEmail P (P.lower email) with
  | none => none
  | some user =>
    ((db.verificationCode user.id purpose (P.hashRefreshToken code)).filter
      fun record => now < record.expiresAt).map fun record => (user, record)

def markVerified (now : Time) (user : User) : User :=
  { user with emailVerifiedAt := some now, status := .active }

def verifyEmail (P : Primitives) (cfg : Settings) (now : Time) (db : AuthDb)
    (email code : String) : AuthOutcome Unit :=
  if cfg.authEmailVerificationEnabled = true then
    match presentedCode P now db email code .emailVerification with
    | none => (db, .error .invalidVerificationCode)
    | some (user, record) =>
      ((db.consumeCode record now).updateUser user.id (markVerified now) fun _ => rfl, .ok ())
  else (db, .error .featureNotAvailable)

def setPassword (P : Primitives) (salt password : String) (user : User) : User :=
  { user with passwordHash := some (P.hashPassword salt password) }

def resetPassword (P : Primitives) (cfg : Settings) (now : Time) (salt : String) (db : AuthDb)
    (email code password : String) : AuthOutcome Unit :=
  if cfg.authPasswordResetEnabled = true then
    match presentedCode P now db email code .passwordReset with
    | none => (db, .error .invalidVerificationCode)
    | some (user, record) =>
      (((db.consumeCode record now).updateUser user.id (setPassword P salt password)
        fun _ => rfl).revokeUserTokens user.id now, .ok ())
  else (db, .error .featureNotAvailable)

/-- The logout route: the family of the presented token, and with session management on
the session the token belongs to. -/
def logout (P : Primitives) (cfg : Settings) (now : Time) (db : AuthDb) (rawToken : String) :
    AuthDb :=
  match db.refreshToken (P.hashRefreshToken rawToken) with
  | none => db
  | some token =>
    let db := db.revokeTokens token.familyId now
    match cfg.authSessionManagementEnabled, token.sessionId with
    | true, some sessionId => (db.revokeAuthSession sessionId token.userId now).1
    | _, _ => db

/-- The login route: the credentials, then the tokens of a new lineage. -/
def login (P : Primitives) (cfg : Settings) (now : Time) (d : TokenDraw) (db : AuthDb)
    (email password : String) (metadata : SessionMetadata) : AuthOutcome TokenPair :=
  match authenticate P cfg now db email password with
  | (db, .error e) => (db, .error e)
  | (db, .ok user) => issueTokens P cfg d db user none metadata

end JobRadar
