import JobRadar.Table

namespace JobRadar

open Database

abbrev Uuid := Nat

/-- Instants and spans of time, in microseconds. -/
abbrev Time := Nat

def timedeltaDays (days : Nat) : Time := days * 86400000000

def timedeltaMinutes (minutes : Nat) : Time := minutes * 60000000

/-- The library functions the service calls on text. The digest of a refresh token
is one to one; passwords are salted, and the salt is drawn by the caller. -/
structure Primitives where
  lower : String → String
  hashRefreshToken : String → String
  hashRefreshToken_injective : Function.Injective hashRefreshToken
  hashPassword : (salt password : String) → String
  verifyPassword : (password hashed : String) → Bool
  verify_hashPassword : ∀ salt password, verifyPassword password (hashPassword salt password) = true

/-- Primitives to compute with: every digest is the text itself. -/
def Primitives.plain : Primitives where
  lower text := text
  hashRefreshToken token := token
  hashRefreshToken_injective := Function.injective_id
  hashPassword _ password := password
  verifyPassword password hashed := password == hashed
  verify_hashPassword := by simp

theorem one_le_five : 1 ≤ 5 := by omega

theorem one_le_ten : 1 ≤ 10 := by omega

theorem one_le_fifteen : 1 ≤ 15 := by omega

structure Settings where
  jwtSecretKey : String := "local-development-secret-change-me"
  jwtIssuer : String := "job-radar-agent"
  accessTokenExpireMinutes : Nat := 15
  refreshTokenExpireDays : Nat := 30
  defaultUserRole : String := "user"
  initialAdminEmail : Option String := none
  authSessionManagementEnabled : Bool := false
  authPasswordResetEnabled : Bool := false
  authEmailVerificationEnabled : Bool := false
  authAccountLockoutEnabled : Bool := false
  authMaxLoginAttempts : Nat := 5
  authLockoutMinutes : Nat := 15
  authOtpExpireMinutes : Nat := 10
  one_le_authMaxLoginAttempts : 1 ≤ authMaxLoginAttempts := by
    first | exact one_le_five | omega
  one_le_authLockoutMinutes : 1 ≤ authLockoutMinutes := by
    first | exact one_le_fifteen | omega
  one_le_authOtpExpireMinutes : 1 ≤ authOtpExpireMinutes := by
    first | exact one_le_ten | omega

inductive UserStatus
  | active
  | pendingVerification
  | disabled
  deriving DecidableEq

structure User where
  id : Uuid
  email : Option String := none
  passwordHash : Option String := none
  status : UserStatus := .active
  emailVerifiedAt : Option Time := none
  failedLoginAttempts : Nat := 0
  lockedUntil : Option Time := none
  deriving DecidableEq

structure Role where
  id : Uuid
  name : String
  description : Option String
  isActive : Bool := true
  deriving DecidableEq

structure UserRole where
  userId : Uuid
  roleId : Uuid
  deriving DecidableEq

structure RefreshToken where
  id : Uuid
  userId : Uuid
  sessionId : Option Uuid
  tokenHash : String
  familyId : Uuid
  expiresAt : Time
  revokedAt : Option Time := none
  deriving DecidableEq

structure SessionMetadata where
  deviceName : Option String := none
  userAgent : Option String := none
  ipAddress : Option String := none
  deriving DecidableEq

structure AuthSession where
  id : Uuid
  userId : Uuid
  metadata : SessionMetadata
  revokedAt : Option Time := none
  deriving DecidableEq

inductive CodePurpose
  | emailVerification
  | passwordReset
  deriving DecidableEq

structure VerificationCode where
  id : Uuid
  userId : Uuid
  purpose : CodePurpose
  codeHash : String
  expiresAt : Time
  consumedAt : Option Time := none
  deriving DecidableEq

/-- The committed rows the authentication service reads and writes. -/
structure AuthDb where
  users : Table User.id := .empty
  roles : Table Role.name := .empty
  userRoles : Table (id : UserRole → UserRole) := .empty
  sessions : Table AuthSession.id := .empty
  tokens : Table RefreshToken.tokenHash := .empty
  codes : Table VerificationCode.id := .empty

inductive AuthError
  | userAlreadyExists
  | accountLocked
  | invalidCredentials
  | emailVerificationRequired
  | invalidRefreshToken
  | refreshTokenReplay
  | invalidVerificationCode
  | featureNotAvailable
  | sessionManagementDisabled
  | currentSessionUnavailable
  | sessionNotFound
  | dataConflict
  deriving DecidableEq

/-- The claims of an access token, with the key they are signed with. -/
structure AccessToken where
  sub : Uuid
  email : Option String
  roles : List String
  jti : Uuid
  iat : Time
  exp : Time
  iss : String
  sid : Option Uuid
  secret : String
  deriving DecidableEq

structure TokenPair where
  access : AccessToken
  refresh : String
  deriving DecidableEq

/-- What `issue_tokens` draws from outside: the clock and the random identifiers. -/
structure TokenDraw where
  issuedAt : Time
  refresh : String
  tokenId : Uuid
  familyId : Uuid
  sessionId : Uuid
  jti : Uuid

end JobRadar
