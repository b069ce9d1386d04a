import JobRadar.AuthModel

namespace JobRadar

open Database

namespace RefreshToken

def revoke (now : Time) (token : RefreshToken) : RefreshToken :=
  { token with revokedAt := some now }

@[simp] theorem revoke_revokedAt (now : Time) (token : RefreshToken) :
    (token.revoke now).revokedAt = some now := rfl

end RefreshToken

def AuthSession.revoke (now : Time) (session : AuthSession) : AuthSession :=
  { session with revokedAt := some now }

namespace AuthDb

def userByEmail (P : Primitives) (db : AuthDb) (email : String) : Option User :=
  db.users.rows.find? fun u => u.email = some (P.lower email)

def user (db : AuthDb) (userId : Uuid) : Option User :=
  db.users.find userId

/-- The names of the active roles assigned to the user. -/
def rolesOf (db : AuthDb) (userId : Uuid) : List String :=
  (db.roles.rows.filter fun r => r.isActive ∧ (⟨userId, r.id⟩ : UserRole) ∈ db.userRoles.rows).map
    Role.name

def role (db : AuthDb) (name : String) : Option Role :=
  db.roles.find name

/-- A role needs an id and a name that no other one has. -/
def insertRole (db : AuthDb) (role : Role) : Option (Table Role.name) :=
  if ∃ old ∈ db.roles.rows, old.id = role.id then none else db.roles.insert role

def createRole (db : AuthDb) (roleId : Uuid) (name : String) (description : Option String) :
    Except AuthError (AuthDb × Role) :=
  let role : Role := { id := roleId, name := name, description := description }
  match db.insertRole role with
  | none => .error .dataConflict
  | some roles => .ok ({ db with roles := roles }, role)

def assignRole (db : AuthDb) (userId roleId : Uuid) : AuthDb :=
  match db.userRoles.insert ⟨userId, roleId⟩ with
  | none => db
  | some userRoles => { db with userRoles := userRoles }

/-- `UPDATE refresh_tokens SET revoked_at = now WHERE p AND revoked_at IS NULL`. -/
def revokeTokensWhere (db : AuthDb) (p : RefreshToken → Prop) [DecidablePred p] (now : Time) :
    AuthDb :=
  { db with tokens :=
      db.tokens.updateWhere (fun t => p t ∧ t.revokedAt = none) (·.revoke now) fun _ => rfl }

/-- `UPDATE auth_sessions SET revoked_at = now WHERE p`. -/
def revokeSessionsWhere (db : AuthDb) (p : AuthSession → Prop) [DecidablePred p] (now : Time) :
    AuthDb :=
  { db with sessions := db.sessions.updateWhere p (·.revoke now) fun _ => rfl }

def revokeTokens (db : AuthDb) (familyId : Uuid) (now : Time) : AuthDb :=
  db.revokeTokensWhere (fun t => t.familyId = familyId) now

def refreshToken (db : AuthDb) (tokenHash : String) : Option RefreshToken :=
  db.tokens.find tokenHash

/-- The unique constraint on `token_hash` decides whether the commit goes through. -/
def saveRefreshToken (db : AuthDb) (token : RefreshToken) : Except AuthError AuthDb :=
  match db.tokens.insert token with
  | none => .error .dataConflict
  | some tokens => .ok { db with tokens := tokens }

def saveAuthSession (db : AuthDb) (session : AuthSession) : Except AuthError AuthDb :=
  match db.sessions.insert session with
  | none => .error .dataConflict
  | some sessions => .ok { db with sessions := sessions }

def authSession (db : AuthDb) (sessionId userId : Uuid) : Option AuthSession :=
  (db.sessions.find sessionId).filter fun s => s.userId = userId

def authSessions (db : AuthDb) (userId : Uuid) : List AuthSession :=
  db.sessions.rows.filter fun s => s.userId = userId ∧ s.revokedAt = none

def revokeAuthSession (db : AuthDb) (sessionId userId : Uuid) (now : Time) : AuthDb × Bool :=
  match db.authSession sessionId userId with
  | none => (db, false)
  | some session =>
    if session.revokedAt ≠ none then (db, false)
    else ((db.revokeSessionsWhere (fun s => s.id = sessionId) now).revokeTokensWhere
      (fun t => t.sessionId = some sessionId) now, true)

/-- `session_id != current`, which is not true of a row without a session. -/
def OtherSession (current : Uuid) (sessionId : Option Uuid) : Prop :=
  ∃ s, sessionId = some s ∧ s ≠ current

instance (current : Uuid) (sessionId : Option Uuid) : Decidable (OtherSession current sessionId) :=
  match sessionId with
  | none => isFalse (by simp [OtherSession])
  | some s => decidable_of_iff (s ≠ current) (by simp [OtherSession])

def revokeOtherAuthSessions (db : AuthDb) (userId current : Uuid) (now : Time) : AuthDb × Nat :=
  let others := (db.authSessions userId).filter fun s => s.id ≠ current
  if others.length = 0 then (db, 0)
  else ((db.revokeSessionsWhere (fun s => s.id ∈ others.map AuthSession.id) now).revokeTokensWhere
    (fun t => t.userId = userId ∧ OtherSession current t.sessionId) now, others.length)

/-- The query names no order: the first matching row in storage order is returned. -/
def verificationCode (db : AuthDb) (userId : Uuid) (purpose : CodePurpose) (codeHash : String) :
    Option VerificationCode :=
  db.codes.rows.find? fun c =>
    c.userId = userId ∧ c.purpose = purpose ∧ c.codeHash = codeHash ∧ c.consumedAt = none

def saveVerificationCode (db : AuthDb) (code : VerificationCode) : Except AuthError AuthDb :=
  match db.codes.insert code with
  | none => .error .dataConflict
  | some codes => .ok { db with codes := codes }

def consumeCode (db : AuthDb) (record : VerificationCode) (now : Time) : AuthDb :=
  { db with
    codes := db.codes.updateWhere (fun c => c.id = record.id)
      (fun c => { c with consumedAt := some now }) (fun _ => rfl) }

/-- The flush of the changed columns of one loaded user. -/
def updateUser (db : AuthDb) (userId : Uuid) (f : User → User) (hf : ∀ u, (f u).id = u.id) :
    AuthDb :=
  { db with users := db.users.updateWhere (fun u => u.id = userId) f hf }

def revokeUserTokens (db : AuthDb) (userId : Uuid) (now : Time) : AuthDb :=
  (db.revokeTokensWhere (fun t => t.userId = userId) now).revokeSessionsWhere
    (fun s => s.userId = userId ∧ s.revokedAt = none) now

end AuthDb

end JobRadar
