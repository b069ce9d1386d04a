import JobRadar.TokenRows
import Mathlib.Logic.Relation

namespace JobRadar

open Database

inductive AuthOp
  | register (draw : RegisterDraw) (email password : String)
  | login (email password : String) (metadata : SessionMetadata)
  | refresh (rawToken : String)
  | logout (rawToken : String)
  | revokeSession (userId sessionId : Uuid)
  | revokeOtherSessions (userId : Uuid) (currentSessionId : Option Uuid)
  | issueCode (draw : CodeDraw) (email : String) (purpose : CodePurpose)
  | verifyEmail (email code : String)
  | resetPassword (salt email code password : String)

/-- What a call takes from its deployment and surroundings. -/
structure AuthEnv where
  cfg : Settings
  now : Time
  draw : TokenDraw

/-- The database, with the record of which token was returned for which presented one. -/
structure AuthHistory where
  db : AuthDb
  rotations : List (String × String) := []

def AuthDb.reply (P : Primitives) (e : AuthEnv) (db : AuthDb) : AuthOp → Option TokenPair
  | .login email password metadata =>
    (login P e.cfg e.now e.draw db email password metadata).2.toOption
  | .refresh rawToken => (refresh P e.cfg e.now e.draw db rawToken).2.toOption
  | _ => none

def AuthDb.commit (P : Primitives) (e : AuthEnv) (db : AuthDb) : AuthOp → AuthDb
  | .register draw email password => (register P e.cfg draw db email password).1
  | .login email password metadata => (login P e.cfg e.now e.draw db email password metadata).1
  | .refresh rawToken => (refresh P e.cfg e.now e.draw db rawToken).1
  | .logout rawToken => logout P e.cfg e.now db rawToken
  | .revokeSession userId sessionId => (revokeSession e.cfg e.now db userId sessionId).1
  | .revokeOtherSessions userId current => (revokeOtherSessions e.cfg e.now db userId current).1
  | .issueCode draw email purpose => (issueCode P e.cfg draw db email purpose).1
  | .verifyEmail email code => (verifyEmail P e.cfg e.now db email code).1
  | .resetPassword salt email code password =>
    (resetPassword P e.cfg e.now salt db email code password).1

def AuthDb.call (P : Primitives) (db : AuthDb) (c : AuthEnv × AuthOp) : AuthDb :=
  db.commit P c.1 c.2

def AuthDb.rotation (P : Primitives) (e : AuthEnv) (db : AuthDb) : AuthOp → List (String × String)
  | .refresh rawToken =>
    (db.reply P e (.refresh rawToken)).toList.map fun pair => (rawToken, pair.refresh)
  | _ => []

def AuthHistory.step (P : Primitives) (e : AuthEnv) (h : AuthHistory) (op : AuthOp) :
    AuthHistory where
  db := h.db.commit P e op
  rotations := h.db.rotation P e op ++ h.rotations

/-- `uuid4` and `token_urlsafe` give values no row carries yet. -/
structure FreshDraw (P : Primitives) (db : AuthDb) (d : TokenDraw) : Prop where
  refresh : db.refreshToken (P.hashRefreshToken d.refresh) = none
  familyId : ∀ tokenHash token, db.refreshToken tokenHash = some token → token.familyId ≠ d.familyId
  sessionId : db.sessions.find d.sessionId = none

theorem freshDraw_of_rows {P : Primitives} {db : AuthDb} {d : TokenDraw}
    (htokens : ∀ t ∈ db.tokens.rows,
      t.tokenHash ≠ P.hashRefreshToken d.refresh ∧ t.familyId ≠ d.familyId)
    (hsessions : ∀ s ∈ db.sessions.rows, s.id ≠ d.sessionId) : FreshDraw P db d := by
  refine ⟨Table.find_eq_none_iff.mpr fun t ht => (htokens t ht).1, ?_, ?_⟩
  · intro tokenHash token hf
    exact (htokens token (Table.find_eq_some_iff.mp hf).1).2
  · exact Table.find_eq_none_iff.mpr hsessions

/-- States reached from a database without tokens by calls made one after another,
in deployments and with calls that `allowed` admits. -/
inductive Reachable (P : Primitives) (allowed : AuthEnv → AuthOp → Prop) : AuthHistory → Prop
  | init {db} : db.tokens = .empty → db.sessions = .empty → Reachable P allowed { db := db }
  | step {h} (e : AuthEnv) (op : AuthOp) : Reachable P allowed h → allowed e op →
      FreshDraw P h.db e.draw → Reachable P allowed (h.step P e op)

/-- `raw'` was returned by a successful refresh that presented `raw`. -/
def AuthHistory.Successor (h : AuthHistory) (raw raw' : String) : Prop :=
  (raw, raw') ∈ h.rotations

def AuthHistory.Descends (h : AuthHistory) : String → String → Prop :=
  Relation.TransGen h.Successor

/-- The presented token has a row, and that row is revoked. -/
def AuthDb.TokenRevoked (P : Primitives) (db : AuthDb) (raw : String) : Prop :=
  ∃ token, db.refreshToken (P.hashRefreshToken raw) = some token ∧ token.revokedAt ≠ none

instance (P : Primitives) (db : AuthDb) (raw : String) : Decidable (db.TokenRevoked P raw) :=
  match h : db.refreshToken (P.hashRefreshToken raw) with
  | none => isFalse (by simp [AuthDb.TokenRevoked, h])
  | some token => decidable_of_iff (token.revokedAt ≠ none) (by simp [AuthDb.TokenRevoked, h])

theorem tokenRevoked_of_effect {P : Primitives} {db db' : AuthDb} {issued : Option RefreshToken}
    {raw : String} (heff : TokenEffect db db' issued) (h : db.TokenRevoked P raw) :
    db'.TokenRevoked P raw := by
  obtain ⟨token, hf, hrev⟩ := h
  obtain ⟨new, hn, hk⟩ := heff.forward hf
  exact ⟨new, hn, by rw [hk.revoked hrev]; exact hrev⟩

def ann : User where
  id := 1
  email := some "ann@example.com"
  passwordHash := some "correct horse"

def annDb : AuthDb where
  users := ⟨[ann], by decide⟩

def callAt (now : Time) (raw : String) (cfg : Settings) : AuthEnv where
  cfg := cfg
  now := now
  draw := ⟨now, raw, now, now, now, now⟩

def annLoggedIn : AuthHistory :=
  AuthHistory.step .plain (callAt 1 "first" {}) { db := annDb }
    (.login "ann@example.com" "correct horse" {})

end JobRadar
