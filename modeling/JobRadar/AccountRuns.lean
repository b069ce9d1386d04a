import JobRadar.CurrentUser
import JobRadar.Sequence
import JobRadar.UserRows

namespace JobRadar

open Database Sequence

/-- The surroundings of a call that may also come without a token. -/
structure AccessEnv extends AuthEnv where
  authRequireToken : Bool := false

def AccessEnv.settings (e : AccessEnv) : AccessSettings :=
  { e.cfg with authRequireToken := e.authRequireToken }

/-- What adds, changes or reads accounts: the calls of the authentication service, a check of
credentials alone, the user lookup of a request, and the provisioning by preferences or sources. -/
inductive AccessOp
  | auth (op : AuthOp)
  | authenticate (email password : String)
  | request (authorization : Option Python.Text)
  | ensureUser (userId : Uuid)

def AuthDb.ensureUser (db : AuthDb) (userId : Uuid) : AuthDb :=
  match db.user userId with
  | some _ => db
  | none =>
    match db.users.insert { id := userId } with
    | none => db
    | some users => { db with users := users }

def AuthDb.account (P : Primitives) (lib : TokenLibrary) (db : AuthDb) :
    AccessEnv × AccessOp → AuthDb
  | (e, .auth op) => db.commit P e.toAuthEnv op
  | (e, .authenticate email password) => (authenticate P e.cfg e.now db email password).1
  | (e, .request authorization) => (getCurrentUser lib e.settings e.now db authorization).1
  | (_, .ensureUser userId) => db.ensureUser userId

def AuthDb.granted (P : Primitives) (db : AuthDb) : AccessEnv × AccessOp → Option TokenPair
  | (e, .auth op) => db.reply P e.toAuthEnv op
  | _ => none

section Provisioning

variable {P : Primitives} {lib : TokenLibrary} {db : AuthDb} {userId : Uuid} {user : User}

theorem ensureUser_untouched (db : AuthDb) (userId : Uuid) :
    db.Untouched (db.ensureUser userId) := by
  unfold AuthDb.ensureUser
  split
  next => exact ⟨rfl, rfl⟩
  next => split <;> exact ⟨rfl, rfl⟩

theorem openLocalUser_untouched (db : AuthDb) : db.Untouched db.openLocalUser.1 := by
  unfold AuthDb.openLocalUser
  split
  next => exact ⟨rfl, rfl⟩
  next =>
    split
    next => exact ⟨rfl, rfl⟩
    next => split <;> exact ⟨rfl, rfl⟩

theorem getCurrentUser_eq (lib : TokenLibrary) (cfg : AccessSettings) (now : Time) (db : AuthDb)
    (authorization : Option Python.Text) :
    (getCurrentUser lib cfg now db authorization).1 = db ∨
      (getCurrentUser lib cfg now db authorization).1 = db.openLocalUser.1 := by
  unfold getCurrentUser
  split
  next =>
    split
    next => exact Or.inl rfl
    next => exact Or.inr rfl
  next =>
    split
    next => split <;> exact Or.inl rfl
    next => exact Or.inl rfl

theorem ensureUser_user (h : db.user userId = some user) (newId : Uuid) :
    (db.ensureUser newId).user userId = some user := by
  unfold AuthDb.ensureUser
  split
  next => exact h
  next =>
    split
    next => exact h
    next hi => exact Table.find_of_insert_of_find hi h

theorem openLocalUser_user (h : db.user userId = some user) :
    db.openLocalUser.1.user userId = some user := by
  unfold AuthDb.openLocalUser
  split
  next => exact h
  next =>
    split
    next => exact h
    next =>
      split
      next => exact h
      next hi => exact Table.find_of_insert_of_find hi h

theorem getCurrentUser_untouched (cfg : AccessSettings) (now : Time)
    (authorization : Option Python.Text) :
    db.Untouched (getCurrentUser lib cfg now db authorization).1 := by
  rcases getCurrentUser_eq lib cfg now db authorization with h | h
  · rw [h]
    exact ⟨rfl, rfl⟩
  · rw [h]
    exact openLocalUser_untouched db

theorem getCurrentUser_user (cfg : AccessSettings) (now : Time)
    (authorization : Option Python.Text) (h : db.user userId = some user) :
    (getCurrentUser lib cfg now db authorization).1.user userId = some user := by
  rcases getCurrentUser_eq lib cfg now db authorization with he | he
  · rw [he]
    exact h
  · rw [he]
    exact openLocalUser_user h

end Provisioning

end JobRadar
