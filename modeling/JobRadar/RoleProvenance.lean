import JobRadar.AccountDeletion
import JobRadar.AccountRuns
import JobRadar.SessionRevocation

namespace JobRadar

open Database Sequence

inductive RoleError
  | access (error : AccessError)
  | permissionDenied
  | auth (error : AuthError)
  | userOrRoleNotFound
  deriving DecidableEq

def requireRole (role : String) (lib : TokenLibrary) (cfg : AccessSettings) (now : Time)
    (db : AuthDb) (authorization : Option Python.Text) : AuthDb × Except RoleError CurrentUser :=
  match getCurrentUser lib cfg now db authorization with
  | (db, .error e) => (db, .error (.access e))
  | (db, .ok current) =>
    if role ∈ db.rolesOf current.user.id then (db, .ok current) else (db, .error .permissionDenied)

/-- `AuthService.assign_role`. -/
def AuthDb.assignRoleTo (db : AuthDb) (userId : Uuid) (roleName : String) :
    AuthDb × Except RoleError Unit :=
  match db.user userId, db.role roleName with
  | some _, some role => (db.assignRole userId role.id, .ok ())
  | _, _ => (db, .error .userOrRoleNotFound)

/-- What creates, deletes and provisions users, and creates and assigns roles. -/
inductive RoleOp
  | account (op : AccessOp)
  | createRole (authorization : Option Python.Text) (roleId : Uuid) (name : String)
      (description : Option String)
  | assignRole (authorization : Option Python.Text) (userId : Uuid) (roleName : String)
  | deleteUser (userId : Uuid)

namespace AuthDb

def createRoleRoute (lib : TokenLibrary) (e : AccessEnv) (db : AuthDb)
    (authorization : Option Python.Text) (roleId : Uuid) (name : String)
    (description : Option String) : AuthDb × Except RoleError Role :=
  match requireRole "admin" lib e.settings e.now db authorization with
  | (db, .error error) => (db, .error error)
  | (db, .ok _) =>
    match db.createRole roleId name description with
    | .error error => (db, .error (.auth error))
    | .ok (db, role) => (db, .ok role)

def assignRoleRoute (lib : TokenLibrary) (e : AccessEnv) (db : AuthDb)
    (authorization : Option Python.Text) (userId : Uuid) (roleName : String) :
    AuthDb × Except RoleError Unit :=
  match requireRole "admin" lib e.settings e.now db authorization with
  | (db, .error error) => (db, .error error)
  | (db, .ok _) => db.assignRoleTo userId roleName

def deleteUserCall (db : AuthDb) (userId : Uuid) : AuthDb :=
  match db.user userId with
  | none => db
  | some _ => db.deleteUser userId

def roleStep (P : Primitives) (lib : TokenLibrary) (db : AuthDb) :
    AccessEnv × RoleOp → AuthDb
  | (e, .account op) => db.account P lib (e, op)
  | (e, .createRole authorization roleId name description) =>
    (db.createRoleRoute lib e authorization roleId name description).1
  | (e, .assignRole authorization userId roleName) =>
    (db.assignRoleRoute lib e authorization userId roleName).1
  | (_, .deleteUser userId) => db.deleteUserCall userId

/-- The user has the admin role, whether it is active or not. -/
def HoldsAdmin (db : AuthDb) (userId : Uuid) : Prop :=
  ∃ role ∈ db.roles.rows, role.name = "admin" ∧
    (⟨userId, role.id⟩ : UserRole) ∈ db.userRoles.rows

/-- The primary key of the roles, and the foreign key of the assignments. -/
structure RoleKeys (db : AuthDb) : Prop where
  ids : ∀ role ∈ db.roles.rows, ∀ other ∈ db.roles.rows, role.id = other.id → role = other
  assigned : ∀ row ∈ db.userRoles.rows, ∃ role ∈ db.roles.rows, role.id = row.roleId

structure SameRoles (db db' : AuthDb) : Prop where
  roles : db'.roles = db.roles
  userRoles : db'.userRoles = db.userRoles

end AuthDb

abbrev RoleCall := Call (AccessEnv × RoleOp) AuthDb

/-- The call registers the user under the address of the initial admin, ignoring case. -/
def RegistersAdmin (P : Primitives) (c : RoleCall) (userId : Uuid) : Prop :=
  ∃ draw email password user initial,
    c.call.2 = .account (.auth (.register draw email password)) ∧
    (register P c.call.1.cfg draw c.before email password).2 = .ok user ∧ user.id = userId ∧
    c.call.1.cfg.initialAdminEmail = some initial ∧ P.lower email = P.lower initial

/-- The call assigns the user the role for a caller who has an active admin role. -/
def AssignsAdmin (lib : TokenLibrary) (c : RoleCall) (userId : Uuid) : Prop :=
  ∃ authorization current, c.call.2 = .assignRole authorization userId "admin" ∧
    (getCurrentUser lib c.call.1.settings c.call.1.now c.before authorization).2 = .ok current ∧
    "admin" ∈ c.before.rolesOf current.user.id

def Removes (c : RoleCall) (userId : Uuid) : Prop :=
  c.call.2 = .deleteUser userId ∧ ∃ user, c.before.user userId = some user

def DefaultNotAdmin (c : RoleCall) : Prop := c.call.1.cfg.defaultUserRole ≠ "admin"

instance (c : RoleCall) : Decidable (DefaultNotAdmin c) := inferInstanceAs (Decidable (_ ≠ _))

/-- The user was made an admin in one of the two ways, and not deleted since. -/
def AdminOrigin (P : Primitives) (lib : TokenLibrary) (userId : Uuid) : List RoleCall → Prop
  | [] => False
  | c :: earlier => RegistersAdmin P c userId ∨ AssignsAdmin lib c userId ∨
    ¬Removes c userId ∧ AdminOrigin P lib userId earlier

namespace AuthDb

section Roles

variable {P : Primitives} {lib : TokenLibrary} {db mid db' : AuthDb} {userId : Uuid}

theorem SameRoles.refl (db : AuthDb) : SameRoles db db := ⟨rfl, rfl⟩

theorem SameRoles.trans (h : SameRoles db mid) (h' : SameRoles mid db') : SameRoles db db' :=
  ⟨h'.roles.trans h.roles, h'.userRoles.trans h.userRoles⟩

theorem SameRoles.holdsAdmin (h : SameRoles db db') :
    db'.HoldsAdmin userId ↔ db.HoldsAdmin userId := by
  unfold HoldsAdmin
  rw [h.roles, h.userRoles]

theorem SameRoles.rolesOf (h : SameRoles db db') : db'.rolesOf userId = db.rolesOf userId := by
  unfold AuthDb.rolesOf
  rw [h.roles, h.userRoles]

theorem SameRoles.keys (h : SameRoles db db') (hkeys : db.RoleKeys) : db'.RoleKeys := by
  obtain ⟨hids, hassigned⟩ := hkeys
  refine ⟨?_, ?_⟩
  · rw [h.roles]
    exact hids
  · rw [h.roles, h.userRoles]
    exact hassigned

theorem storeTokens_sameRoles {cfg : Settings} {d : TokenDraw} {user : User} (roles : List String)
    (sessionId : Option Uuid) (metadata : SessionMetadata) :
    db.SameRoles (storeTokens P cfg d db user roles sessionId metadata).1 := by
  rcases storeTokens_effect P cfg d db user roles sessionId metadata with
    ⟨err, hi⟩ | ⟨db', pair, opened, sid, hi, _, ho, hs⟩
  · rw [hi]
    exact .refl db
  · have hopened : db.SameRoles opened := by
      unfold openSession saveAuthSession at ho
      split at ho
      next =>
        split at ho
        next => cases ho
        next =>
          cases ho
          exact ⟨rfl, rfl⟩
      next =>
        cases ho
        exact .refl db
    rw [hi, saveRefreshToken_tokens hs]
    exact ⟨hopened.roles, hopened.userRoles⟩

theorem authenticate_sameRoles (cfg : Settings) (now : Time) (email password : String) :
    db.SameRoles (authenticate P cfg now db email password).1 := by
  rcases authenticate_cases P cfg now db email password with
    ⟨err, h⟩ | ⟨row, _, h | ⟨_, _, h | h⟩⟩
  all_goals
    rw [h]
    exact ⟨rfl, rfl⟩

theorem login_sameRoles (cfg : Settings) (now : Time) (d : TokenDraw) (email password : String)
    (metadata : SessionMetadata) :
    db.SameRoles (login P cfg now d db email password metadata).1 := by
  have hauth : db.SameRoles (authenticate P cfg now db email password).1 :=
    authenticate_sameRoles cfg now email password
  rcases login_stores P cfg now d db email password metadata with
    ⟨mid, err, he, hl⟩ | ⟨mid, user, he, hl⟩
  · rw [hl]
    rw [he] at hauth
    exact hauth
  · rw [hl]
    rw [he] at hauth
    exact hauth.trans (storeTokens_sameRoles _ _ _)

theorem refresh_sameRoles (cfg : Settings) (now : Time) (d : TokenDraw) (raw : String) :
    db.SameRoles (refresh P cfg now d db raw).1 := by
  rcases refresh_stores P cfg now d db raw with
    ⟨_, hr⟩ | ⟨token, _, ⟨_, hr⟩ | ⟨_, hr⟩ | ⟨_, user, _, hr⟩⟩
  all_goals rw [hr]
  · exact .refl db
  · exact ⟨rfl, rfl⟩
  · exact ⟨rfl, rfl⟩
  · have hrevoked : db.SameRoles (db.revokeTokens token.familyId now) := ⟨rfl, rfl⟩
    exact hrevoked.trans (storeTokens_sameRoles _ _ _)

theorem revokeAuthSession_sameRoles (sessionId : Uuid) (now : Time) :
    db.SameRoles (db.revokeAuthSession sessionId userId now).1 := by
  unfold revokeAuthSession
  split
  next => exact .refl db
  next => split <;> exact ⟨rfl, rfl⟩

theorem logout_sameRoles (cfg : Settings) (now : Time) (raw : String) :
    db.SameRoles (logout P cfg now db raw) := by
  unfold logout
  split
  next => exact .refl db
  next token _ =>
    have hrevoked : db.SameRoles (db.revokeTokens token.familyId now) := ⟨rfl, rfl⟩
    dsimp only
    split
    next => exact hrevoked.trans (revokeAuthSession_sameRoles _ _)
    next => exact hrevoked

theorem commit_sameRoles (e : AuthEnv) {op : AuthOp}
    (hop : ∀ draw email password, op ≠ .register draw email password) :
    db.SameRoles (db.commit P e op) := by
  cases op with
  | register draw email password => exact absurd rfl (hop draw email password)
  | login email password metadata => exact login_sameRoles _ _ _ _ _ _
  | refresh raw => exact refresh_sameRoles _ _ _ _
  | logout raw => exact logout_sameRoles _ _ _
  | revokeSession userId sessionId =>
    have hrevoked : db.SameRoles (db.revokeAuthSession sessionId userId e.now).1 :=
      revokeAuthSession_sameRoles sessionId e.now
    unfold AuthDb.commit revokeSession
    dsimp only
    split
    next =>
      split
      next h =>
        rw [h] at hrevoked
        exact hrevoked
      next h =>
        rw [h] at hrevoked
        exact hrevoked
    next => exact .refl db
  | revokeOtherSessions userId current =>
    unfold AuthDb.commit revokeOtherSessions revokeOtherAuthSessions
    dsimp only
    split
    next => exact .refl db
    next =>
      split
      next => split <;> exact ⟨rfl, rfl⟩
      next => exact .refl db
  | issueCode draw email purpose =>
    unfold AuthDb.commit issueCode saveVerificationCode
    dsimp only
    split
    next => exact .refl db
    next =>
      split
      next => exact .refl db
      next h =>
        split at h
        next => cases h
        next =>
          cases h
          exact ⟨rfl, rfl⟩
  | verifyEmail email code =>
    show db.SameRoles (verifyEmail P e.cfg e.now db email code).1
    rcases verifyEmail_cases P e.cfg e.now db email code with ⟨err, h⟩ | ⟨user, record, _, _, h⟩
    all_goals
      rw [h]
      exact ⟨rfl, rfl⟩
  | resetPassword salt email code password =>
    show db.SameRoles (resetPassword P e.cfg e.now salt db email code password).1
    rcases resetPassword_cases P e.cfg e.now salt db email code password with
      ⟨err, h⟩ | ⟨user, record, _, h⟩
    all_goals
      rw [h]
      exact ⟨rfl, rfl⟩

theorem openLocalUser_sameRoles : db.SameRoles db.openLocalUser.1 := by
  unfold openLocalUser
  split
  next => exact .refl db
  next =>
    split
    next => exact .refl db
    next => split <;> exact ⟨rfl, rfl⟩

theorem getCurrentUser_sameRoles (cfg : AccessSettings) (now : Time)
    (authorization : Option Python.Text) :
    db.SameRoles (getCurrentUser lib cfg now db authorization).1 := by
  rcases getCurrentUser_eq lib cfg now db authorization with h | h
  · rw [h]
    exact .refl db
  · rw [h]
    exact openLocalUser_sameRoles

theorem ensureUser_sameRoles : db.SameRoles (db.ensureUser userId) := by
  unfold ensureUser
  split
  next => exact .refl db
  next => split <;> exact ⟨rfl, rfl⟩

theorem requireRole_cases (lib : TokenLibrary) (db : AuthDb) (role : String) (cfg : AccessSettings)
    (now : Time) (authorization : Option Python.Text) :
    ∃ mid, db.SameRoles mid ∧
      ((∃ error, requireRole role lib cfg now db authorization = (mid, .error error)) ∨
        ∃ current, requireRole role lib cfg now db authorization = (mid, .ok current) ∧
          (getCurrentUser lib cfg now db authorization).2 = .ok current ∧
          role ∈ db.rolesOf current.user.id) := by
  have hsame : db.SameRoles (getCurrentUser lib cfg now db authorization).1 :=
    getCurrentUser_sameRoles cfg now authorization
  unfold requireRole
  cases hcurrent : getCurrentUser lib cfg now db authorization with
  | mk mid result =>
    rw [hcurrent] at hsame
    refine ⟨mid, hsame, ?_⟩
    cases result with
    | error error => exact Or.inl ⟨_, rfl⟩
    | ok current =>
      dsimp only
      split
      next hrole =>
        rw [hsame.rolesOf] at hrole
        exact Or.inr ⟨current, rfl, rfl, hrole⟩
      next => exact Or.inl ⟨_, rfl⟩

theorem createRole_ok {roleId : Uuid} {name : String} {description : Option String} {role : Role}
    (hkeys : db.RoleKeys) (h : db.createRole roleId name description = .ok (db', role)) :
    db'.RoleKeys ∧ role ∈ db'.roles.rows ∧ role.name = name ∧
      ∀ userId, db'.HoldsAdmin userId → db.HoldsAdmin userId := by
  unfold createRole insertRole at h
  dsimp only at h
  split at h
  next => cases h
  next roles hinsert =>
    split at hinsert
    next => cases hinsert
    next hfree =>
      cases h
      have hrows := Table.rows_of_insert hinsert
      have hnew : ∀ old ∈ db.roles.rows, old.id ≠ roleId := fun old hold hid =>
        hfree ⟨old, hold, hid⟩
      refine ⟨⟨?_, ?_⟩, ?_, rfl, ?_⟩
      · show ∀ role ∈ roles.rows, ∀ other ∈ roles.rows, role.id = other.id → role = other
        rw [hrows]
        apply unique_append (R := fun role other : Role => role.id = other.id) (fun _ _ => Eq.symm)
          hkeys.ids
        exact hnew
      · intro row hrow
        obtain ⟨role, hrole, hid⟩ := hkeys.assigned row hrow
        refine ⟨role, ?_, hid⟩
        show role ∈ roles.rows
        rw [hrows]
        exact List.mem_append_left _ hrole
      · show _ ∈ roles.rows
        rw [hrows]
        exact List.mem_append_right _ (List.mem_singleton.mpr rfl)
      · rintro userId ⟨role, hrole, hname, hassigned⟩
        have hrole' : role ∈ roles.rows := hrole
        rw [hrows] at hrole'
        rcases List.mem_append.mp hrole' with hold | hlast
        · exact ⟨role, hold, hname, hassigned⟩
        · obtain rfl := List.mem_singleton.mp hlast
          obtain ⟨old, hold, hid⟩ := hkeys.assigned _ hassigned
          exact absurd hid (hnew old hold)

theorem roleOrCreate_ok {roleId : Uuid} {name description : String} {role : Role}
    (hkeys : db.RoleKeys) (h : roleOrCreate db roleId name description = .ok (db', role)) :
    db'.RoleKeys ∧ role ∈ db'.roles.rows ∧ role.name = name ∧
      ∀ userId, db'.HoldsAdmin userId → db.HoldsAdmin userId := by
  unfold roleOrCreate at h
  split at h
  next hfind =>
    cases h
    obtain ⟨hrole, hname⟩ := Table.find_eq_some_iff.mp hfind
    exact ⟨hkeys, hrole, hname, fun _ => id⟩
  next => exact createRole_ok hkeys h

/-- An assignment makes an admin of its user at most, and only with the admin role. -/
theorem assignRole_holdsAdmin {role : Role} (hkeys : db.RoleKeys) (hrole : role ∈ db.roles.rows)
    (userId : Uuid) : (db.assignRole userId role.id).RoleKeys ∧
      ∀ other, (db.assignRole userId role.id).HoldsAdmin other →
        db.HoldsAdmin other ∨ other = userId ∧ role.name = "admin" := by
  unfold assignRole
  split
  next => exact ⟨hkeys, fun other => Or.inl⟩
  next userRoles hinsert =>
    have hrows := Table.rows_of_insert hinsert
    refine ⟨⟨hkeys.ids, ?_⟩, ?_⟩
    · show ∀ row ∈ userRoles.rows, ∃ role ∈ db.roles.rows, role.id = row.roleId
      rw [hrows]
      intro row hrow
      rcases List.mem_append.mp hrow with hold | hlast
      · exact hkeys.assigned row hold
      · obtain rfl := List.mem_singleton.mp hlast
        exact ⟨role, hrole, rfl⟩
    · rintro other ⟨admin, hadmin, hname, hassigned⟩
      have hassigned' : (⟨other, admin.id⟩ : UserRole) ∈ userRoles.rows := hassigned
      rw [hrows] at hassigned'
      rcases List.mem_append.mp hassigned' with hold | hlast
      · exact Or.inl ⟨admin, hadmin, hname, hold⟩
      · have hpair := List.mem_singleton.mp hlast
        have hid : admin.id = role.id := congrArg UserRole.roleId hpair
        obtain rfl := hkeys.ids admin hadmin role hrole hid
        exact Or.inr ⟨congrArg UserRole.userId hpair, hname⟩

/-- A registration makes an admin of the new user at most, who then has the address of the initial
admin. -/
theorem register_holdsAdmin {cfg : Settings} (draw : RegisterDraw) (email password : String)
    (hkeys : db.RoleKeys) (hdefault : cfg.defaultUserRole ≠ "admin") :
    (register P cfg draw db email password).1.RoleKeys ∧
      ∀ other, (register P cfg draw db email password).1.HoldsAdmin other → db.HoldsAdmin other ∨
        ∃ user initial, (register P cfg draw db email password).2 = .ok user ∧ user.id = other ∧
          cfg.initialAdminEmail = some initial ∧ P.lower email = P.lower initial := by
  unfold register
  dsimp only
  split
  next => exact ⟨hkeys, fun other => Or.inl⟩
  next =>
    split
    next => exact ⟨hkeys, fun other => Or.inl⟩
    next users _ =>
      have hadded : RoleKeys { db with users := users } := ⟨hkeys.ids, hkeys.assigned⟩
      split
      next => exact ⟨hkeys, fun other => Or.inl⟩
      next db₁ role hcreate =>
        obtain ⟨hkeys₁, hrole, hname, hback⟩ := roleOrCreate_ok hadded hcreate
        obtain ⟨hkeys₂, hassigned⟩ := assignRole_holdsAdmin hkeys₁ hrole draw.userId
        have hdefaulted : ∀ other, (db₁.assignRole draw.userId role.id).HoldsAdmin other →
            db.HoldsAdmin other := by
          intro other hholds
          rcases hassigned other hholds with hbefore | ⟨_, hadmin⟩
          · exact hback other hbefore
          · exact absurd (hname.symm.trans hadmin) hdefault
        split
        next hinitial =>
          split
          next => exact ⟨hkeys₂, fun other hholds => Or.inl (hdefaulted other hholds)⟩
          next db₃ adminRole hcreate' =>
            obtain ⟨hkeys₃, hadminRole, _, hback'⟩ := roleOrCreate_ok hkeys₂ hcreate'
            obtain ⟨hkeys₄, hassigned'⟩ := assignRole_holdsAdmin hkeys₃ hadminRole draw.userId
            refine ⟨hkeys₄, ?_⟩
            intro other hholds
            rcases hassigned' other hholds with hbefore | ⟨rfl, _⟩
            · exact Or.inl (hdefaulted other (hback' other hbefore))
            · obtain ⟨initial, hemail, hlower⟩ := Option.map_eq_some_iff.mp hinitial.2
              exact Or.inr ⟨_, initial, rfl, rfl, hemail, hlower.symm⟩
        next => exact ⟨hkeys₂, fun other hholds => Or.inl (hdefaulted other hholds)⟩

theorem account_holdsAdmin {e : AccessEnv} (op : AccessOp) (hkeys : db.RoleKeys)
    (hdefault : e.cfg.defaultUserRole ≠ "admin") :
    (db.account P lib (e, op)).RoleKeys ∧
      ∀ other, (db.account P lib (e, op)).HoldsAdmin other → db.HoldsAdmin other ∨
        RegistersAdmin P ⟨db, (e, .account op)⟩ other := by
  have quiet : ∀ {db' : AuthDb}, db.SameRoles db' → db'.RoleKeys ∧
      ∀ other, db'.HoldsAdmin other → db.HoldsAdmin other ∨
        RegistersAdmin P ⟨db, (e, .account op)⟩ other := by
    intro db' hsame
    exact ⟨hsame.keys hkeys, fun other hholds => Or.inl (hsame.holdsAdmin.mp hholds)⟩
  cases op with
  | auth op =>
    by_cases hregister : ∃ draw email password, op = .register draw email password
    · obtain ⟨draw, email, password, rfl⟩ := hregister
      obtain ⟨hkeys', hadmins⟩ := register_holdsAdmin draw email password hkeys hdefault
      refine ⟨hkeys', ?_⟩
      intro other hholds
      rcases hadmins other hholds with hbefore | ⟨user, initial, hok, hid, hemail, hlower⟩
      · exact Or.inl hbefore
      · exact Or.inr ⟨draw, email, password, user, initial, rfl, hok, hid, hemail, hlower⟩
    · apply quiet
      apply commit_sameRoles
      intro draw email password hop
      exact hregister ⟨draw, email, password, hop⟩
  | authenticate email password => exact quiet (authenticate_sameRoles _ _ _ _)
  | request authorization => exact quiet (getCurrentUser_sameRoles _ _ _)
  | ensureUser userId => exact quiet ensureUser_sameRoles

theorem deleteUser_holdsAdmin (hkeys : db.RoleKeys) (userId : Uuid) :
    (db.deleteUser userId).RoleKeys ∧
      ∀ other, (db.deleteUser userId).HoldsAdmin other → other ≠ userId ∧ db.HoldsAdmin other := by
  refine ⟨⟨hkeys.ids, ?_⟩, ?_⟩
  · intro row hrow
    exact hkeys.assigned row (Table.mem_deleteWhere.mp hrow).1
  · rintro other ⟨admin, hadmin, hname, hassigned⟩
    obtain ⟨hbefore, hother⟩ := Table.mem_deleteWhere.mp hassigned
    exact ⟨hother, admin, hadmin, hname, hbefore⟩

/-- Whoever is an admin after the call was made one by it, or was one and is not removed by it. -/
def AdminsExplained (P : Primitives) (lib : TokenLibrary) (c : RoleCall) (db' : AuthDb) : Prop :=
  db'.RoleKeys ∧ ∀ other, db'.HoldsAdmin other →
    RegistersAdmin P c other ∨ AssignsAdmin lib c other ∨
      ¬Removes c other ∧ c.before.HoldsAdmin other

/-- A call that removes nobody and makes nobody an admin. -/
theorem AdminsExplained.of_kept {e : AccessEnv} {op : RoleOp} (hkeys : db'.RoleKeys)
    (hop : ∀ userId, op ≠ .deleteUser userId)
    (hback : ∀ other, db'.HoldsAdmin other → db.HoldsAdmin other) :
    AdminsExplained P lib ⟨db, (e, op)⟩ db' := by
  refine ⟨hkeys, ?_⟩
  intro other hholds
  refine Or.inr (Or.inr ⟨?_, hback other hholds⟩)
  rintro ⟨hdelete, _⟩
  exact hop other hdelete

theorem createRoleRoute_explained (e : AccessEnv) (hkeys : db.RoleKeys)
    (authorization : Option Python.Text) (roleId : Uuid) (name : String)
    (description : Option String) :
    AdminsExplained P lib ⟨db, (e, .createRole authorization roleId name description)⟩
      (db.createRoleRoute lib e authorization roleId name description).1 := by
  obtain ⟨mid, hsame, hrequired⟩ :=
    requireRole_cases lib db "admin" e.settings e.now authorization
  have hmid : mid.RoleKeys := hsame.keys hkeys
  unfold createRoleRoute
  rcases hrequired with ⟨error, hr⟩ | ⟨current, hr, _, _⟩
  · rw [hr]
    exact .of_kept hmid nofun fun other => hsame.holdsAdmin.mp
  · rw [hr]
    dsimp only
    split
    next => exact .of_kept hmid nofun fun other => hsame.holdsAdmin.mp
    next db' role hcreate =>
      obtain ⟨hkeys', _, _, hback⟩ := createRole_ok hmid hcreate
      exact .of_kept hkeys' nofun fun other hholds => hsame.holdsAdmin.mp (hback other hholds)

theorem assignRoleRoute_explained (e : AccessEnv) (hkeys : db.RoleKeys)
    (authorization : Option Python.Text) (userId : Uuid) (roleName : String) :
    AdminsExplained P lib ⟨db, (e, .assignRole authorization userId roleName)⟩
      (db.assignRoleRoute lib e authorization userId roleName).1 := by
  obtain ⟨mid, hsame, hrequired⟩ :=
    requireRole_cases lib db "admin" e.settings e.now authorization
  have hmid : mid.RoleKeys := hsame.keys hkeys
  unfold assignRoleRoute
  rcases hrequired with ⟨error, hr⟩ | ⟨current, hr, hcaller, hadmin⟩
  · rw [hr]
    exact .of_kept hmid nofun fun other => hsame.holdsAdmin.mp
  · rw [hr]
    dsimp only
    unfold assignRoleTo
    split
    next user role huser hfind =>
      obtain ⟨hrole, hname⟩ := Table.find_eq_some_iff.mp hfind
      obtain ⟨hkeys', hadmins⟩ := assignRole_holdsAdmin hmid hrole userId
      refine ⟨hkeys', ?_⟩
      intro other hholds
      rcases hadmins other hholds with hbefore | ⟨rfl, hrolename⟩
      · refine Or.inr (Or.inr ⟨?_, hsame.holdsAdmin.mp hbefore⟩)
        rintro ⟨hdelete, _⟩
        cases hdelete
      · obtain rfl : roleName = "admin" := hname.symm.trans hrolename
        exact Or.inr (Or.inl ⟨authorization, current, rfl, hcaller, hadmin⟩)
    next => exact .of_kept hmid nofun fun other => hsame.holdsAdmin.mp

theorem deleteUserCall_explained (e : AccessEnv) (hkeys : db.RoleKeys) (userId : Uuid) :
    AdminsExplained P lib ⟨db, (e, .deleteUser userId)⟩ (db.deleteUserCall userId) := by
  unfold deleteUserCall
  split
  next hmissing =>
    refine ⟨hkeys, ?_⟩
    intro other hholds
    refine Or.inr (Or.inr ⟨?_, hholds⟩)
    rintro ⟨hop, user, huser⟩
    cases hop
    cases hmissing.symm.trans huser
  next =>
    obtain ⟨hkeys', hadmins⟩ := deleteUser_holdsAdmin hkeys userId
    refine ⟨hkeys', ?_⟩
    intro other hholds
    obtain ⟨hother, hbefore⟩ := hadmins other hholds
    refine Or.inr (Or.inr ⟨?_, hbefore⟩)
    rintro ⟨hop, _⟩
    cases hop
    exact hother rfl

theorem roleStep_explained {e : AccessEnv} {op : RoleOp} (hkeys : db.RoleKeys)
    (hdefault : e.cfg.defaultUserRole ≠ "admin") :
    AdminsExplained P lib ⟨db, (e, op)⟩ (db.roleStep P lib (e, op)) := by
  cases op with
  | account op =>
    obtain ⟨hkeys', hadmins⟩ := account_holdsAdmin op hkeys hdefault
    refine ⟨hkeys', ?_⟩
    intro other hholds
    rcases hadmins other hholds with hbefore | hregisters
    · refine Or.inr (Or.inr ⟨?_, hbefore⟩)
      rintro ⟨hop, _⟩
      cases hop
    · exact Or.inl hregisters
  | createRole authorization roleId name description =>
    exact createRoleRoute_explained e hkeys authorization roleId name description
  | assignRole authorization userId roleName =>
    exact assignRoleRoute_explained e hkeys authorization userId roleName
  | deleteUser userId => exact deleteUserCall_explained e hkeys userId

end Roles

/-- Whoever holds the admin role registered with the address of the initial admin or was assigned it
by an admin. -/
theorem admins_have_origin {P : Primitives} {lib : TokenLibrary} {db₀ db : AuthDb}
    {calls : List RoleCall} (run : Run (roleStep P lib) db₀ calls db)
    (hids : ∀ role ∈ db₀.roles.rows, ∀ other ∈ db₀.roles.rows, role.id = other.id → role = other)
    (hnone : db₀.userRoles = .empty)
    (hdefault : ∀ c ∈ calls, DefaultNotAdmin c) :
    ∀ userId, db.HoldsAdmin userId → AdminOrigin P lib userId calls := by
  have init : db₀.RoleKeys := by
    refine ⟨hids, ?_⟩
    rw [hnone]
    exact nofun
  have keep : ∀ db call, RoleKeys db → DefaultNotAdmin ⟨db, call⟩ →
      RoleKeys (roleStep P lib db call) := fun db call hkeys hdefault =>
    (roleStep_explained hkeys hdefault).1
  induction run with
  | start =>
    rintro userId ⟨role, _, _, hassigned⟩
    rw [hnone] at hassigned
    cases hassigned
  | @next calls db call run ih =>
    have hearlier : ∀ c ∈ calls, DefaultNotAdmin c := fun c hc =>
      hdefault c (List.mem_cons_of_mem _ hc)
    have hkeys : RoleKeys db := run.invariant (I := RoleKeys) init keep hearlier
    intro userId hholds
    rcases (roleStep_explained hkeys (hdefault _ (List.mem_cons_self ..))).2 userId hholds with
      hregisters | hassigns | ⟨hkept, hbefore⟩
    · exact Or.inl hregisters
    · exact Or.inr (Or.inl hassigns)
    · exact Or.inr (Or.inr ⟨hkept, ih hearlier userId hbefore⟩)

def adminCall (now : Time) : AccessEnv where
  toAuthEnv := callAt now "" { initialAdminEmail := some "ann@example.com" }
  authRequireToken := true

/-- Ann and Bob register, and Ann makes Bob an admin. -/
def annAppointsBob : List RoleCall × AuthDb :=
  runAll (roleStep .plain .plain) [] {}
    [(adminCall 1, .account (.auth (.register ⟨1, "s", 11, 12⟩ "ann@example.com" "correct horse"))),
      (adminCall 2, .account (.auth (.register ⟨2, "s", 13, 14⟩ "bob@example.com" "hunter two"))),
      (adminCall 3, .assignRole (some (bearer ++ [1])) 2 "admin")]

theorem annAppointsBob_origin : annAppointsBob.2.HoldsAdmin 2 ∧
    ∀ userId, annAppointsBob.2.HoldsAdmin userId →
      AdminOrigin .plain .plain userId annAppointsBob.1 := by
  refine ⟨?_, admins_have_origin (run_runAll .start _) nofun rfl (by decide)⟩
  unfold HoldsAdmin
  decide

end AuthDb

end JobRadar
