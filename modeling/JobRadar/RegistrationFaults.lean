import JobRadar.RoleGrants

namespace JobRadar

open Database Transaction Work

structure RegisterFaults where
  userByEmail : Option ServiceError := none
  flush : Option ServiceError := none
  defaultRole : GrantFaults := {}
  adminRole : GrantFaults := {}

section Calls

variable (P : Primitives) (cfg : Settings) (d : RegisterDraw)

def newUser (email password : String) : User where
  id := d.userId
  email := some (P.lower email)
  passwordHash := some (P.hashPassword d.salt password)
  status := if cfg.authEmailVerificationEnabled then .pendingVerification else .active

/-- The address is the one that is given the admin role. -/
def IsAdminAddress (email : String) : Prop :=
  cfg.initialAdminEmail ≠ some "" ∧ cfg.initialAdminEmail.map P.lower = some (P.lower email)

instance (email : String) : Decidable (IsAdminAddress P cfg email) :=
  inferInstanceAs (Decidable (_ ∧ _))

def insertUser (user : User) (db : AuthDb) : Except ServiceError (AuthDb × Unit) :=
  match db.users.insert user with
  | none => .error (.auth .dataConflict)
  | some users => .ok ({ db with users := users }, ())

def grantAdminWith (faults : GrantFaults) (email : String) : AuthWork Unit :=
  if IsAdminAddress P cfg email then
    grantRoleWith faults d.userId d.adminRoleId "admin" "Administrator role"
  else pure ()

/-- `register`, each database call of which may raise. -/
def registerWith (faults : RegisterFaults) (email password : String) : AuthWork User := do
  let found ← query faults.userByEmail (·.userByEmail P (P.lower email))
  match found with
  | some _ => throw (.auth .userAlreadyExists)
  | none => do
    perform faults.flush (insertUser (newUser P cfg d email password))
    grantRoleWith faults.defaultRole d.userId d.roleId cfg.defaultUserRole "Default user role"
    grantAdminWith P cfg d faults.adminRole email
    return newUser P cfg d email password

end Calls

def AuthDb.RolesOfUsers (db : AuthDb) : Prop :=
  ∀ r ∈ db.userRoles, ∃ user ∈ db.users, user.id = r.userId

/-- The role given to a new user, and the roles there are once it is given. -/
def AuthDb.defaultRole (db : AuthDb) (cfg : Settings) (d : RegisterDraw) : Role :=
  db.roleNamed d.roleId cfg.defaultUserRole "Default user role"

namespace RegisterFaults

/-- The registration is refused, or fails before or at its first commit: that of the default role
where there is none yet, and else that of the user who has it. -/
def BeforeCommit (P : Primitives) (cfg : Settings) (faults : RegisterFaults) (d : RegisterDraw)
    (db : AuthDb) (email : String) : Prop :=
  faults.userByEmail ≠ none ∨ db.userByEmail P (P.lower email) ≠ none ∨ faults.flush ≠ none ∨
    (∃ user ∈ db.users, user.id = d.userId) ∨
    faults.defaultRole.RoleFails db d.roleId cfg.defaultUserRole ∨
    (db.role cfg.defaultUserRole ≠ none ∧ faults.defaultRole.AssignFails False False)

/-- It fails later: where the new default role is given to the user, or at the admin role, which is
looked for next to the default one. -/
def AfterCommit (P : Primitives) (cfg : Settings) (faults : RegisterFaults) (d : RegisterDraw)
    (db : AuthDb) (email : String) : Prop :=
  (db.role cfg.defaultUserRole = none ∧ faults.defaultRole.AssignFails True False) ∨
    (IsAdminAddress P cfg email ∧
      (faults.adminRole.RoleFails (db.withRole (db.defaultRole cfg d)) d.adminRoleId "admin" ∨
        faults.adminRole.AssignFails
          ((db.withRole (db.defaultRole cfg d)).role "admin" = none)
          (((db.withRole (db.defaultRole cfg d)).roleNamed d.adminRoleId "admin"
            "Administrator role").id = (db.defaultRole cfg d).id)))

end RegisterFaults

/-- Where the registration raises, no user has come to the address. Where it returns, the user has
the default role, and at the admin's address the admin role. -/
structure RegistersWhole (P : Primitives) (cfg : Settings) (db : AuthDb) (email : String)
    (outcome : AuthDb × Except ServiceError User) : Prop where
  raised : ∀ e, outcome.2 = .error e →
    ∀ user ∈ outcome.1.users, user.email = some (P.lower email) → user ∈ db.users
  returned : ∀ user, outcome.2 = .ok user →
    user ∈ outcome.1.users ∧ user.email = some (P.lower email) ∧
    outcome.1.Holds user.id cfg.defaultUserRole ∧
    (IsAdminAddress P cfg email → outcome.1.Holds user.id "admin")

section Register

variable {P : Primitives} {cfg : Settings} {faults : RegisterFaults} {d : RegisterDraw}
  {db : AuthDb} {email password : String} {users : Table User.id}

theorem registersWhole_unchanged (e : ServiceError) :
    RegistersWhole P cfg db email (db, .error e) where
  raised _ _ _ huser _ := huser
  returned _ hreturned := by cases hreturned

theorem registerWith_flushed (cfg : Settings) (d : RegisterDraw)
    (hlookup : faults.userByEmail = none)
    (hnew : db.userByEmail P (P.lower email) = none) (hflush : faults.flush = none)
    (hinsert : db.users.insert (newUser P cfg d email password) = some users) :
    (registerWith P cfg d faults email password).exec ⟨db, db⟩ =
      (grantRoleWith faults.defaultRole d.userId d.roleId cfg.defaultUserRole "Default user role"
        >>= fun _ => grantAdminWith P cfg d faults.adminRole email >>= fun _ =>
          pure (newUser P cfg d email password)).exec ⟨db, { db with users := users }⟩ := by
  have hperform : (perform none (insertUser (newUser P cfg d email password))).exec ⟨db, db⟩ =
      (.ok (), ⟨db, { db with users := users }⟩) :=
    exec_perform_ok (by simp only [insertUser, hinsert])
  rw [registerWith, hlookup, exec_bind_ok (exec_query _ _), hnew]
  dsimp only
  rw [hflush, exec_bind_ok hperform]

theorem registerWith_refused (cfg : Settings) (d : RegisterDraw) (password : String)
    (h : faults.userByEmail ≠ none ∨
    db.userByEmail P (P.lower email) ≠ none ∨ faults.flush ≠ none ∨
      ∃ user ∈ db.users, user.id = d.userId) :
    ∃ e, (registerWith P cfg d faults email password).exec ⟨db, db⟩ = (.error e, ⟨db, db⟩) := by
  unfold registerWith
  cases hlookup : faults.userByEmail with
  | some e => exact ⟨e, exec_bind_error (exec_query_fault e _ _)⟩
  | none =>
    rw [exec_bind_ok (exec_query _ _)]
    cases hfound : db.userByEmail P (P.lower email) with
    | some user => exact ⟨_, rfl⟩
    | none =>
      dsimp only
      cases hflush : faults.flush with
      | some e => exact ⟨e, exec_bind_error (exec_perform_fault e _ _)⟩
      | none =>
        have htaken : ∃ user ∈ db.users, user.id = d.userId := by
          rcases h with h | h | h | h
          · exact absurd hlookup h
          · exact absurd hfound h
          · exact absurd hflush h
          · exact h
        have hrefused : db.users.insert (newUser P cfg d email password) = none :=
          Table.insert_eq_none_iff.mpr htaken
        exact ⟨_, exec_bind_error (exec_perform_error (by simp only [insertUser, hrefused]; rfl))⟩

theorem raises_grantAdminWith {grant : GrantFaults} {s : Session AuthDb} :
    (grantAdminWith P cfg d grant email).Raises s ↔ IsAdminAddress P cfg email ∧
      (grantRoleWith grant d.userId d.adminRoleId "admin" "Administrator role").Raises s := by
  unfold grantAdminWith
  split
  next hadmin => rw [and_iff_right hadmin]
  next hadmin => exact iff_of_false (not_raises_pure _) fun h => hadmin h.1

theorem grantAdminWith_keeps {grant : GrantFaults} (users : Table User.id) :
    Keeps (fun db => db.users = users) (grantAdminWith P cfg d grant email) := by
  unfold grantAdminWith
  split
  next => exact grantRoleWith_keeps users
  next => exact Keeps.pure _

theorem not_registersWhole {s' : Session AuthDb} {e : ServiceError}
    (hfree : ¬∃ user ∈ db.users, user.id = d.userId)
    (hinsert : db.users.insert (newUser P cfg d email password) = some users)
    (hexec : (registerWith P cfg d faults email password).exec ⟨db, db⟩ = (.error e, s'))
    (husers : s'.committed.users = users) :
    ¬RegistersWhole P cfg db email ((registerWith P cfg d faults email password).outcome db) := by
  intro hwhole
  rw [outcome, hexec] at hwhole
  have hmem : newUser P cfg d email password ∈ s'.committed.users := by
    rw [husers]
    exact (Table.mem_of_insert hinsert).mpr (.inr rfl)
  exact hfree ⟨_, hwhole.raised e rfl _ hmem rfl, rfl⟩

theorem adminFails_iff {grant : GrantFaults}
    (hunheld : ∀ roleId, (⟨d.userId, roleId⟩ : UserRole) ∉ db.userRoles.rows) :
    (grantAdminWith P cfg d grant email).Raises
        ⟨({ db with users := users } : AuthDb).withGrant d.userId d.roleId cfg.defaultUserRole
            "Default user role",
          ({ db with users := users } : AuthDb).withGrant d.userId d.roleId cfg.defaultUserRole
            "Default user role"⟩ ↔
      IsAdminAddress P cfg email ∧
        (grant.RoleFails (db.withRole (db.defaultRole cfg d)) d.adminRoleId "admin" ∨
          grant.AssignFails ((db.withRole (db.defaultRole cfg d)).role "admin" = none)
            (((db.withRole (db.defaultRole cfg d)).roleNamed d.adminRoleId "admin"
              "Administrator role").id = (db.defaultRole cfg d).id)) := by
  have hroles : (({ db with users := users } : AuthDb).withGrant d.userId d.roleId
      cfg.defaultUserRole "Default user role").roles =
      (db.withRole (db.defaultRole cfg d)).roles := by
    rw [withGrant_roles]
    rfl
  rw [raises_grantAdminWith, raises_grantRoleWith]
  refine and_congr_right fun _ => ?_
  obtain ⟨hfails, hrole, hnamed⟩ := roleFails_congr grant hroles d.adminRoleId "admin"
  refine or_congr hfails (assignFails_congr (by rw [hrole]) ?_)
  rw [hnamed]
  refine (mem_withGrant { db with users := users } ..).trans ?_
  refine (or_iff_right (hunheld _)).trans ?_
  rw [UserRole.mk.injEq, and_iff_right rfl]
  rfl

theorem beforeCommit_iff (h : ¬(faults.userByEmail ≠ none ∨
    db.userByEmail P (P.lower email) ≠ none ∨ faults.flush ≠ none ∨
      ∃ user ∈ db.users, user.id = d.userId)) :
    faults.BeforeCommit P cfg d db email ↔
      faults.defaultRole.RoleFails db d.roleId cfg.defaultUserRole ∨
        (db.role cfg.defaultUserRole ≠ none ∧ faults.defaultRole.AssignFails False False) := by
  obtain ⟨hlookup, hnew, hflush, hfree⟩ : ¬_ ∧ ¬_ ∧ ¬_ ∧ ¬_ := by
    rwa [not_or, not_or, not_or] at h
  rw [RegisterFaults.BeforeCommit, or_iff_right hlookup, or_iff_right hnew, or_iff_right hflush,
    or_iff_right hfree]

theorem raises_defaultRole (cfg : Settings) (faults : RegisterFaults) (users : Table User.id)
    (hunheld : ∀ roleId, (⟨d.userId, roleId⟩ : UserRole) ∉ db.userRoles.rows) :
    (grantRoleWith faults.defaultRole d.userId d.roleId cfg.defaultUserRole
        "Default user role").Raises ⟨db, { db with users := users }⟩ ↔
      faults.defaultRole.RoleFails db d.roleId cfg.defaultUserRole ∨
        faults.defaultRole.AssignFails (db.role cfg.defaultUserRole = none) False :=
  raises_grantRoleWith.trans (or_congr_right
    (assignFails_congr Iff.rfl (iff_of_false (hunheld _) not_false)))

theorem defaultRole_late (hraises : faults.defaultRole.RoleFails db d.roleId cfg.defaultUserRole ∨
      faults.defaultRole.AssignFails (db.role cfg.defaultUserRole = none) False)
    (hearly : ¬(faults.defaultRole.RoleFails db d.roleId cfg.defaultUserRole ∨
      (db.role cfg.defaultUserRole ≠ none ∧ faults.defaultRole.AssignFails False False))) :
    db.role cfg.defaultUserRole = none ∧ faults.defaultRole.AssignFails True False := by
  rw [not_or] at hearly
  have hassign := hraises.resolve_left hearly.1
  by_cases hnone : db.role cfg.defaultUserRole = none
  · exact ⟨hnone, (assignFails_congr (iff_true_intro hnone) Iff.rfl).mp hassign⟩
  · have hfound := (assignFails_congr (iff_false_intro hnone) Iff.rfl).mp hassign
    exact absurd ⟨hnone, hfound⟩ hearly.2

theorem exec_grantAdmin_ok {grant : GrantFaults} {t : AuthDb}
    (h : ¬(grantAdminWith P cfg d grant email).Raises ⟨t, t⟩) :
    ∃ t', (grantAdminWith P cfg d grant email).exec ⟨t, t⟩ = (.ok (), ⟨t', t'⟩) ∧
      t'.users = t.users ∧ (∀ name, t.Holds d.userId name → t'.Holds d.userId name) ∧
      (IsAdminAddress P cfg email → t'.Holds d.userId "admin") := by
  by_cases hadmin : IsAdminAddress P cfg email
  · rw [grantAdminWith, if_pos hadmin] at h ⊢
    exact ⟨_, exec_grant_ok h (.inl rfl), withGrant_users ..,
      fun name hheld => holds_withGrant hheld ..,
      fun _ => withGrant_holds ..⟩
  · rw [grantAdminWith, if_neg hadmin]
    exact ⟨t, rfl, rfl, fun _ hheld => hheld, fun h => absurd h hadmin⟩

theorem registration_rest {t : AuthDb} (hfree : ¬∃ user ∈ db.users, user.id = d.userId)
    (hinsert : db.users.insert (newUser P cfg d email password) = some users)
    (husers : t.users = users) (hheld : t.Holds d.userId cfg.defaultUserRole)
    (hexec : (registerWith P cfg d faults email password).exec ⟨db, db⟩ =
      (grantAdminWith P cfg d faults.adminRole email >>= fun _ =>
        pure (newUser P cfg d email password)).exec ⟨t, t⟩) :
    RegistersWhole P cfg db email ((registerWith P cfg d faults email password).outcome db) ↔
      ¬(grantAdminWith P cfg d faults.adminRole email).Raises ⟨t, t⟩ := by
  by_cases hraises : (grantAdminWith P cfg d faults.adminRole email).Raises ⟨t, t⟩
  · refine iff_of_false ?_ (not_not.mpr hraises)
    obtain ⟨e, s', hadmin⟩ := hraises
    have hkept := (grantAdminWith_keeps users).after hadmin husers husers
    exact not_registersWhole hfree hinsert (hexec.trans (exec_bind_error hadmin)) hkept
  · obtain ⟨t', hadmin, husers', hkept, hgiven⟩ := exec_grantAdmin_ok hraises
    refine iff_of_true ?_ hraises
    rw [outcome, hexec, exec_bind_ok hadmin]
    refine ⟨fun e he => ?_, fun user hreturned => ?_⟩
    · cases he
    · cases hreturned
      refine ⟨?_, rfl, hkept _ hheld, hgiven⟩
      change newUser P cfg d email password ∈ t'.users
      rw [husers', husers]
      exact (Table.mem_of_insert hinsert).mpr (.inr rfl)

/-- A registration is whole exactly if it fails by its first commit or not at all. -/
theorem registration_whole_iff (hkey : db.RolesOfUsers) :
    RegistersWhole P cfg db email ((registerWith P cfg d faults email password).outcome db) ↔
      faults.BeforeCommit P cfg d db email ∨ ¬faults.AfterCommit P cfg d db email := by
  by_cases hrefused : faults.userByEmail ≠ none ∨ db.userByEmail P (P.lower email) ≠ none ∨
      faults.flush ≠ none ∨ ∃ user ∈ db.users, user.id = d.userId
  · obtain ⟨e, hexec⟩ := registerWith_refused cfg d password hrefused
    rw [outcome, hexec]
    refine iff_of_true (registersWhole_unchanged e) (.inl ?_)
    rcases hrefused with h | h | h | h
    · exact .inl h
    · exact .inr (.inl h)
    · exact .inr (.inr (.inl h))
    · exact .inr (.inr (.inr (.inl h)))
  · rw [beforeCommit_iff hrefused]
    simp only [not_or, not_not] at hrefused
    obtain ⟨hlookup, hnew, hflush, hfree⟩ := hrefused
    obtain ⟨users, hinsert⟩ : ∃ users,
        db.users.insert (newUser P cfg d email password) = some users :=
      Table.insert_isSome_of_fresh fun old ho hsame => hfree ⟨old, ho, hsame⟩
    have hunheld : ∀ roleId, (⟨d.userId, roleId⟩ : UserRole) ∉ db.userRoles.rows :=
      fun roleId hheld => hfree (hkey _ hheld)
    have hflushed := registerWith_flushed cfg d hlookup hnew hflush hinsert
    have hdefault := raises_defaultRole cfg faults users hunheld
    by_cases hearly : faults.defaultRole.RoleFails db d.roleId cfg.defaultUserRole ∨
        (db.role cfg.defaultUserRole ≠ none ∧ faults.defaultRole.AssignFails False False)
    · have hfirst : faults.defaultRole.RoleFails db d.roleId cfg.defaultUserRole ∨
          (db.role cfg.defaultUserRole ≠ none ∧
            (grantRoleWith faults.defaultRole d.userId d.roleId cfg.defaultUserRole
              "Default user role").Raises ⟨db, { db with users := users }⟩) :=
        hearly.imp_right fun h => ⟨h.1, hdefault.mpr (.inr (h.2.imp_left fun h => h.1.elim))⟩
      obtain ⟨e, s', hgrant, hcommitted⟩ := grant_fails_early
        ⟨db, { db with users := users }⟩ d.userId "Default user role" hfirst
      refine iff_of_true ?_ (.inl hearly)
      rw [outcome, hflushed, exec_bind_error hgrant]
      dsimp only
      rw [hcommitted]
      exact registersWhole_unchanged e
    · rw [or_iff_right hearly, RegisterFaults.AfterCommit]
      by_cases hraises : (grantRoleWith faults.defaultRole d.userId d.roleId cfg.defaultUserRole
          "Default user role").Raises ⟨db, { db with users := users }⟩
      · have hlate := defaultRole_late (hdefault.mp hraises) hearly
        obtain ⟨e, s', hgrant, husers⟩ :=
          grant_fails_late (fun h => hearly (.inl h)) hlate.1 hraises
        refine iff_of_false ?_ (not_not.mpr (.inl hlate))
        exact not_registersWhole hfree hinsert (hflushed.trans (exec_bind_error hgrant)) husers
      · have hgranted := exec_grant_ok hraises (.inr (hunheld _))
        have hrest := registration_rest hfree hinsert (withGrant_users ..) (withGrant_holds ..)
          (hflushed.trans (exec_bind_ok hgranted))
        have hnever : ¬(db.role cfg.defaultUserRole = none ∧
            faults.defaultRole.AssignFails True False) :=
          fun h => hraises (hdefault.mpr (.inr
            ((assignFails_congr (iff_true_intro h.1) Iff.rfl).mpr h.2)))
        rw [hrest, adminFails_iff hunheld, or_iff_right hnever]

/-- Where no call is made to raise, this is the registration. -/
theorem registerWith_sound (hkey : db.RolesOfUsers) :
    (registerWith P cfg d {} email password).outcome db =
      ((register P cfg d db email password).1,
        (register P cfg d db email password).2.mapError .auth) := by
  cases hnew : db.userByEmail P (P.lower email) with
  | some user =>
    rw [register, registerWith, outcome, exec_bind_ok (exec_query _ _), hnew]
    rfl
  | none =>
    cases hinsert : db.users.insert (newUser P cfg d email password) with
    | none =>
      have hperform : (perform none (insertUser (newUser P cfg d email password))).exec ⟨db, db⟩ =
          (.error (.auth .dataConflict), ⟨db, db⟩) :=
        exec_perform_error (by simp only [insertUser, hinsert])
      rw [newUser] at hinsert
      rw [registerWith, outcome, exec_bind_ok (exec_query _ _), hnew]
      dsimp only
      rw [exec_bind_error hperform]
      simp only [register, hnew, hinsert]
      rfl
    | some users =>
      have hfree : ∀ roleId, (⟨d.userId, roleId⟩ : UserRole) ∉ db.userRoles.rows := by
        intro roleId hheld
        have hnone : db.users.insert (newUser P cfg d email password) = none :=
          Table.insert_eq_none_iff.mpr (hkey _ hheld)
        rw [hinsert] at hnone
        cases hnone
      rw [outcome, registerWith_flushed cfg d rfl hnew rfl hinsert]
      rw [newUser] at hinsert
      simp only [register, hnew, hinsert]
      have hdefault := exec_grant_sound ⟨db, { db with users := users }⟩ d.userId d.roleId
        cfg.defaultUserRole "Default user role" (.inr hfree)
      cases hrole : roleOrCreate { db with users := users } d.roleId cfg.defaultUserRole
          "Default user role" with
      | error e =>
        rw [exec_bind_error (hdefault.1 e hrole)]
        rfl
      | ok made =>
        rw [exec_bind_ok (hdefault.2 made.1 made.2 hrole)]
        obtain ⟨db₁, role⟩ := made
        have hadmin := exec_grant_sound ⟨db₁.assignRole d.userId role.id,
          db₁.assignRole d.userId role.id⟩ d.userId d.adminRoleId "admin" "Administrator role"
          (.inl rfl)
        dsimp only at hadmin ⊢
        by_cases haddress : IsAdminAddress P cfg email
        · rw [grantAdminWith, if_pos haddress]
          unfold IsAdminAddress at haddress
          rw [if_pos haddress]
          cases hmade : roleOrCreate (db₁.assignRole d.userId role.id) d.adminRoleId "admin"
              "Administrator role" with
          | error e =>
            rw [exec_bind_error (hadmin.1 e hmade)]
            rfl
          | ok admin =>
            rw [exec_bind_ok (hadmin.2 admin.1 admin.2 hmade)]
            rfl
        · rw [grantAdminWith, if_neg haddress]
          unfold IsAdminAddress at haddress
          rw [if_neg haddress]
          rfl

end Register

/-- Ann registers where there are no roles yet. -/
def annRegistration (faults : RegisterFaults) : AuthDb × Except ServiceError User :=
  (registerWith .plain {} ⟨1, "salt", 2, 3⟩ faults "ann@example.org" "secret").outcome {}

theorem no_roles_of_users : ({} : AuthDb).RolesOfUsers :=
  fun r hr => absurd hr (Table.not_mem_empty r)

/-- The default role is made, which commits Ann, and cannot be assigned. From then on her address
is taken. -/
theorem annRegistration_half :
    (annRegistration { defaultRole.assignRole := some .database }).2 = .error .database ∧
    (annRegistration { defaultRole.assignRole := some .database }).1.userRoles.rows = [] ∧
    ¬RegistersWhole .plain {} {} "ann@example.org"
      (annRegistration { defaultRole.assignRole := some .database }) ∧
    (register .plain {} ⟨4, "salt", 5, 6⟩
      (annRegistration { defaultRole.assignRole := some .database }).1
      "ann@example.org" "secret").2 = .error .userAlreadyExists := by
  have hraised : (annRegistration { defaultRole.assignRole := some .database }).2 =
      .error .database := by
    decide
  have hrows : (annRegistration { defaultRole.assignRole := some .database }).1.users.rows =
      [newUser .plain {} ⟨1, "salt", 2, 3⟩ "ann@example.org" "secret"] := by
    decide
  refine ⟨hraised, by decide, fun hwhole => ?_, by decide⟩
  have hnew := hwhole.raised _ hraised (newUser .plain {} ⟨1, "salt", 2, 3⟩ "ann@example.org"
    "secret") (by rw [← Table.mem_rows, hrows]; exact List.mem_singleton.mpr rfl) rfl
  exact Table.not_mem_empty _ hnew

/-- Where it is already the making of the role that fails, Ann is not registered. -/
theorem annRegistration_whole :
    RegistersWhole .plain {} {} "ann@example.org"
      (annRegistration { defaultRole.createRole := some .database }) :=
  (registration_whole_iff no_roles_of_users).mpr
    (.inl (.inr (.inr (.inr (.inr (.inl (.inr ⟨by decide, .inl nofun⟩)))))))

end JobRadar
