import JobRadar.RotationFaults

namespace JobRadar

open Database Transaction Work

/-- What the surroundings make the database calls raise that give a user a role. -/
structure GrantFaults where
  role : Option ServiceError := none
  createRole : Option ServiceError := none
  refresh : Option ServiceError := none
  userRole : Option ServiceError := none
  assignRole : Option ServiceError := none

def roleOrCreateWith (faults : GrantFaults) (roleId : Uuid) (name description : String) :
    AuthWork Role := do
  let found ← query faults.role (·.role name)
  match found with
  | some role => pure role
  | none => do
    let role ← save faults.createRole fun db =>
      (db.createRole roleId name (some description)).mapError .auth
    query faults.refresh fun _ => ()
    return role

def assignRoleWith (faults : GrantFaults) (userId roleId : Uuid) : AuthWork Unit := do
  let existing ← query faults.userRole fun db =>
    decide ((⟨userId, roleId⟩ : UserRole) ∈ db.userRoles.rows)
  if existing then pure ()
  else save faults.assignRole fun db => .ok (db.assignRole userId roleId, ())

def grantRoleWith (faults : GrantFaults) (userId roleId : Uuid) (name description : String) :
    AuthWork Unit := do
  let role ← roleOrCreateWith faults roleId name description
  assignRoleWith faults userId role.id

namespace AuthDb

/-- The role of that name, or the one that is made where there is none. -/
def roleNamed (db : AuthDb) (roleId : Uuid) (name description : String) : Role :=
  (db.role name).getD { id := roleId, name := name, description := some description }

def withRole (db : AuthDb) (role : Role) : AuthDb :=
  { db with roles := (db.roles.insert role).getD db.roles }

/-- The database once the user has the role. -/
def withGrant (db : AuthDb) (userId roleId : Uuid) (name description : String) : AuthDb :=
  (db.withRole (db.roleNamed roleId name description)).assignRole userId
    (db.roleNamed roleId name description).id

def Holds (db : AuthDb) (userId : Uuid) (name : String) : Prop :=
  ∃ role ∈ db.roles, role.name = name ∧ (⟨userId, role.id⟩ : UserRole) ∈ db.userRoles

end AuthDb

namespace GrantFaults

def RoleFails (faults : GrantFaults) (db : AuthDb) (roleId : Uuid) (name : String) : Prop :=
  faults.role ≠ none ∨
    (db.role name = none ∧ (faults.createRole ≠ none ∨ ∃ old ∈ db.roles, old.id = roleId))

/-- The role, which was made just now or found, cannot be assigned. -/
def AssignFails (faults : GrantFaults) (made held : Prop) : Prop :=
  (made ∧ faults.refresh ≠ none) ∨ faults.userRole ≠ none ∨ (¬held ∧ faults.assignRole ≠ none)

end GrantFaults

section Grants

variable {faults : GrantFaults} {db : AuthDb} {roleId userId : Uuid} {name description : String}
  {s : Session AuthDb}

theorem roleNamed_found {role : Role} (h : db.role name = some role) :
    db.roleNamed roleId name description = role := by
  rw [AuthDb.roleNamed, h, Option.getD_some]

theorem roleNamed_none (h : db.role name = none) :
    db.roleNamed roleId name description = ⟨roleId, name, some description, true⟩ := by
  rw [AuthDb.roleNamed, h, Option.getD_none]

theorem roleNamed_name (db : AuthDb) (roleId : Uuid) (name description : String) :
    (db.roleNamed roleId name description).name = name := by
  cases h : db.role name with
  | none => rw [roleNamed_none h]
  | some role =>
    rw [roleNamed_found h]
    exact (Table.find_eq_some_iff.mp h).2

theorem withRole_none (hnone : db.role name = none) :
    ∃ roles, db.roles.insert (db.roleNamed roleId name description) = some roles ∧
      db.withRole (db.roleNamed roleId name description) = { db with roles := roles } := by
  have hfresh : ∀ old ∈ db.roles, old.name ≠ (db.roleNamed roleId name description).name := by
    rw [roleNamed_name]
    exact Table.find_eq_none_iff.mp hnone
  obtain ⟨roles, hroles⟩ := Table.insert_isSome_of_fresh hfresh
  exact ⟨roles, hroles, by rw [AuthDb.withRole, hroles, Option.getD_some]⟩

theorem withRole_found {role : Role} (h : db.role name = some role) :
    db.withRole (db.roleNamed roleId name description) = db := by
  have htaken : db.roles.insert role = none :=
    Table.insert_eq_none_iff.mpr ⟨role, (Table.find_eq_some_iff.mp h).1, rfl⟩
  rw [roleNamed_found h, AuthDb.withRole, htaken, Option.getD_none]

theorem mem_withRole (db : AuthDb) (roleId : Uuid) (name description : String) :
    db.roleNamed roleId name description ∈
      (db.withRole (db.roleNamed roleId name description)).roles := by
  cases h : db.role name with
  | none =>
    obtain ⟨roles, hinsert, hroles⟩ := withRole_none h
    rw [hroles]
    exact (Table.mem_of_insert hinsert).mpr (.inr rfl)
  | some role =>
    rw [withRole_found h, roleNamed_found h]
    exact (Table.find_eq_some_iff.mp h).1

/-- A role that is not there is made, unless its id is taken. -/
theorem createRole_spec (hnone : db.role name = none) (description : String) :
    ((∃ old ∈ db.roles, old.id = roleId) ∧
      db.createRole roleId name (some description) = .error .dataConflict) ∨
    ((¬∃ old ∈ db.roles, old.id = roleId) ∧
      db.createRole roleId name (some description) =
        .ok (db.withRole (db.roleNamed roleId name description),
          db.roleNamed roleId name description)) := by
  obtain ⟨roles, hinsert, hroles⟩ := withRole_none hnone
  rw [roleNamed_none hnone] at hinsert hroles
  by_cases htaken : ∃ old ∈ db.roles, old.id = roleId
  · have hrefused : db.insertRole ⟨roleId, name, some description, true⟩ = none := if_pos htaken
    refine .inl ⟨htaken, ?_⟩
    simp only [AuthDb.createRole, hrefused]
  · have hmade : db.insertRole ⟨roleId, name, some description, true⟩ = some roles :=
      (if_neg htaken).trans hinsert
    refine .inr ⟨htaken, ?_⟩
    rw [roleNamed_none hnone, hroles]
    simp only [AuthDb.createRole, hmade]

/-- A role is found, made, or refused for its id. -/
theorem roleOrCreate_spec (db : AuthDb) (roleId : Uuid) (name description : String) :
    ((db.role name = none ∧ ∃ old ∈ db.roles, old.id = roleId) ∧
      roleOrCreate db roleId name description = .error .dataConflict) ∨
    (¬(db.role name = none ∧ ∃ old ∈ db.roles, old.id = roleId) ∧
      roleOrCreate db roleId name description =
        .ok (db.withRole (db.roleNamed roleId name description),
          db.roleNamed roleId name description)) := by
  unfold roleOrCreate
  cases h : db.role name with
  | some role =>
    refine .inr ⟨fun hnone => Option.some_ne_none role hnone.1, ?_⟩
    rw [withRole_found h, roleNamed_found h]
  | none =>
    rcases createRole_spec h description with ⟨htaken, hrefused⟩ | ⟨hfree, hmade⟩
    · exact .inl ⟨⟨rfl, htaken⟩, hrefused⟩
    · exact .inr ⟨fun htaken => hfree htaken.2, hmade⟩

theorem exec_role_fails (description : String) (h : faults.RoleFails s.pending roleId name) : ∃ e,
    (roleOrCreateWith faults roleId name description).exec s =
      (.error e, ⟨s.committed, s.committed⟩) := by
  unfold roleOrCreateWith
  cases hrole : faults.role with
  | some e => exact ⟨e, exec_bind_error (exec_query_fault e _ s)⟩
  | none =>
    obtain ⟨hnone, hfails⟩ := h.resolve_left (not_not.mpr hrole)
    rw [exec_bind_ok (exec_query _ s), hnone]
    dsimp only
    cases hcreate : faults.createRole with
    | some e => exact ⟨e, exec_bind_error (exec_save_fault e _ s)⟩
    | none =>
      have htaken := hfails.resolve_left (not_not.mpr hcreate)
      rcases createRole_spec hnone description with ⟨-, hrefused⟩ | ⟨hfree, -⟩
      · exact ⟨.auth .dataConflict, exec_bind_error (exec_save_error (by rw [hrefused]; rfl))⟩
      · exact absurd htaken hfree

theorem exec_role_found (h : ¬faults.RoleFails s.pending roleId name)
    (hfound : s.pending.role name ≠ none) :
    (roleOrCreateWith faults roleId name description).exec s =
      (.ok (s.pending.roleNamed roleId name description), s) := by
  have hrole : faults.role = none := not_not.mp fun hrole => h (.inl hrole)
  obtain ⟨role, hsome⟩ := Option.ne_none_iff_exists'.mp hfound
  rw [roleOrCreateWith, hrole, exec_bind_ok (exec_query _ s), hsome, roleNamed_found hsome]
  rfl

/-- A role that was made is committed before it is read again. -/
theorem exec_role_made (h : ¬faults.RoleFails s.pending roleId name)
    (hnone : s.pending.role name = none) :
    (roleOrCreateWith faults roleId name description).exec s =
      (query faults.refresh (fun _ => ()) >>= fun _ =>
        pure (s.pending.roleNamed roleId name description) : AuthWork Role).exec
          ⟨s.pending.withRole (s.pending.roleNamed roleId name description),
            s.pending.withRole (s.pending.roleNamed roleId name description)⟩ := by
  have hrole : faults.role = none := not_not.mp fun hrole => h (.inl hrole)
  have hcreate : faults.createRole = none :=
    not_not.mp fun hcreate => h (.inr ⟨hnone, .inl hcreate⟩)
  rcases createRole_spec hnone description with ⟨htaken, -⟩ | ⟨-, hmade⟩
  · exact absurd (.inr ⟨hnone, .inr htaken⟩) h
  · have hsave : (save none fun db : AuthDb =>
        (db.createRole roleId name (some description)).mapError ServiceError.auth).exec s =
        (.ok (s.pending.roleNamed roleId name description),
          ⟨s.pending.withRole (s.pending.roleNamed roleId name description),
            s.pending.withRole (s.pending.roleNamed roleId name description)⟩) :=
      exec_save_ok (by rw [hmade]; rfl)
    rw [roleOrCreateWith, hrole, hcreate, exec_bind_ok (exec_query _ s), hnone]
    exact exec_bind_ok hsave

theorem assignRoleWith_atomic : Atomic (assignRoleWith faults userId roleId) := by
  refine (Quiet.query _ _).bind_atomic fun existing => ?_
  split
  next => exact (Quiet.pure _).atomic
  next => exact Atomic.save _ _

theorem raises_assignRoleWith : (assignRoleWith faults userId roleId).Raises s ↔
    faults.AssignFails False ((⟨userId, roleId⟩ : UserRole) ∈ s.pending.userRoles.rows) := by
  rw [assignRoleWith, raises_query_bind, GrantFaults.AssignFails, false_and, false_or]
  refine or_congr_right ?_
  by_cases hheld : (⟨userId, roleId⟩ : UserRole) ∈ s.pending.userRoles.rows
  · simp [hheld]
  · simp [hheld, raises_save]

theorem mem_assignRole (db : AuthDb) (userId roleId : Uuid) (r : UserRole) :
    r ∈ (db.assignRole userId roleId).userRoles ↔
      r ∈ db.userRoles ∨ r = ⟨userId, roleId⟩ := by
  unfold AuthDb.assignRole
  cases h : db.userRoles.insert ⟨userId, roleId⟩ with
  | none =>
    obtain ⟨old, hold, hsame⟩ := Table.insert_eq_none_iff.mp h
    refine ⟨.inl, ?_⟩
    rintro (hr | rfl)
    · exact hr
    · have heq : old = ⟨userId, roleId⟩ := hsame
      exact heq ▸ hold
  | some userRoles => exact Table.mem_of_insert h

/-- An assignment that goes through is committed, and so is all before it unless the user already
had the role. -/
theorem exec_assign_ok
    (h : ¬(assignRoleWith faults userId roleId).Raises s)
    (hstart : s.committed = s.pending ∨
      (⟨userId, roleId⟩ : UserRole) ∉ s.pending.userRoles.rows) :
    (assignRoleWith faults userId roleId).exec s =
      (.ok (), ⟨s.pending.assignRole userId roleId, s.pending.assignRole userId roleId⟩) := by
  rw [raises_assignRoleWith] at h
  have hselect : faults.userRole = none := not_not.mp fun hselect => h (.inr (.inl hselect))
  rw [assignRoleWith, hselect, exec_bind_ok (exec_query _ s)]
  by_cases hheld : (⟨userId, roleId⟩ : UserRole) ∈ s.pending.userRoles.rows
  · have hsame : s.pending.assignRole userId roleId = s.pending := by
      have htaken : s.pending.userRoles.insert ⟨userId, roleId⟩ = none :=
        Table.insert_eq_none_iff.mpr ⟨_, hheld, rfl⟩
      simp only [AuthDb.assignRole, htaken]
    have hsettled := hstart.resolve_right (not_not.mpr hheld)
    simp only [hheld, decide_true, if_true, exec_pure, hsame]
    cases s
    cases hsettled
    rfl
  · have hcommit : faults.assignRole = none :=
      not_not.mp fun hcommit => h (.inr (.inr ⟨hheld, hcommit⟩))
    simp only [hheld, decide_false, Bool.false_eq_true, if_false, hcommit]
    exact exec_save_ok rfl

theorem exec_grant_found (userId : Uuid) (description : String)
    (h : ¬faults.RoleFails s.pending roleId name)
    (hfound : s.pending.role name ≠ none) :
    (grantRoleWith faults userId roleId name description).exec s =
      (assignRoleWith faults userId (s.pending.roleNamed roleId name description).id).exec s :=
  exec_bind_ok (exec_role_found h hfound)

theorem exec_grant_made (userId : Uuid) (description : String)
    (h : ¬faults.RoleFails s.pending roleId name)
    (hnone : s.pending.role name = none) :
    (grantRoleWith faults userId roleId name description).exec s =
      (query faults.refresh (fun _ => ()) >>= fun _ => assignRoleWith faults userId
        (s.pending.roleNamed roleId name description).id).exec
          ⟨s.pending.withRole (s.pending.roleNamed roleId name description),
            s.pending.withRole (s.pending.roleNamed roleId name description)⟩ := by
  rw [grantRoleWith, exec_bind_congr (exec_role_made h hnone), bind_assoc]
  simp only [pure_bind]

theorem raises_grantRoleWith : (grantRoleWith faults userId roleId name description).Raises s ↔
    faults.RoleFails s.pending roleId name ∨
      faults.AssignFails (s.pending.role name = none)
        ((⟨userId, (s.pending.roleNamed roleId name description).id⟩ : UserRole) ∈
          s.pending.userRoles.rows) := by
  by_cases hfails : faults.RoleFails s.pending roleId name
  · obtain ⟨e, hexec⟩ := exec_role_fails description hfails
    exact iff_of_true ⟨e, _, exec_bind_error hexec⟩ (.inl hfails)
  · rw [or_iff_right hfails]
    by_cases hnone : s.pending.role name = none
    · rw [Raises, exec_grant_made userId description hfails hnone]
      change Raises _ _ ↔ _
      rw [raises_query_bind, raises_assignRoleWith]
      simp only [GrantFaults.AssignFails, hnone, true_and, false_and, false_or]
      rfl
    · rw [Raises, exec_grant_found userId description hfails hnone]
      refine raises_assignRoleWith.trans ?_
      simp only [GrantFaults.AssignFails, hnone, false_and, false_or]

/-- A role that is given is committed, with all before it, unless the user already had it. -/
theorem exec_grant_ok (h : ¬(grantRoleWith faults userId roleId name description).Raises s)
    (hstart : s.committed = s.pending ∨
      (⟨userId, (s.pending.roleNamed roleId name description).id⟩ : UserRole) ∉
        s.pending.userRoles.rows) :
    (grantRoleWith faults userId roleId name description).exec s =
      (.ok (), ⟨s.pending.withGrant userId roleId name description,
        s.pending.withGrant userId roleId name description⟩) := by
  have hrole : ¬faults.RoleFails s.pending roleId name :=
    fun hrole => h (raises_grantRoleWith.mpr (.inl hrole))
  by_cases hnone : s.pending.role name = none
  · have hmade := exec_grant_made userId description hrole hnone
    have hrefresh : faults.refresh = none :=
      not_not.mp fun hr => h (raises_grantRoleWith.mpr (.inr (.inl ⟨hnone, hr⟩)))
    rw [hrefresh, exec_bind_ok (exec_query _ _)] at hmade
    rw [Raises, hmade] at h
    rw [hmade]
    exact exec_assign_ok h (.inl rfl)
  · have hfound := exec_grant_found userId description hrole hnone
    rw [Raises, hfound] at h
    obtain ⟨role, hsome⟩ := Option.ne_none_iff_exists'.mp hnone
    rw [hfound, exec_assign_ok h hstart, AuthDb.withGrant, withRole_found hsome]

theorem grant_fails_early (s : Session AuthDb) (userId : Uuid) (description : String)
    (h : faults.RoleFails s.pending roleId name ∨
      (s.pending.role name ≠ none ∧
        (grantRoleWith faults userId roleId name description).Raises s)) :
    ∃ e s', (grantRoleWith faults userId roleId name description).exec s = (.error e, s') ∧
      s'.committed = s.committed := by
  by_cases hfails : faults.RoleFails s.pending roleId name
  · obtain ⟨e, hexec⟩ := exec_role_fails description hfails
    exact ⟨e, _, exec_bind_error hexec, rfl⟩
  · obtain ⟨hfound, e, s', hexec⟩ := h.resolve_left hfails
    refine ⟨e, s', hexec, ?_⟩
    rw [exec_grant_found userId description hfails hfound] at hexec
    exact assignRoleWith_atomic s e s' hexec

theorem withRole_users (db : AuthDb) (role : Role) : (db.withRole role).users = db.users := rfl

theorem assignRoleWith_keeps (users : Table User.id) :
    Keeps (fun db => db.users = users) (assignRoleWith faults userId roleId) := by
  refine (Keeps.query _).bind fun existing => ?_
  split
  next => exact Keeps.pure _
  next =>
    refine Keeps.save fun db r hdb hr => ?_
    cases hr
    exact (assignRole_users userId roleId).trans hdb

/-- From the first commit on, the users are what they were by then. -/
theorem grant_fails_late (hfails : ¬faults.RoleFails s.pending roleId name)
    (hnone : s.pending.role name = none)
    (h : (grantRoleWith faults userId roleId name description).Raises s) :
    ∃ e s', (grantRoleWith faults userId roleId name description).exec s = (.error e, s') ∧
      s'.committed.users = s.pending.users := by
  obtain ⟨e, s', hexec⟩ := h
  refine ⟨e, s', hexec, ?_⟩
  rw [exec_grant_made userId description hfails hnone] at hexec
  have hkeeps : Keeps (fun db : AuthDb => db.users = s.pending.users)
      (query faults.refresh (fun _ => ()) >>= fun _ =>
        assignRoleWith faults userId (s.pending.roleNamed roleId name description).id) :=
    (Keeps.query _).bind fun _ => assignRoleWith_keeps s.pending.users
  exact hkeeps.after hexec rfl rfl

theorem grantRoleWith_keeps (users : Table User.id) :
    Keeps (fun db => db.users = users) (grantRoleWith faults userId roleId name description) := by
  refine Keeps.bind ?_ fun role => assignRoleWith_keeps users
  refine (Keeps.query _).bind fun found => ?_
  cases found with
  | some role => exact Keeps.pure _
  | none =>
    refine Keeps.bind (Keeps.save fun db r hdb hr => ?_) fun role =>
      (Keeps.query _).bind fun _ => Keeps.pure _
    unfold AuthDb.createRole at hr
    cases hinsert : db.insertRole ⟨roleId, name, some description, true⟩ with
    | none =>
      simp only [hinsert] at hr
      cases hr
    | some roles =>
      simp only [hinsert] at hr
      cases hr
      exact hdb

theorem withGrant_roles (db : AuthDb) (userId roleId : Uuid) (name description : String) :
    (db.withGrant userId roleId name description).roles =
      (db.withRole (db.roleNamed roleId name description)).roles := by
  unfold AuthDb.withGrant AuthDb.assignRole
  split <;> rfl

theorem withGrant_users (db : AuthDb) (userId roleId : Uuid) (name description : String) :
    (db.withGrant userId roleId name description).users = db.users := by
  rw [AuthDb.withGrant, assignRole_users, withRole_users]

theorem mem_withGrant (db : AuthDb) (userId roleId : Uuid) (name description : String)
    (r : UserRole) :
    r ∈ (db.withGrant userId roleId name description).userRoles ↔
      r ∈ db.userRoles ∨ r = ⟨userId, (db.roleNamed roleId name description).id⟩ :=
  mem_assignRole ..

theorem withGrant_holds (db : AuthDb) (userId roleId : Uuid) (name description : String) :
    (db.withGrant userId roleId name description).Holds userId name := by
  refine ⟨db.roleNamed roleId name description, ?_, roleNamed_name .., ?_⟩
  · rw [withGrant_roles]
    exact mem_withRole ..
  · exact (mem_withGrant ..).mpr (.inr rfl)

theorem mem_withRole_of_mem {db : AuthDb} {role old : Role} (h : old ∈ db.roles) :
    old ∈ (db.withRole role).roles := by
  unfold AuthDb.withRole
  cases hinsert : db.roles.insert role with
  | none => exact h
  | some roles => exact (Table.mem_of_insert hinsert).mpr (.inl h)

/-- Nobody loses a role when one is given. -/
theorem holds_withGrant {db : AuthDb} {userId : Uuid} {name : String} (h : db.Holds userId name)
    (userId' roleId : Uuid) (name' description : String) :
    (db.withGrant userId' roleId name' description).Holds userId name := by
  obtain ⟨role, hrole, hname, hheld⟩ := h
  refine ⟨role, ?_, hname, (mem_withGrant ..).mpr (.inl hheld)⟩
  rw [withGrant_roles]
  exact mem_withRole_of_mem hrole

/-- What can fail about a role depends on the roles alone. -/
theorem roleFails_congr (grant : GrantFaults) {db db' : AuthDb} (h : db.roles = db'.roles)
    (roleId : Uuid) (name : String) :
    (grant.RoleFails db roleId name ↔ grant.RoleFails db' roleId name) ∧
      db.role name = db'.role name ∧
      ∀ description,
        db.roleNamed roleId name description = db'.roleNamed roleId name description := by
  have hrole : db.role name = db'.role name := by rw [AuthDb.role, h, AuthDb.role]
  refine ⟨?_, hrole, fun description => ?_⟩
  · rw [GrantFaults.RoleFails, GrantFaults.RoleFails, hrole, h]
  · rw [AuthDb.roleNamed, AuthDb.roleNamed, hrole]

theorem assignFails_congr {grant : GrantFaults} {made made' held held' : Prop}
    (hmade : made ↔ made') (hheld : held ↔ held') :
    grant.AssignFails made held ↔ grant.AssignFails made' held' := by
  rw [GrantFaults.AssignFails, GrantFaults.AssignFails, hmade, hheld]

theorem roleFails_none {roleId : Uuid} {name : String} :
    ({} : GrantFaults).RoleFails db roleId name ↔
      db.role name = none ∧ ∃ old ∈ db.roles, old.id = roleId := by
  simp [GrantFaults.RoleFails]

theorem exec_grant_sound (s : Session AuthDb) (userId roleId : Uuid) (name description : String)
    (hstart : s.committed = s.pending ∨
      ∀ id, (⟨userId, id⟩ : UserRole) ∉ s.pending.userRoles.rows) :
    (∀ e, roleOrCreate s.pending roleId name description = .error e →
      (grantRoleWith {} userId roleId name description).exec s =
        (.error (.auth e), ⟨s.committed, s.committed⟩)) ∧
    ∀ made role, roleOrCreate s.pending roleId name description = .ok (made, role) →
      (grantRoleWith {} userId roleId name description).exec s =
        (.ok (), ⟨made.assignRole userId role.id, made.assignRole userId role.id⟩) := by
  rcases roleOrCreate_spec s.pending roleId name description with
    ⟨htaken, hrefused⟩ | ⟨hfree, hmade⟩
  · refine ⟨fun e he => ?_, fun made role hok => ?_⟩
    · have hcreate := he
      simp only [roleOrCreate, htaken.1] at hcreate
      refine exec_bind_error ?_
      rw [roleOrCreateWith, exec_bind_ok (exec_query _ _), htaken.1]
      exact exec_bind_error (exec_save_error (by rw [hcreate]; rfl))
    · rw [hrefused] at hok
      cases hok
  · refine ⟨fun e he => ?_, fun made role hok => ?_⟩
    · rw [hmade] at he
      cases he
    · rw [hmade] at hok
      cases hok
      have hreturns : ¬(grantRoleWith {} userId roleId name description).Raises s := by
        rw [raises_grantRoleWith, roleFails_none, or_iff_right hfree]
        simp [GrantFaults.AssignFails]
      exact exec_grant_ok hreturns (hstart.imp_right fun h => h _)

end Grants

end JobRadar
