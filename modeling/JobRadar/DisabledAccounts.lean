import JobRadar.Sequence
import JobRadar.UserRows

namespace JobRadar

open Database Sequence

/-- What anyone can ask of the authentication routes, with what the server draws for it. -/
inductive PublicRequest
  | register (draw : RegisterDraw) (code : CodeDraw) (email password : String)
  | login (email password : String) (metadata : SessionMetadata)
  | refresh (refreshToken : String)
  | resendEmailVerification (code : CodeDraw) (email : String)
  | verifyEmail (email code : String)
  | requestPasswordReset (code : CodeDraw) (email : String)
  | confirmPasswordReset (salt email code password : String)

/-- A code is issued only where the deployment has the feature. -/
def AuthDb.sendCode (P : Primitives) (cfg : Settings) (enabled : Bool) (draw : CodeDraw)
    (db : AuthDb) (email : String) (purpose : CodePurpose) : AuthDb :=
  if enabled then (issueCode P cfg draw db email purpose).1 else db

def AuthDb.serve (P : Primitives) (db : AuthDb) : AuthEnv × PublicRequest → AuthDb
  | (e, .register draw code email password) =>
    match register P e.cfg draw db email password with
    | (db, .error _) => db
    | (db, .ok _) =>
      db.sendCode P e.cfg e.cfg.authEmailVerificationEnabled code email .emailVerification
  | (e, .login email password metadata) =>
    (login P e.cfg e.now e.draw db email password metadata).1
  | (e, .refresh refreshToken) => (refresh P e.cfg e.now e.draw db refreshToken).1
  | (e, .resendEmailVerification code email) =>
    db.sendCode P e.cfg e.cfg.authEmailVerificationEnabled code email .emailVerification
  | (e, .verifyEmail email code) => (verifyEmail P e.cfg e.now db email code).1
  | (e, .requestPasswordReset code email) =>
    db.sendCode P e.cfg e.cfg.authPasswordResetEnabled code email .passwordReset
  | (e, .confirmPasswordReset salt email code password) =>
    (resetPassword P e.cfg e.now salt db email code password).1

def AuthDb.respond (P : Primitives) (db : AuthDb) : AuthEnv × PublicRequest → Option TokenPair
  | (e, .login email password metadata) =>
    (login P e.cfg e.now e.draw db email password metadata).2.toOption
  | (e, .refresh refreshToken) => (refresh P e.cfg e.now e.draw db refreshToken).2.toOption
  | _ => none

def AuthDb.Disabled (db : AuthDb) (userId : Uuid) : Prop :=
  ∃ user, db.user userId = some user ∧ user.status = .disabled

def AuthDb.NotActive (db : AuthDb) (userId : Uuid) : Prop :=
  ∀ user, db.user userId = some user → user.status ≠ .active

def IssuesTokens (P : Primitives) (userId : Uuid) (c : Call (AuthEnv × PublicRequest) AuthDb) :
    Prop :=
  ∃ pair, c.before.respond P c.call = some pair ∧ pair.access.sub = userId

/-- The request presents a live email verification code of the user. -/
def VerifiesUser (P : Primitives) (userId : Uuid) (c : Call (AuthEnv × PublicRequest) AuthDb) :
    Prop :=
  ∃ email code user record, c.call.2 = .verifyEmail email code ∧
    c.call.1.cfg.authEmailVerificationEnabled = true ∧
    presentedCode P c.call.1.now c.before email code .emailVerification = some (user, record) ∧
    user.id = userId

/-- The user's row is still there, and has the status it had. -/
def AuthDb.KeepsStatus (userId : Uuid) (db db' : AuthDb) : Prop :=
  ∀ user, db.user userId = some user → ∃ new, db'.user userId = some new ∧ new.status = user.status

namespace AuthDb.KeepsStatus

variable {userId : Uuid} {db mid db' : AuthDb}

theorem of_users (h : db'.users = db.users) : KeepsStatus userId db db' := by
  intro user hu
  exact ⟨user, by rw [AuthDb.user, h]; exact hu, rfl⟩

theorem trans (h : KeepsStatus userId db mid) (h' : KeepsStatus userId mid db') :
    KeepsStatus userId db db' := by
  intro user hu
  obtain ⟨user', hu', hs'⟩ := h user hu
  obtain ⟨user'', hu'', hs''⟩ := h' user' hu'
  exact ⟨user'', hu'', hs''.trans hs'⟩

theorem updateUser (db : AuthDb) (id : Uuid) (f : User → User) (hf : ∀ u, (f u).id = u.id)
    (hkeep : ∀ u, (f u).status = u.status) : KeepsStatus userId db (db.updateUser id f hf) := by
  intro user hu
  have hnew := db.users.find_updateWhere (fun u => u.id = id) f hf userId
  rw [show db.users.find userId = some user from hu, Option.map_some] at hnew
  refine ⟨_, hnew, ?_⟩
  split
  next => exact hkeep user
  next => rfl

theorem updateOther (db : AuthDb) {id : Uuid} (hother : id ≠ userId) (f : User → User)
    (hf : ∀ u, (f u).id = u.id) : KeepsStatus userId db (db.updateUser id f hf) := by
  intro user hu
  have hid : user.id = userId := (Table.find_eq_some_iff.mp hu).2
  have hnew := db.users.find_updateWhere (fun u => u.id = id) f hf userId
  rw [show db.users.find userId = some user from hu, Option.map_some] at hnew
  rw [if_neg (by rw [hid]; exact fun h => hother h.symm)] at hnew
  exact ⟨user, hnew, rfl⟩

theorem disabled (h : KeepsStatus userId db db') (hdisabled : db.Disabled userId) :
    db'.Disabled userId := by
  obtain ⟨user, hu, hs⟩ := hdisabled
  obtain ⟨new, hnew, hkept⟩ := h user hu
  exact ⟨new, hnew, hkept.trans hs⟩

end AuthDb.KeepsStatus

section Users

variable {P : Primitives} {cfg : Settings} {d : TokenDraw} {db db' : AuthDb} {userId : Uuid}

theorem authenticate_keepsStatus (P : Primitives) (cfg : Settings) (now : Time) (db : AuthDb)
    (email password : String) :
    AuthDb.KeepsStatus userId db (authenticate P cfg now db email password).1 := by
  rcases authenticate_cases P cfg now db email password with
    ⟨err, h⟩ | ⟨row, _, h | ⟨_, _, h | h⟩⟩
  all_goals rw [h]
  · exact .of_users rfl
  · exact .updateUser db _ _ _ fun _ => rfl
  · exact .updateUser db _ _ _ fun _ => rfl
  · exact .of_users rfl

theorem login_keepsStatus (now : Time) (email password : String) (metadata : SessionMetadata) :
    AuthDb.KeepsStatus userId db (login P cfg now d db email password metadata).1 := by
  have hauth : AuthDb.KeepsStatus userId db (authenticate P cfg now db email password).1 :=
    authenticate_keepsStatus P cfg now db email password
  rcases login_stores P cfg now d db email password metadata with
    ⟨mid, err, ha, hl⟩ | ⟨mid, user, ha, hl⟩
  all_goals rw [ha] at hauth
  all_goals rw [hl]
  · exact hauth
  · exact hauth.trans (.of_users (storeTokens_users _ _ _))

theorem sendCode_keepsStatus (enabled : Bool) (draw : CodeDraw) (email : String)
    (purpose : CodePurpose) :
    AuthDb.KeepsStatus userId db (db.sendCode P cfg enabled draw email purpose) := by
  unfold AuthDb.sendCode
  split
  next => exact .of_users (issueCode_users draw email purpose)
  next => exact .of_users rfl

theorem resetPassword_keepsStatus (now : Time) (salt email code password : String) :
    AuthDb.KeepsStatus userId db (resetPassword P cfg now salt db email code password).1 := by
  rcases resetPassword_cases P cfg now salt db email code password with
    ⟨err, h⟩ | ⟨user, record, _, h⟩
  all_goals rw [h]
  · exact .of_users rfl
  · have hset : AuthDb.KeepsStatus userId (db.consumeCode record now) _ :=
      .updateUser _ user.id (setPassword P salt password) (fun _ => rfl) fun _ => rfl
    exact (AuthDb.KeepsStatus.of_users rfl).trans (hset.trans (.of_users rfl))

theorem serve_keepsStatus {call : AuthEnv × PublicRequest}
    (hother : ¬VerifiesUser P userId ⟨db, call⟩) :
    AuthDb.KeepsStatus userId db (db.serve P call) := by
  obtain ⟨e, request⟩ := call
  cases request with
  | register draw code email password =>
    have hregister : AuthDb.KeepsStatus userId db (register P e.cfg draw db email password).1 :=
      fun user hu => ⟨user, register_user email password hu, rfl⟩
    simp only [AuthDb.serve]
    split
    next h => rwa [h] at hregister
    next h =>
      rw [h] at hregister
      exact hregister.trans (sendCode_keepsStatus _ _ _ _)
  | login email password metadata => exact login_keepsStatus _ _ _ _
  | refresh refreshToken => exact .of_users (refresh_users refreshToken)
  | resendEmailVerification code email => exact sendCode_keepsStatus _ _ _ _
  | verifyEmail email code =>
    show AuthDb.KeepsStatus userId db (verifyEmail P e.cfg e.now db email code).1
    rcases verifyEmail_cases P e.cfg e.now db email code with
      ⟨err, h⟩ | ⟨user, record, hflag, hcode, h⟩
    all_goals rw [h]
    · exact .of_users rfl
    · refine .trans (.of_users rfl) (.updateOther _ ?_ _ _)
      intro hid
      exact hother ⟨email, code, user, record, rfl, hflag, hcode, hid⟩
  | requestPasswordReset code email => exact sendCode_keepsStatus _ _ _ _
  | confirmPasswordReset salt email code password => exact resetPassword_keepsStatus _ _ _ _ _

theorem verifies_active {call : AuthEnv × PublicRequest} (h : VerifiesUser P userId ⟨db, call⟩) :
    ¬(db.serve P call).NotActive userId := by
  obtain ⟨e, request⟩ := call
  obtain ⟨email, code, user, record, rfl, hflag, hcode, hid⟩ := h
  have huser : db.users.find userId = some user := by
    simp only [presentedCode] at hcode
    split at hcode
    next => cases hcode
    next row hemail =>
      obtain ⟨_, _, hpair⟩ := Option.map_eq_some_iff.mp hcode
      cases hpair
      have hmem : user ∈ db.users := List.mem_of_find?_eq_some hemail
      rw [← hid]
      exact Table.find_of_mem hmem
  intro hinactive
  have hnew := (db.consumeCode record e.now).users.find_updateWhere (fun u => u.id = user.id)
    (markVerified e.now) (fun _ => rfl) userId
  rw [show (db.consumeCode record e.now).users.find userId = some user from huser,
    Option.map_some, if_pos rfl] at hnew
  have hflag : e.cfg.authEmailVerificationEnabled = true := hflag
  refine hinactive (markVerified e.now user) ?_ rfl
  simp only [AuthDb.serve, verifyEmail, hflag, if_true, hcode]
  exact hnew

theorem disabled_issues_nothing {call : AuthEnv × PublicRequest} (h : db.Disabled userId) :
    ¬IssuesTokens P userId ⟨db, call⟩ := by
  obtain ⟨row, hrow, hdisabled⟩ := h
  obtain ⟨e, request⟩ := call
  rintro ⟨pair, hreply, hsub⟩
  cases request with
  | login email password metadata =>
    obtain ⟨user, hauth, hpair⟩ := login_ok (toOption_eq_some hreply)
    obtain ⟨row', hrow', hadmitted⟩ := authenticate_ok hauth
    rw [← hpair, hsub, hrow] at hrow'
    cases hrow'
    rcases hadmitted with hactive | hpending
    · rw [hdisabled] at hactive
      cases hactive
    · rw [hdisabled] at hpending
      cases hpending
  | refresh refreshToken =>
    obtain ⟨user, huser, hactive, hpair⟩ := refresh_ok (toOption_eq_some hreply)
    rw [← hpair, hsub, hrow] at huser
    cases huser
    rw [hdisabled] at hactive
    cases hactive
  | _ => cases hreply

end Users

section Run

variable {P : Primitives} {db₀ db : AuthDb} {userId : Uuid}
  {calls : List (Call (AuthEnv × PublicRequest) AuthDb)}

/-- A disabled user stays disabled, and without tokens, exactly as long as no request verifies
the user's email. -/
theorem stays_disabled_iff (hstart : db₀.Disabled userId)
    (run : Run (AuthDb.serve P) db₀ calls db) :
    (db.NotActive userId ∧ ∀ c ∈ calls, c.before.NotActive userId ∧ ¬IssuesTokens P userId c) ↔
      ∀ c ∈ calls, ¬VerifiesUser P userId c := by
  have keep : ∀ (db : AuthDb) call, db.Disabled userId → ¬VerifiesUser P userId ⟨db, call⟩ →
      (db.serve P call).Disabled userId :=
    fun db call hdisabled hother => (serve_keepsStatus hother).disabled hdisabled
  have promise : ∀ db : AuthDb, db.Disabled userId → db.NotActive userId := by
    rintro db ⟨row, hrow, hdisabled⟩ user huser hactive
    rw [hrow] at huser
    cases huser
    rw [hdisabled] at hactive
    cases hactive
  have only : ∀ (db : AuthDb) call, db.Disabled userId → True →
      (db.serve P call).NotActive userId → ¬VerifiesUser P userId ⟨db, call⟩ :=
    fun db call _ _ hinactive hverifies => verifies_active hverifies hinactive
  have hiff : (db.NotActive userId ∧ ∀ c ∈ calls, c.before.NotActive userId) ↔
      ∀ c ∈ calls, ¬VerifiesUser P userId c :=
    Run.promise_iff (I := fun db : AuthDb => db.Disabled userId) hstart keep promise only run
      fun _ _ => trivial
  constructor
  · rintro ⟨hlast, hcalls⟩
    exact hiff.mp ⟨hlast, fun c hc => (hcalls c hc).1⟩
  · intro hother
    obtain ⟨hlast, hbefore⟩ := hiff.mpr hother
    refine ⟨hlast, fun c hc => ⟨hbefore c hc, ?_⟩⟩
    have hdisabled : c.before.Disabled userId :=
      Run.invariant_before (I := fun db : AuthDb => db.Disabled userId) hstart keep run hother c hc
    exact disabled_issues_nothing hdisabled

end Run

def verificationOn : Settings := { authEmailVerificationEnabled := true }

def annDisabledDb : AuthDb where
  users := ⟨[⟨1, some "ann@example.com", some "correct horse", .disabled, none, 0, none⟩], by simp⟩

/-- Ann, whose account is disabled, has a code sent to her, verifies with it and logs in. -/
def annVerified : List (Call (AuthEnv × PublicRequest) AuthDb) × AuthDb :=
  runAll (AuthDb.serve .plain) [] annDisabledDb
    [(callAt 1 "first" verificationOn,
        .resendEmailVerification ⟨1, 1, "123456"⟩ "ann@example.com"),
      (callAt 2 "second" verificationOn, .verifyEmail "ann@example.com" "123456"),
      (callAt 3 "third" verificationOn, .login "ann@example.com" "correct horse" {})]

theorem annDisabledDb_disabled : annDisabledDb.Disabled 1 := ⟨_, rfl, rfl⟩

theorem verification_reenables : annDisabledDb.Disabled 1 ∧
    Run (AuthDb.serve .plain) annDisabledDb annVerified.1 annVerified.2 ∧
    (∃ user, annVerified.2.user 1 = some user ∧ user.status = .active) ∧
    ∃ c ∈ annVerified.1, IssuesTokens .plain 1 c :=
  ⟨annDisabledDb_disabled, run_runAll .start _, ⟨_, rfl, rfl⟩,
    ⟨_, List.mem_cons_self .., _, rfl, rfl⟩⟩

theorem annDisabled_refused : annDisabledDb.Disabled 1 ∧
    ∀ c ∈ [(⟨annDisabledDb, callAt 3 "third" verificationOn,
      .login "ann@example.com" "correct horse" {}⟩ : Call (AuthEnv × PublicRequest) AuthDb)],
      ¬IssuesTokens .plain 1 c := by
  have run : Run (AuthDb.serve .plain) annDisabledDb [⟨annDisabledDb,
      callAt 3 "third" verificationOn, .login "ann@example.com" "correct horse" {}⟩] _ :=
    .next _ .start
  refine ⟨annDisabledDb_disabled, ?_⟩
  have hall := ((stays_disabled_iff annDisabledDb_disabled run).mpr ?_).2
  · exact fun c hc => (hall c hc).2
  · intro c hc
    cases List.mem_singleton.mp hc
    rintro ⟨email, code, user, record, hop, _⟩
    cases hop

end JobRadar
