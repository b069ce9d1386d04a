import JobRadar.AccountRuns
import JobRadar.SessionRevocation

namespace JobRadar

open Database Python Sequence

/-- The session an access token names, if any, is a session of its user. -/
def AuthDb.Backs (db : AuthDb) (access : AccessToken) : Prop :=
  ∀ s, access.sid = some s → ∃ session, db.sessions.find s = some session ∧
    session.userId = access.sub

section Calls

variable {P : Primitives} {lib : TokenLibrary} {cfg : Settings} {d : TokenDraw} {now : Time}
  {db db' : AuthDb} {user : User} {access : AccessToken} {pair : TokenPair}

theorem AuthDb.Backs.kept (h : db.Backs access) (hkept : db.SessionsKept db') :
    db'.Backs access := by
  intro s hs
  obtain ⟨session, hfind, howner⟩ := h s hs
  obtain ⟨kept, hfind', howner', _⟩ := hkept s session hfind
  exact ⟨kept, hfind', howner'.trans howner⟩

theorem storeTokens_backs {roles : List String} {sessionId : Option Uuid}
    {metadata : SessionMetadata}
    (howns : ∀ s, sessionId = some s → ∃ session, db.sessions.find s = some session ∧
      session.userId = user.id ∧ session.revokedAt = none)
    (h : (storeTokens P cfg d db user roles sessionId metadata).2 = .ok pair) :
    (storeTokens P cfg d db user roles sessionId metadata).1.Backs pair.access := by
  unfold storeTokens at h ⊢
  cases ho : openSession cfg d db user sessionId metadata with
  | error err =>
    rw [ho] at h
    cases h
  | ok r =>
    obtain ⟨opened, sessionId'⟩ := r
    obtain ⟨_, hnew⟩ := openSession_owns (P := P) ho howns
    cases hs : opened.saveRefreshToken (newRefreshToken P cfg d user sessionId') with
    | error err =>
      simp only [ho, hs] at h
      cases h
    | ok saved =>
      simp only [ho, hs] at h
      cases h
      have hsessions : saved.sessions = opened.sessions := by
        rw [AuthDb.saveRefreshToken_tokens hs]
      intro s hsid
      obtain ⟨session, hfind, howner, _⟩ := hnew s hsid
      refine ⟨session, ?_, howner⟩
      simp only [hs, hsessions]
      exact hfind

theorem reply_backs {e : AuthEnv} {op : AuthOp} (howned : db.SessionsOwned)
    (h : db.reply P e op = some pair) : (db.commit P e op).Backs pair.access := by
  cases op with
  | login email password metadata =>
    have hok := toOption_eq_some h
    simp only [AuthDb.commit]
    rcases login_stores P e.cfg e.now e.draw db email password metadata with
      ⟨mid, err, _, hl⟩ | ⟨mid, user, _, hl⟩
    all_goals rw [hl] at hok ⊢
    · cases hok
    · exact storeTokens_backs (by simp) hok
  | refresh raw =>
    have hok := toOption_eq_some h
    simp only [AuthDb.commit]
    rcases refresh_stores P e.cfg e.now e.draw db raw with
      ⟨_, hr⟩ | ⟨token, hfind, ⟨_, hr⟩ | ⟨_, hr⟩ | ⟨husable, user, hactive, hr⟩⟩
    all_goals rw [hr] at hok ⊢
    · cases hok
    · cases hok
    · cases hok
    · have hsession := ((howned _ token hfind).active husable.1).forUser (activeUser_id hactive)
      exact storeTokens_backs hsession hok
  | _ => cases h

theorem account_sessionsKept (call : AccessEnv × AccessOp) :
    db.SessionsKept (db.account P lib call) := by
  obtain ⟨e, op⟩ := call
  cases op with
  | auth op => exact call_sessionsKept (e.toAuthEnv, op)
  | authenticate email password =>
    exact .of_eq (authenticate_untouched P e.cfg e.now db email password).sessions
  | request authorization =>
    exact .of_eq (getCurrentUser_untouched e.settings e.now authorization).sessions
  | ensureUser userId => exact .of_eq (ensureUser_untouched db userId).sessions

theorem account_owned (h : db.SessionsOwned) (call : AccessEnv × AccessOp) :
    (db.account P lib call).SessionsOwned := by
  obtain ⟨e, op⟩ := call
  have hquiet : ∀ {db'}, db.Untouched db' → db'.SessionsOwned :=
    fun huntouched => h.of_eq huntouched.tokens huntouched.sessions
  cases op with
  | auth op => exact commit_owned h op
  | authenticate email password =>
    exact hquiet (authenticate_untouched P e.cfg e.now db email password)
  | request authorization =>
    exact hquiet (getCurrentUser_untouched e.settings e.now authorization)
  | ensureUser userId => exact hquiet (ensureUser_untouched db userId)

theorem resetPassword_revokes {record : VerificationCode} {salt email code password : String}
    {after : AuthDb} {s : Uuid} {session : AuthSession}
    (hcode : presentedCode P now db email code .passwordReset = some (user, record))
    (hreset : resetPassword P cfg now salt db email code password = (after, .ok ()))
    (hfind : db.sessions.find s = some session) (howner : session.userId = user.id) :
    after.SessionRevoked s := by
  rcases resetPassword_cases P cfg now salt db email code password with
    ⟨err, hr⟩ | ⟨user', record', hcode', hr⟩
  · rw [hr] at hreset
    cases hreset
  · rw [hcode] at hcode'
    cases hcode'
    rw [hr] at hreset
    cases hreset
    have hnew := db.sessions.find_updateWhere
      (fun session => session.userId = user.id ∧ session.revokedAt = none) (·.revoke now)
      (fun _ => rfl) s
    rw [hfind, Option.map_some] at hnew
    refine ⟨_, hnew, ?_⟩
    split
    next => simp [AuthSession.revoke]
    next hkept => exact fun hlive => hkept ⟨howner, hlive⟩

/-- A request whose token decodes to the claims of an access token whose session, if it has one, is
revoked is turned away where sessions are managed, and elsewhere only if the user is not active. -/
theorem getCurrentUser_iff {cfg : AccessSettings} {token : Text}
    (hrevoked : ∀ s, access.sid = some s → db.SessionRevoked s)
    (hidentity : tokenIdentity lib cfg.toSettings now token = .ok (access.sub, access.sid)) :
    (∀ current, (getCurrentUser lib cfg now db (some (bearer ++ token))).2 ≠ .ok current) ↔
      cfg.authSessionManagementEnabled = true ∨ db.activeUser access.sub = none := by
  have hstart : Text.startsWith (bearer ++ token) bearer = true :=
    List.isPrefixOf_iff_prefix.mpr (List.prefix_append bearer token)
  have hanswer : (getCurrentUser lib cfg now db (some (bearer ++ token))).2 =
      db.identifiedUser cfg.toSettings access.sub access.sid := by
    simp only [getCurrentUser, hstart, if_true, List.drop_left, hidentity]
  rw [hanswer]
  unfold AuthDb.identifiedUser
  by_cases hmanaged : cfg.authSessionManagementEnabled = true
  · rw [if_pos hmanaged]
    refine ⟨fun _ => Or.inl hmanaged, ?_⟩
    intro _ current
    split
    next => simp
    next session hsession =>
      obtain ⟨s, hs, hrow⟩ := Option.bind_eq_some_iff.mp hsession
      obtain ⟨hfind, _⟩ := Option.filter_eq_some_iff.mp hrow
      obtain ⟨revoked, hfind', hdead⟩ := hrevoked s hs
      rw [hfind] at hfind'
      cases hfind'
      simp [hdead]
  · rw [if_neg hmanaged]
    split
    next hnone => exact ⟨fun _ => Or.inr hnone, fun _ current => by simp⟩
    next hactive => simp [hmanaged, hactive]

end Calls

section Run

variable {P : Primitives} {lib : TokenLibrary} {db₀ db after db' : AuthDb}
  {calls later : List (Call (AccessEnv × AccessOp) AuthDb)}

theorem granted_backs (htokens : db₀.tokens = .empty)
    (run : Run (AuthDb.account P lib) db₀ calls db) {c : Call (AccessEnv × AccessOp) AuthDb}
    (hc : c ∈ calls) {pair : TokenPair} (hgranted : c.before.granted P c.call = some pair) :
    db.Backs pair.access := by
  have hstart : db₀.SessionsOwned := by
    intro tokenHash token hfind
    simp [refreshToken_empty htokens] at hfind
  have howned := Run.always_before (I := fun db : AuthDb => db.SessionsOwned) hstart
    (fun db call h => account_owned h call) run
  induction run with
  | start => simp at hc
  | @next calls db call run ih =>
    have hearlier := fun c hc => howned c (List.mem_cons_of_mem _ hc)
    rcases List.mem_cons.mp hc with hnew | hold
    · rw [hnew] at hgranted
      obtain ⟨e, op⟩ := call
      cases op with
      | auth op => exact reply_backs (howned ⟨db, _⟩ (List.mem_cons_self ..)) hgranted
      | _ => cases hgranted
    · exact (ih hold hearlier).kept (account_sessionsKept call)

/-- After a reset, an access token that was handed out to its user before is turned away exactly
where sessions are managed when it is presented, or where the user is no longer active. -/
theorem reset_cuts_off_iff (htokens : db₀.tokens = .empty)
    (run : Run (AuthDb.account P lib) db₀ calls db) {c : Call (AccessEnv × AccessOp) AuthDb}
    (hc : c ∈ calls) {pair : TokenPair} (hgranted : c.before.granted P c.call = some pair)
    {cfg : Settings} {now : Time} {salt email code password : String} {user : User}
    {record : VerificationCode}
    (hcode : presentedCode P now db email code .passwordReset = some (user, record))
    (hreset : resetPassword P cfg now salt db email code password = (after, .ok ()))
    (hsub : pair.access.sub = user.id) (runLater : Run (AuthDb.account P lib) after later db')
    {presented : AccessSettings} {askedAt : Time} {token : Text}
    (hidentity : tokenIdentity lib presented.toSettings askedAt token =
      .ok (pair.access.sub, pair.access.sid)) :
    (∀ current,
      (getCurrentUser lib presented askedAt db' (some (bearer ++ token))).2 ≠ .ok current) ↔
        presented.authSessionManagementEnabled = true ∨ db'.activeUser user.id = none := by
  rw [← hsub]
  apply getCurrentUser_iff ?_ hidentity
  intro s hs
  obtain ⟨session, hfind, howner⟩ := granted_backs htokens run hc hgranted s hs
  have hrevoked : after.SessionRevoked s :=
    resetPassword_revokes hcode hreset hfind (howner.trans hsub)
  exact Run.always (I := fun db : AuthDb => db.SessionRevoked s) hrevoked
    (fun _ call h => (account_sessionsKept call).keepsRevoked s h) runLater

end Run

def annLogin (cfg : Settings) : AccessEnv × AccessOp :=
  ({ callAt 1 "first" cfg with }, .auth (.login "ann@example.com" "correct horse" {}))

/-- Ann logs in and then asks for a code to reset her password with. -/
def annForgets (cfg : Settings) : List (Call (AccessEnv × AccessOp) AuthDb) × AuthDb :=
  runAll (AuthDb.account .plain .plain) [] annDb
    [annLogin cfg,
      ({ callAt 2 "second" cfg with },
        .auth (.issueCode ⟨2, 2, "123456"⟩ "ann@example.com" .passwordReset))]

def annReset (cfg : Settings) : AuthDb × Except AuthError Unit :=
  resetPassword .plain cfg 3 "salt" (annForgets cfg).2 "ann@example.com" "123456" "better horse"

def resettable : Settings := { authPasswordResetEnabled := true }

def managedResettable : Settings := { managed with authPasswordResetEnabled := true }

/-- Where sessions are not managed, the token of before the reset is still accepted after it. -/
theorem reset_leaves_token :
    Run (AuthDb.account .plain .plain) annDb (annForgets resettable).1 (annForgets resettable).2 ∧
    (∃ c ∈ (annForgets resettable).1, ∃ pair, c.before.granted .plain c.call = some pair ∧
      tokenIdentity .plain resettable 4 [] = .ok (pair.access.sub, pair.access.sid) ∧
      pair.access.sub = ann.id) ∧
    (annReset resettable).2 = .ok () ∧
    ∃ current, (getCurrentUser .plain { resettable with } 4 (annReset resettable).1
      (some bearer)).2 = .ok current ∧ current.user.id = ann.id := by
  refine ⟨run_runAll .start _, ?_, rfl, _, rfl, rfl⟩
  exact ⟨_, List.mem_cons_of_mem _ (List.mem_cons_self ..), _, rfl, rfl, rfl⟩

/-- Where they are, it is turned away. -/
theorem annReset_cut_off : (annReset managedResettable).2 = .ok () ∧
    ∀ current, (getCurrentUser .plain { managedResettable with } 4 (annReset managedResettable).1
      (some (bearer ++ [1]))).2 ≠ .ok current := by
  have hrun : Run (AuthDb.account .plain .plain) annDb (annForgets managedResettable).1
      (annForgets managedResettable).2 := run_runAll .start _
  have hreset : annReset managedResettable = ((annReset managedResettable).1, .ok ()) := rfl
  refine ⟨rfl, (reset_cuts_off_iff (c := ⟨annDb, annLogin managedResettable⟩) rfl hrun ?_ rfl rfl
    hreset rfl .start rfl).mpr (Or.inl rfl)⟩
  exact List.mem_cons_of_mem _ (List.mem_cons_self ..)

end JobRadar
