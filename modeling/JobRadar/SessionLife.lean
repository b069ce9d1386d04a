import JobRadar.AccessTokens
import JobRadar.PasswordResets

namespace JobRadar

open Database Python Sequence

/-- The session is the user's and has not been revoked. -/
def AuthDb.SessionLive (db : AuthDb) (s owner : Uuid) : Prop :=
  ∃ session, db.sessions.find s = some session ∧ session.userId = owner ∧ session.revokedAt = none

/-- The call ends the session: a logout with a token of it, its revocation by its user, the
revocation of all others of the user, or a reset of the user's password. -/
def EndsSession (P : Primitives) (s owner : Uuid) (c : Call (AccessEnv × AccessOp) AuthDb) : Prop :=
  match c.call with
  | (e, .auth (.logout raw)) =>
    e.cfg.authSessionManagementEnabled = true ∧ ∃ token,
      c.before.refreshToken (P.hashRefreshToken raw) = some token ∧ token.sessionId = some s
  | (e, .auth (.revokeSession userId sessionId)) =>
    e.cfg.authSessionManagementEnabled = true ∧ userId = owner ∧ sessionId = s
  | (e, .auth (.revokeOtherSessions userId current)) =>
    e.cfg.authSessionManagementEnabled = true ∧ userId = owner ∧
      ∃ kept, current = some kept ∧ s ≠ kept
  | (e, .auth (.resetPassword _ email code _)) =>
    e.cfg.authPasswordResetEnabled = true ∧ ∃ user record,
      presentedCode P e.now c.before email code .passwordReset = some (user, record) ∧
        user.id = owner
  | _ => False

section Steps

variable {P : Primitives} {lib : TokenLibrary} {cfg : Settings} {d : TokenDraw} {now : Time}
  {db db' : AuthDb} {s owner : Uuid}

theorem AuthDb.SessionLive.grow (h : db.SessionLive s owner) (hgrow : db.SessionsGrow db') :
    db'.SessionLive s owner := by
  obtain ⟨session, hfind, howner, hlive⟩ := h
  exact ⟨session, hgrow s session hfind, howner, hlive⟩

theorem AuthDb.SessionLive.of_eq (h : db.SessionLive s owner) (heq : db'.sessions = db.sessions) :
    db'.SessionLive s owner := h.grow (.of_eq heq)

theorem AuthDb.SessionLive.not_revoked (h : db.SessionLive s owner) : ¬db.SessionRevoked s := by
  obtain ⟨session, hfind, -, hlive⟩ := h
  rintro ⟨revoked, hfind', hdead⟩
  rw [hfind] at hfind'
  cases hfind'
  exact hdead hlive

theorem AuthDb.SessionLive.revokeSessionsWhere (h : db.SessionLive s owner)
    {p : AuthSession → Prop} [DecidablePred p]
    (hother : ∀ session, db.sessions.find s = some session → ¬p session) :
    (db.revokeSessionsWhere p now).SessionLive s owner := by
  obtain ⟨session, hfind, howner, hlive⟩ := h
  have hnew := db.sessions.find_updateWhere p (·.revoke now) (fun _ => rfl) s
  rw [hfind, Option.map_some, if_neg (hother session hfind)] at hnew
  exact ⟨session, hnew, howner, hlive⟩

theorem AuthDb.SessionLive.revokeAuthSession (h : db.SessionLive s owner) {sessionId userId : Uuid}
    (hother : sessionId = s → userId ≠ owner) :
    (db.revokeAuthSession sessionId userId now).1.SessionLive s owner := by
  unfold AuthDb.revokeAuthSession
  split
  next => exact h
  next row hrow =>
    split
    next => exact h
    next =>
      refine (h.revokeSessionsWhere ?_).of_eq rfl
      obtain ⟨hfind, huser⟩ := Option.filter_eq_some_iff.mp hrow
      intro session hsession hid
      have hsame : sessionId = s := hid.symm.trans (Table.find_eq_some_iff.mp hsession).2
      subst hsame
      obtain ⟨live, hlive, howner, -⟩ := h
      rw [hfind] at hlive
      cases hlive
      exact hother rfl ((of_decide_eq_true huser).symm.trans howner)

theorem AuthDb.SessionLive.revokeOtherAuthSessions (h : db.SessionLive s owner)
    {userId current : Uuid} (hother : userId = owner → s = current) :
    (db.revokeOtherAuthSessions userId current now).1.SessionLive s owner := by
  simp only [AuthDb.revokeOtherAuthSessions]
  split
  next => exact h
  next =>
    refine (h.revokeSessionsWhere ?_).of_eq rfl
    intro session hsession hmem
    obtain ⟨other, hothers, hid⟩ := List.mem_map.mp hmem
    obtain ⟨hmine, hne⟩ := List.mem_filter.mp hothers
    obtain ⟨hrow, huser⟩ := List.mem_filter.mp hmine
    have hs : session.id = s := (Table.find_eq_some_iff.mp hsession).2
    obtain ⟨live, hlive, howner, -⟩ := h
    rw [hsession] at hlive
    cases hlive
    have hsame : other = session := by
      have hfind : db.sessions.find session.id = some other :=
        Table.find_eq_some_iff.mpr ⟨hrow, hid⟩
      rw [hs, hsession] at hfind
      exact (Option.some.inj hfind).symm
    subst hsame
    have hcurrent := hother ((of_decide_eq_true huser).1.symm.trans howner)
    exact of_decide_eq_true hne (hs.trans hcurrent)

theorem login_sessionsGrow (email password : String) (metadata : SessionMetadata) :
    db.SessionsGrow (login P cfg now d db email password metadata).1 := by
  have huntouched := authenticate_untouched P cfg now db email password
  rcases login_stores P cfg now d db email password metadata with
    ⟨mid, err, ha, hl⟩ | ⟨mid, user, ha, hl⟩
  all_goals rw [ha] at huntouched
  all_goals rw [hl]
  · exact .of_eq huntouched.sessions
  · intro s session hfind
    exact storeTokens_grow _ _ _ s session (AuthDb.SessionsGrow.of_eq huntouched.sessions s _ hfind)

theorem refresh_sessionsGrow (raw : String) :
    db.SessionsGrow (refresh P cfg now d db raw).1 := by
  rcases refresh_stores P cfg now d db raw with
    ⟨_, hr⟩ | ⟨token, _, ⟨_, hr⟩ | ⟨_, hr⟩ | ⟨_, user, _, hr⟩⟩
  all_goals rw [hr]
  · exact .of_eq rfl
  · exact .of_eq rfl
  · exact .of_eq rfl
  · intro s session hfind
    have hfamily : (db.revokeTokens token.familyId now).sessions.find s = some session := hfind
    exact storeTokens_grow _ _ _ s session hfamily

theorem logout_live_iff (howned : db.SessionsOwned) (h : db.SessionLive s owner) (raw : String) :
    (logout P cfg now db raw).SessionLive s owner ↔
      ¬(cfg.authSessionManagementEnabled = true ∧ ∃ token,
        db.refreshToken (P.hashRefreshToken raw) = some token ∧ token.sessionId = some s) := by
  constructor
  · rintro hlive ⟨hmanaged, token, htoken, hsession⟩
    exact hlive.not_revoked (logout_revokes howned hmanaged htoken hsession)
  · intro hkept
    unfold logout
    split
    next => exact h
    next token htoken =>
      have hfamily : (db.revokeTokens token.familyId now).SessionLive s owner := h.of_eq rfl
      dsimp only
      split
      next sessionId hmanaged hsession =>
        refine hfamily.revokeAuthSession fun hs => ?_
        subst hs
        exact absurd ⟨hmanaged, token, htoken, hsession⟩ hkept
      next => exact hfamily

theorem revokeSession_eq (cfg : Settings) (now : Time) (db : AuthDb) (userId sessionId : Uuid) :
    (revokeSession cfg now db userId sessionId).1 =
      if cfg.authSessionManagementEnabled = true then
        (db.revokeAuthSession sessionId userId now).1
      else db := by
  unfold revokeSession
  split
  next =>
    split
    next hr => rw [hr]
    next hr => rw [hr]
  next => rfl

theorem revokeSession_live_iff (h : db.SessionLive s owner) (userId sessionId : Uuid) :
    (revokeSession cfg now db userId sessionId).1.SessionLive s owner ↔
      ¬(cfg.authSessionManagementEnabled = true ∧ userId = owner ∧ sessionId = s) := by
  rw [revokeSession_eq]
  by_cases hmanaged : cfg.authSessionManagementEnabled = true
  · rw [if_pos hmanaged]
    constructor
    · rintro hlive ⟨-, rfl, rfl⟩
      obtain ⟨session, hfind, howner, -⟩ := h
      exact hlive.not_revoked (revokeAuthSession_revokes hfind howner)
    · intro hkept
      exact h.revokeAuthSession fun hs huser => hkept ⟨hmanaged, huser, hs⟩
  · rw [if_neg hmanaged]
    exact iff_of_true h fun hends => hmanaged hends.1

theorem revokeOtherSessions_live_iff (h : db.SessionLive s owner) (userId : Uuid)
    (current : Option Uuid) :
    (revokeOtherSessions cfg now db userId current).1.SessionLive s owner ↔
      ¬(cfg.authSessionManagementEnabled = true ∧ userId = owner ∧
        ∃ kept, current = some kept ∧ s ≠ kept) := by
  cases current with
  | none =>
    refine iff_of_true h ?_
    rintro ⟨-, -, kept, hkept, -⟩
    cases hkept
  | some current =>
    by_cases hmanaged : cfg.authSessionManagementEnabled = true
    · constructor
      · rintro hlive ⟨-, rfl, kept, hkept, hother⟩
        cases hkept
        obtain ⟨session, hfind, howner, -⟩ := h
        exact hlive.not_revoked (revokeOtherSessions_revokes hmanaged hfind howner hother)
      · intro hkept
        simp only [revokeOtherSessions, hmanaged, if_true]
        refine h.revokeOtherAuthSessions fun huser => ?_
        by_contra hother
        exact hkept ⟨hmanaged, huser, current, rfl, hother⟩
    · simp only [revokeOtherSessions, hmanaged]
      refine iff_of_true h ?_
      rintro ⟨hfalse, -⟩
      cases hfalse

theorem resetPassword_live_iff (h : db.SessionLive s owner) (salt email code password : String) :
    (resetPassword P cfg now salt db email code password).1.SessionLive s owner ↔
      ¬(cfg.authPasswordResetEnabled = true ∧ ∃ user record,
        presentedCode P now db email code .passwordReset = some (user, record) ∧
          user.id = owner) := by
  unfold resetPassword
  by_cases henabled : cfg.authPasswordResetEnabled = true
  · rw [if_pos henabled]
    cases hcode : presentedCode P now db email code .passwordReset with
    | none =>
      refine iff_of_true h ?_
      rintro ⟨-, user, record, hsome, -⟩
      cases hsome
    | some presented =>
      obtain ⟨user, record⟩ := presented
      constructor
      · rintro hlive ⟨-, user', record', hsame, rfl⟩
        cases hsame
        obtain ⟨session, hfind, howner, -⟩ := h
        have hreset : resetPassword P cfg now salt db email code password =
            (((db.consumeCode record now).updateUser user.id (setPassword P salt password)
              fun _ => rfl).revokeUserTokens user.id now, .ok ()) := by
          simp only [resetPassword, henabled, if_true, hcode]
        exact hlive.not_revoked (resetPassword_revokes hcode hreset hfind howner)
      · intro hkept
        have hmid : ((db.consumeCode record now).updateUser user.id (setPassword P salt password)
            fun _ => rfl).SessionLive s owner := h.of_eq rfl
        refine AuthDb.SessionLive.revokeSessionsWhere (hmid.of_eq rfl) fun session hfind hmine => ?_
        obtain ⟨live, hlive, howner, -⟩ := h
        have hsame : session = live := Option.some.inj (hfind.symm.trans hlive)
        subst hsame
        exact hkept ⟨henabled, user, record, rfl, hmine.1.symm.trans howner⟩
  · rw [if_neg henabled]
    exact iff_of_true h fun hends => henabled hends.1

theorem account_live_iff (howned : db.SessionsOwned) (h : db.SessionLive s owner)
    (call : AccessEnv × AccessOp) :
    (db.account P lib call).SessionLive s owner ↔ ¬EndsSession P s owner ⟨db, call⟩ := by
  have hquiet : ∀ {db'}, db.Untouched db' → db'.SessionLive s owner :=
    fun huntouched => h.of_eq huntouched.sessions
  obtain ⟨e, op⟩ := call
  cases op with
  | authenticate email password =>
    exact iff_of_true (hquiet (authenticate_untouched P e.cfg e.now db email password)) id
  | request authorization =>
    exact iff_of_true (hquiet (getCurrentUser_untouched e.settings e.now authorization)) id
  | ensureUser userId => exact iff_of_true (hquiet (ensureUser_untouched db userId)) id
  | auth op =>
    cases op with
    | register draw email password =>
      exact iff_of_true (hquiet (register_untouched P e.cfg draw db email password)) id
    | login email password metadata =>
      exact iff_of_true (h.grow (login_sessionsGrow email password metadata)) id
    | refresh raw => exact iff_of_true (h.grow (refresh_sessionsGrow raw)) id
    | issueCode draw email purpose =>
      exact iff_of_true (hquiet (issueCode_untouched P e.cfg draw db email purpose)) id
    | verifyEmail email code =>
      exact iff_of_true (hquiet (verifyEmail_untouched P e.cfg e.now db email code)) id
    | logout raw => exact logout_live_iff howned h raw
    | revokeSession userId sessionId => exact revokeSession_live_iff h userId sessionId
    | revokeOtherSessions userId current => exact revokeOtherSessions_live_iff h userId current
    | resetPassword salt email code password =>
      exact resetPassword_live_iff h salt email code password

end Steps

section Grants

variable {P : Primitives} {cfg : Settings} {d : TokenDraw} {db : AuthDb} {user : User}
  {pair : TokenPair}

theorem storeTokens_live {roles : List String} {sessionId : Option Uuid}
    {metadata : SessionMetadata}
    (howns : ∀ s, sessionId = some s → ∃ session, db.sessions.find s = some session ∧
      session.userId = user.id ∧ session.revokedAt = none)
    (h : (storeTokens P cfg d db user roles sessionId metadata).2 = .ok pair) :
    ∀ s, pair.access.sid = some s →
      (storeTokens P cfg d db user roles sessionId metadata).1.SessionLive s pair.access.sub := by
  unfold storeTokens at h ⊢
  cases ho : openSession cfg d db user sessionId metadata with
  | error err =>
    rw [ho] at h
    cases h
  | ok r =>
    obtain ⟨opened, sessionId'⟩ := r
    obtain ⟨-, hnew⟩ := openSession_owns (P := P) ho howns
    cases hs : opened.saveRefreshToken (newRefreshToken P cfg d user sessionId') with
    | error err =>
      simp only [ho, hs] at h
      cases h
    | ok saved =>
      simp only [ho, hs] at h
      cases h
      have hsessions : saved.sessions = opened.sessions := by
        rw [AuthDb.saveRefreshToken_tokens hs]
      intro s hsid
      obtain ⟨session, hfind, howner, hactive⟩ := hnew s hsid
      have hlive : opened.SessionLive s user.id := ⟨session, hfind, howner, hactive rfl⟩
      simp only [hs]
      exact hlive.of_eq hsessions

/-- The session that a token names is live when the token is handed out. -/
theorem reply_live {e : AuthEnv} {op : AuthOp} (howned : db.SessionsOwned)
    (h : db.reply P e op = some pair) :
    ∀ s, pair.access.sid = some s → (db.commit P e op).SessionLive s pair.access.sub := by
  cases op with
  | login email password metadata =>
    have hok := toOption_eq_some h
    simp only [AuthDb.commit]
    rcases login_stores P e.cfg e.now e.draw db email password metadata with
      ⟨mid, err, _, hl⟩ | ⟨mid, user, _, hl⟩
    all_goals rw [hl] at hok ⊢
    · cases hok
    · exact storeTokens_live (by simp) hok
  | refresh raw =>
    have hok := toOption_eq_some h
    simp only [AuthDb.commit]
    rcases refresh_stores P e.cfg e.now e.draw db raw with
      ⟨_, hr⟩ | ⟨token, hfind, ⟨_, hr⟩ | ⟨_, hr⟩ | ⟨husable, user, hactive, hr⟩⟩
    all_goals rw [hr] at hok ⊢
    · cases hok
    · cases hok
    · cases hok
    · have hsession := ((howned _ token hfind).active husable.1).forUser (activeUser_id hactive)
      exact storeTokens_live hsession hok
  | _ => cases h

theorem granted_live {lib : TokenLibrary} {call : AccessEnv × AccessOp}
    (howned : db.SessionsOwned) (h : db.granted P call = some pair) :
    ∀ s, pair.access.sid = some s → (db.account P lib call).SessionLive s pair.access.sub := by
  obtain ⟨e, op⟩ := call
  cases op with
  | auth op => exact reply_live howned h
  | _ => cases h

end Grants

section Access

variable {P : Primitives} {lib : TokenLibrary} {db₀ db : AuthDb} {s owner : Uuid}
  {later : List (Call (AccessEnv × AccessOp) AuthDb)}

/-- A session is live after a run exactly when none of the calls ended it. -/
theorem run_live_iff (howned : db₀.SessionsOwned) (h : db₀.SessionLive s owner)
    (run : Run (AuthDb.account P lib) db₀ later db) :
    db.SessionLive s owner ↔ ∀ c ∈ later, ¬EndsSession P s owner c := by
  induction run with
  | start => exact iff_of_true h fun c hc => nomatch hc
  | @next later db call run ih =>
    have howned' : db.SessionsOwned :=
      Run.always (I := fun db : AuthDb => db.SessionsOwned) howned
        (fun db call h => account_owned h call) run
    have hkept : db₀.SessionsKept db :=
      Run.always (I := fun db : AuthDb => db₀.SessionsKept db) (.of_eq rfl)
        (fun db call h => h.trans (account_sessionsKept call)) run
    have hbefore : (db.account P lib call).SessionLive s owner → db.SessionLive s owner := by
      intro hafter
      obtain ⟨session, hfind, howner, -⟩ := h
      obtain ⟨kept, hfind', howner', -⟩ := hkept s session hfind
      by_cases hlive : kept.revokedAt = none
      · exact ⟨kept, hfind', howner'.trans howner, hlive⟩
      · have hrevoked : (db.account P lib call).SessionRevoked s :=
          (account_sessionsKept call).keepsRevoked s ⟨kept, hfind', hlive⟩
        exact absurd hrevoked hafter.not_revoked
    rw [List.forall_mem_cons, ← ih]
    constructor
    · intro hafter
      exact ⟨(account_live_iff howned' (hbefore hafter) call).mp hafter, hbefore hafter⟩
    · rintro ⟨hspared, hlive⟩
      exact (account_live_iff howned' hlive call).mpr hspared

theorem identifiedUser_iff {cfg : Settings} {userId : Uuid} {sid : Option Uuid} :
    (∃ current, db.identifiedUser cfg userId sid = .ok current ∧ current.user.id = userId) ↔
      db.activeUser userId ≠ none ∧ (cfg.authSessionManagementEnabled = true →
        ∃ s, sid = some s ∧ db.SessionLive s userId) := by
  unfold AuthDb.identifiedUser
  cases huser : db.activeUser userId with
  | none =>
    refine iff_of_false ?_ fun h => h.1 rfl
    rintro ⟨current, hok, -⟩
    split at hok
    next =>
      split at hok
      next => cases hok
      next => split at hok <;> cases hok
    next => cases hok
  | some user =>
    have hid : user.id = userId :=
      (Table.find_eq_some_iff.mp (Option.filter_eq_some_iff.mp huser).1).2
    by_cases hmanaged : cfg.authSessionManagementEnabled = true
    · rw [if_pos hmanaged]
      cases hrow : sid.bind fun s => db.authSession s userId with
      | none =>
        refine iff_of_false ?_ ?_
        · rintro ⟨current, hok, -⟩
          cases hok
        · rintro ⟨-, hlive⟩
          obtain ⟨s, rfl, session, hfind, howner, -⟩ := hlive hmanaged
          have hsession : db.authSession s userId = some session := by
            rw [AuthDb.authSession, hfind, Option.filter_some, if_pos (by simp [howner])]
          cases hrow.symm.trans hsession
      | some session =>
        obtain ⟨s, rfl, hsession⟩ := Option.bind_eq_some_iff.mp hrow
        obtain ⟨hfind, howner⟩ := Option.filter_eq_some_iff.mp hsession
        by_cases hlive : session.revokedAt = none
        · have hopen : ∃ s', some s = some s' ∧ db.SessionLive s' userId :=
            ⟨s, rfl, session, hfind, of_decide_eq_true howner, hlive⟩
          simp only [hlive, ne_eq, not_true_eq_false, if_false]
          exact iff_of_true ⟨_, rfl, hid⟩ ⟨Option.some_ne_none user, fun _ => hopen⟩
        · simp only [ne_eq, hlive, not_false_eq_true, if_true]
          refine iff_of_false ?_ ?_
          · rintro ⟨current, hok, -⟩
            cases hok
          · rintro ⟨-, hopen⟩
            obtain ⟨s', hs', live, hfind', -, hlive'⟩ := hopen hmanaged
            cases hs'
            rw [hfind] at hfind'
            cases hfind'
            exact hlive hlive'
    · rw [if_neg hmanaged]
      exact iff_of_true ⟨_, rfl, hid⟩ ⟨Option.some_ne_none user, fun h => absurd h hmanaged⟩

end Access

section Tokens

variable {P : Primitives} {lib : JwtLibrary} {db₀ before db : AuthDb}
  {call : AccessEnv × AccessOp} {later earlier : List (Call (AccessEnv × AccessOp) AuthDb)}

/-- An access token that was handed out in a run is accepted exactly while it is live, its user is
active and, where sessions are managed, it names a session that no later call has ended. -/
theorem access_token_accepted_iff (htokens : db₀.tokens = .empty)
    (run : Run (AuthDb.account P lib.toTokenLibrary) db₀ (later ++ ⟨before, call⟩ :: earlier) db)
    {pair : TokenPair} (hgranted : before.granted P call = some pair)
    {presented : AccessSettings} {askedAt : Time} {token : Text}
    (hencodes : lib.Encodes token pair.access)
    (hsecret : presented.jwtSecretKey = pair.access.secret) :
    (∃ current, (getCurrentUser lib.toTokenLibrary presented askedAt db
        (some (bearer ++ token))).2 = .ok current ∧ current.user.id = pair.access.sub) ↔
      pair.access.LiveAt presented.jwtIssuer askedAt ∧ db.activeUser pair.access.sub ≠ none ∧
      (presented.authSessionManagementEnabled = true → ∃ s, pair.access.sid = some s ∧
        ∀ c ∈ later, ¬EndsSession P s pair.access.sub c) := by
  obtain ⟨runEarlier, runLater⟩ := run.split
  have hstart : db₀.SessionsOwned := by
    intro tokenHash token hfind
    simp [refreshToken_empty htokens] at hfind
  have howned : before.SessionsOwned :=
    Run.always (I := fun db : AuthDb => db.SessionsOwned) hstart
      (fun db call h => account_owned h call) runEarlier
  have howned' : (before.account P lib.toTokenLibrary call).SessionsOwned :=
    account_owned howned call
  have hlive : ∀ s, pair.access.sid = some s →
      (before.account P lib.toTokenLibrary call).SessionLive s pair.access.sub :=
    granted_live howned hgranted
  have hsession : (∃ s, pair.access.sid = some s ∧ db.SessionLive s pair.access.sub) ↔
      ∃ s, pair.access.sid = some s ∧ ∀ c ∈ later, ¬EndsSession P s pair.access.sub c :=
    exists_congr fun s => and_congr_right fun hs =>
      run_live_iff howned' (hlive s hs) runLater
  have hprefixed : Text.startsWith (bearer ++ token) bearer = true :=
    List.isPrefixOf_iff_prefix.mpr (List.prefix_append bearer token)
  have hidentity : tokenIdentity lib.toTokenLibrary presented.toSettings askedAt token =
      if pair.access.LiveAt presented.jwtIssuer askedAt then
        .ok (pair.access.sub, pair.access.sid)
      else .error .invalidAccessToken := tokenIdentity_encoded hencodes hsecret
  by_cases hnow : pair.access.LiveAt presented.jwtIssuer askedAt
  · rw [if_pos hnow] at hidentity
    have hanswer : (getCurrentUser lib.toTokenLibrary presented askedAt db
        (some (bearer ++ token))).2 =
          db.identifiedUser presented.toSettings pair.access.sub pair.access.sid := by
      simp only [getCurrentUser, hprefixed, if_true, List.drop_left, hidentity]
    rw [hanswer, identifiedUser_iff, hsession]
    exact ⟨fun h => ⟨hnow, h⟩, fun h => h.2⟩
  · rw [if_neg hnow] at hidentity
    refine iff_of_false ?_ fun h => hnow h.1
    rintro ⟨current, hok, -⟩
    simp only [getCurrentUser, hprefixed, if_true, List.drop_left, hidentity] at hok
    cases hok

end Tokens

section Example

def JwtLibrary.ofToken (a : AccessToken) : JwtLibrary where
  decode _ _ issuer now :=
    if a.LiveAt issuer now then some (a.claims fun id => List.replicate 35 0 ++ [id]) else none
  uuid t := t.getLast?
  uuidText id := List.replicate 35 0 ++ [id]
  uuidText_length _ := rfl
  uuid_uuidText _ := rfl

def annAccess : AccessToken :=
  createAccessToken managed (callAt 1 "first" managed).draw ann [] (some 1)

/-- She asks for a code, which she does not use. -/
def annAsks : AccessEnv × AccessOp :=
  ({ callAt 2 "second" managed with },
    .auth (.issueCode ⟨2, 2, "123456"⟩ "ann@example.com" .passwordReset))

def annStays : List (Call (AccessEnv × AccessOp) AuthDb) × AuthDb :=
  runAll (AuthDb.account .plain (JwtLibrary.ofToken annAccess).toTokenLibrary) [] annDb
    [annLogin managed, annAsks]

theorem annStays_accepted : ∃ current,
    (getCurrentUser (JwtLibrary.ofToken annAccess).toTokenLibrary { managed with } 3000000
      annStays.2 (some (bearer ++ []))).2 = .ok current ∧ current.user.id = 1 := by
  have hrun : Run (AuthDb.account .plain (JwtLibrary.ofToken annAccess).toTokenLibrary) annDb
      ([⟨annDb.account .plain (JwtLibrary.ofToken annAccess).toTokenLibrary (annLogin managed),
        annAsks⟩] ++ ⟨annDb, annLogin managed⟩ :: []) annStays.2 :=
    run_runAll .start [annLogin managed, annAsks]
  refine (access_token_accepted_iff rfl hrun rfl (fun issuer now => rfl) rfl).mpr
    ⟨⟨rfl, by decide, by decide⟩, Option.some_ne_none _, ?_⟩
  intro _
  refine ⟨1, rfl, ?_⟩
  intro c hc
  rw [List.mem_singleton.mp hc]
  exact id

end Example

end JobRadar
