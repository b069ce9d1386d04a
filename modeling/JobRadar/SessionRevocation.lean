import JobRadar.CurrentUser
import JobRadar.Sequence
import JobRadar.SessionOwnership

namespace JobRadar

open Database Python Sequence

def AuthDb.SessionRevoked (db : AuthDb) (s : Uuid) : Prop :=
  ∃ session, db.sessions.find s = some session ∧ session.revokedAt ≠ none

/-- No session is lost or given to another user, and none that was revoked is active again. -/
def AuthDb.SessionsKept (db db' : AuthDb) : Prop :=
  ∀ s session, db.sessions.find s = some session → ∃ kept, db'.sessions.find s = some kept ∧
    kept.userId = session.userId ∧ (session.revokedAt ≠ none → kept.revokedAt ≠ none)

/-- No session that was revoked is active again. -/
def AuthDb.KeepsRevoked (db db' : AuthDb) : Prop :=
  ∀ s, db.SessionRevoked s → db'.SessionRevoked s

namespace AuthDb.SessionsKept

variable {db mid db' : AuthDb}

theorem of_grow (h : db.SessionsGrow db') : db.SessionsKept db' := by
  intro s session hfind
  exact ⟨session, h s session hfind, rfl, id⟩

theorem of_eq (h : db'.sessions = db.sessions) : db.SessionsKept db' :=
  of_grow (.of_eq h)

theorem trans (h : db.SessionsKept mid) (h' : mid.SessionsKept db') : db.SessionsKept db' := by
  intro s session hfind
  obtain ⟨kept, hkept, howner, hrevoked⟩ := h s session hfind
  obtain ⟨last, hlast, howner', hrevoked'⟩ := h' s kept hkept
  exact ⟨last, hlast, howner'.trans howner, fun hr => hrevoked' (hrevoked hr)⟩

theorem revokeSessionsWhere (db : AuthDb) (p : AuthSession → Prop) [DecidablePred p] (now : Time) :
    db.SessionsKept (db.revokeSessionsWhere p now) := by
  intro s session hfind
  have hnew := db.sessions.find_updateWhere p (·.revoke now) (fun _ => rfl) s
  rw [hfind, Option.map_some] at hnew
  refine ⟨_, hnew, ?_⟩
  split
  next => exact ⟨rfl, by simp [AuthSession.revoke]⟩
  next => exact ⟨rfl, id⟩

theorem keepsRevoked (h : db.SessionsKept db') : db.KeepsRevoked db' := by
  rintro s ⟨session, hfind, hrevoked⟩
  obtain ⟨kept, hkept, _, hstill⟩ := h s session hfind
  exact ⟨kept, hkept, hstill hrevoked⟩

end AuthDb.SessionsKept

section Steps

variable {P : Primitives} {cfg : Settings} {d : TokenDraw} {now : Time} {db db' : AuthDb}
  {user : User} {s userId : Uuid}

theorem openSession_grow {opened : AuthDb} {sessionId sessionId' : Option Uuid}
    {metadata : SessionMetadata}
    (h : openSession cfg d db user sessionId metadata = .ok (opened, sessionId')) :
    db.SessionsGrow opened := by
  unfold openSession AuthDb.saveAuthSession at h
  split at h
  next =>
    split at h
    next => cases h
    next hi =>
      cases h
      intro s session hfind
      exact Table.find_of_insert_of_find hi hfind
  next => cases h; exact .of_eq rfl

theorem storeTokens_grow (roles : List String) (sessionId : Option Uuid)
    (metadata : SessionMetadata) :
    db.SessionsGrow (storeTokens P cfg d db user roles sessionId metadata).1 := by
  rcases storeTokens_effect P cfg d db user roles sessionId metadata with
    ⟨err, hi⟩ | ⟨db', pair, opened, sid, hi, _, ho, hs⟩
  · rw [hi]
    exact .of_eq rfl
  · rw [hi]
    intro s session hfind
    rw [AuthDb.saveRefreshToken_tokens hs]
    exact openSession_grow ho s session hfind

theorem login_sessionsKept (email password : String) (metadata : SessionMetadata) :
    db.SessionsKept (login P cfg now d db email password metadata).1 := by
  have huntouched := authenticate_untouched P cfg now db email password
  rcases login_stores P cfg now d db email password metadata with
    ⟨mid, err, ha, hl⟩ | ⟨mid, user, ha, hl⟩
  all_goals rw [ha] at huntouched
  all_goals rw [hl]
  all_goals have hmid : db.SessionsKept mid := .of_eq huntouched.sessions
  · exact hmid
  · exact hmid.trans (.of_grow (storeTokens_grow _ _ _))

theorem refresh_sessionsKept (raw : String) :
    db.SessionsKept (refresh P cfg now d db raw).1 := by
  rcases refresh_stores P cfg now d db raw with
    ⟨_, hr⟩ | ⟨token, _, ⟨_, hr⟩ | ⟨_, hr⟩ | ⟨_, user, _, hr⟩⟩
  all_goals rw [hr]
  · exact .of_eq rfl
  · exact .of_eq rfl
  · exact .of_eq rfl
  · have hfamily : db.SessionsKept (db.revokeTokens token.familyId now) := .of_eq rfl
    exact hfamily.trans (.of_grow (storeTokens_grow _ _ _))

theorem revokeAuthSession_sessionsKept (s userId : Uuid) :
    db.SessionsKept (db.revokeAuthSession s userId now).1 := by
  unfold AuthDb.revokeAuthSession
  split
  next => exact .of_eq rfl
  next =>
    split
    next => exact .of_eq rfl
    next => exact (AuthDb.SessionsKept.revokeSessionsWhere db _ now).trans (.of_eq rfl)

theorem revokeOtherAuthSessions_sessionsKept (userId current : Uuid) :
    db.SessionsKept (db.revokeOtherAuthSessions userId current now).1 := by
  simp only [AuthDb.revokeOtherAuthSessions]
  split
  next => exact .of_eq rfl
  next => exact (AuthDb.SessionsKept.revokeSessionsWhere db _ now).trans (.of_eq rfl)

theorem logout_sessionsKept (raw : String) : db.SessionsKept (logout P cfg now db raw) := by
  unfold logout
  split
  next => exact .of_eq rfl
  next token _ =>
    have hfamily : db.SessionsKept (db.revokeTokens token.familyId now) := .of_eq rfl
    dsimp only
    split
    next => exact hfamily.trans (revokeAuthSession_sessionsKept _ _)
    next => exact hfamily

theorem call_sessionsKept (c : AuthEnv × AuthOp) : db.SessionsKept (db.call P c) := by
  obtain ⟨e, op⟩ := c
  cases op with
  | register draw email password =>
    exact .of_eq (register_untouched P e.cfg draw db email password).sessions
  | login email password metadata => exact login_sessionsKept email password metadata
  | refresh raw => exact refresh_sessionsKept raw
  | logout raw => exact logout_sessionsKept raw
  | revokeSession userId s =>
    have hrevoked : db.SessionsKept (db.revokeAuthSession s userId e.now).1 :=
      revokeAuthSession_sessionsKept s userId
    simp only [AuthDb.call, AuthDb.commit, revokeSession]
    split
    next =>
      split
      next h => rwa [h] at hrevoked
      next h => rwa [h] at hrevoked
    next => exact .of_eq rfl
  | revokeOtherSessions userId current =>
    simp only [AuthDb.call, AuthDb.commit, revokeOtherSessions]
    split
    next => exact .of_eq rfl
    next current =>
      split
      next => exact revokeOtherAuthSessions_sessionsKept userId current
      next => exact .of_eq rfl
  | issueCode draw email purpose =>
    exact .of_eq (issueCode_untouched P e.cfg draw db email purpose).sessions
  | verifyEmail email code =>
    exact .of_eq (verifyEmail_untouched P e.cfg e.now db email code).sessions
  | resetPassword salt email code password =>
    simp only [AuthDb.call, AuthDb.commit, resetPassword]
    split
    next =>
      split
      next => exact .of_eq rfl
      next user record _ =>
        exact AuthDb.SessionsKept.trans (.of_eq rfl) (.revokeSessionsWhere _ _ e.now)
    next => exact .of_eq rfl

theorem revokeAuthSession_revokes {session : AuthSession}
    (hfind : db.sessions.find s = some session) (howner : session.userId = userId) :
    (db.revokeAuthSession s userId now).1.SessionRevoked s := by
  have hown : db.authSession s userId = some session := by
    rw [AuthDb.authSession, hfind, Option.filter_some, if_pos (by simp [howner])]
  simp only [AuthDb.revokeAuthSession, hown]
  split
  next hrevoked => exact ⟨session, hfind, hrevoked⟩
  next =>
    have hnew := db.sessions.find_updateWhere (fun session => session.id = s) (·.revoke now)
      (fun _ => rfl) s
    rw [hfind, Option.map_some, if_pos (Table.find_eq_some_iff.mp hfind).2] at hnew
    exact ⟨session.revoke now, hnew, by simp [AuthSession.revoke]⟩

theorem revokeSession_revokes (h : (revokeSession cfg now db userId s).2 = .ok ()) :
    (revokeSession cfg now db userId s).1.SessionRevoked s := by
  unfold revokeSession at h ⊢
  split at h
  next hmanaged =>
    rw [if_pos hmanaged]
    cases hrow : db.authSession s userId with
    | none => simp [AuthDb.revokeAuthSession, hrow] at h
    | some session =>
      obtain ⟨hfind, howner⟩ := Option.filter_eq_some_iff.mp hrow
      have hrevoked : (db.revokeAuthSession s userId now).1.SessionRevoked s :=
        revokeAuthSession_revokes hfind (of_decide_eq_true howner)
      split
      next hr => rwa [hr] at hrevoked
      next hr => rwa [hr] at hrevoked
  next => cases h

theorem revokeOtherSessions_revokes {current : Uuid} {session : AuthSession}
    (hmanaged : cfg.authSessionManagementEnabled = true) (hfind : db.sessions.find s = some session)
    (howner : session.userId = userId) (hother : s ≠ current) :
    (revokeOtherSessions cfg now db userId (some current)).1.SessionRevoked s := by
  have hid : session.id = s := (Table.find_eq_some_iff.mp hfind).2
  simp only [revokeOtherSessions, hmanaged, if_true]
  by_cases hrevoked : session.revokedAt = none
  · have hmem : session ∈ (db.authSessions userId).filter fun s => s.id ≠ current := by
      simp only [AuthDb.authSessions, List.mem_filter, decide_eq_true_eq]
      exact ⟨⟨(Table.find_eq_some_iff.mp hfind).1, howner, hrevoked⟩, by rwa [hid]⟩
    have hsome : ((db.authSessions userId).filter fun s => s.id ≠ current).length ≠ 0 := by
      have hpos := List.length_pos_of_mem hmem
      omega
    simp only [AuthDb.revokeOtherAuthSessions, hsome, if_false]
    have hnew := db.sessions.find_updateWhere (fun session => session.id ∈ ((db.authSessions
      userId).filter fun s => s.id ≠ current).map AuthSession.id) (·.revoke now) (fun _ => rfl) s
    rw [hfind, Option.map_some, if_pos (List.mem_map_of_mem hmem)] at hnew
    exact ⟨session.revoke now, hnew, by simp [AuthSession.revoke]⟩
  · exact (revokeOtherAuthSessions_sessionsKept userId current).keepsRevoked s
      ⟨session, hfind, hrevoked⟩

theorem logout_revokes {raw : String} {token : RefreshToken} (howned : db.SessionsOwned)
    (hmanaged : cfg.authSessionManagementEnabled = true)
    (htoken : db.refreshToken (P.hashRefreshToken raw) = some token)
    (hsession : token.sessionId = some s) : (logout P cfg now db raw).SessionRevoked s := by
  obtain ⟨session, hfind, howner, _⟩ := howned _ token htoken s hsession
  simp only [logout, htoken, hmanaged, hsession]
  have hfind' : (db.revokeTokens token.familyId now).sessions.find s = some session := hfind
  exact revokeAuthSession_revokes hfind' howner

/-- The call revokes the session: it revokes it by its id for its user, it revokes the others of a
session of the same user, or it logs out with a refresh token of it. -/
def RevokesSession (P : Primitives) (s : Uuid) (c : Call (AuthEnv × AuthOp) AuthDb) : Prop :=
  match c.call with
  | (e, .revokeSession userId sessionId) =>
    sessionId = s ∧ (revokeSession e.cfg e.now c.before userId sessionId).2 = .ok ()
  | (e, .revokeOtherSessions userId (some current)) =>
    e.cfg.authSessionManagementEnabled = true ∧ s ≠ current ∧
      ∃ session, c.before.sessions.find s = some session ∧ session.userId = userId
  | (e, .logout raw) =>
    e.cfg.authSessionManagementEnabled = true ∧ ∃ token,
      c.before.refreshToken (P.hashRefreshToken raw) = some token ∧ token.sessionId = some s
  | _ => False

theorem RevokesSession.revoked {call : AuthEnv × AuthOp} (howned : db.SessionsOwned)
    (h : RevokesSession P s ⟨db, call⟩) : (db.call P call).SessionRevoked s := by
  obtain ⟨e, op⟩ := call
  cases op with
  | revokeSession userId sessionId =>
    obtain ⟨rfl, hok⟩ := h
    exact revokeSession_revokes hok
  | revokeOtherSessions userId current =>
    cases current with
    | none => exact h.elim
    | some current =>
      obtain ⟨hmanaged, hother, session, hfind, howner⟩ := h
      exact revokeOtherSessions_revokes hmanaged hfind howner hother
  | logout raw =>
    obtain ⟨hmanaged, token, htoken, hsession⟩ := h
    exact logout_revokes howned hmanaged htoken hsession
  | register | login | refresh | issueCode | verifyEmail | resetPassword => exact h.elim

/-- A refresh token of a revoked session is revoked, and so refused. -/
theorem refresh_revoked {raw : String} {token : RefreshToken} (howned : db.SessionsOwned)
    (hrevoked : db.SessionRevoked s)
    (htoken : db.refreshToken (P.hashRefreshToken raw) = some token)
    (hsession : token.sessionId = some s) (pair : TokenPair) :
    (refresh P cfg now d db raw).2 ≠ .ok pair := by
  obtain ⟨session, hfind, hdead⟩ := hrevoked
  obtain ⟨session', hfind', _, hlive⟩ := howned _ token htoken s hsession
  rw [hfind] at hfind'
  cases hfind'
  have hunusable : ¬token.usable now := fun h => hdead (hlive h.1)
  simp [refresh, htoken, hunusable]

end Steps

section Run

variable {P : Primitives} {db₀ db db' : AuthDb} {s : Uuid}
  {calls later : List (Call (AuthEnv × AuthOp) AuthDb)}

theorem sessionsOwned_run (htokens : db₀.tokens = .empty)
    (run : Run (AuthDb.call P) db₀ calls db) : db.SessionsOwned := by
  have hstart : db₀.SessionsOwned := by
    intro tokenHash token hfind
    simp [refreshToken_empty htokens] at hfind
  exact Run.always (I := fun db : AuthDb => db.SessionsOwned) hstart
    (fun db c h => commit_owned h c.2) run

/-- A session that a call of the run revokes is revoked at its end. -/
theorem run_revoked (htokens : db₀.tokens = .empty) (run : Run (AuthDb.call P) db₀ calls db)
    {c : Call (AuthEnv × AuthOp) AuthDb} (hc : c ∈ calls) (h : RevokesSession P s c) :
    db.SessionRevoked s := by
  obtain ⟨later, earlier, rfl⟩ := List.append_of_mem hc
  obtain ⟨hearlier, hlater⟩ := run.split
  have hrevoked : (c.before.call P c.call).SessionRevoked s :=
    RevokesSession.revoked (sessionsOwned_run htokens hearlier) h
  exact Run.always (I := fun db : AuthDb => db.SessionRevoked s) hrevoked
    (fun _ call h => (call_sessionsKept call).keepsRevoked s h) hlater

/-- Once a session is revoked, by a call of the run or in another way, no access token of it is
accepted and no refresh token of it is rotated, whatever is called later. -/
theorem revocation_is_permanent (htokens : db₀.tokens = .empty)
    (run : Run (AuthDb.call P) db₀ calls db)
    (hrevoked : (∃ c ∈ calls, RevokesSession P s c) ∨ db.SessionRevoked s)
    (runLater : Run (AuthDb.call P) db later db') :
    (∀ (lib : TokenLibrary) (cfg : AccessSettings) now authorization,
      cfg.authSessionManagementEnabled = true →
      CarriesSession lib cfg.toSettings now authorization s →
      ∀ current, (getCurrentUser lib cfg now db' authorization).2 ≠ .ok current) ∧
    ∀ cfg now draw raw token, db'.refreshToken (P.hashRefreshToken raw) = some token →
      token.sessionId = some s → ∀ pair, (refresh P cfg now draw db' raw).2 ≠ .ok pair := by
  have howned : db'.SessionsOwned := sessionsOwned_run htokens (run.append runLater)
  have hdead : db.SessionRevoked s := by
    rcases hrevoked with ⟨c, hc, hrevokes⟩ | hdead
    · exact run_revoked htokens run hc hrevokes
    · exact hdead
  have hrevoked' : db'.SessionRevoked s :=
    Run.always (I := fun db : AuthDb => db.SessionRevoked s) hdead
      (fun _ c h => (call_sessionsKept c).keepsRevoked s h) runLater
  refine ⟨?_, ?_⟩
  · intro lib cfg now authorization hmanaged hcarries current hok
    obtain ⟨session, hfind, hdead⟩ := hrevoked'
    have hrow : ∀ row, db'.sessions.find s = some row → row.revokedAt ≠ none := by
      intro row hrow
      rw [hfind] at hrow
      cases hrow
      exact hdead
    rw [getCurrentUser_revoked hmanaged hrow hcarries] at hok
    cases hok
  · intro cfg now draw raw token htoken hsession pair
    exact refresh_revoked howned hrevoked' htoken hsession pair

end Run

def managed : Settings := { authSessionManagementEnabled := true }

/-- A library whose tokens are the `sid` of their claims. -/
def TokenLibrary.plain : TokenLibrary where
  decode token _ _ _ := some [(text "type", .str (text "access")), (text "sub", .str [1]),
    (text "sid", .str token)]
  uuid t := t.head?

def annRevoked : List (Call (AuthEnv × AuthOp) AuthDb) × AuthDb :=
  runAll (AuthDb.call .plain) [] annDb
    [(callAt 1 "first" managed, .login "ann@example.com" "correct horse" {}),
      (callAt 2 "second" managed, .revokeSession 1 1)]

/-- She tries the old refresh token, and logs in anew. -/
def annReturned : List (Call (AuthEnv × AuthOp) AuthDb) × AuthDb :=
  runAll (AuthDb.call .plain) [] annRevoked.2
    [(callAt 3 "third" managed, .refresh "first"),
      (callAt 4 "fourth" managed, .login "ann@example.com" "correct horse" {})]

theorem annReturned_refused :
    (∀ current, (getCurrentUser .plain { managed with authRequireToken := true } 5 annReturned.2
      (some (bearer ++ [1]))).2 ≠ .ok current) ∧
    ∀ pair, (refresh .plain managed 5 ⟨5, "fifth", 5, 5, 5, 5⟩ annReturned.2 "first").2 ≠
      .ok pair := by
  have hrevokes : ∃ c ∈ annRevoked.1, RevokesSession .plain 1 c :=
    ⟨_, List.mem_cons_self .., rfl, rfl⟩
  have hpermanent := revocation_is_permanent (P := .plain) (s := 1) rfl (run_runAll .start _)
    (Or.inl hrevokes) (run_runAll .start _ : Run (AuthDb.call .plain) annRevoked.2 annReturned.1
      annReturned.2)
  refine ⟨?_, ?_⟩
  · exact hpermanent.1 .plain _ 5 _ rfl ⟨[1], 1, rfl, rfl⟩
  · exact hpermanent.2 managed 5 _ "first" _ rfl rfl

end JobRadar
