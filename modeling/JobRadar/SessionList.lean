import JobRadar.SessionLife

namespace JobRadar

open Database Python Sequence

/-- `list_sessions`. Its order, by a column that nothing changes, is left out. -/
def listSessions (cfg : Settings) (db : AuthDb) (userId : Uuid) : List AuthSession :=
  if cfg.authSessionManagementEnabled = true then db.authSessions userId else []

section Listing

variable {P : Primitives} {lib : TokenLibrary} {cfg : Settings} {d : TokenDraw} {now : Time}
  {db₀ db db' : AuthDb} {user : User} {s owner : Uuid}

/-- No session is live that was not live before. -/
def AuthDb.OpensNone (db db' : AuthDb) : Prop :=
  ∀ s owner, db'.SessionLive s owner → db.SessionLive s owner

theorem AuthDb.OpensNone.of_eq (h : db'.sessions = db.sessions) : db.OpensNone db' :=
  fun _ _ hlive => hlive.of_eq h.symm

theorem AuthDb.OpensNone.trans {mid : AuthDb} (h : db.OpensNone mid) (h' : mid.OpensNone db') :
    db.OpensNone db' :=
  fun s owner hlive => h s owner (h' s owner hlive)

theorem AuthDb.OpensNone.revokeSessionsWhere (db : AuthDb) (p : AuthSession → Prop)
    [DecidablePred p] (now : Time) : db.OpensNone (db.revokeSessionsWhere p now) := by
  rintro s owner ⟨session, hfind, howner, hlive⟩
  have hnew := db.sessions.find_updateWhere p (·.revoke now) (fun _ => rfl) s
  obtain ⟨old, hold, hrow⟩ := Option.map_eq_some_iff.mp (hnew.symm.trans hfind)
  split at hrow
  next =>
    rw [← hrow] at hlive
    cases hlive
  next =>
    subst hrow
    exact ⟨old, hold, howner, hlive⟩

theorem AuthDb.OpensNone.revokeAuthSession (sessionId userId : Uuid) :
    db.OpensNone (db.revokeAuthSession sessionId userId now).1 := by
  unfold AuthDb.revokeAuthSession
  split
  next => exact .of_eq rfl
  next =>
    split
    next => exact .of_eq rfl
    next =>
      exact AuthDb.OpensNone.revokeSessionsWhere db (fun session => session.id = sessionId) now

theorem AuthDb.OpensNone.revokeOtherAuthSessions (userId current : Uuid) :
    db.OpensNone (db.revokeOtherAuthSessions userId current now).1 := by
  simp only [AuthDb.revokeOtherAuthSessions]
  split
  next => exact .of_eq rfl
  next => exact AuthDb.OpensNone.revokeSessionsWhere db _ now

theorem openSession_opens {opened : AuthDb} {sessionId sessionId' : Option Uuid}
    {metadata : SessionMetadata}
    (ho : openSession cfg d db user sessionId metadata = .ok (opened, sessionId'))
    (h : opened.SessionLive s owner) :
    db.SessionLive s owner ∨ sessionId' = some s ∧ user.id = owner := by
  unfold openSession AuthDb.saveAuthSession at ho
  split at ho
  next =>
    split at ho
    next => cases ho
    next sessions hinsert =>
      cases ho
      obtain ⟨session, hfind, howner, hlive⟩ := h
      have hrow := (Table.find_of_insert hinsert s).symm.trans hfind
      split at hrow
      next hs =>
        cases hrow
        exact Or.inr ⟨congrArg some hs.symm, howner⟩
      next => exact Or.inl ⟨session, hrow, howner, hlive⟩
  next =>
    cases ho
    exact Or.inl h

theorem storeTokens_opens {roles : List String} {sessionId : Option Uuid}
    {metadata : SessionMetadata}
    (h : (storeTokens P cfg d db user roles sessionId metadata).1.SessionLive s owner) :
    db.SessionLive s owner ∨ ∃ pair,
      (storeTokens P cfg d db user roles sessionId metadata).2 = .ok pair ∧
        pair.access.sid = some s ∧ pair.access.sub = owner := by
  unfold storeTokens at h ⊢
  cases ho : openSession cfg d db user sessionId metadata with
  | error err =>
    rw [ho] at h
    exact Or.inl h
  | ok r =>
    obtain ⟨opened, sessionId'⟩ := r
    cases hs : opened.saveRefreshToken (newRefreshToken P cfg d user sessionId') with
    | error err =>
      simp only [ho, hs] at h
      exact Or.inl h
    | ok saved =>
      simp only [ho, hs] at h ⊢
      have hopened : opened.SessionLive s owner := by
        refine h.of_eq ?_
        rw [AuthDb.saveRefreshToken_tokens hs]
      rcases openSession_opens ho hopened with hold | ⟨hsid, howner⟩
      · exact Or.inl hold
      · exact Or.inr ⟨_, rfl, hsid, howner⟩

/-- A session that was not live before a call and is after it is that of the tokens the call hands
out. -/
theorem account_opens (call : AccessEnv × AccessOp)
    (h : (db.account P lib call).SessionLive s owner) :
    db.SessionLive s owner ∨ ∃ pair, db.granted P call = some pair ∧
      pair.access.sid = some s ∧ pair.access.sub = owner := by
  have hnone : ∀ {db'}, db.OpensNone db' → db'.SessionLive s owner →
      db.SessionLive s owner ∨ ∃ pair, db.granted P call = some pair ∧
        pair.access.sid = some s ∧ pair.access.sub = owner :=
    fun hopens hlive => Or.inl (hopens s owner hlive)
  obtain ⟨e, op⟩ := call
  cases op with
  | authenticate email password =>
    exact hnone (.of_eq (authenticate_untouched P e.cfg e.now db email password).sessions) h
  | request authorization =>
    exact hnone (.of_eq (getCurrentUser_untouched e.settings e.now authorization).sessions) h
  | ensureUser userId => exact hnone (.of_eq (ensureUser_untouched db userId).sessions) h
  | auth op =>
    cases op with
    | register draw email password =>
      exact hnone (.of_eq (register_untouched P e.cfg draw db email password).sessions) h
    | issueCode draw email purpose =>
      exact hnone (.of_eq (issueCode_untouched P e.cfg draw db email purpose).sessions) h
    | verifyEmail email code =>
      exact hnone (.of_eq (verifyEmail_untouched P e.cfg e.now db email code).sessions) h
    | login email password metadata =>
      change (login P e.cfg e.now e.draw db email password metadata).1.SessionLive s owner at h
      have huntouched := authenticate_untouched P e.cfg e.now db email password
      rcases login_stores P e.cfg e.now e.draw db email password metadata with
        ⟨mid, err, ha, hl⟩ | ⟨mid, user, ha, hl⟩
      all_goals rw [ha] at huntouched
      all_goals rw [hl] at h
      · exact hnone (.of_eq huntouched.sessions) h
      · rcases storeTokens_opens h with hold | ⟨pair, hok, hnew⟩
        · exact hnone (.of_eq huntouched.sessions) hold
        · refine Or.inr ⟨pair, ?_, hnew⟩
          simp only [AuthDb.granted, AuthDb.reply, hl, hok, Except.toOption]
    | refresh raw =>
      change (refresh P e.cfg e.now e.draw db raw).1.SessionLive s owner at h
      rcases refresh_stores P e.cfg e.now e.draw db raw with
        ⟨_, hr⟩ | ⟨token, _, ⟨_, hr⟩ | ⟨_, hr⟩ | ⟨_, user, _, hr⟩⟩
      all_goals rw [hr] at h
      · exact Or.inl h
      · exact hnone (.of_eq rfl) h
      · exact hnone (.of_eq rfl) h
      · rcases storeTokens_opens h with hold | ⟨pair, hok, hnew⟩
        · exact hnone (.of_eq rfl) hold
        · refine Or.inr ⟨pair, ?_, hnew⟩
          simp only [AuthDb.granted, AuthDb.reply, hr, hok, Except.toOption]
    | logout raw =>
      refine hnone ?_ h
      change db.OpensNone (logout P e.cfg e.now db raw)
      unfold logout
      split
      next => exact .of_eq rfl
      next token _ =>
        have hfamily : db.OpensNone (db.revokeTokens token.familyId e.now) := .of_eq rfl
        dsimp only
        split
        next => exact hfamily.trans (.revokeAuthSession _ _)
        next => exact hfamily
    | revokeSession userId sessionId =>
      refine hnone ?_ h
      change db.OpensNone (revokeSession e.cfg e.now db userId sessionId).1
      rw [revokeSession_eq]
      split
      next => exact .revokeAuthSession _ _
      next => exact .of_eq rfl
    | revokeOtherSessions userId current =>
      refine hnone ?_ h
      change db.OpensNone (revokeOtherSessions e.cfg e.now db userId current).1
      unfold revokeOtherSessions
      split
      next => exact .of_eq rfl
      next current =>
        split
        next => exact .revokeOtherAuthSessions userId current
        next => exact .of_eq rfl
    | resetPassword salt email code password =>
      refine hnone ?_ h
      change db.OpensNone (resetPassword P e.cfg e.now salt db email code password).1
      rcases resetPassword_cases P e.cfg e.now salt db email code password with
        ⟨err, hr⟩ | ⟨user, record, _, hr⟩
      all_goals rw [hr]
      · exact .of_eq rfl
      · exact AuthDb.OpensNone.trans (.of_eq rfl) (.revokeSessionsWhere _ _ e.now)

theorem mem_listSessions (hmanaged : cfg.authSessionManagementEnabled = true) :
    (∃ session ∈ listSessions cfg db owner, session.id = s) ↔ db.SessionLive s owner := by
  rw [listSessions, if_pos hmanaged]
  constructor
  · rintro ⟨session, hmem, hid⟩
    obtain ⟨hrow, hmine⟩ := List.mem_filter.mp hmem
    obtain ⟨howner, hlive⟩ := of_decide_eq_true hmine
    exact ⟨session, Table.find_eq_some_iff.mpr ⟨hrow, hid⟩, howner, hlive⟩
  · rintro ⟨session, hfind, howner, hlive⟩
    obtain ⟨hrow, hid⟩ := Table.find_eq_some_iff.mp hfind
    exact ⟨session, List.mem_filter.mpr ⟨hrow, decide_eq_true ⟨howner, hlive⟩⟩, hid⟩

theorem live_granted (howned : db₀.SessionsOwned) (hsessions : db₀.sessions = .empty)
    {calls : List (Call (AccessEnv × AccessOp) AuthDb)}
    (run : Run (AuthDb.account P lib) db₀ calls db) (h : db.SessionLive s owner) :
    ∃ later before call earlier pair, calls = later ++ ⟨before, call⟩ :: earlier ∧
      before.granted P call = some pair ∧ pair.access.sid = some s ∧ pair.access.sub = owner ∧
      ∀ c ∈ later, ¬EndsSession P s owner c := by
  induction run with
  | start =>
    obtain ⟨session, hfind, -⟩ := h
    rw [hsessions] at hfind
    cases hfind
  | @next calls db call run ih =>
    have howned' : db.SessionsOwned :=
      Run.always (I := fun db : AuthDb => db.SessionsOwned) howned
        (fun db call h => account_owned h call) run
    rcases account_opens call h with hold | ⟨pair, hgranted, hsid, howner⟩
    · obtain ⟨later, before, call', earlier, pair, rfl, hgranted, hsid, howner, hspared⟩ := ih hold
      refine ⟨⟨db, call⟩ :: later, before, call', earlier, pair, rfl, hgranted, hsid, howner, ?_⟩
      intro c hc
      rcases List.mem_cons.mp hc with rfl | hc
      · exact (account_live_iff howned' hold call).mp h
      · exact hspared c hc
    · exact ⟨[], db, call, calls, pair, rfl, hgranted, hsid, howner, fun c hc => nomatch hc⟩

/-- The sessions a user is shown are those of the tokens that were handed out to the user in the
run and that no later call has ended. -/
theorem listed_session_iff (htokens : db₀.tokens = .empty) (hsessions : db₀.sessions = .empty)
    {calls : List (Call (AccessEnv × AccessOp) AuthDb)}
    (run : Run (AuthDb.account P lib) db₀ calls db)
    (hmanaged : cfg.authSessionManagementEnabled = true) :
    (∃ session ∈ listSessions cfg db owner, session.id = s) ↔
      ∃ later before call earlier pair, calls = later ++ ⟨before, call⟩ :: earlier ∧
        before.granted P call = some pair ∧ pair.access.sid = some s ∧ pair.access.sub = owner ∧
        ∀ c ∈ later, ¬EndsSession P s owner c := by
  have howned : db₀.SessionsOwned := by
    intro tokenHash token hfind
    simp [refreshToken_empty htokens] at hfind
  rw [mem_listSessions hmanaged]
  constructor
  · exact live_granted howned hsessions run
  · rintro ⟨later, before, call, earlier, pair, rfl, hgranted, hsid, rfl, hspared⟩
    obtain ⟨runEarlier, runLater⟩ := run.split
    have howned' : before.SessionsOwned :=
      Run.always (I := fun db : AuthDb => db.SessionsOwned) howned
        (fun db call h => account_owned h call) runEarlier
    have hlive : (before.account P lib call).SessionLive s pair.access.sub :=
      granted_live howned' hgranted s hsid
    exact (run_live_iff (account_owned howned' call) hlive runLater).mpr hspared

end Listing

theorem annStays_listed : ∃ session ∈ listSessions managed annStays.2 1, session.id = 1 := by
  refine (listed_session_iff rfl rfl (run_runAll .start [annLogin managed, annAsks]) rfl).mpr
    ⟨[⟨_, annAsks⟩], annDb, annLogin managed, [], _, rfl, rfl, rfl, rfl, ?_⟩
  intro c hc
  rw [List.mem_singleton.mp hc]
  exact id

end JobRadar
