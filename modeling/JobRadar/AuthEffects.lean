import JobRadar.AuthHistory

namespace JobRadar

open Database

section Effects

variable {P : Primitives} {e : AuthEnv}

theorem openSession_tokens {cfg : Settings} {d : TokenDraw} {db opened : AuthDb} {user : User}
    {sessionId sessionId' : Option Uuid} {metadata : SessionMetadata}
    (h : openSession cfg d db user sessionId metadata = .ok (opened, sessionId')) :
    opened.tokens = db.tokens := by
  unfold openSession at h
  split at h
  next =>
    unfold AuthDb.saveAuthSession at h
    split at h
    next => simp [Except.map] at h
    next =>
      simp only [Except.map, Except.ok.injEq, Prod.mk.injEq] at h
      rw [← h.1]
  next =>
    simp only [Except.ok.injEq, Prod.mk.injEq] at h
    rw [h.1]

/-- Either nothing is committed, or one token under the drawn identifiers is. -/
theorem storeTokens_effect (P : Primitives) (cfg : Settings) (d : TokenDraw) (db : AuthDb)
    (user : User) (roles : List String) (sessionId : Option Uuid) (metadata : SessionMetadata) :
    (∃ err, storeTokens P cfg d db user roles sessionId metadata = (db, .error err)) ∨
    ∃ db' pair opened sessionId',
      storeTokens P cfg d db user roles sessionId metadata = (db', .ok pair) ∧
      pair.refresh = d.refresh ∧
      openSession cfg d db user sessionId metadata = .ok (opened, sessionId') ∧
      opened.saveRefreshToken (newRefreshToken P cfg d user sessionId') = .ok db' := by
  unfold storeTokens
  cases ho : openSession cfg d db user sessionId metadata with
  | error err => exact Or.inl ⟨err, rfl⟩
  | ok r =>
    obtain ⟨opened, sessionId'⟩ := r
    cases hs : opened.saveRefreshToken (newRefreshToken P cfg d user sessionId') with
    | error err => exact Or.inl ⟨err, by simp [hs]⟩
    | ok db' =>
      refine Or.inr ⟨db', ⟨createAccessToken cfg d user roles sessionId', d.refresh⟩, opened,
        sessionId', ?_, rfl, rfl, hs⟩
      simp only [hs]

theorem tokenEffect_of_saved {cfg : Settings} {d : TokenDraw} {db opened db' : AuthDb}
    {user : User} {sessionId : Option Uuid} (ho : opened.tokens = db.tokens)
    (hs : opened.saveRefreshToken (newRefreshToken P cfg d user sessionId) = .ok db') :
    TokenEffect db db' (some (newRefreshToken P cfg d user sessionId)) := by
  obtain ⟨hnone, hlook⟩ := AuthDb.refreshToken_saveRefreshToken hs
  exact ⟨opened, .of_tokens_eq ho, rfl, hnone, hlook⟩

/-- A call that leaves the tokens and the sessions alone. -/
structure AuthDb.Untouched (db db' : AuthDb) : Prop where
  tokens : db'.tokens = db.tokens
  sessions : db'.sessions = db.sessions

theorem AuthDb.Untouched.trans {db mid db' : AuthDb} (h : db.Untouched mid)
    (h' : mid.Untouched db') : db.Untouched db' :=
  ⟨h'.tokens.trans h.tokens, h'.sessions.trans h.sessions⟩

theorem assignRole_users {db : AuthDb} (userId roleId : Uuid) :
    (db.assignRole userId roleId).users = db.users := by
  unfold AuthDb.assignRole
  split <;> rfl

theorem roleOrCreate_untouched {db db' : AuthDb} {roleId : Uuid} {name description : String}
    {role : Role} (h : roleOrCreate db roleId name description = .ok (db', role)) :
    db.Untouched db' := by
  unfold roleOrCreate at h
  split at h
  next => cases h; exact ⟨rfl, rfl⟩
  next =>
    unfold AuthDb.createRole at h
    dsimp only at h
    split at h
    next => simp at h
    next => cases h; exact ⟨rfl, rfl⟩

theorem assignRole_untouched (db : AuthDb) (userId roleId : Uuid) :
    db.Untouched (db.assignRole userId roleId) := by
  unfold AuthDb.assignRole
  split <;> exact ⟨rfl, rfl⟩

theorem register_untouched (P : Primitives) (cfg : Settings) (d : RegisterDraw) (db : AuthDb)
    (email password : String) : db.Untouched (register P cfg d db email password).1 := by
  unfold register
  dsimp only
  split
  next => exact ⟨rfl, rfl⟩
  next =>
    split
    next => exact ⟨rfl, rfl⟩
    next users _ =>
      have husers : db.Untouched { db with users := users } := ⟨rfl, rfl⟩
      split
      next => exact ⟨rfl, rfl⟩
      next hr =>
        have hrole := husers.trans (roleOrCreate_untouched hr)
        split
        next =>
          split
          next => exact hrole.trans (assignRole_untouched _ _ _)
          next hr' =>
            refine AuthDb.Untouched.trans ?_ (assignRole_untouched _ _ _)
            exact (hrole.trans (assignRole_untouched _ _ _)).trans (roleOrCreate_untouched hr')
        next => exact hrole.trans (assignRole_untouched _ _ _)

/-- A check of credentials writes nothing but the login counters of the user with the address, and
succeeds only for a password that is admitted and an address that need not be verified. -/
theorem authenticate_cases (P : Primitives) (cfg : Settings) (now : Time) (db : AuthDb)
    (email password : String) :
    (∃ err, authenticate P cfg now db email password = (db, .error err)) ∨
    ∃ row, db.userByEmail P (P.lower email) = some row ∧
      (authenticate P cfg now db email password =
          (db.updateUser row.id (recordFailedLogin cfg now) fun _ => rfl,
            .error .invalidCredentials) ∨
        row.admits P cfg password ∧
          ¬(cfg.authEmailVerificationEnabled = true ∧ row.emailVerifiedAt = none) ∧
          (authenticate P cfg now db email password =
              (db.updateUser row.id clearFailedLogins fun _ => rfl, .ok (clearFailedLogins row)) ∨
            authenticate P cfg now db email password = (db, .ok row))) := by
  unfold authenticate
  split
  next => exact Or.inl ⟨_, rfl⟩
  next row hemail =>
    split_ifs with hlocked hadmits hunverified hlockout hlockout
    · exact Or.inl ⟨_, rfl⟩
    · exact Or.inl ⟨_, rfl⟩
    · exact Or.inr ⟨row, hemail, Or.inr ⟨hadmits, hunverified, Or.inl rfl⟩⟩
    · exact Or.inr ⟨row, hemail, Or.inr ⟨hadmits, hunverified, Or.inr rfl⟩⟩
    · exact Or.inr ⟨row, hemail, Or.inl rfl⟩
    · exact Or.inl ⟨_, rfl⟩

theorem authenticate_untouched (P : Primitives) (cfg : Settings) (now : Time) (db : AuthDb)
    (email password : String) : db.Untouched (authenticate P cfg now db email password).1 := by
  rcases authenticate_cases P cfg now db email password with
    ⟨err, h⟩ | ⟨row, _, h | ⟨_, _, h | h⟩⟩
  all_goals
    rw [h]
    exact ⟨rfl, rfl⟩

/-- Who may log in is handed to the store of tokens. -/
theorem login_stores (P : Primitives) (cfg : Settings) (now : Time) (d : TokenDraw) (db : AuthDb)
    (email password : String) (metadata : SessionMetadata) :
    (∃ mid err, authenticate P cfg now db email password = (mid, .error err) ∧
      login P cfg now d db email password metadata = (mid, .error err)) ∨
    ∃ mid user, authenticate P cfg now db email password = (mid, .ok user) ∧
      login P cfg now d db email password metadata =
        storeTokens P cfg d mid user (mid.rolesOf user.id) none metadata := by
  unfold login issueTokens
  cases hauth : authenticate P cfg now db email password with
  | mk mid result =>
    cases result with
    | error err => exact Or.inl ⟨mid, err, rfl, rfl⟩
    | ok user => exact Or.inr ⟨mid, user, rfl, rfl⟩

theorem login_cases (P : Primitives) (cfg : Settings) (now : Time) (d : TokenDraw) (db : AuthDb)
    (email password : String) (metadata : SessionMetadata) :
    ∃ mid result, authenticate P cfg now db email password = (mid, result) ∧
      db.Untouched mid ∧
      ((∃ err, login P cfg now d db email password metadata = (mid, .error err)) ∨
        ∃ user db' pair opened sessionId, result = .ok user ∧
          login P cfg now d db email password metadata = (db', .ok pair) ∧
          pair.refresh = d.refresh ∧
          openSession cfg d mid user none metadata = .ok (opened, sessionId) ∧
          opened.saveRefreshToken (newRefreshToken P cfg d user sessionId) = .ok db') := by
  have huntouched := authenticate_untouched P cfg now db email password
  rcases login_stores P cfg now d db email password metadata with
    ⟨mid, err, hauth, hl⟩ | ⟨mid, user, hauth, hl⟩
  all_goals rw [hauth] at huntouched
  · exact ⟨mid, _, hauth, huntouched, Or.inl ⟨err, hl⟩⟩
  · refine ⟨mid, _, hauth, huntouched, ?_⟩
    rw [hl]
    rcases storeTokens_effect P cfg d mid user (mid.rolesOf user.id) none metadata with
      ⟨err, hi⟩ | ⟨db', pair, opened, sid, hi, hp, ho, hs⟩
    · exact Or.inl ⟨err, hi⟩
    · exact Or.inr ⟨user, db', pair, opened, sid, rfl, hi, hp, ho, hs⟩

theorem login_effect (P : Primitives) (cfg : Settings) (now : Time) (d : TokenDraw) (db : AuthDb)
    (email password : String) (metadata : SessionMetadata) :
    ((login P cfg now d db email password metadata).2.toOption = none ∧
      TokenEffect db (login P cfg now d db email password metadata).1 none) ∨
    ∃ pair user sessionId,
      (login P cfg now d db email password metadata).2 = .ok pair ∧ pair.refresh = d.refresh ∧
      TokenEffect db (login P cfg now d db email password metadata).1
        (some (newRefreshToken P cfg d user sessionId)) := by
  obtain ⟨mid, result, _, huntouched, ⟨err, hl⟩ |
    ⟨user, db', pair, opened, sid, _, hl, hp, ho, hs⟩⟩ :=
      login_cases P cfg now d db email password metadata
  all_goals have hmid : db.OnlyRevokes mid := .of_tokens_eq huntouched.tokens
  · exact Or.inl (by simpa [hl, Except.toOption] using .of_onlyRevokes hmid)
  · refine Or.inr ⟨pair, user, sid, by simp [hl], hp, ?_⟩
    simpa [hl] using TokenEffect.after hmid (tokenEffect_of_saved (openSession_tokens ho) hs)

theorem revokeTokens_kills {db : AuthDb} {token : RefreshToken} {tokenHash : String}
    (hf : db.refreshToken tokenHash = some token) (now : Time) :
    ∃ new, (db.revokeTokens token.familyId now).refreshToken tokenHash = some new ∧
      new.revokedAt ≠ none := by
  refine ⟨_, by rw [AuthDb.revokeTokens, AuthDb.refreshToken_revokeTokensWhere, hf]; rfl, ?_⟩
  by_cases hr : token.revokedAt = none <;> simp [hr]

theorem activeUser_id {db : AuthDb} {token : RefreshToken} {user : User}
    (h : db.activeUser token.userId = some user) : user.id = token.userId := by
  obtain ⟨hf, _⟩ := Option.filter_eq_some_iff.mp h
  exact (Table.find_eq_some_iff.mp hf).2

/-- A refresh revokes the family of the token, if it is known, and hands an active owner of a usable
one to the store of tokens. -/
theorem refresh_stores (P : Primitives) (cfg : Settings) (now : Time) (d : TokenDraw) (db : AuthDb)
    (raw : String) :
    (db.refreshToken (P.hashRefreshToken raw) = none ∧
      refresh P cfg now d db raw = (db, .error .invalidRefreshToken)) ∨
    ∃ token, db.refreshToken (P.hashRefreshToken raw) = some token ∧
      ((¬token.usable now ∧ refresh P cfg now d db raw =
          (db.revokeTokens token.familyId now, .error token.refusal)) ∨
        (token.usable now ∧ refresh P cfg now d db raw =
          (db.revokeTokens token.familyId now, .error .invalidRefreshToken)) ∨
        (token.usable now ∧ ∃ user,
          (db.revokeTokens token.familyId now).activeUser token.userId = some user ∧
          refresh P cfg now d db raw = storeTokens P cfg d (db.revokeTokens token.familyId now) user
            ((db.revokeTokens token.familyId now).rolesOf user.id) token.sessionId {})) := by
  unfold refresh issueTokens
  split
  next hnone => exact Or.inl ⟨hnone, rfl⟩
  next token hfind =>
    refine Or.inr ⟨token, hfind, ?_⟩
    split
    next husable =>
      dsimp only
      split
      next => exact Or.inr (Or.inl ⟨husable, rfl⟩)
      next user hactive => exact Or.inr (Or.inr ⟨husable, user, hactive, rfl⟩)
    next hunusable => exact Or.inl ⟨hunusable, rfl⟩

theorem refresh_cases (P : Primitives) (cfg : Settings) (now : Time) (d : TokenDraw) (db : AuthDb)
    (raw : String) :
    (db.refreshToken (P.hashRefreshToken raw) = none ∧
      refresh P cfg now d db raw = (db, .error .invalidRefreshToken)) ∨
    ∃ token, db.refreshToken (P.hashRefreshToken raw) = some token ∧
      ((¬token.usable now ∧ refresh P cfg now d db raw =
          (db.revokeTokens token.familyId now, .error token.refusal)) ∨
        (token.usable now ∧ ∃ err, refresh P cfg now d db raw =
          (db.revokeTokens token.familyId now, .error err)) ∨
        (token.usable now ∧ ∃ user db' pair opened sessionId,
          (db.revokeTokens token.familyId now).activeUser token.userId = some user ∧
          refresh P cfg now d db raw = (db', .ok pair) ∧ pair.refresh = d.refresh ∧
          openSession cfg d (db.revokeTokens token.familyId now) user token.sessionId {} =
            .ok (opened, sessionId) ∧
          opened.saveRefreshToken (newRefreshToken P cfg d user sessionId) = .ok db')) := by
  rcases refresh_stores P cfg now d db raw with
    hnone | ⟨token, hfind, hunusable | ⟨husable, hr⟩ | ⟨husable, user, hactive, hr⟩⟩
  · exact Or.inl hnone
  · exact Or.inr ⟨token, hfind, Or.inl hunusable⟩
  · exact Or.inr ⟨token, hfind, Or.inr (Or.inl ⟨husable, _, hr⟩)⟩
  · rcases storeTokens_effect P cfg d (db.revokeTokens token.familyId now) user
      ((db.revokeTokens token.familyId now).rolesOf user.id) token.sessionId {} with
      ⟨err, hi⟩ | ⟨db', pair, opened, sid, hi, hp, ho, hs⟩
    · exact Or.inr ⟨token, hfind, Or.inr (Or.inl ⟨husable, err, hr.trans hi⟩)⟩
    · exact Or.inr ⟨token, hfind, Or.inr (Or.inr
        ⟨husable, user, db', pair, opened, sid, hactive, hr.trans hi, hp, ho, hs⟩)⟩

theorem refresh_effect (P : Primitives) (cfg : Settings) (now : Time) (d : TokenDraw)
    (db : AuthDb) (raw : String) :
    ((refresh P cfg now d db raw).2.toOption = none ∧
      TokenEffect db (refresh P cfg now d db raw).1 none) ∨
    ∃ pair user sessionId,
      (refresh P cfg now d db raw).2 = .ok pair ∧ pair.refresh = d.refresh ∧
      TokenEffect db (refresh P cfg now d db raw).1
        (some (newRefreshToken P cfg d user sessionId)) ∧
      (refresh P cfg now d db raw).1.TokenRevoked P raw := by
  rcases refresh_cases P cfg now d db raw with
    ⟨_, hr⟩ | ⟨token, hf, ⟨_, hr⟩ | ⟨_, err, hr⟩ |
      ⟨_, user, db', pair, opened, sid, _, hr, hp, ho, hs⟩⟩
  · exact Or.inl (by simpa [hr, Except.toOption] using .of_onlyRevokes (.refl db))
  · exact Or.inl (by
      simpa [hr, Except.toOption] using .of_onlyRevokes (db.onlyRevokes_revokeTokensWhere _ now))
  · exact Or.inl (by
      simpa [hr, Except.toOption] using .of_onlyRevokes (db.onlyRevokes_revokeTokensWhere _ now))
  · have heff := tokenEffect_of_saved (openSession_tokens ho) hs
    refine Or.inr ⟨pair, user, sid, by simp [hr], hp, ?_, ?_⟩
    · simpa [hr] using TokenEffect.after (db.onlyRevokes_revokeTokensWhere _ now) heff
    · obtain ⟨dead, hd, hrev⟩ := revokeTokens_kills hf now
      obtain ⟨new, hn, hk⟩ := heff.forward hd
      rw [hk.revoked hrev] at hn
      exact ⟨dead, by simpa [hr] using hn, hrev⟩

theorem logout_effect {cfg : Settings} {now : Time} {db : AuthDb} {raw : String} :
    db.OnlyRevokes (logout P cfg now db raw) := by
  unfold logout
  split
  next => exact .refl db
  next token _ =>
    have hfamily := db.onlyRevokes_revokeTokensWhere (fun t => t.familyId = token.familyId) now
    dsimp only
    split
    next => exact hfamily.trans (AuthDb.onlyRevokes_revokeAuthSession _ _ _ _)
    next => exact hfamily

theorem revokeSession_effect {cfg : Settings} {now : Time} {db : AuthDb} {userId sessionId : Uuid} :
    db.OnlyRevokes (revokeSession cfg now db userId sessionId).1 := by
  have h := db.onlyRevokes_revokeAuthSession sessionId userId now
  unfold revokeSession
  split
  next => split <;> simp_all
  next => exact .refl db

theorem revokeOtherSessions_effect {cfg : Settings} {now : Time} {db : AuthDb} {userId : Uuid}
    {current : Option Uuid} :
    db.OnlyRevokes (revokeOtherSessions cfg now db userId current).1 := by
  unfold revokeOtherSessions
  split
  next => exact .refl db
  next current =>
    split
    next => exact db.onlyRevokes_revokeOtherAuthSessions userId current now
    next => exact .refl db

theorem issueCode_untouched (P : Primitives) (cfg : Settings) (d : CodeDraw) (db : AuthDb)
    (email : String) (purpose : CodePurpose) :
    db.Untouched (issueCode P cfg d db email purpose).1 := by
  unfold issueCode AuthDb.saveVerificationCode
  dsimp only
  split
  next => exact ⟨rfl, rfl⟩
  next =>
    split
    next => exact ⟨rfl, rfl⟩
    next h =>
      split at h
      next => simp at h
      next => cases h; exact ⟨rfl, rfl⟩

theorem verifyEmail_cases (P : Primitives) (cfg : Settings) (now : Time) (db : AuthDb)
    (email code : String) :
    (∃ err, verifyEmail P cfg now db email code = (db, .error err)) ∨
    ∃ user record, cfg.authEmailVerificationEnabled = true ∧
      presentedCode P now db email code .emailVerification = some (user, record) ∧
      verifyEmail P cfg now db email code =
        ((db.consumeCode record now).updateUser user.id (markVerified now) fun _ => rfl,
          .ok ()) := by
  unfold verifyEmail
  split
  next hflag =>
    split
    next => exact Or.inl ⟨_, rfl⟩
    next user record hcode => exact Or.inr ⟨user, record, hflag, hcode, rfl⟩
  next => exact Or.inl ⟨_, rfl⟩

theorem resetPassword_cases (P : Primitives) (cfg : Settings) (now : Time) (salt : String)
    (db : AuthDb) (email code password : String) :
    (∃ err, resetPassword P cfg now salt db email code password = (db, .error err)) ∨
    ∃ user record, presentedCode P now db email code .passwordReset = some (user, record) ∧
      resetPassword P cfg now salt db email code password =
        (((db.consumeCode record now).updateUser user.id (setPassword P salt password)
          fun _ => rfl).revokeUserTokens user.id now, .ok ()) := by
  unfold resetPassword
  split
  next =>
    split
    next => exact Or.inl ⟨_, rfl⟩
    next user record hcode => exact Or.inr ⟨user, record, hcode, rfl⟩
  next => exact Or.inl ⟨_, rfl⟩

theorem verifyEmail_untouched (P : Primitives) (cfg : Settings) (now : Time) (db : AuthDb)
    (email code : String) : db.Untouched (verifyEmail P cfg now db email code).1 := by
  rcases verifyEmail_cases P cfg now db email code with ⟨err, h⟩ | ⟨user, record, _, _, h⟩
  all_goals
    rw [h]
    exact ⟨rfl, rfl⟩

theorem resetPassword_effect {cfg : Settings} {now : Time} {salt : String} {db : AuthDb}
    {email code password : String} :
    db.OnlyRevokes (resetPassword P cfg now salt db email code password).1 := by
  rcases resetPassword_cases P cfg now salt db email code password with
    ⟨err, h⟩ | ⟨user, record, _, h⟩
  · rw [h]
    exact .refl db
  · rw [h]
    exact (AuthDb.OnlyRevokes.of_tokens_eq rfl).trans (AuthDb.onlyRevokes_revokeUserTokens _ _ _)

/-- What any call does to the refresh tokens, and what it hands out. -/
theorem commit_effect (db : AuthDb) (op : AuthOp) :
    (db.reply P e op = none ∧ TokenEffect db (db.commit P e op) none) ∨
    ∃ pair user sessionId, db.reply P e op = some pair ∧ pair.refresh = e.draw.refresh ∧
      TokenEffect db (db.commit P e op) (some (newRefreshToken P e.cfg e.draw user sessionId)) := by
  cases op with
  | register draw email password =>
    exact Or.inl ⟨rfl, .of_onlyRevokes (.of_tokens_eq (register_untouched _ _ _ _ _ _).tokens)⟩
  | login email password metadata =>
    rcases login_effect P e.cfg e.now e.draw db email password metadata with
      h | ⟨pair, user, sid, hr, hp, he⟩
    · exact Or.inl h
    · exact Or.inr ⟨pair, user, sid, by simp [AuthDb.reply, hr, Except.toOption], hp, he⟩
  | refresh raw =>
    rcases refresh_effect P e.cfg e.now e.draw db raw with h | ⟨pair, user, sid, hr, hp, he, _⟩
    · exact Or.inl h
    · exact Or.inr ⟨pair, user, sid, by simp [AuthDb.reply, hr, Except.toOption], hp, he⟩
  | logout raw => exact Or.inl ⟨rfl, .of_onlyRevokes logout_effect⟩
  | revokeSession userId sessionId => exact Or.inl ⟨rfl, .of_onlyRevokes revokeSession_effect⟩
  | revokeOtherSessions userId current =>
    exact Or.inl ⟨rfl, .of_onlyRevokes revokeOtherSessions_effect⟩
  | issueCode draw email purpose =>
    exact Or.inl ⟨rfl, .of_onlyRevokes (.of_tokens_eq (issueCode_untouched _ _ _ _ _ _).tokens)⟩
  | verifyEmail email code =>
    exact Or.inl ⟨rfl, .of_onlyRevokes (.of_tokens_eq (verifyEmail_untouched _ _ _ _ _ _).tokens)⟩
  | resetPassword salt email code password =>
    exact Or.inl ⟨rfl, .of_onlyRevokes resetPassword_effect⟩

end Effects

end JobRadar
