import JobRadar.AuthEffects

namespace JobRadar

open Database

section Users

variable {P : Primitives} {cfg : Settings} {d : TokenDraw} {now : Time} {db db' : AuthDb}
  {user : User} {userId : Uuid}

theorem openSession_users {opened : AuthDb} {sessionId sessionId' : Option Uuid}
    {metadata : SessionMetadata}
    (h : openSession cfg d db user sessionId metadata = .ok (opened, sessionId')) :
    opened.users = db.users := by
  unfold openSession AuthDb.saveAuthSession at h
  split at h
  next =>
    split at h
    next => cases h
    next => cases h; rfl
  next => cases h; rfl

theorem storeTokens_users (roles : List String) (sessionId : Option Uuid)
    (metadata : SessionMetadata) :
    (storeTokens P cfg d db user roles sessionId metadata).1.users = db.users := by
  rcases storeTokens_effect P cfg d db user roles sessionId metadata with
    ⟨err, hi⟩ | ⟨db', pair, opened, sid, hi, _, ho, hs⟩
  · rw [hi]
  · have hopened : opened.users = db.users := openSession_users ho
    rw [hi, AuthDb.saveRefreshToken_tokens hs]
    exact hopened

theorem storeTokens_sub {roles : List String} {sessionId : Option Uuid}
    {metadata : SessionMetadata} {pair : TokenPair}
    (h : (storeTokens P cfg d db user roles sessionId metadata).2 = .ok pair) :
    pair.access.sub = user.id := by
  unfold storeTokens at h
  split at h
  next => cases h
  next =>
    split at h
    next => cases h
    next => cases h; rfl

theorem refresh_users (raw : String) : (refresh P cfg now d db raw).1.users = db.users := by
  rcases refresh_stores P cfg now d db raw with
    ⟨_, hr⟩ | ⟨token, _, ⟨_, hr⟩ | ⟨_, hr⟩ | ⟨_, user, _, hr⟩⟩
  all_goals rw [hr]
  · rfl
  · rfl
  · exact storeTokens_users _ _ _

theorem logout_users (raw : String) : (logout P cfg now db raw).users = db.users := by
  unfold logout AuthDb.revokeAuthSession
  split
  next => rfl
  next =>
    dsimp only
    split
    next =>
      split
      next => rfl
      next => split <;> rfl
    next => rfl

theorem revokeSession_users (sessionId : Uuid) :
    (revokeSession cfg now db userId sessionId).1.users = db.users := by
  unfold revokeSession AuthDb.revokeAuthSession
  split
  next =>
    split
    next h =>
      split at h
      next => cases h
      next =>
        split at h
        next => cases h
        next => cases h; rfl
    next h =>
      split at h
      next => cases h; rfl
      next =>
        split at h
        next => cases h; rfl
        next => cases h
  next => rfl

theorem revokeOtherSessions_users (current : Option Uuid) :
    (revokeOtherSessions cfg now db userId current).1.users = db.users := by
  unfold revokeOtherSessions AuthDb.revokeOtherAuthSessions
  split
  next => rfl
  next =>
    split
    next =>
      dsimp only
      split <;> rfl
    next => rfl

theorem issueCode_users (draw : CodeDraw) (email : String) (purpose : CodePurpose) :
    (issueCode P cfg draw db email purpose).1.users = db.users := by
  unfold issueCode AuthDb.saveVerificationCode
  dsimp only
  split
  next => rfl
  next =>
    split
    next => rfl
    next h =>
      split at h
      next => simp at h
      next => cases h; rfl

/-- What an update does to the one row of its user decides what it does. -/
theorem updateUser_congr (hmem : user ∈ db.users) {f g : User → User} {hf : ∀ u, (f u).id = u.id}
    {hg : ∀ u, (g u).id = u.id} (h : f user = g user) :
    db.updateUser user.id f hf = db.updateUser user.id g hg := by
  have htable : db.users.updateWhere (fun u => u.id = user.id) f hf =
      db.users.updateWhere (fun u => u.id = user.id) g hg := by
    apply Table.eq_of_rows_eq
    apply List.map_congr_left
    intro u hu
    split
    next hid =>
      obtain rfl : u = user := Table.eq_of_key_eq hu hmem hid
      exact h
    next => rfl
  simp only [AuthDb.updateUser, htable]

/-- Who authenticates has a row, with a status that admits a login. -/
theorem authenticate_ok {email password : String}
    (h : (authenticate P cfg now db email password).2 = .ok user) :
    ∃ row, db.user user.id = some row ∧
      (row.status = .active ∨ row.status = .pendingVerification) := by
  rcases authenticate_cases P cfg now db email password with
    ⟨err, hauth⟩ | ⟨row, hemail, hauth | ⟨hadmits, _, hauth | hauth⟩⟩
  all_goals rw [hauth] at h
  all_goals cases h
  all_goals
    have hrow := Table.find_of_mem (List.mem_of_find?_eq_some hemail)
    exact ⟨_, hrow, hadmits.2.imp id And.right⟩

theorem toOption_eq_some {α : Type} {result : Except AuthError α} {value : α}
    (h : result.toOption = some value) : result = .ok value := by
  cases result with
  | error e => cases h
  | ok v => cases h; rfl

theorem login_ok {email password : String} {metadata : SessionMetadata} {pair : TokenPair}
    (h : (login P cfg now d db email password metadata).2 = .ok pair) :
    ∃ user, (authenticate P cfg now db email password).2 = .ok user ∧
      pair.access.sub = user.id := by
  rcases login_stores P cfg now d db email password metadata with
    ⟨mid, err, hauth, hl⟩ | ⟨mid, user, hauth, hl⟩
  · rw [hl] at h
    cases h
  · rw [hl] at h
    exact ⟨user, by rw [hauth], storeTokens_sub h⟩

/-- A refresh returns tokens of the user whose token it was given, who is active. -/
theorem refresh_grants {raw : String} {pair : TokenPair}
    (h : (refresh P cfg now d db raw).2 = .ok pair) :
    ∃ token user, db.refreshToken (P.hashRefreshToken raw) = some token ∧
      db.user token.userId = some user ∧ user.status = .active ∧ user.id = token.userId ∧
      pair.access.sub = user.id := by
  rcases refresh_stores P cfg now d db raw with
    ⟨_, hr⟩ | ⟨token, hfind, ⟨_, hr⟩ | ⟨_, hr⟩ | ⟨_, user, hactive, hr⟩⟩
  all_goals rw [hr] at h
  · cases h
  · cases h
  · cases h
  · obtain ⟨hrow, hstatus⟩ := Option.filter_eq_some_iff.mp hactive
    exact ⟨token, user, hfind, hrow, of_decide_eq_true hstatus, activeUser_id hactive,
      storeTokens_sub h⟩

theorem refresh_ok {raw : String} {pair : TokenPair}
    (h : (refresh P cfg now d db raw).2 = .ok pair) :
    ∃ user, db.user user.id = some user ∧ user.status = .active ∧ pair.access.sub = user.id := by
  obtain ⟨token, user, _, hrow, hstatus, hid, hsub⟩ := refresh_grants h
  rw [← hid] at hrow
  exact ⟨user, hrow, hstatus, hsub⟩

theorem refresh_sub {raw : String} {pair : TokenPair}
    (h : (refresh P cfg now d db raw).2 = .ok pair) :
    ∃ token, db.refreshToken (P.hashRefreshToken raw) = some token ∧
      pair.access.sub = token.userId := by
  obtain ⟨token, user, hfind, _, _, hid, hsub⟩ := refresh_grants h
  exact ⟨token, hfind, hsub.trans hid⟩

/-- Tokens go to a user who has just authenticated, or to the owner of a stored token. -/
def AuthDb.Entitled (P : Primitives) (e : AuthEnv) (db : AuthDb) (userId : Uuid) : Prop :=
  (∃ email password user, (authenticate P e.cfg e.now db email password).2 = .ok user ∧
    user.id = userId) ∨
  ∃ tokenHash token, db.refreshToken tokenHash = some token ∧ token.userId = userId

/-- A call that stores a token returns an access token of the same user, who was entitled. -/
theorem commit_grants (e : AuthEnv) (db : AuthDb) (op : AuthOp) :
    (db.reply P e op = none ∧ TokenEffect db (db.commit P e op) none) ∨
    ∃ pair new, db.reply P e op = some pair ∧ TokenEffect db (db.commit P e op) (some new) ∧
      new.userId = pair.access.sub ∧ db.Entitled P e new.userId := by
  cases op with
  | login email password metadata =>
    obtain ⟨mid, result, hauth, huntouched, ⟨err, hl⟩ |
      ⟨user, db', pair, opened, sid, hok, hl, _, ho, hs⟩⟩ :=
        login_cases P e.cfg e.now e.draw db email password metadata
    all_goals have hmid : db.OnlyRevokes mid := .of_tokens_eq huntouched.tokens
    · exact Or.inl (by
        simpa [AuthDb.reply, AuthDb.commit, hl, Except.toOption] using .of_onlyRevokes hmid)
    · refine Or.inr ⟨pair, newRefreshToken P e.cfg e.draw user sid,
        by simp [AuthDb.reply, hl, Except.toOption], ?_, ?_, Or.inl ⟨email, password, user, ?_, rfl⟩⟩
      · simpa [AuthDb.commit, hl] using
          TokenEffect.after hmid (tokenEffect_of_saved (openSession_tokens ho) hs)
      · have hreturned : (login P e.cfg e.now e.draw db email password metadata).2 = .ok pair := by
          rw [hl]
        obtain ⟨user', hauth', hsub⟩ := login_ok hreturned
        rw [hauth, hok] at hauth'
        cases hauth'
        exact hsub.symm
      · rw [hauth, hok]
  | refresh raw =>
    rcases refresh_effect P e.cfg e.now e.draw db raw with h | ⟨_, _, _, hok, _⟩
    · exact Or.inl h
    · rcases refresh_cases P e.cfg e.now e.draw db raw with
        ⟨_, hr⟩ | ⟨token, hf, ⟨_, hr⟩ | ⟨_, err, hr⟩ |
          ⟨_, user, db', pair, opened, sid, ha, hr, _, ho, hs⟩⟩
      · rw [hr] at hok
        cases hok
      · rw [hr] at hok
        cases hok
      · rw [hr] at hok
        cases hok
      · refine Or.inr ⟨pair, newRefreshToken P e.cfg e.draw user sid,
          by simp [AuthDb.reply, hr, Except.toOption], ?_, ?_,
          Or.inr ⟨_, token, hf, (activeUser_id ha).symm⟩⟩
        · have heff := tokenEffect_of_saved (openSession_tokens ho) hs
          simpa [AuthDb.commit, hr] using
            TokenEffect.after (db.onlyRevokes_revokeTokensWhere _ e.now) heff
        · have hreturned : (refresh P e.cfg e.now e.draw db raw).2 = .ok pair := by
            rw [hr]
          obtain ⟨token', hf', hsub⟩ := refresh_sub hreturned
          rw [hf] at hf'
          cases hf'
          exact (activeUser_id ha).trans hsub.symm
  | _ =>
    rcases commit_effect (P := P) (e := e) db _ with h | ⟨pair, _, _, hreply, _⟩
    · exact Or.inl h
    · cases hreply

theorem roleOrCreate_users {roleId : Uuid} {name description : String} {role : Role}
    (h : roleOrCreate db roleId name description = .ok (db', role)) : db'.users = db.users := by
  unfold roleOrCreate AuthDb.createRole at h
  split at h
  next => cases h; rfl
  next =>
    dsimp only at h
    split at h
    next => cases h
    next => cases h; rfl

theorem register_user {draw : RegisterDraw} (email password : String)
    (h : db.user userId = some user) :
    (register P cfg draw db email password).1.user userId = some user := by
  unfold register
  dsimp only
  split
  next => exact h
  next =>
    split
    next => exact h
    next users hi =>
      have hadded : AuthDb.user { db with users := users } userId = some user :=
        Table.find_of_insert_of_find hi h
      have hsame : ∀ {mid : AuthDb}, mid.users = users → mid.user userId = some user := by
        intro mid hmid
        rw [AuthDb.user, hmid]
        exact hadded
      split
      next => exact h
      next hr =>
        have hrole := roleOrCreate_users hr
        split
        next =>
          split
          next => exact hsame ((assignRole_users _ _).trans hrole)
          next hr' =>
            refine hsame ((assignRole_users _ _).trans ((roleOrCreate_users hr').trans ?_))
            exact (assignRole_users _ _).trans hrole
        next => exact hsame ((assignRole_users _ _).trans hrole)

end Users

end JobRadar
