import JobRadar.RefreshReplay

namespace JobRadar

open Database

/-- The session a token names belongs to the token's user, and outlives the token. -/
def AuthDb.Owns (db : AuthDb) (token : RefreshToken) : Prop :=
  ∀ s, token.sessionId = some s → ∃ session, db.sessions.find s = some session ∧
    session.userId = token.userId ∧ (token.revokedAt = none → session.revokedAt = none)

/-- The session a token names is the user's and active, whatever became of the token. -/
def AuthDb.SessionActive (db : AuthDb) (token : RefreshToken) : Prop :=
  ∀ s, token.sessionId = some s → ∃ session, db.sessions.find s = some session ∧
    session.userId = token.userId ∧ session.revokedAt = none

def AuthDb.SessionsOwned (db : AuthDb) : Prop :=
  ∀ tokenHash token, db.refreshToken tokenHash = some token → db.Owns token

/-- Sessions are added, and those that were there stay as they were. -/
def AuthDb.SessionsGrow (db db' : AuthDb) : Prop :=
  ∀ s session, db.sessions.find s = some session → db'.sessions.find s = some session

/-- What a rotation hands on: the user, and the session if there is one. -/
def RefreshToken.Inherits (token new : RefreshToken) : Prop :=
  new.userId = token.userId ∧ ∀ s, token.sessionId = some s → new.sessionId = some s

def AuthHistory.Inherited (P : Primitives) (h : AuthHistory) : Prop :=
  ∀ raw raw', h.Successor raw raw' → ∃ token new,
    h.db.refreshToken (P.hashRefreshToken raw) = some token ∧
    h.db.refreshToken (P.hashRefreshToken raw') = some new ∧ token.Inherits new

variable {P : Primitives} {cfg : Settings} {d : TokenDraw} {now : Time} {db db' opened : AuthDb}
  {user : User} {metadata : SessionMetadata} {sessionId sessionId' : Option Uuid}

theorem AuthDb.SessionsGrow.of_eq (h : db'.sessions = db.sessions) : db.SessionsGrow db' := by
  intro s session hf
  rwa [h]

theorem AuthDb.Owns.kept {old new : RefreshToken} (h : db.Owns old) (hk : old.Kept new) :
    db.Owns new := by
  intro s hs
  rw [hk.sessionId_eq] at hs
  obtain ⟨session, hf, hu, hlive⟩ := h s hs
  refine ⟨session, hf, by rw [hu, hk.userId_eq], ?_⟩
  intro hnew
  exact hlive (hk.live hnew ▸ hnew)

theorem AuthDb.Owns.grow {token : RefreshToken} (h : db.Owns token) (hg : db.SessionsGrow db') :
    db'.Owns token := by
  intro s hs
  obtain ⟨session, hf, hrest⟩ := h s hs
  exact ⟨session, hg s session hf, hrest⟩

theorem AuthDb.SessionActive.grow {token : RefreshToken} (h : db.SessionActive token)
    (hg : db.SessionsGrow db') : db'.SessionActive token := by
  intro s hs
  obtain ⟨session, hf, hrest⟩ := h s hs
  exact ⟨session, hg s session hf, hrest⟩

theorem AuthDb.SessionActive.forUser {token : RefreshToken} (h : db.SessionActive token)
    (huser : user.id = token.userId) : ∀ s, token.sessionId = some s →
      ∃ session, db.sessions.find s = some session ∧ session.userId = user.id ∧
        session.revokedAt = none := by
  intro s hs
  obtain ⟨session, hf, hu, hactive⟩ := h s hs
  exact ⟨session, hf, hu.trans huser.symm, hactive⟩

theorem AuthDb.SessionsOwned.effect {issued : Option RefreshToken} (h : db.SessionsOwned)
    (heff : TokenEffect db db' issued) (hg : db.SessionsGrow db')
    (hnew : ∀ new ∈ issued, db'.Owns new) : db'.SessionsOwned := by
  intro tokenHash token hf
  rcases heff.backward hf with ⟨old, ho, hk⟩ | ⟨hi, _, _⟩
  · exact ((h tokenHash old ho).grow hg).kept hk
  · exact hnew token hi

theorem AuthDb.SessionsOwned.of_eq (h : db.SessionsOwned) (ht : db'.tokens = db.tokens)
    (hs : db'.sessions = db.sessions) : db'.SessionsOwned :=
  h.effect (.of_onlyRevokes (.of_tokens_eq ht)) (.of_eq hs) (by simp)

/-- Revoking sessions is sound when the tokens of every revoked session are revoked with them. -/
theorem AuthDb.SessionsOwned.revoke {p : RefreshToken → Prop} [DecidablePred p]
    {q : AuthSession → Prop} [DecidablePred q] (h : db.SessionsOwned)
    (hcover : ∀ tokenHash token session, db.refreshToken tokenHash = some token →
      token.revokedAt = none → token.sessionId = some session.id →
      db.sessions.find session.id = some session → session.userId = token.userId →
      session.revokedAt = none → q session → p token) :
    ((db.revokeSessionsWhere q now).revokeTokensWhere p now).SessionsOwned := by
  intro tokenHash token hf s hs
  have hlook : ((db.revokeSessionsWhere q now).revokeTokensWhere p now).sessions.find s =
      (db.sessions.find s).map fun r => if q r then r.revoke now else r :=
    db.sessions.find_updateWhere q (·.revoke now) (fun _ => rfl) s
  rw [AuthDb.refreshToken_revokeTokensWhere] at hf
  obtain ⟨old, ho, hold⟩ := Option.map_eq_some_iff.mp hf
  have ho' : db.refreshToken tokenHash = some old := ho
  have hsame : token.sessionId = old.sessionId ∧ token.userId = old.userId := by
    rw [← hold]
    split <;> exact ⟨rfl, rfl⟩
  obtain ⟨session, hfs, hu, hlive⟩ := h tokenHash old ho' s (by rw [← hsame.1, hs])
  have hid : session.id = s := (Table.find_eq_some_iff.mp hfs).2
  refine ⟨_, by rw [hlook, hfs]; rfl, ?_, ?_⟩
  · rw [hsame.2, ← hu]
    by_cases hq : q session <;> simp [hq, AuthSession.revoke]
  · intro htoken
    rw [← hold] at htoken
    split at htoken
    next => simp at htoken
    next hp =>
      have hactive := hlive htoken
      have hq : ¬q session := by
        intro hq
        have hp' := hcover tokenHash old session ho' htoken (by rw [← hsame.1, hs, hid])
          (by rw [hid, hfs]) hu hactive hq
        exact hp ⟨hp', htoken⟩
      simpa [hq] using hactive

theorem openSession_inherits
    (h : openSession cfg d db user sessionId metadata = .ok (opened, sessionId')) :
    ∀ s, sessionId = some s → sessionId' = some s := by
  intro s hs
  simp only [openSession, hs, reduceCtorEq, and_false, if_false, Except.ok.injEq,
    Prod.mk.injEq] at h
  rw [← h.2]

/-- Opening a session keeps the one that is handed in, and a new one is the user's. -/
theorem openSession_owns
    (h : openSession cfg d db user sessionId metadata = .ok (opened, sessionId'))
    (howns : ∀ s, sessionId = some s → ∃ session, db.sessions.find s = some session ∧
      session.userId = user.id ∧ session.revokedAt = none) :
    db.SessionsGrow opened ∧ opened.Owns (newRefreshToken P cfg d user sessionId') := by
  unfold openSession at h
  split at h
  next =>
    unfold AuthDb.saveAuthSession at h
    split at h
    next => simp [Except.map] at h
    next sessions hi =>
      simp only [Except.map, Except.ok.injEq, Prod.mk.injEq] at h
      obtain ⟨rfl, rfl⟩ := h
      refine ⟨?_, ?_⟩
      · intro s session hf
        exact Table.find_of_insert_of_find hi hf
      · intro s hs
        cases Option.some.inj hs
        refine ⟨_, Table.find_of_mem ((Table.mem_of_insert hi).mpr (Or.inr rfl)), rfl, ?_⟩
        intro _
        rfl
  next =>
    simp only [Except.ok.injEq, Prod.mk.injEq] at h
    obtain ⟨rfl, rfl⟩ := h
    refine ⟨.of_eq rfl, ?_⟩
    intro s hs
    obtain ⟨session, hf, hu, hlive⟩ := howns s hs
    exact ⟨session, hf, hu, fun _ => hlive⟩

/-- What a stored token looks like to the invariants, whoever issued it. -/
theorem saved_owned (ho : openSession cfg d db user sessionId metadata = .ok (opened, sessionId'))
    (hs : opened.saveRefreshToken (newRefreshToken P cfg d user sessionId') = .ok db')
    (howns : ∀ s, sessionId = some s → ∃ session, db.sessions.find s = some session ∧
      session.userId = user.id ∧ session.revokedAt = none) (h : db.SessionsOwned) :
    db'.SessionsOwned ∧ db.SessionsGrow db' := by
  obtain ⟨hgrow, hnew⟩ := openSession_owns (P := P) ho howns
  have hsessions : db'.sessions = opened.sessions := by
    rw [AuthDb.saveRefreshToken_tokens hs]
  have hgrow' : db.SessionsGrow db' := fun s session hf => hsessions ▸ hgrow s session hf
  refine ⟨?_, hgrow'⟩
  refine h.effect (tokenEffect_of_saved (openSession_tokens ho) hs) hgrow' ?_
  intro new hn
  cases Option.some.inj hn
  exact hnew.grow (.of_eq hsessions)

theorem revokeTokens_owned (h : db.SessionsOwned) (familyId : Uuid) (now : Time) :
    (db.revokeTokens familyId now).SessionsOwned :=
  h.effect (.of_onlyRevokes (db.onlyRevokes_revokeTokensWhere _ now)) (.of_eq rfl) (by simp)

theorem revokeAuthSession_owned (h : db.SessionsOwned) (s userId : Uuid) (now : Time) :
    (db.revokeAuthSession s userId now).1.SessionsOwned := by
  unfold AuthDb.revokeAuthSession
  split
  next => exact h
  next =>
    split
    next => exact h
    next =>
      apply h.revoke
      intro _ token session _ _ hs _ _ _ hq
      rw [hs, hq]

theorem revokeOtherAuthSessions_owned (h : db.SessionsOwned) (userId current : Uuid) :
    (db.revokeOtherAuthSessions userId current now).1.SessionsOwned := by
  simp only [AuthDb.revokeOtherAuthSessions]
  split
  next => exact h
  next =>
    apply h.revoke
    intro _ token session _ _ hs hf hu _ hq
    obtain ⟨other, hother, hid⟩ := List.mem_map.mp hq
    simp only [AuthDb.authSessions, List.mem_filter, decide_eq_true_eq] at hother
    obtain ⟨⟨hmem, huser, _⟩, hne⟩ := hother
    have hsame : other = session :=
      Table.eq_of_key_eq hmem (Table.find_eq_some_iff.mp hf).1 hid
    subst other
    exact ⟨by rw [← hu, huser], session.id, hs, hne⟩

theorem revokeUserTokens_owned (h : db.SessionsOwned) (userId : Uuid) :
    (db.revokeUserTokens userId now).SessionsOwned := by
  change ((db.revokeSessionsWhere _ now).revokeTokensWhere _ now).SessionsOwned
  apply h.revoke
  intro _ token session _ _ _ _ hu _ hq
  rw [← hu, hq.1]

theorem AuthHistory.Inherited.effect {h : AuthHistory} {issued : Option RefreshToken}
    (hi : h.Inherited P) (heff : TokenEffect h.db db' issued) :
    AuthHistory.Inherited P { h with db := db' } := by
  intro raw raw' hs
  obtain ⟨token, new, ht, hn, huser, hsession⟩ := hi raw raw' hs
  obtain ⟨token', ht', hk⟩ := heff.forward ht
  obtain ⟨new', hn', hk'⟩ := heff.forward hn
  refine ⟨token', new', ht', hn', by rw [hk.userId_eq, hk'.userId_eq, huser], ?_⟩
  intro s hs
  rw [hk'.sessionId_eq]
  exact hsession s (by rw [← hk.sessionId_eq, hs])

theorem AuthHistory.Inherited.cons {h : AuthHistory} {raw raw' : String} (hi : h.Inherited P)
    (hedge : ∃ token new, h.db.refreshToken (P.hashRefreshToken raw) = some token ∧
      h.db.refreshToken (P.hashRefreshToken raw') = some new ∧ token.Inherits new) :
    AuthHistory.Inherited P { h with rotations := (raw, raw') :: h.rotations } := by
  intro a b hab
  rcases List.mem_cons.mp hab with hnew | hold
  · cases hnew
    exact hedge
  · exact hi a b hold

/-- The token stored for a presented one inherits from it. -/
theorem reissued_inherits {raw : String} {row : RefreshToken}
    (heff : TokenEffect db db' (some (newRefreshToken P cfg d user sessionId)))
    (hf : db.refreshToken (P.hashRefreshToken raw) = some row) (huser : user.id = row.userId)
    (hsession : ∀ s, row.sessionId = some s → sessionId = some s) :
    ∃ token new, db'.refreshToken (P.hashRefreshToken raw) = some token ∧
      db'.refreshToken (P.hashRefreshToken d.refresh) = some new ∧ token.Inherits new := by
  obtain ⟨token, ht, hk⟩ := heff.forward hf
  obtain ⟨_, _, _, _, hlook⟩ := heff
  refine ⟨token, _, ht, (hlook _).trans (if_pos rfl), ?_, ?_⟩
  · rw [hk.userId_eq]
    exact huser
  · intro s hs
    exact hsession s (by rw [← hk.sessionId_eq, hs])

theorem AuthDb.Owns.active {token : RefreshToken} (h : db.Owns token)
    (hlive : token.revokedAt = none) : db.SessionActive token := by
  intro s hs
  obtain ⟨session, hf, hu, hactive⟩ := h s hs
  exact ⟨session, hf, hu, hactive hlive⟩

theorem refresh_owned (h : db.SessionsOwned) (raw : String) :
    (refresh P cfg now d db raw).1.SessionsOwned ∧
      ∀ pair, (refresh P cfg now d db raw).2 = .ok pair → ∃ token new,
        (refresh P cfg now d db raw).1.refreshToken (P.hashRefreshToken raw) = some token ∧
        (refresh P cfg now d db raw).1.refreshToken (P.hashRefreshToken pair.refresh) = some new ∧
        token.Inherits new := by
  rcases refresh_cases P cfg now d db raw with
    ⟨_, hr⟩ | ⟨token, hf, ⟨_, hr⟩ | ⟨_, err, hr⟩ |
      ⟨hu, user, db', pair, opened, sid, ha, hr, hp, ho, hs⟩⟩
  · simpa [hr] using h
  · simpa [hr] using revokeTokens_owned h token.familyId now
  · simpa [hr] using revokeTokens_owned h token.familyId now
  · have huser := activeUser_id ha
    have hactive := ((h _ token hf).active hu.1).forUser huser
    obtain ⟨howned, _⟩ := saved_owned ho hs hactive (revokeTokens_owned h token.familyId now)
    have hinherit := openSession_inherits ho
    obtain ⟨row, hrow, hk⟩ :=
      (db.onlyRevokes_revokeTokensWhere (fun t => t.familyId = token.familyId) now).forward hf
    have hedge := reissued_inherits (tokenEffect_of_saved (openSession_tokens ho) hs) hrow
      (by rw [hk.userId_eq, huser]) (fun s hs => hinherit s (by rw [← hk.sessionId_eq, hs]))
    rw [hr]
    refine ⟨howned, ?_⟩
    intro pair' hpair
    cases hpair
    rw [hp]
    exact hedge

theorem login_owned (h : db.SessionsOwned) (email password : String) :
    (login P cfg now d db email password metadata).1.SessionsOwned := by
  obtain ⟨mid, result, _, huntouched, ⟨err, hl⟩ |
    ⟨user, db', pair, opened, sid, _, hl, _, ho, hs⟩⟩ :=
      login_cases P cfg now d db email password metadata
  all_goals have hmid : mid.SessionsOwned := h.of_eq huntouched.tokens huntouched.sessions
  · rw [hl]
    exact hmid
  · rw [hl]
    exact (saved_owned ho hs (by simp) hmid).1

theorem logout_owned (h : db.SessionsOwned) (raw : String) :
    (logout P cfg now db raw).SessionsOwned := by
  unfold logout
  split
  next => exact h
  next token _ =>
    have hfamily := revokeTokens_owned h token.familyId now
    dsimp only
    split
    next => exact revokeAuthSession_owned hfamily _ _ now
    next => exact hfamily

theorem commit_owned {e : AuthEnv} (h : db.SessionsOwned) (op : AuthOp) :
    (db.commit P e op).SessionsOwned := by
  cases op with
  | register draw email password =>
    have hun := register_untouched P e.cfg draw db email password
    exact h.of_eq hun.tokens hun.sessions
  | login email password metadata => exact login_owned h email password
  | refresh raw => exact (refresh_owned h raw).1
  | logout raw => exact logout_owned h raw
  | revokeSession userId s =>
    have hrevoked := revokeAuthSession_owned h s userId e.now
    simp only [AuthDb.commit, revokeSession]
    split
    next => split <;> simp_all
    next => exact h
  | revokeOtherSessions userId current =>
    simp only [AuthDb.commit, revokeOtherSessions]
    split
    next => exact h
    next current =>
      split
      next => exact revokeOtherAuthSessions_owned h userId current
      next => exact h
  | issueCode draw email purpose =>
    have hun := issueCode_untouched P e.cfg draw db email purpose
    exact h.of_eq hun.tokens hun.sessions
  | verifyEmail email code =>
    have hun := verifyEmail_untouched P e.cfg e.now db email code
    exact h.of_eq hun.tokens hun.sessions
  | resetPassword salt email code password =>
    simp only [AuthDb.commit, resetPassword]
    split
    next =>
      split
      next => exact h
      next => exact revokeUserTokens_owned (h.of_eq rfl rfl) _
    next => exact h

/-- In every reachable state a token's session outlives it, and rotation hands both the user
and the session on. -/
theorem reachable_owned {allowed : AuthEnv → AuthOp → Prop} {h : AuthHistory}
    (reach : Reachable P allowed h) : h.db.SessionsOwned ∧ h.Inherited P := by
  induction reach with
  | init htokens _ =>
    refine ⟨?_, ?_⟩
    · intro tokenHash token hf
      simp [refreshToken_empty htokens] at hf
    · intro raw raw' hs
      simp [AuthHistory.Successor] at hs
  | @step h e op _ _ _ ih =>
    obtain ⟨howned, hinherited⟩ := ih
    refine ⟨commit_owned howned op, ?_⟩
    obtain ⟨issued, heff⟩ : ∃ issued, TokenEffect h.db (h.db.commit P e op) issued := by
      rcases commit_effect (P := P) (e := e) h.db op with ⟨_, he⟩ | ⟨_, user, sid, _, _, he⟩
      · exact ⟨_, he⟩
      · exact ⟨_, he⟩
    intro raw raw' hs
    rcases List.mem_append.mp hs with hnew | hold
    · obtain ⟨rfl, pair, hreply, rfl⟩ := mem_rotation hnew
      have hok : (refresh P e.cfg e.now e.draw h.db raw).2 = .ok pair := by
        simp only [AuthDb.reply] at hreply
        cases hr : (refresh P e.cfg e.now e.draw h.db raw).2 with
        | error err => simp [hr, Except.toOption] at hreply
        | ok pair' => simp_all [Except.toOption]
      exact (refresh_owned howned raw).2 pair hok
    · exact hinherited.effect heff raw raw' hold

end JobRadar
