import JobRadar.RefreshThreads
import JobRadar.SessionOwnership

namespace JobRadar

open Database Interleave

/-- The WHERE clauses of the statements that revoke tokens. -/
inductive TokenClause
  | session (sessionId : Uuid)
  | others (userId current : Uuid)
  | user (userId : Uuid)
  | family (familyId : Uuid)

def TokenClause.holds : TokenClause → RefreshToken → Prop
  | .session s, t => t.sessionId = some s
  | .others userId current, t => t.userId = userId ∧ AuthDb.OtherSession current t.sessionId
  | .user userId, t => t.userId = userId
  | .family familyId, t => t.familyId = familyId

instance : (clause : TokenClause) → DecidablePred clause.holds
  | .session s => fun t => inferInstanceAs (Decidable (t.sessionId = some s))
  | .others userId current => fun t =>
    inferInstanceAs (Decidable (t.userId = userId ∧ AuthDb.OtherSession current t.sessionId))
  | .user userId => fun t => inferInstanceAs (Decidable (t.userId = userId))
  | .family familyId => fun t => inferInstanceAs (Decidable (t.familyId = familyId))

inductive RevocationRequest
  | session (userId sessionId : Uuid)
  | others (userId : Uuid) (current : Option Uuid)
  | logout (rawToken : String)
  | reset (salt email code password : String)

structure PasswordReset where
  user : User
  record : VerificationCode
  salt : String
  password : String

/-- What an open transaction will commit: the sessions it marked or matched, and the tokens
its statements matched (a logout has two of them). -/
structure RevocationWrites where
  reset : Option PasswordReset := none
  sessions : List Uuid := []
  family : List String := []
  tokens : List String := []
  now : Time

def RevocationWrites.commit (P : Primitives) (w : RevocationWrites) (db : AuthDb) : AuthDb :=
  let db := match w.reset with
    | none => db
    | some r => (db.consumeCode r.record w.now).updateUser r.user.id
        (setPassword P r.salt r.password) fun _ => rfl
  ((db.revokeSessionsWhere (fun s => s.id ∈ w.sessions) w.now).commitRevocation w.family
    w.now).commitRevocation w.tokens w.now

/-- Where a revoking call stands between two statements. -/
inductive RevokePhase
  | start
  | marked (sessions : List Uuid) (clause : TokenClause) (family : List String) (now : Time)
  | tokenRead (token : RefreshToken)
  | familyUpdated (token : RefreshToken) (sessionId : Uuid) (hashes : List String) (now : Time)
  | userRead (user : User)
  | codeRead (user : User) (record : VerificationCode) (now : Time)
  | tokensUpdated (user : User) (record : VerificationCode) (hashes : List String) (now : Time)
  | updated (writes : RevocationWrites)
  | done
  | raised (error : AuthError)

/-- A revoking call, with a record of the state its first statement read. -/
structure RevokeThread where
  cfg : Settings
  request : RevocationRequest
  phase : RevokePhase := .start
  seen : Option AuthHistory := none

def RevokeThread.at (t : RevokeThread) (phase : RevokePhase) : RevokeThread :=
  { t with phase := phase }

@[simp] theorem RevokeThread.at_phase (t : RevokeThread) (phase : RevokePhase) :
    (t.at phase).phase = phase := rfl

@[simp] theorem RevokeThread.at_request (t : RevokeThread) (phase : RevokePhase) :
    (t.at phase).request = t.request := rfl

@[simp] theorem RevokeThread.at_cfg (t : RevokeThread) (phase : RevokePhase) :
    (t.at phase).cfg = t.cfg := rfl

@[simp] theorem RevokeThread.at_seen (t : RevokeThread) (phase : RevokePhase) :
    (t.at phase).seen = t.seen := rfl

@[simp] theorem RevokeThread.at_at (t : RevokeThread) (phase phase' : RevokePhase) :
    (t.at phase).at phase' = t.at phase' := rfl

/-- The active sessions of the user other than the current one. -/
def AuthDb.otherSessions (db : AuthDb) (userId current : Uuid) : List AuthSession :=
  (db.authSessions userId).filter fun s => s.id ≠ current

def AuthDb.activeSession (db : AuthDb) (sessionId userId : Uuid) : Option AuthSession :=
  (db.authSession sessionId userId).filter fun s => s.revokedAt = none

/-- The first statement of a revoking call. -/
def RevocationRequest.start (P : Primitives) (cfg : Settings) (now : Time) (db : AuthDb) :
    RevocationRequest → RevokePhase
  | .session userId sessionId =>
    if cfg.authSessionManagementEnabled = true then
      match db.activeSession sessionId userId with
      | none => .raised .sessionNotFound
      | some _ => .marked [sessionId] (.session sessionId) [] now
    else .raised .sessionManagementDisabled
  | .others _ none => .raised .currentSessionUnavailable
  | .others userId (some current) =>
    if cfg.authSessionManagementEnabled = true then
      if (db.otherSessions userId current).length = 0 then .done
      else .marked ((db.otherSessions userId current).map AuthSession.id) (.others userId current)
        [] now
    else .raised .sessionManagementDisabled
  | .logout rawToken =>
    match db.refreshToken (P.hashRefreshToken rawToken) with
    | none => .done
    | some token => .tokenRead token
  | .reset _ email _ _ =>
    if cfg.authPasswordResetEnabled = true then
      match db.userByEmail P (P.lower email) with
      | none => .raised .invalidVerificationCode
      | some user => .userRead user
    else .raised .featureNotAvailable

/-- The live reset code the request presents for the user. -/
def RevocationRequest.record (P : Primitives) (now : Time) (db : AuthDb) (user : User) :
    RevocationRequest → Option VerificationCode
  | .reset _ _ code _ =>
    (db.verificationCode user.id .passwordReset (P.hashRefreshToken code)).filter
      fun record => now < record.expiresAt
  | _ => none

def RevocationRequest.passwordReset (user : User) (record : VerificationCode) :
    RevocationRequest → Option PasswordReset
  | .reset salt _ _ password => some ⟨user, record, salt, password⟩
  | _ => none

/-- The revoking operations statement by statement. A statement sees what its own
transaction has written. -/
def revokeStep (P : Primitives) : Atomic Time AuthHistory RevokeThread := fun now h t =>
  match t.phase with
  | .start => some (h, { t with phase := t.request.start P t.cfg now h.db, seen := some h })
  | .marked sessions clause family now =>
    some (h, t.at (.updated
      { sessions := sessions
        family := family
        tokens := (h.db.commitRevocation family now).matching clause.holds
        now := now }))
  | .tokenRead token =>
    let hashes := h.db.matching fun r => r.familyId = token.familyId
    match t.cfg.authSessionManagementEnabled, token.sessionId with
    | true, some s => some (h, t.at (.familyUpdated token s hashes now))
    | _, _ => some (h, t.at (.updated { family := hashes, now := now }))
  | .familyUpdated token s hashes now =>
    match h.db.activeSession s token.userId with
    | none => some (h, t.at (.updated { family := hashes, now := now }))
    | some _ => some (h, t.at (.marked [s] (.session s) hashes now))
  | .userRead user =>
    match t.request.record P now h.db user with
    | none => some (h, t.at (.raised .invalidVerificationCode))
    | some record => some (h, t.at (.codeRead user record now))
  | .codeRead user record now =>
    some (h, t.at (.tokensUpdated user record (h.db.matching fun r => r.userId = user.id) now))
  | .tokensUpdated user record hashes now =>
    some (h, t.at (.updated
      { reset := t.request.passwordReset user record
        sessions := (h.db.authSessions user.id).map AuthSession.id
        tokens := hashes
        now := now }))
  | .updated writes => some ({ h with db := writes.commit P h.db }, t.at .done)
  | .done => none
  | .raised _ => none

def RevocationRequest.op : RevocationRequest → AuthOp
  | .session userId sessionId => .revokeSession userId sessionId
  | .others userId current => .revokeOtherSessions userId current
  | .logout rawToken => .logout rawToken
  | .reset salt email code password => .resetPassword salt email code password

def RevokePhase.ended {α : Type} : Except AuthError α → RevokePhase
  | .ok _ => .done
  | .error error => .raised error

/-- How that call ends when nothing interrupts it. -/
def RevocationRequest.ending (P : Primitives) (cfg : Settings) (now : Time) (db : AuthDb) :
    RevocationRequest → RevokePhase
  | .session userId sessionId => .ended (revokeSession cfg now db userId sessionId).2
  | .others userId current => .ended (revokeOtherSessions cfg now db userId current).2
  | .logout _ => .done
  | .reset salt email code password =>
    .ended (resetPassword P cfg now salt db email code password).2

theorem commitRevocation_nil (db : AuthDb) (now : Time) : db.commitRevocation [] now = db := by
  have htable : db.tokens.updateWhere (fun t => t.tokenHash ∈ ([] : List String) ∧
      t.revokedAt = none) (·.revoke now) (fun _ => rfl) = db.tokens := by
    apply Table.updateWhere_eq_self
    simp
  simp only [AuthDb.commitRevocation, AuthDb.revokeTokensWhere, htable]

theorem revokeSessionsWhere_congr (db : AuthDb) {p q : AuthSession → Prop} [DecidablePred p]
    [DecidablePred q] (h : ∀ s ∈ db.sessions, p s ↔ q s) (now : Time) :
    db.revokeSessionsWhere p now = db.revokeSessionsWhere q now := by
  have htable : db.sessions.updateWhere p (·.revoke now) (fun _ => rfl) =
      db.sessions.updateWhere q (·.revoke now) (fun _ => rfl) := Table.updateWhere_congr h
  simp only [AuthDb.revokeSessionsWhere, htable]

theorem revokeSessionsWhere_nil (db : AuthDb) (now : Time) :
    db.revokeSessionsWhere (fun s => s.id ∈ ([] : List Uuid)) now = db := by
  have htable : db.sessions.updateWhere (fun s => s.id ∈ ([] : List Uuid)) (·.revoke now)
      (fun _ => rfl) = db.sessions := by
    apply Table.updateWhere_eq_self
    simp
  simp only [AuthDb.revokeSessionsWhere, htable]

theorem commit_marked (P : Primitives) (db : AuthDb) (sessions : List Uuid) (clause : TokenClause)
    (family : List String) (now : Time) :
    RevocationWrites.commit P
      { sessions := sessions
        family := family
        tokens := (db.commitRevocation family now).matching clause.holds
        now := now } db =
    ((db.commitRevocation family now).revokeSessionsWhere (fun s => s.id ∈ sessions)
      now).revokeTokensWhere clause.holds now :=
  commitRevocation_matching ((db.revokeSessionsWhere _ now).commitRevocation family now) _ now

theorem commit_family (P : Primitives) (db : AuthDb) (hashes : List String) (now : Time) :
    RevocationWrites.commit P { family := hashes, now := now } db =
      db.commitRevocation hashes now := by
  simp only [RevocationWrites.commit, revokeSessionsWhere_nil, commitRevocation_nil]

theorem mem_map_authSessions (db : AuthDb) (userId : Uuid) {session : AuthSession}
    (hs : session ∈ db.sessions) : session.id ∈ (db.authSessions userId).map AuthSession.id ↔
      session.userId = userId ∧ session.revokedAt = none := by
  simp only [List.mem_map, AuthDb.authSessions, List.mem_filter, decide_eq_true_eq]
  constructor
  · rintro ⟨other, ⟨ho, hactive⟩, hid⟩
    rwa [Table.eq_of_key_eq ho hs hid] at hactive
  · intro hactive
    exact ⟨session, ⟨hs, hactive⟩, rfl⟩

theorem commit_reset (P : Primitives) (db : AuthDb) (r : PasswordReset) (now : Time) :
    RevocationWrites.commit P
      { reset := some r
        sessions := (db.authSessions r.user.id).map AuthSession.id
        tokens := db.matching fun t => t.userId = r.user.id
        now := now } db =
    ((db.consumeCode r.record now).updateUser r.user.id (setPassword P r.salt r.password)
      fun _ => rfl).revokeUserTokens r.user.id now := by
  have hsessions := revokeSessionsWhere_congr ((db.consumeCode r.record now).updateUser r.user.id
    (setPassword P r.salt r.password) fun _ => rfl)
    (fun _ hs => mem_map_authSessions db r.user.id hs) now
  simp only [RevocationWrites.commit, commitRevocation_nil, hsessions]
  exact commitRevocation_matching (AuthDb.revokeSessionsWhere _ _ now) _ now

section Alone

variable {P : Primitives} {now : Time} {draw : TokenDraw} {h : AuthHistory} {t : RevokeThread}

/-- A call that marked sessions goes on to its UPDATE and its commit. -/
theorem marked_alone (P : Primitives) (h : AuthHistory) (t : RevokeThread) (sessions : List Uuid)
    (clause : TokenClause) (family : List String) (now : Time) :
    Solo (revokeStep P) (h, t.at (.marked sessions clause family now))
      ({ h with db := ((h.db.commitRevocation family now).revokeSessionsWhere
          (fun s => s.id ∈ sessions) now).revokeTokensWhere clause.holds now }, t.at .done) := by
  rw [← commit_marked P]
  exact .head ⟨now, rfl⟩ (.single ⟨now, rfl⟩)

theorem activeSession_eq_none {db : AuthDb} {s userId : Uuid}
    (ha : db.activeSession s userId = none) : db.revokeAuthSession s userId now = (db, false) := by
  unfold AuthDb.revokeAuthSession
  cases hs : db.authSession s userId with
  | none => rfl
  | some session =>
    have hdead : session.revokedAt ≠ none := by simpa [AuthDb.activeSession, hs] using ha
    simp [hdead]

theorem activeSession_eq_some {db : AuthDb} {s userId : Uuid} {session : AuthSession}
    (ha : db.activeSession s userId = some session) :
    db.revokeAuthSession s userId now = ((db.revokeSessionsWhere (fun r => r.id ∈ [s])
      now).revokeTokensWhere (TokenClause.session s).holds now, true) := by
  obtain ⟨hs, hlive⟩ := Option.filter_eq_some_iff.mp ha
  have hlive' : session.revokedAt = none := by simpa using hlive
  have hsame := revokeSessionsWhere_congr db (p := fun r => r.id = s) (q := fun r => r.id ∈ [s])
    (fun r _ => by simp) now
  simp only [AuthDb.revokeAuthSession, hs, hlive', ne_eq, not_true_eq_false, if_false, hsame]
  rfl

theorem session_alone {userId s : Uuid} (hreq : t.request = .session userId s) :
    Solo (revokeStep P) (h, t.at (t.request.start P t.cfg now h.db))
      (h.step P ⟨t.cfg, now, draw⟩ t.request.op, t.at (t.request.ending P t.cfg now h.db)) := by
  rw [hreq]
  simp only [RevocationRequest.start, RevocationRequest.op, RevocationRequest.ending,
    AuthHistory.step, AuthDb.commit, AuthDb.rotation, revokeSession, List.nil_append]
  by_cases hen : t.cfg.authSessionManagementEnabled = true
  · cases ha : h.db.activeSession s userId with
    | none =>
      simp only [hen, if_true, activeSession_eq_none ha]
      exact .refl
    | some session =>
      simp only [hen, if_true, activeSession_eq_some ha]
      have hmarked := marked_alone P h t [s] (.session s) [] now
      rwa [commitRevocation_nil] at hmarked
  · simp only [hen]
    exact .refl

theorem others_alone {userId : Uuid} {current : Option Uuid}
    (hreq : t.request = .others userId current) :
    Solo (revokeStep P) (h, t.at (t.request.start P t.cfg now h.db))
      (h.step P ⟨t.cfg, now, draw⟩ t.request.op, t.at (t.request.ending P t.cfg now h.db)) := by
  rw [hreq]
  cases current with
  | none => exact .refl
  | some current =>
    simp only [RevocationRequest.start, RevocationRequest.op, RevocationRequest.ending,
      AuthHistory.step, AuthDb.commit, AuthDb.rotation, revokeOtherSessions, List.nil_append]
    by_cases hen : t.cfg.authSessionManagementEnabled = true
    · by_cases hnone : (h.db.otherSessions userId current).length = 0
      · have hnone' := hnone
        unfold AuthDb.otherSessions at hnone'
        simp only [hen, if_true, hnone, AuthDb.revokeOtherAuthSessions, hnone']
        exact .refl
      · have hsome := hnone
        unfold AuthDb.otherSessions at hsome
        have hmarked := marked_alone P h t ((h.db.otherSessions userId current).map AuthSession.id)
          (.others userId current) [] now
        rw [commitRevocation_nil] at hmarked
        simp only [hen, if_true, hnone, if_false, AuthDb.revokeOtherAuthSessions, hsome]
        exact hmarked
    · simp only [hen]
      exact .refl

theorem logout_alone {raw : String} (hreq : t.request = .logout raw) :
    Solo (revokeStep P) (h, t.at (t.request.start P t.cfg now h.db))
      (h.step P ⟨t.cfg, now, draw⟩ t.request.op, t.at (t.request.ending P t.cfg now h.db)) := by
  rw [hreq]
  simp only [RevocationRequest.start, RevocationRequest.op, RevocationRequest.ending,
    AuthHistory.step, AuthDb.commit, AuthDb.rotation, logout, List.nil_append]
  cases hf : h.db.refreshToken (P.hashRefreshToken raw) with
  | none => exact .refl
  | some token =>
    have hcommit : h.db.commitRevocation (h.db.matching fun r => r.familyId = token.familyId) now =
        h.db.revokeTokens token.familyId now := commitRevocation_matching h.db _ now
    have hfamily : revokeStep P now h (t.at (.updated
        { family := h.db.matching fun r => r.familyId = token.familyId, now := now })) =
        some ({ h with db := h.db.revokeTokens token.familyId now }, t.at .done) := by
      simp [revokeStep, commit_family, hcommit]
    by_cases hsession : t.cfg.authSessionManagementEnabled = true ∧ token.sessionId ≠ none
    · obtain ⟨hen, hsome⟩ := hsession
      obtain ⟨s, hs⟩ := Option.ne_none_iff_exists'.mp hsome
      have hupdate : revokeStep P now h (t.at (.tokenRead token)) = some (h, t.at (.familyUpdated
          token s (h.db.matching fun r => r.familyId = token.familyId) now)) := by
        simp [revokeStep, hen, hs]
      refine .head ⟨now, hupdate⟩ ?_
      cases ha : h.db.activeSession s token.userId with
      | none =>
        have ha' : (h.db.revokeTokens token.familyId now).activeSession s token.userId = none := ha
        have hselect : revokeStep P now h (t.at (.familyUpdated token s
            (h.db.matching fun r => r.familyId = token.familyId) now)) = some (h, t.at (.updated
            { family := h.db.matching fun r => r.familyId = token.familyId, now := now })) := by
          simp [revokeStep, ha]
        refine .head ⟨now, hselect⟩ (.single ⟨now, ?_⟩)
        simpa [hen, hs, activeSession_eq_none ha'] using hfamily
      | some session =>
        have ha' : (h.db.revokeTokens token.familyId now).activeSession s token.userId =
            some session := ha
        have hselect : revokeStep P now h (t.at (.familyUpdated token s
            (h.db.matching fun r => r.familyId = token.familyId) now)) = some (h, t.at (.marked [s]
            (.session s) (h.db.matching fun r => r.familyId = token.familyId) now)) := by
          simp [revokeStep, ha]
        have hmarked := marked_alone P h t [s] (.session s)
          (h.db.matching fun r => r.familyId = token.familyId) now
        rw [hcommit] at hmarked
        refine .head ⟨now, hselect⟩ ?_
        simp only [hen, hs, activeSession_eq_some ha']
        exact hmarked
    · have hupdate : revokeStep P now h (t.at (.tokenRead token)) = some (h, t.at (.updated
          { family := h.db.matching fun r => r.familyId = token.familyId, now := now })) := by
        cases hen : t.cfg.authSessionManagementEnabled <;>
          cases hs : token.sessionId <;> simp_all [revokeStep]
      refine .head ⟨now, hupdate⟩ (.single ⟨now, ?_⟩)
      cases hen : t.cfg.authSessionManagementEnabled <;>
        cases hs : token.sessionId <;> simp_all

theorem reset_alone {salt email code password : String}
    (hreq : t.request = .reset salt email code password) :
    Solo (revokeStep P) (h, t.at (t.request.start P t.cfg now h.db))
      (h.step P ⟨t.cfg, now, draw⟩ t.request.op, t.at (t.request.ending P t.cfg now h.db)) := by
  rw [hreq]
  simp only [RevocationRequest.start, RevocationRequest.op, RevocationRequest.ending,
    AuthHistory.step, AuthDb.commit, AuthDb.rotation, resetPassword, presentedCode,
    List.nil_append]
  by_cases hen : t.cfg.authPasswordResetEnabled = true
  · cases hu : h.db.userByEmail P (P.lower email) with
    | none =>
      simp only [hen, if_true]
      exact .refl
    | some user =>
      simp only [hen, if_true]
      cases hr : t.request.record P now h.db user with
      | none =>
        have hselect : revokeStep P now h (t.at (.userRead user)) =
            some (h, t.at (.raised .invalidVerificationCode)) := by
          simp [revokeStep, hr]
        refine .single ⟨now, ?_⟩
        rw [hreq] at hr
        simp only [RevocationRequest.record] at hr
        simp only [hr, Option.map_none]
        exact hselect
      | some record =>
        have hselect : revokeStep P now h (t.at (.userRead user)) =
            some (h, t.at (.codeRead user record now)) := by
          simp [revokeStep, hr]
        refine .head ⟨now, hselect⟩ (.head ⟨now, rfl⟩ (.head ⟨now, rfl⟩ (.single ⟨now, ?_⟩)))
        rw [hreq] at hr
        simp only [RevocationRequest.record] at hr
        simp only [hr, Option.map_some]
        rw [← commit_reset P h.db ⟨user, record, salt, password⟩ now]
        simp [revokeStep, hreq, RevocationRequest.passwordReset, RevokePhase.ended]
  · simp only [hen]
    exact .refl

end Alone

/-- Without interruption the statements amount to the call as one step. -/
theorem revocation_alone (P : Primitives) (now : Time) (draw : TokenDraw) (h : AuthHistory)
    (t : RevokeThread) (hstart : t.phase = .start) :
    Solo (revokeStep P) (h, t) (h.step P ⟨t.cfg, now, draw⟩ t.request.op,
      { t with phase := t.request.ending P t.cfg now h.db, seen := some h }) := by
  have hfirst : revokeStep P now h t =
      some (h, { t with phase := t.request.start P t.cfg now h.db, seen := some h }) := by
    simp [revokeStep, hstart]
  have hrest : ∀ u : RevokeThread, Solo (revokeStep P)
      (h, u.at (u.request.start P u.cfg now h.db))
      (h.step P ⟨u.cfg, now, draw⟩ u.request.op, u.at (u.request.ending P u.cfg now h.db)) := by
    intro u
    cases hreq : u.request with
    | session userId s => rw [← hreq]; exact session_alone hreq
    | others userId current => rw [← hreq]; exact others_alone hreq
    | logout raw => rw [← hreq]; exact logout_alone hreq
    | reset salt email code password => rw [← hreq]; exact reset_alone hreq
  exact .head ⟨now, hfirst⟩ (hrest { t with seen := some h })

end JobRadar
