import JobRadar.AuthEffects
import JobRadar.Transaction

namespace JobRadar

open Database Transaction Work

/-- What a service call raises: an exception of its own, or one of the database. -/
inductive ServiceError
  | auth (error : AuthError)
  | database
  deriving DecidableEq

abbrev AuthWork (α : Type) := Work ServiceError AuthDb α

/-- What the surroundings make the database calls of a refresh raise. -/
structure RefreshFaults where
  refreshToken : Option ServiceError := none
  revokeTokens : Option ServiceError := none
  commitRevoked : Option ServiceError := none
  user : Option ServiceError := none
  roles : Option ServiceError := none
  saveAuthSession : Option ServiceError := none
  saveRefreshToken : Option ServiceError := none

section Calls

variable (P : Primitives) (cfg : Settings) (faults : RefreshFaults) (d : TokenDraw)

def openSessionWith (user : User) (sessionId : Option Uuid) (metadata : SessionMetadata) :
    AuthWork (Option Uuid) :=
  if cfg.authSessionManagementEnabled = true ∧ sessionId = none then
    perform faults.saveAuthSession fun db =>
      (openSession cfg d db user sessionId metadata).mapError .auth
  else pure sessionId

def saveRefreshTokenWith (token : RefreshToken) : AuthWork Unit :=
  save faults.saveRefreshToken fun db =>
    ((db.saveRefreshToken token).mapError .auth).map (·, ())

/-- `issue_tokens`, each database call of which may raise. -/
def issueTokensWith (user : User) (sessionId : Option Uuid) (metadata : SessionMetadata) :
    AuthWork TokenPair := do
  let roles ← query faults.roles (·.rolesOf user.id)
  let sessionId ← openSessionWith cfg faults d user sessionId metadata
  saveRefreshTokenWith faults (newRefreshToken P cfg d user sessionId)
  return ⟨createAccessToken cfg d user roles sessionId, d.refresh⟩

/-- The revocation of the family, which is committed at once. -/
def commitRevoked (now : Time) (familyId : Uuid) : AuthWork Unit := do
  perform faults.revokeTokens fun db => .ok (db.revokeTokens familyId now, ())
  commit faults.commitRevoked

/-- The part of `refresh` after the token it was given is revoked. -/
def reissueWith (token : RefreshToken) : AuthWork TokenPair := do
  let user ← query faults.user (·.activeUser token.userId)
  match user with
  | none => throw (.auth .invalidRefreshToken)
  | some user => issueTokensWith P cfg faults d user token.sessionId {}

/-- `refresh`, each database call of which may raise. -/
def refreshWith (now : Time) (rawToken : String) : AuthWork TokenPair := do
  let token ← query faults.refreshToken (·.refreshToken (P.hashRefreshToken rawToken))
  match token with
  | none => throw (.auth .invalidRefreshToken)
  | some token =>
    if token.usable now then do
      commitRevoked faults now token.familyId
      reissueWith P cfg faults d token
    else do
      commitRevoked faults now token.familyId
      throw (.auth token.refusal)

end Calls

/-- A call fails before the revocation is committed. -/
def RefreshFaults.BeforeRevocation (faults : RefreshFaults) : Prop :=
  faults.refreshToken ≠ none ∨ faults.revokeTokens ≠ none ∨ faults.commitRevoked ≠ none

/-- A call fails after the revocation is committed: a lookup, the insert of a session where one is
opened, or that of the new token. -/
def RefreshFaults.AfterRevocation (P : Primitives) (cfg : Settings) (faults : RefreshFaults)
    (d : TokenDraw) (db : AuthDb) (token : RefreshToken) : Prop :=
  faults.user ≠ none ∨ faults.roles ≠ none ∨
    ((cfg.authSessionManagementEnabled = true ∧ token.sessionId = none) ∧
      (faults.saveAuthSession ≠ none ∨ ∃ session ∈ db.sessions, session.id = d.sessionId)) ∨
    faults.saveRefreshToken ≠ none ∨ ∃ t ∈ db.tokens, t.tokenHash = P.hashRefreshToken d.refresh

/-- Where the refresh raises, the token it was given is still there, unrevoked. -/
def KeepsToken (P : Primitives) (rawToken : String)
    (outcome : AuthDb × Except ServiceError TokenPair) : Prop :=
  ∀ e, outcome.2 = .error e → ∃ token,
    outcome.1.refreshToken (P.hashRefreshToken rawToken) = some token ∧ token.revokedAt = none

section Refresh

variable {P : Primitives} {cfg : Settings} {faults : RefreshFaults} {d : TokenDraw} {db : AuthDb}
  {token : RefreshToken} {user : User} {now : Time} {rawToken : String}

theorem saveRefreshToken_error_iff {t : RefreshToken} :
    (∃ e, ((db.saveRefreshToken t).mapError ServiceError.auth).map (·, ()) = .error e) ↔
      ∃ old ∈ db.tokens, old.tokenHash = t.tokenHash := by
  rw [← Table.insert_eq_none_iff, AuthDb.saveRefreshToken]
  cases db.tokens.insert t <;> simp [Except.mapError, Except.map]

theorem openSession_error_iff {sessionId : Option Uuid} {metadata : SessionMetadata}
    (hopens : cfg.authSessionManagementEnabled = true ∧ sessionId = none) :
    (∃ e, (openSession cfg d db user sessionId metadata).mapError ServiceError.auth = .error e) ↔
      ∃ session ∈ db.sessions, session.id = d.sessionId := by
  rw [openSession, if_pos hopens, AuthDb.saveAuthSession]
  cases h : db.sessions.insert { id := d.sessionId, userId := user.id, metadata := metadata } with
  | none => exact iff_of_true ⟨_, rfl⟩ (Table.insert_eq_none_iff.mp h)
  | some sessions =>
    refine iff_of_false (by simp [Except.mapError, Except.map]) ?_
    intro htaken
    have hnone := (Table.insert_eq_none_iff (t := db.sessions)
      (r := { id := d.sessionId, userId := user.id, metadata := metadata })).mpr htaken
    rw [h] at hnone
    cases hnone

theorem raises_saveRefreshTokenWith {t : RefreshToken} {s : Session AuthDb} :
    (saveRefreshTokenWith faults t).Raises s ↔
      faults.saveRefreshToken ≠ none ∨ ∃ old ∈ s.pending.tokens, old.tokenHash = t.tokenHash := by
  rw [saveRefreshTokenWith, raises_save, saveRefreshToken_error_iff]

theorem raises_issueTokensWith {sessionId : Option Uuid} {metadata : SessionMetadata} :
    (issueTokensWith P cfg faults d user sessionId metadata).Raises ⟨db, db⟩ ↔
      faults.roles ≠ none ∨
        ((cfg.authSessionManagementEnabled = true ∧ sessionId = none) ∧
          (faults.saveAuthSession ≠ none ∨ ∃ session ∈ db.sessions, session.id = d.sessionId)) ∨
        faults.saveRefreshToken ≠ none ∨
          ∃ t ∈ db.tokens, t.tokenHash = P.hashRefreshToken d.refresh := by
  rw [issueTokensWith, raises_query_bind, openSessionWith]
  refine or_congr_right ?_
  split
  next hopens =>
    rw [raises_perform_bind, openSession_error_iff hopens, and_iff_right hopens, or_assoc]
    refine or_congr_right ?_
    by_cases htaken : ∃ session ∈ db.sessions, session.id = d.sessionId
    · exact iff_of_true (.inl htaken) (.inl htaken)
    · rw [or_iff_right htaken, or_iff_right htaken]
      cases hopen : openSession cfg d db user sessionId metadata with
      | error e =>
        have hraised : ∃ e, (openSession cfg d db user sessionId metadata).mapError
            ServiceError.auth = .error e := ⟨.auth e, by rw [hopen]; rfl⟩
        exact absurd ((openSession_error_iff hopens).mp hraised) htaken
      | ok r =>
        have htokens := openSession_tokens hopen
        have hopened : (Except.ok r : Except AuthError _).mapError ServiceError.auth = .ok r := rfl
        simp only [hopened, Except.ok.injEq, exists_eq_left', raises_bind_pure,
          raises_saveRefreshTokenWith, htokens]
        rfl
  next hopens =>
    rw [pure_bind, raises_bind_pure, raises_saveRefreshTokenWith]
    exact (or_iff_right fun h => hopens h.1).symm

theorem raises_reissueWith (P : Primitives) (cfg : Settings) (faults : RefreshFaults)
    (d : TokenDraw) (hactive : db.activeUser token.userId = some user) :
    (reissueWith P cfg faults d token).Raises ⟨db, db⟩ ↔
      faults.AfterRevocation P cfg d db token := by
  rw [reissueWith, raises_query_bind]
  simp only [hactive, raises_issueTokensWith]
  rfl

theorem issueTokensWith_atomic {sessionId : Option Uuid} {metadata : SessionMetadata} :
    Atomic (issueTokensWith P cfg faults d user sessionId metadata) := by
  refine (Quiet.query _ _).bind_atomic fun roles => ?_
  refine Quiet.bind_atomic ?_ fun sessionId => (Atomic.save _ _).bind_pure _
  unfold openSessionWith
  split
  next => exact Quiet.perform _ _
  next => exact Quiet.pure _

theorem reissueWith_atomic : Atomic (reissueWith P cfg faults d token) := by
  refine (Quiet.query _ _).bind_atomic fun user => ?_
  cases user with
  | none => exact (Quiet.throw _).atomic
  | some user => exact issueTokensWith_atomic

theorem commitRevoked_atomic {familyId : Uuid} : Atomic (commitRevoked faults now familyId) :=
  (Quiet.perform _ _).bind_atomic fun _ => Atomic.commit _

theorem raises_commitRevoked (faults : RefreshFaults) (now : Time) (familyId : Uuid)
    (s : Session AuthDb) :
    (commitRevoked faults now familyId).Raises s ↔
      faults.revokeTokens ≠ none ∨ faults.commitRevoked ≠ none := by
  rw [commitRevoked, raises_perform_bind]
  simp [raises_commit]

theorem refreshWith_usable (hlookup : faults.refreshToken = none)
    (hfind : db.refreshToken (P.hashRefreshToken rawToken) = some token)
    (husable : token.usable now) :
    (refreshWith P cfg faults d now rawToken).outcome db =
      (commitRevoked faults now token.familyId >>= fun _ =>
        reissueWith P cfg faults d token).outcome db := by
  rw [refreshWith, hlookup, outcome, exec_bind_ok (exec_query _ _)]
  simp only [hfind, husable, if_true]
  rfl

theorem commitRevoked_ok (faults : RefreshFaults) (db : AuthDb) (now : Time) (familyId : Uuid)
    (hrevoke : faults.revokeTokens = none) (hcommit : faults.commitRevoked = none) :
    (commitRevoked faults now familyId).exec ⟨db, db⟩ =
      (.ok (), ⟨db.revokeTokens familyId now, db.revokeTokens familyId now⟩) := by
  rw [commitRevoked, hrevoke, hcommit]
  rfl

theorem afterRevocation_revokeTokens {familyId : Uuid} :
    faults.AfterRevocation P cfg d (db.revokeTokens familyId now) token ↔
      faults.AfterRevocation P cfg d db token := by
  have htaken : ∀ h, (∃ t ∈ (db.revokeTokens familyId now).tokens, t.tokenHash = h) ↔
      ∃ t ∈ db.tokens, t.tokenHash = h := by
    intro h
    have hfind := AuthDb.refreshToken_revokeTokensWhere db (fun t => t.familyId = familyId) now h
    have hnone : (db.revokeTokens familyId now).tokens.find h = none ↔ db.tokens.find h = none := by
      rw [show (db.revokeTokens familyId now).tokens.find h = _ from hfind, Option.map_eq_none_iff]
      rfl
    rw [Table.find_eq_none_iff, Table.find_eq_none_iff] at hnone
    simpa only [not_forall, not_not, exists_prop] using not_congr hnone
  unfold RefreshFaults.AfterRevocation
  rw [htaken]
  rfl

theorem exec_saveRefreshToken {opened : AuthDb} {t : RefreshToken} (db : AuthDb) :
    (∀ saved, opened.saveRefreshToken t = .ok saved →
      (saveRefreshTokenWith {} t).exec ⟨db, opened⟩ = (.ok (), ⟨saved, saved⟩)) ∧
    ∀ e, opened.saveRefreshToken t = .error e →
      (saveRefreshTokenWith {} t).exec ⟨db, opened⟩ = (.error (.auth e), ⟨db, db⟩) := by
  refine ⟨fun saved hsaved => ?_, fun e herror => ?_⟩
  · exact exec_save_ok (by rw [hsaved]; rfl)
  · exact exec_save_error (by rw [herror]; rfl)

theorem exec_openSession {sessionId : Option Uuid} {metadata : SessionMetadata} :
    (∀ opened sid, openSession cfg d db user sessionId metadata = .ok (opened, sid) →
      (openSessionWith cfg {} d user sessionId metadata).exec ⟨db, db⟩ = (.ok sid, ⟨db, opened⟩)) ∧
    ∀ e, openSession cfg d db user sessionId metadata = .error e →
      (openSessionWith cfg {} d user sessionId metadata).exec ⟨db, db⟩ =
        (.error (.auth e), ⟨db, db⟩) := by
  unfold openSessionWith
  split
  next =>
    refine ⟨fun opened sid hopened => ?_, fun e herror => ?_⟩
    · exact exec_perform_ok (by rw [hopened]; rfl)
    · exact exec_perform_error (by rw [herror]; rfl)
  next hopens =>
    rw [openSession, if_neg hopens]
    refine ⟨fun opened sid hopened => ?_, fun e herror => ?_⟩
    · cases hopened
      rfl
    · cases herror

theorem issueTokensWith_sound {sessionId : Option Uuid} {metadata : SessionMetadata} :
    (issueTokensWith P cfg {} d user sessionId metadata).outcome db =
      ((issueTokens P cfg d db user sessionId metadata).1,
        (issueTokens P cfg d db user sessionId metadata).2.mapError .auth) := by
  rw [issueTokensWith, outcome, exec_bind_ok (exec_query _ _), issueTokens, storeTokens]
  cases hopen : openSession cfg d db user sessionId metadata with
  | error e =>
    rw [exec_bind_error (exec_openSession.2 e hopen)]
    rfl
  | ok r =>
    rw [exec_bind_ok (exec_openSession.1 r.1 r.2 hopen)]
    cases hsave : r.1.saveRefreshToken (newRefreshToken P cfg d user r.2) with
    | error e =>
      rw [exec_bind_error ((exec_saveRefreshToken db).2 e hsave)]
      simp only [hsave]
      rfl
    | ok saved =>
      rw [exec_bind_ok ((exec_saveRefreshToken db).1 saved hsave)]
      simp only [hsave]
      rfl

/-- Where no call is made to raise, this is the refresh. -/
theorem refreshWith_sound : (refreshWith P cfg {} d now rawToken).outcome db =
    ((refresh P cfg now d db rawToken).1, (refresh P cfg now d db rawToken).2.mapError .auth) := by
  rw [refresh, refreshWith, outcome, exec_bind_ok (exec_query _ _)]
  dsimp only
  cases hfind : db.refreshToken (P.hashRefreshToken rawToken) with
  | none => rfl
  | some token =>
    dsimp only
    have hrevoked := commitRevoked_ok {} db now token.familyId rfl rfl
    split
    next =>
      rw [exec_bind_ok hrevoked, reissueWith, exec_bind_ok (exec_query _ _)]
      dsimp only
      cases (db.revokeTokens token.familyId now).activeUser token.userId with
      | none => rfl
      | some user => exact issueTokensWith_sound
    next =>
      rw [exec_bind_ok hrevoked]
      rfl

theorem keepsToken_unchanged {result : Except ServiceError TokenPair}
    (hfind : db.refreshToken (P.hashRefreshToken rawToken) = some token)
    (husable : token.usable now) : KeepsToken P rawToken (db, result) :=
  fun _ _ => ⟨token, hfind, husable.1⟩

/-- A refresh that raises leaves its token alone exactly if it fails before the revocation is
committed. So it does in every case just if nothing can fail any more from then on. -/
theorem rotation_keeps_token_iff
    (hfind : db.refreshToken (P.hashRefreshToken rawToken) = some token)
    (husable : token.usable now) (hactive : db.activeUser token.userId = some user) :
    KeepsToken P rawToken ((refreshWith P cfg faults d now rawToken).outcome db) ↔
      faults.BeforeRevocation ∨ ¬faults.AfterRevocation P cfg d db token := by
  cases hlookup : faults.refreshToken with
  | some e =>
    have hraised : (refreshWith P cfg faults d now rawToken).outcome db = (db, .error e) := by
      rw [refreshWith, hlookup, outcome, exec_bind_error (exec_query_fault e _ _)]
    rw [hraised]
    refine iff_of_true (keepsToken_unchanged hfind husable) (.inl (.inl ?_))
    rw [hlookup]
    exact Option.some_ne_none e
  | none =>
    rw [refreshWith_usable hlookup hfind husable]
    by_cases hbefore : faults.revokeTokens ≠ none ∨ faults.commitRevoked ≠ none
    · obtain ⟨e, s', hexec⟩ :=
        (raises_commitRevoked faults now token.familyId ⟨db, db⟩).mpr hbefore
      have hkept := commitRevoked_atomic _ e s' hexec
      refine iff_of_true ?_ (.inl (.inr hbefore))
      rw [outcome, exec_bind_error hexec, hkept]
      exact keepsToken_unchanged hfind husable
    · rw [not_or, not_not, not_not] at hbefore
      have hrevoked := commitRevoked_ok faults db now token.familyId hbefore.1 hbefore.2
      have hactive' : (db.revokeTokens token.familyId now).activeUser token.userId = some user :=
        hactive
      have hraises := raises_reissueWith P cfg faults d hactive'
      rw [afterRevocation_revokeTokens, raises_iff] at hraises
      have hrest : (commitRevoked faults now token.familyId >>= fun _ =>
          reissueWith P cfg faults d token).outcome db =
          (reissueWith P cfg faults d token).outcome (db.revokeTokens token.familyId now) := by
        rw [outcome, exec_bind_ok hrevoked]
        rfl
      have hearly : ¬faults.BeforeRevocation := by
        rintro (h | h | h)
        · exact h hlookup
        · exact h hbefore.1
        · exact h hbefore.2
      rw [hrest, or_iff_right hearly, ← hraises]
      constructor
      · rintro hkeeps ⟨e, he⟩
        obtain ⟨live, hlive, hunrevoked⟩ := hkeeps e he
        obtain ⟨dead, hdead, hrevoked'⟩ := revokeTokens_kills hfind now
        rw [reissueWith_atomic.outcome he, hdead] at hlive
        cases hlive
        exact hrevoked' hunrevoked
      · intro hreturns e he
        exact absurd ⟨e, he⟩ hreturns

end Refresh

/-- The token that Ann holds, and the rotation of it. -/
def annFirst : RefreshToken := newRefreshToken .plain {} ⟨1, "first", 1, 1, 1, 1⟩ ann none

def annRotation (faults : RefreshFaults) : AuthDb × Except ServiceError TokenPair :=
  (refreshWith .plain {} faults ⟨2, "second", 2, 2, 2, 2⟩ 2 "first").outcome annLoggedIn.db

theorem annFirst_live :
    annLoggedIn.db.refreshToken "first" = some annFirst ∧ annFirst.usable 2 ∧
      annLoggedIn.db.activeUser annFirst.userId = some ann := by
  decide

/-- The insert of the new token fails, and the only token Ann has is revoked. -/
theorem annRotation_burns :
    annLoggedIn.db.refreshToken "first" = some annFirst ∧ annFirst.usable 2 ∧
    annLoggedIn.db.activeUser annFirst.userId = some ann ∧
    (annRotation { saveRefreshToken := some .database }).2 = .error .database ∧
    (annRotation { saveRefreshToken := some .database }).1.tokens.rows =
      [annFirst.revoke 2] ∧
    ¬KeepsToken .plain "first" (annRotation { saveRefreshToken := some .database }) := by
  obtain ⟨hfind, husable, hactive⟩ := annFirst_live
  have hraised : (annRotation { saveRefreshToken := some .database }).2 = .error .database := by
    decide
  have hrows : (annRotation { saveRefreshToken := some .database }).1.tokens.rows =
      [annFirst.revoke 2] := by
    decide
  refine ⟨hfind, husable, hactive, hraised, hrows, ?_⟩
  intro hkeeps
  obtain ⟨token, htoken, hlive⟩ := hkeeps _ hraised
  have hmem : token ∈ [annFirst.revoke 2] := hrows ▸ (Table.find_eq_some_iff.mp htoken).1
  rw [List.mem_singleton.mp hmem] at hlive
  cases hlive

/-- A failure of the first commit leaves Ann her token. -/
theorem annRotation_keeps :
    KeepsToken .plain "first" (annRotation { commitRevoked := some .database }) := by
  obtain ⟨hfind, husable, hactive⟩ := annFirst_live
  exact (rotation_keeps_token_iff hfind husable hactive).mpr (.inl (.inr (.inr nofun)))

end JobRadar
