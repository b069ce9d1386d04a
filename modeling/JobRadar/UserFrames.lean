import JobRadar.AccountRuns
import JobRadar.SessionOwnership

namespace JobRadar

open Database Sequence

/-- All that is stored about the user is the same. -/
structure AuthDb.SameFor (userId : Uuid) (db db' : AuthDb) : Prop where
  user : db'.user userId = db.user userId
  tokens : db'.tokens.rows.filter (fun t => t.userId = userId) =
    db.tokens.rows.filter fun t => t.userId = userId
  sessions : db'.sessions.rows.filter (fun s => s.userId = userId) =
    db.sessions.rows.filter fun s => s.userId = userId
  codes : db'.codes.rows.filter (fun c => c.userId = userId) =
    db.codes.rows.filter fun c => c.userId = userId

/-- Tokens of one family are one token, and sessions belong to the users of their tokens. -/
structure AuthDb.Separated (db : AuthDb) : Prop where
  families : ∀ {a b ta tb}, db.refreshToken a = some ta → db.refreshToken b = some tb →
    ta.familyId = tb.familyId → a = b
  owned : db.SessionsOwned

def AuthDb.userOf (P : Primitives) (db : AuthDb) (email : String) : Option Uuid :=
  (db.userByEmail P (P.lower email)).map User.id

def AuthDb.ownerOf (P : Primitives) (db : AuthDb) (rawToken : String) : Option Uuid :=
  (db.refreshToken (P.hashRefreshToken rawToken)).map RefreshToken.userId

/-- The user a call acts for: the one it names, or whose address or token it presents. -/
def AuthDb.actsFor (P : Primitives) (db : AuthDb) : AccessOp → Option Uuid
  | .auth (.register draw _ _) => some draw.userId
  | .auth (.login email _ _) => db.userOf P email
  | .auth (.refresh rawToken) => db.ownerOf P rawToken
  | .auth (.logout rawToken) => db.ownerOf P rawToken
  | .auth (.revokeSession userId _) => some userId
  | .auth (.revokeOtherSessions userId _) => some userId
  | .auth (.issueCode _ email _) => db.userOf P email
  | .auth (.verifyEmail email _) => db.userOf P email
  | .auth (.resetPassword _ email _ _) => db.userOf P email
  | .authenticate email _ => db.userOf P email
  | .request _ => some localUser.id
  | .ensureUser userId => some userId

namespace AuthDb.SameFor

variable {v : Uuid} {db mid db' : AuthDb} {now : Time}

theorem refl (db : AuthDb) : SameFor v db db := ⟨rfl, rfl, rfl, rfl⟩

theorem trans (h : SameFor v db mid) (h' : SameFor v mid db') : SameFor v db db' :=
  ⟨h'.user.trans h.user, h'.tokens.trans h.tokens, h'.sessions.trans h.sessions,
    h'.codes.trans h.codes⟩

theorem revokeTokensWhere (p : RefreshToken → Prop) [DecidablePred p]
    (h : ∀ t ∈ db.tokens, p t → t.userId ≠ v) : SameFor v db (db.revokeTokensWhere p now) where
  user := rfl
  tokens := Table.filter_updateWhere (f := RefreshToken.revoke now) (fun _ => rfl)
    fun t ht hp => ⟨h t ht hp.1, h t ht hp.1⟩
  sessions := rfl
  codes := rfl

theorem revokeSessionsWhere (p : AuthSession → Prop) [DecidablePred p]
    (h : ∀ s ∈ db.sessions, p s → s.userId ≠ v) :
    SameFor v db (db.revokeSessionsWhere p now) where
  user := rfl
  tokens := rfl
  sessions := Table.filter_updateWhere (f := AuthSession.revoke now) (fun _ => rfl)
    fun s hs hp => ⟨h s hs hp, h s hs hp⟩
  codes := rfl

theorem updateUser (db : AuthDb) {id : Uuid} (hother : id ≠ v) (f : User → User)
    (hf : ∀ u, (f u).id = u.id) : SameFor v db (db.updateUser id f hf) := by
  refine ⟨?_, rfl, rfl, rfl⟩
  have hnew := db.users.find_updateWhere (fun u => u.id = id) f hf v
  change (db.users.updateWhere _ f hf).find v = db.users.find v
  rw [hnew]
  cases hfind : db.users.find v with
  | none => rfl
  | some user =>
    have hid : user.id = v := (Table.find_eq_some_iff.mp hfind).2
    have hne : ¬user.id = id := fun he => hother (he.symm.trans hid)
    rw [Option.map_some, if_neg hne]

theorem consumeCode {record : VerificationCode} (hmem : record ∈ db.codes)
    (hother : record.userId ≠ v) : SameFor v db (db.consumeCode record now) where
  user := rfl
  tokens := rfl
  sessions := rfl
  codes := by
    apply Table.filter_updateWhere (f := fun c : VerificationCode => { c with consumedAt := some now })
      (fun _ => rfl)
    intro c hc hid
    obtain rfl : c = record := Table.eq_of_key_eq hc hmem hid
    exact ⟨hother, hother⟩

theorem saveRefreshToken {token : RefreshToken} (hother : token.userId ≠ v)
    (h : db.saveRefreshToken token = .ok db') : SameFor v db db' := by
  unfold AuthDb.saveRefreshToken at h
  split at h
  next => cases h
  next hi =>
    cases h
    exact ⟨rfl, Table.filter_insert hi hother, rfl, rfl⟩

theorem saveVerificationCode {code : VerificationCode} (hother : code.userId ≠ v)
    (h : db.saveVerificationCode code = .ok db') : SameFor v db db' := by
  unfold AuthDb.saveVerificationCode at h
  split at h
  next => cases h
  next hi =>
    cases h
    exact ⟨rfl, rfl, rfl, Table.filter_insert hi hother⟩

theorem insertUser {users : Table User.id} {user : User} (hother : user.id ≠ v)
    (h : db.users.insert user = some users) : SameFor v db { db with users := users } := by
  refine ⟨?_, rfl, rfl, rfl⟩
  change users.find v = db.users.find v
  rw [Table.find_of_insert h, if_neg fun he => hother he.symm]

theorem openSession {cfg : Settings} {d : TokenDraw} {user : User}
    {sessionId sessionId' : Option Uuid} {metadata : SessionMetadata} (hother : user.id ≠ v)
    (h : openSession cfg d db user sessionId metadata = .ok (db', sessionId')) :
    SameFor v db db' := by
  unfold JobRadar.openSession AuthDb.saveAuthSession at h
  split at h
  next =>
    split at h
    next => cases h
    next hi =>
      cases h
      exact ⟨rfl, rfl, Table.filter_insert hi hother, rfl⟩
  next =>
    cases h
    exact .refl db

end AuthDb.SameFor

section Calls

variable {P : Primitives} {lib : TokenLibrary} {cfg : Settings} {d : TokenDraw} {now : Time}
  {db : AuthDb} {v : Uuid}

theorem userByEmail_ne {email : String} {user : User} (hother : db.userOf P email ≠ some v)
    (h : db.userByEmail P (P.lower email) = some user) : user.id ≠ v := by
  rintro rfl
  apply hother
  rw [AuthDb.userOf, h]
  rfl

theorem ownerOf_ne {raw : String} {token : RefreshToken} (hother : db.ownerOf P raw ≠ some v)
    (h : db.refreshToken (P.hashRefreshToken raw) = some token) : token.userId ≠ v := by
  rintro rfl
  apply hother
  rw [AuthDb.ownerOf, h]
  rfl

theorem authenticate_sameFor (email password : String) (hother : db.userOf P email ≠ some v) :
    db.SameFor v (authenticate P cfg now db email password).1 := by
  rcases authenticate_cases P cfg now db email password with
    ⟨err, h⟩ | ⟨row, hemail, h | ⟨_, _, h | h⟩⟩
  all_goals rw [h]
  · exact .refl db
  · exact .updateUser db (userByEmail_ne hother hemail) _ _
  · exact .updateUser db (userByEmail_ne hother hemail) _ _
  · exact .refl db

theorem authenticate_userOf {email password : String} {user : User}
    (h : (authenticate P cfg now db email password).2 = .ok user) :
    db.userOf P email = some user.id := by
  rcases authenticate_cases P cfg now db email password with
    ⟨err, hauth⟩ | ⟨row, hemail, hauth | ⟨_, _, hauth | hauth⟩⟩
  all_goals rw [hauth] at h
  all_goals cases h
  all_goals
    rw [AuthDb.userOf, hemail]
    rfl

theorem issued_sameFor {mid opened db' : AuthDb} {user : User} {sessionId sessionId' : Option Uuid}
    {metadata : SessionMetadata} (hne : user.id ≠ v)
    (ho : openSession cfg d mid user sessionId metadata = .ok (opened, sessionId'))
    (hs : opened.saveRefreshToken (newRefreshToken P cfg d user sessionId') = .ok db') :
    mid.SameFor v db' :=
  (AuthDb.SameFor.openSession hne ho).trans (.saveRefreshToken hne hs)

theorem login_sameFor (email password : String) (metadata : SessionMetadata)
    (hother : db.userOf P email ≠ some v) :
    db.SameFor v (login P cfg now d db email password metadata).1 := by
  have hauth : db.SameFor v (authenticate P cfg now db email password).1 :=
    authenticate_sameFor email password hother
  obtain ⟨mid, result, hresult, _, ⟨err, hl⟩ | ⟨user, db', pair, opened, sid, hok, hl, _, ho, hs⟩⟩ :=
    login_cases P cfg now d db email password metadata
  all_goals rw [hresult] at hauth
  · rw [hl]
    exact hauth
  · have huser : (authenticate P cfg now db email password).2 = .ok user := by
      rw [hresult, hok]
    have hne : user.id ≠ v := by
      rintro rfl
      exact hother (authenticate_userOf huser)
    rw [hl]
    exact hauth.trans (issued_sameFor hne ho hs)

/-- The family of a token is the token alone, so what is revoked with it is its owner's. -/
theorem revokeTokens_sameFor (h : db.Separated) {tokenHash : String} {token : RefreshToken}
    (hfind : db.refreshToken tokenHash = some token) (hne : token.userId ≠ v) :
    db.SameFor v (db.revokeTokens token.familyId now) := by
  apply AuthDb.SameFor.revokeTokensWhere
  intro t ht hfamily
  have hrow : db.refreshToken t.tokenHash = some t := Table.find_of_mem ht
  have hsame := h.families hrow hfind hfamily
  rw [hsame, hfind] at hrow
  cases hrow
  exact hne

theorem revokeAuthSession_sameFor (h : db.SessionsOwned) (sessionId : Uuid) {userId : Uuid}
    (hne : userId ≠ v) : db.SameFor v (db.revokeAuthSession sessionId userId now).1 := by
  unfold AuthDb.revokeAuthSession
  split
  next => exact .refl db
  next session hsession =>
    split
    next => exact .refl db
    next =>
      obtain ⟨hfind, hmine⟩ := Option.filter_eq_some_iff.mp hsession
      have huser : session.userId = userId := of_decide_eq_true hmine
      obtain ⟨hmem, hid⟩ := Table.find_eq_some_iff.mp hfind
      refine .trans (.revokeSessionsWhere _ ?_) (.revokeTokensWhere _ ?_)
      · intro s hs hsid
        obtain rfl : s = session := Table.eq_of_key_eq hs hmem (hsid.trans hid.symm)
        rw [huser]
        exact hne
      · intro t ht hsid
        obtain ⟨owner, howner, hsame, _⟩ := h t.tokenHash t (Table.find_of_mem ht) sessionId hsid
        rw [hfind] at howner
        cases howner
        rw [← hsame, huser]
        exact hne

theorem refresh_sameFor (h : db.Separated) (raw : String) (hother : db.ownerOf P raw ≠ some v) :
    db.SameFor v (refresh P cfg now d db raw).1 := by
  rcases refresh_cases P cfg now d db raw with
    ⟨_, hr⟩ | ⟨token, hf, ⟨_, hr⟩ | ⟨_, err, hr⟩ |
      ⟨_, user, db', pair, opened, sid, ha, hr, _, ho, hs⟩⟩
  · rw [hr]
    exact .refl db
  · rw [hr]
    exact revokeTokens_sameFor h hf (ownerOf_ne hother hf)
  · rw [hr]
    exact revokeTokens_sameFor h hf (ownerOf_ne hother hf)
  · have hne := ownerOf_ne hother hf
    have huser : user.id ≠ v := by
      rw [activeUser_id ha]
      exact hne
    rw [hr]
    exact (revokeTokens_sameFor h hf hne).trans (issued_sameFor huser ho hs)

theorem logout_sameFor (h : db.Separated) (raw : String) (hother : db.ownerOf P raw ≠ some v) :
    db.SameFor v (logout P cfg now db raw) := by
  unfold logout
  split
  next => exact .refl db
  next token hf =>
    have hne := ownerOf_ne hother hf
    have hfamily : db.SameFor v (db.revokeTokens token.familyId now) :=
      revokeTokens_sameFor h hf hne
    have howned := revokeTokens_owned h.owned token.familyId now
    dsimp only
    split
    next => exact hfamily.trans (revokeAuthSession_sameFor howned _ hne)
    next => exact hfamily

theorem revokeSession_sameFor (h : db.SessionsOwned) {userId : Uuid} (sessionId : Uuid)
    (hne : userId ≠ v) : db.SameFor v (revokeSession cfg now db userId sessionId).1 := by
  have hrevoke : db.SameFor v (db.revokeAuthSession sessionId userId now).1 :=
    revokeAuthSession_sameFor h sessionId hne
  unfold revokeSession
  split
  next =>
    split
    next hr =>
      rw [hr] at hrevoke
      exact hrevoke
    next hr =>
      rw [hr] at hrevoke
      exact hrevoke
  next => exact .refl db

theorem revokeOtherSessions_sameFor {userId : Uuid} (current : Option Uuid) (hne : userId ≠ v) :
    db.SameFor v (revokeOtherSessions cfg now db userId current).1 := by
  unfold revokeOtherSessions AuthDb.revokeOtherAuthSessions
  split
  next => exact .refl db
  next =>
    split
    next =>
      dsimp only
      split
      next => exact .refl db
      next =>
        refine .trans (.revokeSessionsWhere _ ?_) (.revokeTokensWhere _ ?_)
        · intro s hs hother
          obtain ⟨other, hmem, hid⟩ := List.mem_map.mp hother
          simp only [AuthDb.authSessions, List.mem_filter, decide_eq_true_eq] at hmem
          obtain ⟨⟨hrow, huser, _⟩, _⟩ := hmem
          obtain rfl : s = other := Table.eq_of_key_eq hs hrow hid.symm
          rw [huser]
          exact hne
        · rintro t _ ⟨huser, _⟩
          rw [huser]
          exact hne
    next => exact .refl db

theorem issueCode_sameFor (draw : CodeDraw) (email : String) (purpose : CodePurpose)
    (hother : db.userOf P email ≠ some v) :
    db.SameFor v (issueCode P cfg draw db email purpose).1 := by
  unfold issueCode
  dsimp only
  split
  next => exact .refl db
  next user hemail =>
    split
    next => exact .refl db
    next hs => exact .saveVerificationCode (userByEmail_ne hother hemail) hs

theorem presentedCode_ne {email code : String} {purpose : CodePurpose} {user : User}
    {record : VerificationCode} (hother : db.userOf P email ≠ some v)
    (h : presentedCode P now db email code purpose = some (user, record)) :
    user.id ≠ v ∧ record ∈ db.codes ∧ record.userId ≠ v := by
  unfold presentedCode at h
  split at h
  next => cases h
  next row hemail =>
    obtain ⟨record', hrecord, hpair⟩ := Option.map_eq_some_iff.mp h
    cases hpair
    have hne := userByEmail_ne hother hemail
    obtain ⟨hcode, _⟩ := Option.filter_eq_some_iff.mp hrecord
    unfold AuthDb.verificationCode at hcode
    have hmine := List.find?_some hcode
    simp only [decide_eq_true_eq] at hmine
    refine ⟨hne, List.mem_of_find?_eq_some hcode, ?_⟩
    rw [hmine.1]
    exact hne

theorem verifyEmail_sameFor (email code : String) (hother : db.userOf P email ≠ some v) :
    db.SameFor v (verifyEmail P cfg now db email code).1 := by
  rcases verifyEmail_cases P cfg now db email code with ⟨err, h⟩ | ⟨user, record, _, hcode, h⟩
  all_goals rw [h]
  · exact .refl db
  · obtain ⟨hne, hmem, hrecord⟩ := presentedCode_ne hother hcode
    exact .trans (.consumeCode hmem hrecord) (.updateUser _ hne _ _)

theorem resetPassword_sameFor (salt email code password : String)
    (hother : db.userOf P email ≠ some v) :
    db.SameFor v (resetPassword P cfg now salt db email code password).1 := by
  rcases resetPassword_cases P cfg now salt db email code password with
    ⟨err, h⟩ | ⟨user, record, hcode, h⟩
  all_goals rw [h]
  · exact .refl db
  · obtain ⟨hne, hmem, hrecord⟩ := presentedCode_ne hother hcode
    have hconsumed : db.SameFor v (db.consumeCode record now) := .consumeCode hmem hrecord
    refine hconsumed.trans (.trans (.updateUser _ hne (setPassword P salt password) fun _ => rfl) ?_)
    refine .trans (.revokeTokensWhere _ ?_) (.revokeSessionsWhere _ ?_)
    · intro t _ huser
      rw [huser]
      exact hne
    · rintro s _ ⟨huser, _⟩
      rw [huser]
      exact hne

theorem roleOrCreate_sameFor {db' : AuthDb} {roleId : Uuid} {name description : String}
    {role : Role} (h : roleOrCreate db roleId name description = .ok (db', role)) :
    db.SameFor v db' := by
  unfold roleOrCreate AuthDb.createRole at h
  split at h
  next => cases h; exact .refl db
  next =>
    dsimp only at h
    split at h
    next => cases h
    next => cases h; exact ⟨rfl, rfl, rfl, rfl⟩

theorem assignRole_sameFor (userId roleId : Uuid) : db.SameFor v (db.assignRole userId roleId) := by
  unfold AuthDb.assignRole
  split
  next => exact .refl db
  next => exact ⟨rfl, rfl, rfl, rfl⟩

theorem register_sameFor (draw : RegisterDraw) (email password : String) (hne : draw.userId ≠ v) :
    db.SameFor v (register P cfg draw db email password).1 := by
  unfold register
  dsimp only
  split
  next => exact .refl db
  next =>
    split
    next => exact .refl db
    next users hi =>
      have huser : db.SameFor v { db with users := users } := .insertUser hne hi
      split
      next => exact .refl db
      next db₁ role hr =>
        have hrole : db.SameFor v (db₁.assignRole draw.userId role.id) :=
          (huser.trans (roleOrCreate_sameFor hr)).trans (assignRole_sameFor _ _)
        split
        next =>
          split
          next => exact hrole
          next hr' => exact (hrole.trans (roleOrCreate_sameFor hr')).trans (assignRole_sameFor _ _)
        next => exact hrole

theorem openLocalUser_sameFor (hne : localUser.id ≠ v) : db.SameFor v db.openLocalUser.1 := by
  unfold AuthDb.openLocalUser
  split
  next => exact .refl db
  next =>
    split
    next => exact .refl db
    next =>
      split
      next => exact .refl db
      next hi => exact .insertUser hne hi

theorem ensureUser_sameFor {userId : Uuid} (hne : userId ≠ v) :
    db.SameFor v (db.ensureUser userId) := by
  unfold AuthDb.ensureUser
  split
  next => exact .refl db
  next =>
    split
    next => exact .refl db
    next hi => exact .insertUser hne hi

theorem account_sameFor (h : db.Separated) {call : AccessEnv × AccessOp}
    (hother : db.actsFor P call.2 ≠ some v) : db.SameFor v (db.account P lib call) := by
  obtain ⟨e, op⟩ := call
  have hnamed : ∀ {userId}, db.actsFor P op = some userId → userId ≠ v := by
    rintro userId hacts rfl
    exact hother hacts
  cases op with
  | auth op =>
    cases op with
    | register draw email password => exact register_sameFor draw email password (hnamed rfl)
    | login email password metadata => exact login_sameFor email password metadata hother
    | refresh raw => exact refresh_sameFor h raw hother
    | logout raw => exact logout_sameFor h raw hother
    | revokeSession userId sessionId =>
      exact revokeSession_sameFor h.owned sessionId (hnamed rfl)
    | revokeOtherSessions userId current => exact revokeOtherSessions_sameFor current (hnamed rfl)
    | issueCode draw email purpose => exact issueCode_sameFor draw email purpose hother
    | verifyEmail email code => exact verifyEmail_sameFor email code hother
    | resetPassword salt email code password =>
      exact resetPassword_sameFor salt email code password hother
  | authenticate email password => exact authenticate_sameFor email password hother
  | request authorization =>
    rcases getCurrentUser_eq lib e.settings e.now db authorization with he | he
    · simp only [AuthDb.account, he]
      exact .refl db
    · simp only [AuthDb.account, he]
      exact openLocalUser_sameFor (hnamed rfl)
  | ensureUser userId => exact ensureUser_sameFor (hnamed rfl)

theorem AuthDb.Separated.of_untouched {db' : AuthDb} (h : db.Separated) (hu : db.Untouched db') :
    db'.Separated where
  families := by
    intro a b ta tb ha hb
    rw [AuthDb.refreshToken, hu.tokens] at ha hb
    exact h.families ha hb
  owned := h.owned.of_eq hu.tokens hu.sessions

theorem account_separated (h : db.Separated) {call : AccessEnv × AccessOp}
    (fresh : FreshDraw P db call.1.draw) : (db.account P lib call).Separated := by
  obtain ⟨e, op⟩ := call
  cases op with
  | auth op =>
    refine ⟨?_, commit_owned h.owned op⟩
    intro a b ta tb ha hb hfamily
    obtain ⟨issued, heff, hissued⟩ := commit_issued (P := P) e.toAuthEnv db op
    refine families_of_effect heff ?_ h.families ha hb hfamily
    intro new hnew tokenHash token hfind
    rw [hissued new hnew]
    exact fresh.familyId tokenHash token hfind
  | authenticate email password =>
    exact h.of_untouched (authenticate_untouched P e.cfg e.now db email password)
  | request authorization =>
    exact h.of_untouched (getCurrentUser_untouched e.settings e.now authorization)
  | ensureUser userId => exact h.of_untouched (ensureUser_untouched db userId)

end Calls

theorem separated_empty : AuthDb.Separated {} := by
  refine ⟨?_, ?_⟩
  · intro a b ta tb ha
    rw [refreshToken_empty rfl] at ha
    cases ha
  · intro tokenHash token hfind
    rw [refreshToken_empty rfl] at hfind
    cases hfind

/-- In every state that calls with fresh identifiers lead to, a call leaves alone what is stored
about any user it does not act for. -/
theorem others_untouched {P : Primitives} {lib : TokenLibrary} {db : AuthDb}
    {calls : List (Call (AccessEnv × AccessOp) AuthDb)}
    (run : Run (AuthDb.account P lib) {} calls db)
    (fresh : ∀ c ∈ calls, FreshDraw P c.before c.call.1.draw) (call : AccessEnv × AccessOp)
    (v : Uuid) (hother : db.actsFor P call.2 ≠ some v) : db.SameFor v (db.account P lib call) := by
  have hseparated : db.Separated := by
    refine Run.invariant (I := AuthDb.Separated) separated_empty ?_ run fresh
    intro db call h hfresh
    exact account_separated h hfresh
  exact account_sameFor hseparated hother

def sessionsEnv (now : Time) (raw : String) : AccessEnv where
  cfg := { authSessionManagementEnabled := true }
  now := now
  draw := ⟨now, raw, now, now, now, now⟩

/-- Ann and Bob register, and Ann logs in. -/
def annAndBob : List (Call (AccessEnv × AccessOp) AuthDb) × AuthDb :=
  runAll (AuthDb.account .plain ⟨fun _ _ _ _ => none, fun _ => none⟩) [] {}
    [(sessionsEnv 1 "a", .auth (.register ⟨1, "salt", 1, 2⟩ "ann@example.com" "horse")),
      (sessionsEnv 2 "b", .auth (.register ⟨2, "salt", 3, 4⟩ "bob@example.com" "staple")),
      (sessionsEnv 3 "first", .auth (.login "ann@example.com" "horse" {}))]

/-- Bob names Ann's session in vain. -/
theorem bob_spares_ann : (∃ session, annAndBob.2.sessions.find 3 = some session) ∧
    annAndBob.2.SameFor 1 (annAndBob.2.account .plain ⟨fun _ _ _ _ => none, fun _ => none⟩
      (sessionsEnv 4 "c", .auth (.revokeSession 2 3))) := by
  have hrows : ∀ c ∈ annAndBob.1, (∀ t ∈ c.before.tokens.rows,
      t.tokenHash ≠ c.call.1.draw.refresh ∧ t.familyId ≠ c.call.1.draw.familyId) ∧
      ∀ s ∈ c.before.sessions.rows, s.id ≠ c.call.1.draw.sessionId := by
    decide
  refine ⟨⟨_, rfl⟩, others_untouched (run_runAll .start _) ?_ _ 1 (by decide)⟩
  intro c hc
  exact freshDraw_of_rows (hrows c hc).1 (hrows c hc).2

end JobRadar
