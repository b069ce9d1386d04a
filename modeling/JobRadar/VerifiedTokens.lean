import JobRadar.AccountRuns
import JobRadar.RefreshReplay

namespace JobRadar

open Database Sequence

def AuthDb.Verified (db : AuthDb) (userId : Uuid) : Prop :=
  ∃ user, db.user userId = some user ∧ user.emailVerifiedAt ≠ none

def AuthDb.TokensVerified (db : AuthDb) : Prop :=
  ∀ tokenHash token, db.refreshToken tokenHash = some token → db.Verified token.userId

/-- No email that was verified is unverified again. -/
def AuthDb.KeepsVerified (db db' : AuthDb) : Prop :=
  ∀ userId, db.Verified userId → db'.Verified userId

namespace AuthDb.KeepsVerified

variable {db mid db' : AuthDb}

theorem of_users (h : db'.users = db.users) : KeepsVerified db db' := by
  rintro userId ⟨user, hfind, hset⟩
  refine ⟨user, ?_, hset⟩
  rw [AuthDb.user, h]
  exact hfind

/-- Rows are added, and those that were there stay as they were. -/
theorem of_rows (h : ∀ userId user, db.user userId = some user → db'.user userId = some user) :
    KeepsVerified db db' := by
  rintro userId ⟨user, hfind, hset⟩
  exact ⟨user, h userId user hfind, hset⟩

theorem trans (h : KeepsVerified db mid) (h' : KeepsVerified mid db') : KeepsVerified db db' :=
  fun userId hverified => h' userId (h userId hverified)

theorem updateUser (db : AuthDb) (id : Uuid) (f : User → User) (hf : ∀ u, (f u).id = u.id)
    (hkeep : ∀ u, u.emailVerifiedAt ≠ none → (f u).emailVerifiedAt ≠ none) :
    KeepsVerified db (db.updateUser id f hf) := by
  rintro userId ⟨user, hfind, hset⟩
  have hnew := db.users.find_updateWhere (fun u => u.id = id) f hf userId
  rw [show db.users.find userId = some user from hfind, Option.map_some] at hnew
  refine ⟨_, hnew, ?_⟩
  split
  next => exact hkeep user hset
  next => exact hset

end AuthDb.KeepsVerified

section Users

variable {P : Primitives} {lib : TokenLibrary} {cfg : Settings} {d : TokenDraw} {now : Time}
  {db : AuthDb}

theorem authenticate_keepsVerified (email password : String) :
    db.KeepsVerified (authenticate P cfg now db email password).1 := by
  rcases authenticate_cases P cfg now db email password with
    ⟨err, h⟩ | ⟨row, _, h | ⟨_, _, h | h⟩⟩
  all_goals rw [h]
  · exact .of_users rfl
  · exact .updateUser db _ _ _ fun _ h => h
  · exact .updateUser db _ _ _ fun _ h => h
  · exact .of_users rfl

theorem login_keepsVerified (email password : String) (metadata : SessionMetadata) :
    db.KeepsVerified (login P cfg now d db email password metadata).1 := by
  have hauth : db.KeepsVerified (authenticate P cfg now db email password).1 :=
    authenticate_keepsVerified email password
  rcases login_stores P cfg now d db email password metadata with
    ⟨mid, err, ha, hl⟩ | ⟨mid, user, ha, hl⟩
  all_goals rw [ha] at hauth
  all_goals rw [hl]
  · exact hauth
  · exact hauth.trans (.of_users (storeTokens_users _ _ _))

theorem verifyEmail_keepsVerified (email code : String) :
    db.KeepsVerified (verifyEmail P cfg now db email code).1 := by
  rcases verifyEmail_cases P cfg now db email code with ⟨err, h⟩ | ⟨user, record, _, _, h⟩
  all_goals rw [h]
  · exact .of_users rfl
  · refine .trans (.of_users rfl) (.updateUser (db.consumeCode record now) _ _ _ ?_)
    intro u _
    simp [markVerified]

theorem resetPassword_keepsVerified (salt email code password : String) :
    db.KeepsVerified (resetPassword P cfg now salt db email code password).1 := by
  rcases resetPassword_cases P cfg now salt db email code password with
    ⟨err, h⟩ | ⟨user, record, _, h⟩
  all_goals rw [h]
  · exact .of_users rfl
  · have hset : (db.consumeCode record now).KeepsVerified _ :=
      .updateUser _ user.id (setPassword P salt password) (fun _ => rfl) fun _ h => h
    exact .trans (.of_users rfl) (hset.trans (.of_users rfl))

theorem commit_keepsVerified (e : AuthEnv) (op : AuthOp) :
    db.KeepsVerified (db.commit P e op) := by
  cases op with
  | register draw email password => exact .of_rows fun _ _ h => register_user email password h
  | login email password metadata => exact login_keepsVerified email password metadata
  | refresh raw => exact .of_users (refresh_users raw)
  | logout raw => exact .of_users (logout_users raw)
  | revokeSession userId sessionId => exact .of_users (revokeSession_users sessionId)
  | revokeOtherSessions userId current => exact .of_users (revokeOtherSessions_users current)
  | issueCode draw email purpose => exact .of_users (issueCode_users draw email purpose)
  | verifyEmail email code => exact verifyEmail_keepsVerified email code
  | resetPassword salt email code password =>
    exact resetPassword_keepsVerified salt email code password

theorem account_keepsVerified (call : AccessEnv × AccessOp) :
    db.KeepsVerified (db.account P lib call) := by
  obtain ⟨e, op⟩ := call
  cases op with
  | auth op => exact commit_keepsVerified e.toAuthEnv op
  | authenticate email password => exact authenticate_keepsVerified email password
  | request authorization =>
    exact .of_rows fun _ _ h => getCurrentUser_user e.settings e.now authorization h
  | ensureUser userId => exact .of_rows fun _ _ h => ensureUser_user h userId

theorem authenticate_verified {email password : String} {user : User}
    (hon : cfg.authEmailVerificationEnabled = true)
    (h : (authenticate P cfg now db email password).2 = .ok user) : db.Verified user.id := by
  rcases authenticate_cases P cfg now db email password with
    ⟨err, hauth⟩ | ⟨row, hemail, hauth | ⟨_, hunverified, hauth | hauth⟩⟩
  all_goals rw [hauth] at h
  all_goals cases h
  all_goals
    have hrow := Table.find_of_mem (List.mem_of_find?_eq_some hemail)
    exact ⟨_, hrow, fun hnone => hunverified ⟨hon, hnone⟩⟩

theorem AuthDb.TokensVerified.entitled {e : AuthEnv} {userId : Uuid} (h : db.TokensVerified)
    (hon : e.cfg.authEmailVerificationEnabled = true) (hentitled : db.Entitled P e userId) :
    db.Verified userId := by
  rcases hentitled with ⟨email, password, user, hauth, rfl⟩ | ⟨tokenHash, token, hfind, rfl⟩
  · exact authenticate_verified hon hauth
  · exact h tokenHash token hfind

theorem AuthDb.TokensVerified.effect {db' : AuthDb} {issued : Option RefreshToken}
    (h : db.TokensVerified) (heff : TokenEffect db db' issued) (hkeep : db.KeepsVerified db')
    (hnew : ∀ new ∈ issued, db.Verified new.userId) : db'.TokensVerified := by
  intro tokenHash token hfind
  apply hkeep
  rcases heff.backward hfind with ⟨old, hold, hkept⟩ | ⟨hissued, _, _⟩
  · rw [hkept.userId_eq]
    exact h tokenHash old hold
  · exact hnew token hissued

/-- Whatever a call stores or returns is of a verified user, if all that was stored is. -/
theorem account_verified {call : AccessEnv × AccessOp} (h : db.TokensVerified)
    (hon : call.1.cfg.authEmailVerificationEnabled = true) :
    (db.account P lib call).TokensVerified ∧
      ∀ pair, db.granted P call = some pair → db.Verified pair.access.sub := by
  have hkeep : db.KeepsVerified (db.account P lib call) := account_keepsVerified call
  have hquiet : ∀ {db'}, db.Untouched db' → db.KeepsVerified db' → db'.TokensVerified := by
    intro db' huntouched hkeep
    exact h.effect (.of_onlyRevokes (.of_tokens_eq huntouched.tokens)) hkeep (by simp)
  obtain ⟨e, op⟩ := call
  cases op with
  | auth op =>
    rcases commit_grants e.toAuthEnv db op (P := P) with
      ⟨hreply, heff⟩ | ⟨pair, new, hreply, heff, hsub, hentitled⟩
    · refine ⟨h.effect heff hkeep (by simp), ?_⟩
      intro pair hpair
      rw [AuthDb.granted, hreply] at hpair
      cases hpair
    · have hverified := h.entitled hon hentitled
      refine ⟨h.effect heff hkeep ?_, ?_⟩
      · intro t ht
        cases ht
        exact hverified
      · intro pair' hpair
        rw [AuthDb.granted, hreply] at hpair
        cases hpair
        rw [← hsub]
        exact hverified
  | authenticate email password =>
    exact ⟨hquiet (authenticate_untouched P e.cfg e.now db email password) hkeep, by
      intro pair hpair; cases hpair⟩
  | request authorization =>
    exact ⟨hquiet (getCurrentUser_untouched e.settings e.now authorization) hkeep, by
      intro pair hpair; cases hpair⟩
  | ensureUser userId =>
    exact ⟨hquiet (ensureUser_untouched db userId) hkeep, by intro pair hpair; cases hpair⟩

end Users

/-- With verification on throughout, every token that is stored or was returned belongs to a user
whose email is verified. -/
theorem tokens_verified {P : Primitives} {lib : TokenLibrary} {db : AuthDb}
    {calls : List (Call (AccessEnv × AccessOp) AuthDb)}
    (run : Run (AuthDb.account P lib) {} calls db)
    (hon : ∀ c ∈ calls, c.call.1.cfg.authEmailVerificationEnabled = true) :
    (∀ tokenHash token, db.refreshToken tokenHash = some token → db.Verified token.userId) ∧
      ∀ c ∈ calls, ∀ pair, c.before.granted P c.call = some pair → db.Verified pair.access.sub := by
  change db.TokensVerified ∧ _
  induction run with
  | start =>
    refine ⟨?_, by simp⟩
    intro tokenHash token hfind
    rw [refreshToken_empty rfl] at hfind
    cases hfind
  | @next calls db call run ih =>
    obtain ⟨htokens, hgranted⟩ := ih fun c hc => hon c (List.mem_cons_of_mem _ hc)
    obtain ⟨htokens', hpair⟩ := account_verified htokens (hon _ (List.mem_cons_self ..))
    have hkeep : db.KeepsVerified (db.account P lib call) := account_keepsVerified call
    refine ⟨htokens', ?_⟩
    intro c hc pair hp
    apply hkeep
    rcases List.mem_cons.mp hc with rfl | hc
    · exact hpair pair hp
    · exact hgranted c hc pair hp

def verifyingEnv (now : Time) (raw : String) : AccessEnv where
  cfg := { authEmailVerificationEnabled := true }
  now := now
  draw := ⟨now, raw, now, now, now, now⟩

/-- A library that knows no token. -/
def TokenLibrary.blank : TokenLibrary := ⟨fun _ _ _ _ => none, fun _ => none⟩

/-- After an anonymous request Ann registers, verifies her address and logs in. -/
def annJoins : List (Call (AccessEnv × AccessOp) AuthDb) × AuthDb :=
  runAll (AuthDb.account .plain .blank) [] {}
    [(verifyingEnv 1 "a", .request none),
      (verifyingEnv 2 "b", .auth (.register ⟨2, "salt", 1, 2⟩ "ann@example.com" "horse")),
      (verifyingEnv 3 "c", .auth (.issueCode ⟨3, 3, "123456"⟩ "ann@example.com" .emailVerification)),
      (verifyingEnv 4 "d", .auth (.verifyEmail "ann@example.com" "123456")),
      (verifyingEnv 5 "first", .auth (.login "ann@example.com" "horse" {}))]

theorem annJoins_verified : (∃ token, annJoins.2.refreshToken "first" = some token) ∧
    ∀ tokenHash token, annJoins.2.refreshToken tokenHash = some token →
      annJoins.2.Verified token.userId :=
  ⟨⟨_, rfl⟩, (tokens_verified (run_runAll .start _) (by decide)).1⟩

end JobRadar
