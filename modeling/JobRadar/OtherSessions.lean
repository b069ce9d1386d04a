import JobRadar.SessionRevocation

namespace JobRadar

open Database Sequence

/-- The user's live refresh tokens all belong to the session. -/
def AuthDb.OnlySessionLive (db : AuthDb) (userId current : Uuid) : Prop :=
  ∀ tokenHash token, db.refreshToken tokenHash = some token → token.userId = userId →
    token.revokedAt = none → token.sessionId = some current

/-- The user's live refresh tokens all belong to some session. -/
def AuthDb.LiveInSessions (db : AuthDb) (userId : Uuid) : Prop :=
  ∀ tokenHash token, db.refreshToken tokenHash = some token → token.userId = userId →
    token.revokedAt = none → token.sessionId ≠ none

section Revoke

variable {P : Primitives} {cfg : Settings} {now : Time} {db : AuthDb} {userId current : Uuid}

theorem mem_others {tokenHash : String} {token : RefreshToken} {s : Uuid}
    (howned : db.SessionsOwned) (htoken : db.refreshToken tokenHash = some token)
    (huser : token.userId = userId) (hlive : token.revokedAt = none)
    (hsession : token.sessionId = some s) (hother : s ≠ current) :
    ∃ session, session ∈ (db.authSessions userId).filter fun s => s.id ≠ current := by
  obtain ⟨session, hfind, howner, hactive⟩ := howned _ token htoken s hsession
  obtain ⟨hmem, hid⟩ := Table.find_eq_some_iff.mp hfind
  refine ⟨session, ?_⟩
  simp only [AuthDb.authSessions, List.mem_filter, decide_eq_true_eq]
  exact ⟨⟨hmem, howner.trans huser, hactive hlive⟩, by rwa [hid]⟩

theorem live_not_other {tokenHash : String} {token : RefreshToken} {session : AuthSession}
    {others : List AuthSession}
    (hothers : others = (db.authSessions userId).filter fun s => s.id ≠ current)
    (hsession : session ∈ others)
    (hafter : (db.revokeOtherAuthSessions userId current now).1.refreshToken tokenHash = some token)
    (huser : token.userId = userId) (hlive : token.revokedAt = none) :
    ¬AuthDb.OtherSession current token.sessionId := by
  have hsome : others.length ≠ 0 := by
    have hpos := List.length_pos_of_mem hsession
    omega
  simp only [AuthDb.revokeOtherAuthSessions, ← hothers, hsome, if_false] at hafter
  rw [AuthDb.refreshToken_revokeTokensWhere] at hafter
  obtain ⟨old, _, hnew⟩ := Option.map_eq_some_iff.mp hafter
  intro hother
  split at hnew
  next =>
    rw [← hnew] at hlive
    simp at hlive
  next hspared =>
    rw [hnew] at hspared
    exact hspared ⟨⟨huser, hother⟩, hlive⟩

theorem sessionless_spared {tokenHash : String} {token : RefreshToken}
    (htoken : db.refreshToken tokenHash = some token) (hnone : token.sessionId = none) :
    (db.revokeOtherAuthSessions userId current now).1.refreshToken tokenHash = some token := by
  simp only [AuthDb.revokeOtherAuthSessions]
  split
  next => exact htoken
  next =>
    rw [AuthDb.refreshToken_revokeTokensWhere]
    change (db.refreshToken tokenHash).map _ = _
    rw [htoken, Option.map_some, if_neg]
    rintro ⟨⟨_, s, hs, _⟩, _⟩
    rw [hnone] at hs
    cases hs

theorem revokeOtherSessions_ok {count : Nat}
    (h : (revokeOtherSessions cfg now db userId (some current)).2 = .ok count) :
    (revokeOtherSessions cfg now db userId (some current)).1 =
      (db.revokeOtherAuthSessions userId current now).1 := by
  unfold revokeOtherSessions at h ⊢
  dsimp only at h ⊢
  split at h
  next hmanaged => rw [if_pos hmanaged]
  next => cases h

theorem onlySessionLive_iff (howned : db.SessionsOwned) :
    (db.revokeOtherAuthSessions userId current now).1.OnlySessionLive userId current ↔
      db.LiveInSessions userId := by
  constructor
  · intro honly tokenHash token htoken huser hlive hnone
    have hcurrent := honly tokenHash token (sessionless_spared htoken hnone) huser hlive
    rw [hnone] at hcurrent
    cases hcurrent
  · intro hinside tokenHash token hafter huser hlive
    obtain ⟨old, hold, hkept⟩ :=
      (db.onlyRevokes_revokeOtherAuthSessions userId current now).backward hafter
    obtain rfl : token = old := hkept.live hlive
    obtain ⟨s, hs⟩ := Option.ne_none_iff_exists'.mp (hinside tokenHash token hold huser hlive)
    by_cases hcurrent : s = current
    · rw [hs, hcurrent]
    · obtain ⟨session, hsession⟩ := mem_others howned hold huser hlive hs hcurrent
      exact absurd ⟨s, hs, hcurrent⟩ (live_not_other rfl hsession hafter huser hlive)

end Revoke

section Run

variable {P : Primitives} {db₀ db : AuthDb} {calls : List (Call (AuthEnv × AuthOp) AuthDb)}

/-- After a call that revoked the other sessions, the user's live tokens all belong to the current
one exactly when before it no live token of the user was without a session. -/
theorem revokeOtherSessions_iff (htokens : db₀.tokens = .empty)
    (run : Run (AuthDb.call P) db₀ calls db) {cfg : Settings} {now : Time}
    {userId current : Uuid} {count : Nat}
    (hok : (revokeOtherSessions cfg now db userId (some current)).2 = .ok count) :
    (revokeOtherSessions cfg now db userId (some current)).1.OnlySessionLive userId current ↔
      db.LiveInSessions userId := by
  rw [revokeOtherSessions_ok hok]
  exact onlySessionLive_iff (sessionsOwned_run htokens run)

end Run

/-- Ann logs in before sessions are managed, and again from a second device afterwards. -/
def annOnTwoDevices : List (Call (AuthEnv × AuthOp) AuthDb) × AuthDb :=
  runAll (AuthDb.call .plain) [] annDb
    [(callAt 1 "first" {}, .login "ann@example.com" "correct horse" {}),
      (callAt 2 "second" managed, .login "ann@example.com" "correct horse" {})]

/-- The token of the first device stays usable, and rotates into a session of its own. -/
theorem first_device_stays :
    Run (AuthDb.call .plain) annDb annOnTwoDevices.1 annOnTwoDevices.2 ∧
    (revokeOtherSessions managed 3 annOnTwoDevices.2 1 (some 2)).2 = .ok 0 ∧
    ¬(revokeOtherSessions managed 3 annOnTwoDevices.2 1 (some 2)).1.OnlySessionLive 1 2 ∧
    ∃ pair, (refresh .plain managed 4 ⟨4, "fourth", 4, 4, 4, 4⟩
      (revokeOtherSessions managed 3 annOnTwoDevices.2 1 (some 2)).1 "first").2 = .ok pair := by
  refine ⟨run_runAll .start _, rfl, ?_, ⟨_, rfl⟩⟩
  intro honly
  have hsession := honly "first" _ rfl rfl rfl
  cases hsession

/-- With sessions managed from the start the other device is cut off. -/
def annManaged : List (Call (AuthEnv × AuthOp) AuthDb) × AuthDb :=
  runAll (AuthDb.call .plain) [] annDb
    [(callAt 1 "first" managed, .login "ann@example.com" "correct horse" {}),
      (callAt 2 "second" managed, .login "ann@example.com" "correct horse" {})]

theorem annManaged_cut_off :
    (revokeOtherSessions managed 3 annManaged.2 1 (some 2)).1.OnlySessionLive 1 2 := by
  have hok : (revokeOtherSessions managed 3 annManaged.2 1 (some 2)).2 = .ok 1 := rfl
  refine (revokeOtherSessions_iff rfl (run_runAll .start _) hok).mpr ?_
  intro tokenHash token htoken _ _
  have hrows : ∀ t ∈ annManaged.2.tokens.rows, t.sessionId ≠ none := by decide
  exact hrows token (Table.find_eq_some_iff.mp htoken).1

end JobRadar
