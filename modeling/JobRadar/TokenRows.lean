import JobRadar.AuthService
import Mathlib.Data.Option.Basic

namespace JobRadar

open Database

/-- A stored refresh token changes only by being revoked, once. -/
def RefreshToken.Kept (old new : RefreshToken) : Prop :=
  new = old ∨ old.revokedAt = none ∧ ∃ now, new = old.revoke now

namespace RefreshToken.Kept

variable {old mid new : RefreshToken}

theorem refl (token : RefreshToken) : token.Kept token := Or.inl rfl

theorem trans (h : old.Kept mid) (h' : mid.Kept new) : old.Kept new := by
  rcases h with rfl | ⟨hlive, now, rfl⟩
  · exact h'
  · rcases h' with rfl | ⟨hdead, _⟩
    · exact Or.inr ⟨hlive, now, rfl⟩
    · simp at hdead

theorem live (h : old.Kept new) (hlive : new.revokedAt = none) : new = old := by
  rcases h with rfl | ⟨_, now, rfl⟩
  · rfl
  · simp at hlive

theorem revoked (h : old.Kept new) (hrev : old.revokedAt ≠ none) : new = old := by
  rcases h with rfl | ⟨hlive, _⟩
  · rfl
  · exact absurd hlive hrev

theorem familyId_eq (h : old.Kept new) : new.familyId = old.familyId := by
  rcases h with rfl | ⟨_, now, rfl⟩ <;> rfl

theorem userId_eq (h : old.Kept new) : new.userId = old.userId := by
  rcases h with rfl | ⟨_, now, rfl⟩ <;> rfl

theorem sessionId_eq (h : old.Kept new) : new.sessionId = old.sessionId := by
  rcases h with rfl | ⟨_, now, rfl⟩ <;> rfl

end RefreshToken.Kept

namespace AuthDb

theorem refreshToken_revokeTokensWhere (db : AuthDb) (p : RefreshToken → Prop) [DecidablePred p]
    (now : Time) (tokenHash : String) :
    (db.revokeTokensWhere p now).refreshToken tokenHash =
      (db.refreshToken tokenHash).map fun t =>
        if p t ∧ t.revokedAt = none then t.revoke now else t :=
  db.tokens.find_updateWhere _ (·.revoke now) (fun _ => rfl) tokenHash

theorem refreshToken_hash {db : AuthDb} {tokenHash : String} {token : RefreshToken}
    (h : db.refreshToken tokenHash = some token) : token.tokenHash = tokenHash :=
  (Table.find_eq_some_iff.mp h).2

/-- Between two states no token row appears, disappears or changes except by revocation. -/
def OnlyRevokes (db db' : AuthDb) : Prop :=
  ∀ tokenHash, (db.refreshToken tokenHash = none ∧ db'.refreshToken tokenHash = none) ∨
    ∃ old new, db.refreshToken tokenHash = some old ∧ db'.refreshToken tokenHash = some new ∧
      old.Kept new

namespace OnlyRevokes

variable {db mid db' : AuthDb} {tokenHash : String} {token : RefreshToken}

theorem of_tokens_eq (h : db'.tokens = db.tokens) : OnlyRevokes db db' := by
  intro tokenHash
  have he : db'.refreshToken tokenHash = db.refreshToken tokenHash := by
    simp only [refreshToken, h]
  cases hf : db.refreshToken tokenHash with
  | none => exact Or.inl ⟨rfl, he.trans hf⟩
  | some t => exact Or.inr ⟨t, t, rfl, he.trans hf, .refl t⟩

theorem refl (db : AuthDb) : OnlyRevokes db db := of_tokens_eq rfl

theorem trans (h : OnlyRevokes db mid) (h' : OnlyRevokes mid db') : OnlyRevokes db db' := by
  intro tokenHash
  rcases h tokenHash with ⟨h1, h2⟩ | ⟨old, m, h1, h2, hk⟩
  · rcases h' tokenHash with ⟨_, h3⟩ | ⟨m, _, h3, _⟩
    · exact Or.inl ⟨h1, h3⟩
    · simp [h2] at h3
  · rcases h' tokenHash with ⟨h3, _⟩ | ⟨m', new, h3, h4, hk'⟩
    · simp [h2] at h3
    · have he : m = m' := Option.some.inj (h2.symm.trans h3)
      subst m'
      exact Or.inr ⟨old, new, h1, h4, hk.trans hk'⟩

theorem forward (h : OnlyRevokes db db') (hf : db.refreshToken tokenHash = some token) :
    ∃ new, db'.refreshToken tokenHash = some new ∧ token.Kept new := by
  rcases h tokenHash with ⟨h1, _⟩ | ⟨old, new, h1, h2, hk⟩
  · simp [hf] at h1
  · have he : old = token := Option.some.inj (h1.symm.trans hf)
    subst old
    exact ⟨new, h2, hk⟩

theorem backward (h : OnlyRevokes db db') (hf : db'.refreshToken tokenHash = some token) :
    ∃ old, db.refreshToken tokenHash = some old ∧ old.Kept token := by
  rcases h tokenHash with ⟨_, h2⟩ | ⟨old, new, h1, h2, hk⟩
  · simp [hf] at h2
  · have he : new = token := Option.some.inj (h2.symm.trans hf)
    subst new
    exact ⟨old, h1, hk⟩

theorem none_iff (h : OnlyRevokes db db') :
    db'.refreshToken tokenHash = none ↔ db.refreshToken tokenHash = none := by
  rcases h tokenHash with ⟨h1, h2⟩ | ⟨old, new, h1, h2, _⟩ <;> simp [h1, h2]

end OnlyRevokes

theorem onlyRevokes_revokeTokensWhere (db : AuthDb) (p : RefreshToken → Prop) [DecidablePred p]
    (now : Time) : OnlyRevokes db (db.revokeTokensWhere p now) := by
  intro tokenHash
  have hm := db.refreshToken_revokeTokensWhere p now tokenHash
  cases hf : db.refreshToken tokenHash with
  | none => exact Or.inl ⟨rfl, by simp [hm, hf]⟩
  | some t =>
    refine Or.inr ⟨t, _, rfl, by rw [hm, hf]; rfl, ?_⟩
    by_cases hp : p t ∧ t.revokedAt = none
    · exact Or.inr ⟨hp.2, now, by simp [hp]⟩
    · exact Or.inl (by simp [hp])

theorem onlyRevokes_revokeAuthSession (db : AuthDb) (sessionId userId : Uuid) (now : Time) :
    OnlyRevokes db (db.revokeAuthSession sessionId userId now).1 := by
  unfold revokeAuthSession
  split
  next => exact .refl db
  next =>
    split
    next => exact .refl db
    next =>
      exact OnlyRevokes.trans (.of_tokens_eq rfl : OnlyRevokes db (db.revokeSessionsWhere _ now))
        (onlyRevokes_revokeTokensWhere _ _ now)

theorem onlyRevokes_revokeOtherAuthSessions (db : AuthDb) (userId current : Uuid) (now : Time) :
    OnlyRevokes db (db.revokeOtherAuthSessions userId current now).1 := by
  simp only [revokeOtherAuthSessions]
  split
  next => exact .refl db
  next =>
    exact OnlyRevokes.trans (.of_tokens_eq rfl : OnlyRevokes db (db.revokeSessionsWhere _ now))
      (onlyRevokes_revokeTokensWhere _ _ now)

theorem onlyRevokes_revokeUserTokens (db : AuthDb) (userId : Uuid) (now : Time) :
    OnlyRevokes db (db.revokeUserTokens userId now) :=
  (onlyRevokes_revokeTokensWhere db _ now).trans (.of_tokens_eq rfl)

theorem saveRefreshToken_tokens {db db' : AuthDb} {token : RefreshToken}
    (h : db.saveRefreshToken token = .ok db') : db' = { db with tokens := db'.tokens } := by
  unfold saveRefreshToken at h
  split at h
  next => cases h
  next => cases h; rfl

/-- A saved refresh token had a hash no other row has, and is the only new row. -/
theorem refreshToken_saveRefreshToken {db db' : AuthDb} {token : RefreshToken}
    (h : db.saveRefreshToken token = .ok db') :
    db.refreshToken token.tokenHash = none ∧
      ∀ tokenHash, db'.refreshToken tokenHash =
        if tokenHash = token.tokenHash then some token else db.refreshToken tokenHash := by
  unfold saveRefreshToken at h
  split at h
  next => simp at h
  next tokens hi =>
    cases h
    refine ⟨Table.find_eq_none_iff.mpr fun r hr => Table.key_ne_of_insert hi hr, ?_⟩
    intro tokenHash
    exact Table.find_of_insert hi tokenHash

end AuthDb

/-- What any call does to the refresh tokens: it revokes some, and stores `issued` if it
returns a new one. -/
def TokenEffect (db db' : AuthDb) (issued : Option RefreshToken) : Prop :=
  ∃ mid, db.OnlyRevokes mid ∧
    match issued with
    | none => db'.tokens = mid.tokens
    | some token => token.revokedAt = none ∧ mid.refreshToken token.tokenHash = none ∧
        ∀ tokenHash, db'.refreshToken tokenHash =
          if tokenHash = token.tokenHash then some token else mid.refreshToken tokenHash

theorem TokenEffect.of_onlyRevokes {db db' : AuthDb} (h : db.OnlyRevokes db') :
    TokenEffect db db' none :=
  ⟨db', h, rfl⟩

theorem TokenEffect.onlyRevokes {db db' : AuthDb} (h : TokenEffect db db' none) :
    db.OnlyRevokes db' := by
  obtain ⟨mid, hmid, htokens⟩ := h
  exact hmid.trans (.of_tokens_eq htokens)

theorem TokenEffect.after {db mid db' : AuthDb} {issued : Option RefreshToken}
    (h : db.OnlyRevokes mid) (h' : TokenEffect mid db' issued) : TokenEffect db db' issued := by
  obtain ⟨m, hm, hi⟩ := h'
  exact ⟨m, h.trans hm, hi⟩

theorem TokenEffect.forward {db db' : AuthDb} {issued : Option RefreshToken} {tokenHash : String}
    {token : RefreshToken} (h : TokenEffect db db' issued)
    (hf : db.refreshToken tokenHash = some token) :
    ∃ new, db'.refreshToken tokenHash = some new ∧ token.Kept new := by
  cases issued with
  | none => exact h.onlyRevokes.forward hf
  | some t =>
    obtain ⟨mid, hmid, _, hnone, hlook⟩ := h
    obtain ⟨new, hn, hk⟩ := hmid.forward hf
    have hne : tokenHash ≠ t.tokenHash := by
      rintro rfl
      simp [hnone] at hn
    exact ⟨new, by rw [hlook, if_neg hne, hn], hk⟩

theorem TokenEffect.backward {db db' : AuthDb} {issued : Option RefreshToken} {tokenHash : String}
    {token : RefreshToken} (h : TokenEffect db db' issued)
    (hf : db'.refreshToken tokenHash = some token) :
    (∃ old, db.refreshToken tokenHash = some old ∧ old.Kept token) ∨
      issued = some token ∧ token.tokenHash = tokenHash ∧ db.refreshToken tokenHash = none := by
  cases issued with
  | none => exact Or.inl (h.onlyRevokes.backward hf)
  | some t =>
    obtain ⟨mid, hmid, _, hnone, hlook⟩ := h
    rw [hlook] at hf
    split at hf
    next he =>
      cases Option.some.inj hf
      exact Or.inr ⟨rfl, he.symm, hmid.none_iff.mp (he ▸ hnone)⟩
    next => exact Or.inl (hmid.backward hf)

end JobRadar
