import JobRadar.AuthEffects
import JobRadar.Interleave

namespace JobRadar

open Database Interleave

/-- The rows an `UPDATE … WHERE p AND revoked_at IS NULL` matches when it is executed. -/
def AuthDb.matching (db : AuthDb) (p : RefreshToken → Prop) [DecidablePred p] : List String :=
  (db.tokens.rows.filter fun t => p t ∧ t.revokedAt = none).map RefreshToken.tokenHash

/-- The commit of that statement. A row revoked in the meantime no longer meets the WHERE
clause and is passed over. -/
def AuthDb.commitRevocation (db : AuthDb) (hashes : List String) (now : Time) : AuthDb :=
  db.revokeTokensWhere (fun t => t.tokenHash ∈ hashes) now

/-- Where a refresh call stands between two statements. -/
inductive RefreshPhase
  | start
  | rejecting (token : RefreshToken) (now : Time)
  | rejected (hashes : List String) (now : Time) (refusal : AuthError)
  | accepted (token : RefreshToken) (now : Time)
  | updated (token : RefreshToken) (hashes : List String) (now : Time)
  | rotated (token : RefreshToken)
  | identified (token : RefreshToken) (user : User)
  | authorized (token : RefreshToken) (user : User) (roles : List String)
  | returned (pair : TokenPair)
  | raised (error : AuthError)
  deriving DecidableEq

def RefreshPhase.ended : Except AuthError TokenPair → RefreshPhase
  | .ok pair => .returned pair
  | .error error => .raised error

structure RefreshThread where
  cfg : Settings
  raw : String
  draw : TokenDraw
  phase : RefreshPhase := .start

def RefreshThread.at (t : RefreshThread) (phase : RefreshPhase) : RefreshThread :=
  { t with phase := phase }

@[simp] theorem RefreshThread.at_phase (t : RefreshThread) (phase : RefreshPhase) :
    (t.at phase).phase = phase := rfl

@[simp] theorem RefreshThread.at_raw (t : RefreshThread) (phase : RefreshPhase) :
    (t.at phase).raw = t.raw := rfl

@[simp] theorem RefreshThread.at_cfg (t : RefreshThread) (phase : RefreshPhase) :
    (t.at phase).cfg = t.cfg := rfl

@[simp] theorem RefreshThread.at_draw (t : RefreshThread) (phase : RefreshPhase) :
    (t.at phase).draw = t.draw := rfl

@[simp] theorem RefreshThread.at_at (t : RefreshThread) (phase phase' : RefreshPhase) :
    (t.at phase).at phase' = t.at phase' := rfl

/-- `refresh` statement by statement, each reading the state committed by then. -/
def refreshStep (P : Primitives) : Atomic Time AuthHistory RefreshThread := fun now h t =>
  match t.phase with
  | .start =>
    match h.db.refreshToken (P.hashRefreshToken t.raw) with
    | none => some (h, t.at (.raised .invalidRefreshToken))
    | some token =>
      if token.usable now then some (h, t.at (.accepted token now))
      else some (h, t.at (.rejecting token now))
  | .rejecting token now =>
    some (h,
      t.at (.rejected (h.db.matching fun r => r.familyId = token.familyId) now token.refusal))
  | .rejected hashes now refusal =>
    some ({ h with db := h.db.commitRevocation hashes now }, t.at (.raised refusal))
  | .accepted token now =>
    some (h, t.at (.updated token (h.db.matching fun r => r.familyId = token.familyId) now))
  | .updated token hashes now =>
    some ({ h with db := h.db.commitRevocation hashes now }, t.at (.rotated token))
  | .rotated token =>
    match h.db.activeUser token.userId with
    | none => some (h, t.at (.raised .invalidRefreshToken))
    | some user => some (h, t.at (.identified token user))
  | .identified token user => some (h, t.at (.authorized token user (h.db.rolesOf user.id)))
  | .authorized token user roles =>
    match storeTokens P t.cfg t.draw h.db user roles token.sessionId {} with
    | (_, .error e) => some (h, t.at (.raised e))
    | (db, .ok pair) =>
      some ({ db := db, rotations := (t.raw, pair.refresh) :: h.rotations }, t.at (.returned pair))
  | .returned _ => none
  | .raised _ => none

section Steps

variable {P : Primitives} {now : Time} {h h' : AuthHistory} {t t' : RefreshThread}

theorem mem_matching {db : AuthDb} {p : RefreshToken → Prop} [DecidablePred p]
    {tokenHash : String} {row : RefreshToken} (hf : db.refreshToken tokenHash = some row) :
    tokenHash ∈ db.matching p ↔ p row ∧ row.revokedAt = none := by
  obtain ⟨hm, rfl⟩ := Table.find_eq_some_iff.mp hf
  simp only [AuthDb.matching, List.mem_map, List.mem_filter, decide_eq_true_eq]
  constructor
  · rintro ⟨other, ⟨ho, hp⟩, he⟩
    rwa [Table.eq_of_key_eq ho hm he] at hp
  · intro hp
    exact ⟨row, ⟨hm, hp⟩, rfl⟩

theorem refreshToken_commitRevocation (db : AuthDb) (hashes : List String) (now : Time)
    (tokenHash : String) : (db.commitRevocation hashes now).refreshToken tokenHash =
      (db.refreshToken tokenHash).map fun t =>
        if t.tokenHash ∈ hashes ∧ t.revokedAt = none then t.revoke now else t :=
  db.refreshToken_revokeTokensWhere _ now tokenHash

theorem commitRevocation_kills {db : AuthDb} {hashes : List String} {tokenHash : String}
    {row : RefreshToken} (hf : db.refreshToken tokenHash = some row)
    (hmatch : row.revokedAt = none → tokenHash ∈ hashes) (now : Time) :
    ∃ new, (db.commitRevocation hashes now).refreshToken tokenHash = some new ∧
      new.revokedAt ≠ none := by
  refine ⟨_, by rw [refreshToken_commitRevocation, hf]; rfl, ?_⟩
  by_cases hr : row.revokedAt = none
  · have hmem : row.tokenHash ∈ hashes := by
      rw [AuthDb.refreshToken_hash hf]
      exact hmatch hr
    simp [hr, hmem]
  · simp [hr]

theorem commitRevocation_matching (db : AuthDb) (p : RefreshToken → Prop) [DecidablePred p]
    (now : Time) : db.commitRevocation (db.matching p) now = db.revokeTokensWhere p now := by
  have htable : db.tokens.updateWhere (fun t => t.tokenHash ∈ db.matching p ∧ t.revokedAt = none)
      (·.revoke now) (fun _ => rfl) = db.tokens.updateWhere (fun t => p t ∧ t.revokedAt = none)
      (·.revoke now) (fun _ => rfl) := by
    apply Table.updateWhere_congr
    intro t ht
    have hmem := mem_matching (p := p) (Table.find_of_mem ht : db.refreshToken _ = some t)
    by_cases hlive : t.revokedAt = none <;> simp [hmem, hlive]
  simp only [AuthDb.commitRevocation, AuthDb.revokeTokensWhere, htable]

/-- Without interruption the statements amount to the call as one step. -/
theorem refresh_alone (P : Primitives) (now : Time) (h : AuthHistory) (t : RefreshThread)
    (hstart : t.phase = .start) :
    Solo (refreshStep P) (h, t)
      (h.step P ⟨t.cfg, now, t.draw⟩ (.refresh t.raw),
        t.at (.ended (refresh P t.cfg now t.draw h.db t.raw).2)) := by
  simp only [AuthHistory.step, AuthDb.commit, AuthDb.rotation, AuthDb.reply]
  cases hf : h.db.refreshToken (P.hashRefreshToken t.raw) with
  | none =>
    refine .single ⟨now, ?_⟩
    simp [refreshStep, hstart, hf, refresh, Except.toOption, RefreshPhase.ended]
  | some token =>
    have hcommit : h.db.commitRevocation (h.db.matching fun r => r.familyId = token.familyId) now =
        h.db.revokeTokens token.familyId now := commitRevocation_matching h.db _ now
    by_cases hu : token.usable now
    · have hread : refreshStep P now h t = some (h, t.at (.accepted token now)) := by
        simp [refreshStep, hstart, hf, hu]
      refine .head ⟨now, hread⟩ (.head ⟨now, rfl⟩ (.head ⟨now, rfl⟩ ?_))
      rw [hcommit]
      cases ha : (h.db.revokeTokens token.familyId now).activeUser token.userId with
      | none =>
        refine .single ⟨now, ?_⟩
        simp [refreshStep, hf, hu, ha, refresh, Except.toOption, RefreshPhase.ended]
      | some user =>
        have huser : refreshStep P now { h with db := h.db.revokeTokens token.familyId now }
            (t.at (.rotated token)) = some ({ h with db := h.db.revokeTokens token.familyId now },
              t.at (.identified token user)) := by
          simp [refreshStep, ha]
        refine .head ⟨now, huser⟩ (.head ⟨now, rfl⟩ (.single ⟨now, ?_⟩))
        rcases storeTokens_effect P t.cfg t.draw (h.db.revokeTokens token.familyId now) user
            ((h.db.revokeTokens token.familyId now).rolesOf user.id) token.sessionId {} with
          ⟨err, hi⟩ | ⟨db', pair, _, _, hi, _⟩
        · simp [refreshStep, hf, hu, ha, hi, refresh, issueTokens, Except.toOption,
            RefreshPhase.ended]
        · simp [refreshStep, hf, hu, ha, hi, refresh, issueTokens, Except.toOption,
            RefreshPhase.ended]
    · have hread : refreshStep P now h t = some (h, t.at (.rejecting token now)) := by
        simp [refreshStep, hstart, hf, hu]
      refine .head ⟨now, hread⟩ (.head ⟨now, rfl⟩ (.single ⟨now, ?_⟩))
      simp [refreshStep, hf, hu, refresh, Except.toOption, RefreshPhase.ended, hcommit]

theorem refreshStep_cases (hs : refreshStep P now h t = some (h', t')) :
    (∃ phase, h' = h ∧ t' = t.at phase ∧
      ((∃ token, h.db.refreshToken (P.hashRefreshToken t.raw) = some token ∧ token.usable now ∧
          t.phase = .start ∧ phase = .accepted token now) ∨
        (∃ token time, t.phase = .start ∧ phase = .rejecting token time) ∨
        (∃ token time hashes refusal, t.phase = .rejecting token time ∧
          phase = .rejected hashes time refusal) ∨
        (∃ token time, t.phase = .accepted token time ∧
          phase = .updated token (h.db.matching fun r => r.familyId = token.familyId) time) ∨
        (∃ token user, t.phase = .rotated token ∧ h.db.activeUser token.userId = some user ∧
          phase = .identified token user) ∨
        (∃ token user roles, t.phase = .identified token user ∧
          phase = .authorized token user roles) ∨
        ∃ error, phase = .raised error)) ∨
    (∃ hashes time refusal, t.phase = .rejected hashes time refusal ∧
      h' = { h with db := h.db.commitRevocation hashes time } ∧ t' = t.at (.raised refusal)) ∨
    (∃ token hashes time, t.phase = .updated token hashes time ∧
      h' = { h with db := h.db.commitRevocation hashes time } ∧ t' = t.at (.rotated token)) ∨
    ∃ token user roles db' pair opened sessionId, t.phase = .authorized token user roles ∧
      h' = { db := db', rotations := (t.raw, pair.refresh) :: h.rotations } ∧
      t' = t.at (.returned pair) ∧ pair.refresh = t.draw.refresh ∧
      openSession t.cfg t.draw h.db user token.sessionId {} = .ok (opened, sessionId) ∧
      opened.saveRefreshToken (newRefreshToken P t.cfg t.draw user sessionId) = .ok db' := by
  unfold refreshStep at hs
  cases hp : t.phase with
  | start =>
    simp only [hp] at hs
    split at hs
    next => cases hs; exact Or.inl ⟨_, rfl, rfl, by simp⟩
    next token hf =>
      split at hs
      next hu => cases hs; exact Or.inl ⟨_, rfl, rfl, Or.inl ⟨token, hf, hu, rfl, rfl⟩⟩
      next => cases hs; exact Or.inl ⟨_, rfl, rfl, by simp⟩
  | rejecting token time => simp only [hp] at hs; cases hs; exact Or.inl ⟨_, rfl, rfl, by simp⟩
  | rejected hashes time refusal =>
    simp only [hp] at hs
    cases hs
    exact Or.inr (Or.inl ⟨hashes, time, refusal, rfl, rfl, rfl⟩)
  | accepted token time => simp only [hp] at hs; cases hs; exact Or.inl ⟨_, rfl, rfl, by simp⟩
  | updated token hashes time =>
    simp only [hp] at hs
    cases hs
    exact Or.inr (Or.inr (Or.inl ⟨token, hashes, time, rfl, rfl, rfl⟩))
  | rotated token =>
    simp only [hp] at hs
    split at hs
    next => cases hs; exact Or.inl ⟨_, rfl, rfl, by simp⟩
    next user hu => cases hs; exact Or.inl ⟨_, rfl, rfl, by simp [hu]⟩
  | identified token user => simp only [hp] at hs; cases hs; exact Or.inl ⟨_, rfl, rfl, by simp⟩
  | authorized token user roles =>
    simp only [hp] at hs
    rcases storeTokens_effect P t.cfg t.draw h.db user roles token.sessionId {} with
      ⟨err, he⟩ | ⟨db', pair, opened, sid, he, hpair, ho, hsave⟩
    · rw [he] at hs
      cases hs
      exact Or.inl ⟨_, rfl, rfl, by simp⟩
    · rw [he] at hs
      cases hs
      exact Or.inr (Or.inr (Or.inr
        ⟨token, user, roles, db', pair, opened, sid, rfl, rfl, rfl, hpair, ho, hsave⟩))
  | returned pair => simp [hp] at hs
  | raised error => simp [hp] at hs

theorem refreshStep_raw (hs : refreshStep P now h t = some (h', t')) : t'.raw = t.raw := by
  rcases refreshStep_cases hs with ⟨_, _, rfl, _⟩ | ⟨_, _, _, _, _, rfl⟩ | ⟨_, _, _, _, _, rfl⟩ |
    ⟨_, _, _, _, _, _, _, _, _, rfl, _⟩ <;> rfl

theorem refreshStep_effect (hs : refreshStep P now h t = some (h', t')) :
    ∃ issued, TokenEffect h.db h'.db issued := by
  rcases refreshStep_cases hs with ⟨_, rfl, _, _⟩ | ⟨_, _, _, _, rfl, _⟩ | ⟨_, _, _, _, rfl, _⟩ |
    ⟨_, _, _, _, _, _, _, _, rfl, _, _, ho, hsave⟩
  · exact ⟨none, .of_onlyRevokes (.refl _)⟩
  · exact ⟨none, .of_onlyRevokes (AuthDb.onlyRevokes_revokeTokensWhere _ _ _)⟩
  · exact ⟨none, .of_onlyRevokes (AuthDb.onlyRevokes_revokeTokensWhere _ _ _)⟩
  · exact ⟨_, tokenEffect_of_saved (openSession_tokens ho) hsave⟩

end Steps

end JobRadar
