import JobRadar.RevocationRace

namespace JobRadar

open Database Interleave

theorem AuthDb.KeepsRows.of_onlyRevokes {db db' : AuthDb} (h : db.OnlyRevokes db') :
    db.KeepsRows db' :=
  fun _ _ hf => h.forward hf

theorem AuthDb.KeepsRows.of_effect {db db' : AuthDb} {issued : Option RefreshToken}
    (h : TokenEffect db db' issued) : db.KeepsRows db' :=
  fun _ _ hf => h.forward hf

theorem AuthDb.KeepsRows.trans {db mid db' : AuthDb} (h : db.KeepsRows mid)
    (h' : mid.KeepsRows db') : db.KeepsRows db' := by
  intro tokenHash row hf
  obtain ⟨m, hm, hk⟩ := h tokenHash row hf
  obtain ⟨new, hn, hk'⟩ := h' tokenHash m hm
  exact ⟨new, hn, hk.trans hk'⟩

theorem commit_onlyRevokes (P : Primitives) (w : RevocationWrites) (db : AuthDb) :
    db.OnlyRevokes (w.commit P db) := by
  unfold RevocationWrites.commit
  refine AuthDb.OnlyRevokes.trans ?_ (AuthDb.onlyRevokes_revokeTokensWhere _ _ _)
  refine AuthDb.OnlyRevokes.trans ?_ (AuthDb.onlyRevokes_revokeTokensWhere _ _ _)
  apply AuthDb.OnlyRevokes.of_tokens_eq
  cases w.reset <;> rfl

theorem tokenUpdates_kill {mid : AuthDb} {w : RevocationWrites} {tokenHash : String}
    {row : RefreshToken} (hmf : mid.refreshToken tokenHash = some row)
    (hmatch : row.revokedAt = none → tokenHash ∈ w.family ++ w.tokens) :
    ∃ new, ((mid.commitRevocation w.family w.now).commitRevocation w.tokens w.now).refreshToken
      tokenHash = some new ∧ new.revokedAt ≠ none := by
  obtain ⟨first, hfirst, hk⟩ :=
    (mid.onlyRevokes_revokeTokensWhere (fun t => t.tokenHash ∈ w.family) w.now).forward hmf
  refine commitRevocation_kills hfirst ?_ w.now
  intro hlive
  have hrow : row.revokedAt = none := hk.live hlive ▸ hlive
  rcases List.mem_append.mp (hmatch hrow) with hfam | htok
  · obtain ⟨dead, hd, hrev⟩ := commitRevocation_kills hmf (fun _ => hfam) w.now
    have hsame : first = dead := Option.some.inj (hfirst.symm.trans hd)
    exact absurd (hsame ▸ hlive) hrev
  · exact htok

theorem commit_kills (P : Primitives) (w : RevocationWrites) {db : AuthDb} {tokenHash : String}
    {row : RefreshToken} (hf : db.refreshToken tokenHash = some row)
    (hmatch : row.revokedAt = none → tokenHash ∈ w.family ++ w.tokens) :
    ∃ new, (w.commit P db).refreshToken tokenHash = some new ∧ new.revokedAt ≠ none := by
  unfold RevocationWrites.commit
  cases w.reset with
  | none => exact tokenUpdates_kill (w := w) hf hmatch
  | some r => exact tokenUpdates_kill (w := w) hf hmatch

section Revoker

variable {P : Primitives} {cfg : Settings} {request : RevocationRequest} {h₁ h : AuthHistory}

/-- The UPDATE of a call that marked sessions matches what is live of the lineage. -/
theorem marked_matches {clause : TokenClause} (hkept : h₁.db.KeepsRows h.db)
    (hinh : h.Inherited P) (hclause : request.clause P cfg h₁.db = some clause)
    (hher : clause.heritable = true) (family : List String) (now : Time) :
    Matched P cfg request h₁ h
      (family ++ (h.db.commitRevocation family now).matching clause.holds) := by
  intro raw hl
  obtain ⟨row, hf, hold⟩ := lineage_holds hkept hinh hclause hher hl
  refine ⟨row, hf, ?_⟩
  intro hlive
  by_cases hfam : P.hashRefreshToken raw ∈ family
  · exact List.mem_append_left _ hfam
  · have hsee : (h.db.commitRevocation family now).refreshToken (P.hashRefreshToken raw) =
        some row := by
      rw [refreshToken_commitRevocation, hf, Option.map_some, AuthDb.refreshToken_hash hf]
      simp [hfam]
    exact List.mem_append_right _ ((mem_matching hsee).mpr ⟨hold, hlive⟩)

/-- A live token with an active session other than the current one makes the call go on. -/
theorem others_none {userId current : Uuid} {raw : String} {row : RefreshToken}
    (howned : h.db.SessionsOwned) (hf : h.db.refreshToken (P.hashRefreshToken raw) = some row)
    (hold : (TokenClause.others userId current).holds row)
    (hnone : (h.db.otherSessions userId current).length = 0) : row.revokedAt ≠ none := by
  intro hlive
  obtain ⟨huser, s, hs, hne⟩ := hold
  obtain ⟨session, hfs, hu, hactive⟩ := howned _ row hf s hs
  obtain ⟨hm, hid⟩ := Table.find_eq_some_iff.mp hfs
  have hmem : session ∈ h.db.otherSessions userId current := by
    simp only [AuthDb.otherSessions, AuthDb.authSessions, List.mem_filter, decide_eq_true_eq]
    exact ⟨⟨hm, hu.trans huser, hactive hlive⟩, by rwa [hid]⟩
  exact absurd hmem (by simp [List.eq_nil_of_length_eq_zero hnone])

theorem start_sound (hinh : h.Inherited P) (howned : h.db.SessionsOwned) (now : Time) :
    (request.start P cfg now h.db).Sound P cfg request h h := by
  have hkept : h.db.KeepsRows h.db := .of_onlyRevokes (.refl h.db)
  cases request with
  | session userId s =>
    simp only [RevocationRequest.start]
    split_ifs
    · split
      next => trivial
      next => exact ⟨rfl, rfl⟩
    · trivial
  | others userId current =>
    cases current with
    | none => trivial
    | some current =>
      simp only [RevocationRequest.start]
      split_ifs with _ hnone
      · intro raw hl
        obtain ⟨row, hf, hold⟩ := lineage_holds hkept hinh rfl rfl hl
        exact ⟨row, hf, others_none howned hf hold hnone⟩
      · exact ⟨rfl, rfl⟩
      · trivial
  | logout raw =>
    simp only [RevocationRequest.start]
    split
    next hf =>
      rintro raw' ⟨clause, _, _, hclause, _⟩
      simp [RevocationRequest.clause, hf] at hclause
    next token hf => exact ⟨howned _ token hf, raw, rfl, hf⟩
  | reset salt email code password =>
    simp only [RevocationRequest.start]
    split_ifs
    · split
      next => trivial
      next user hu => simp [RevokePhase.Sound, RevocationRequest.clause, hu]
    · trivial

theorem inactive_matches {token : RefreshToken} {s : Uuid} (hkept : h₁.db.KeepsRows h.db)
    (hinh : h.Inherited P) (howned : h.db.SessionsOwned) (hown : h.db.Owns token)
    (hs : token.sessionId = some s) (hclause : request.clause P cfg h₁.db = some (.session s))
    (hnone : h.db.activeSession s token.userId = none) (hashes : List String) :
    Matched P cfg request h₁ h hashes := by
  intro raw hl
  obtain ⟨row, hf, hold⟩ := lineage_holds hkept hinh hclause rfl hl
  refine ⟨row, hf, ?_⟩
  intro hlive
  obtain ⟨session, hfs, _, hactive⟩ := howned _ row hf s hold
  obtain ⟨session', hfs', hu, _⟩ := hown s hs
  cases Option.some.inj (hfs.symm.trans hfs')
  simp [AuthDb.activeSession, AuthDb.authSession, hfs, hu, hactive hlive] at hnone

theorem family_matches {token : RefreshToken} (hkept : h₁.db.KeepsRows h.db)
    (hinh : h.Inherited P)
    (hreach : ∀ raw row, InLineage P cfg request h₁ h raw →
      h.db.refreshToken (P.hashRefreshToken raw) = some row → row.revokedAt = none →
      row.familyId = token.familyId) :
    Matched P cfg request h₁ h (h.db.matching fun r => r.familyId = token.familyId) := by
  intro raw hl
  have hrow : ∃ row, h.db.refreshToken (P.hashRefreshToken raw) = some row := by
    obtain ⟨_, target, row, _, ht, _, hpath⟩ := hl
    cases hpath with
    | refl =>
      obtain ⟨row', hf, _⟩ := hkept _ row ht
      exact ⟨row', hf⟩
    | tail _ hs =>
      obtain ⟨_, new, _, hnew, _⟩ := hinh _ _ hs
      exact ⟨new, hnew⟩
  obtain ⟨row, hf⟩ := hrow
  exact ⟨row, hf, fun hlive => (mem_matching hf).mpr ⟨hreach raw row hl hf hlive, hlive⟩⟩

end Revoker

/-- The revoking call in a pool: unmoved, or sound about the state its first statement read. -/
structure RevokeThread.Tracks (P : Primitives) (h : AuthHistory) (v : RevokeThread) : Prop where
  unmoved : v.seen = none → v.phase = .start
  sound : ∀ h₁, v.seen = some h₁ →
    h₁.db.KeepsRows h.db ∧ v.phase.Sound P v.cfg v.request h₁ h

theorem RevokeThread.Tracks.at {P : Primitives} {h' : AuthHistory} {v : RevokeThread}
    {phase : RevokePhase} (hseen : v.seen ≠ none)
    (hsound : ∀ h₁, v.seen = some h₁ →
      h₁.db.KeepsRows h'.db ∧ phase.Sound P v.cfg v.request h₁ h') :
    (v.at phase).Tracks P h' :=
  ⟨fun hn => absurd hn hseen, hsound⟩

/-- A step that leaves the store alone, from a phase that is sound to the next one. -/
theorem RevokeThread.Tracks.move {P : Primitives} {h : AuthHistory} {v : RevokeThread}
    {old phase : RevokePhase} (hv : v.Tracks P h) (hp : v.phase = old) (hstart : old ≠ .start)
    (hsound : ∀ h₁, v.seen = some h₁ → h₁.db.KeepsRows h.db →
      old.Sound P v.cfg v.request h₁ h → phase.Sound P v.cfg v.request h₁ h) :
    (v.at phase).Tracks P h := by
  refine .at ?_ ?_
  · intro hn
    exact hstart (hp.symm.trans (hv.unmoved hn))
  · intro h₁ hh
    obtain ⟨hkept, hold⟩ := hv.sound h₁ hh
    rw [hp] at hold
    exact ⟨hkept, hsound h₁ hh hkept hold⟩

theorem revokeStep_tracks {P : Primitives} {now : Time} {h h' : AuthHistory}
    {v v' : RevokeThread} (hinh : h.Inherited P)
    (howned : v.phase.settled = false → h.db.SessionsOwned) (hv : v.Tracks P h)
    (hlogout : ∀ h₁ token, v.seen = some h₁ → v.phase = .tokenRead token →
      v.cfg.authSessionManagementEnabled = true ∧ token.sessionId ≠ none ∨
        ∀ raw row, InLineage P v.cfg v.request h₁ h raw →
          h.db.refreshToken (P.hashRefreshToken raw) = some row → row.revokedAt = none →
          row.familyId = token.familyId)
    (hs : revokeStep P now h v = some (h', v')) : v'.Tracks P h' := by
  unfold revokeStep at hs
  cases hp : v.phase with
  | start =>
    simp only [hp] at hs
    cases hs
    refine ⟨by simp, ?_⟩
    intro h₁ hh
    cases Option.some.inj hh
    exact ⟨.of_onlyRevokes (.refl _), start_sound hinh (howned (by rw [hp]; rfl)) now⟩
  | marked sessions clause family time =>
    simp only [hp] at hs
    cases hs
    refine hv.move hp (by simp) ?_
    intro h₁ _ hkept hsound
    exact marked_matches hkept hinh hsound.1 hsound.2 family time
  | tokenRead token =>
    simp only [hp] at hs
    by_cases hsession : v.cfg.authSessionManagementEnabled = true ∧ token.sessionId ≠ none
    · obtain ⟨hen, hsome⟩ := hsession
      obtain ⟨s, htoken⟩ := Option.ne_none_iff_exists'.mp hsome
      simp only [hen, htoken] at hs
      cases hs
      refine hv.move hp (by simp) ?_
      rintro h₁ _ hkept ⟨hown, raw, hreq, hf⟩
      refine ⟨hown, htoken, ?_⟩
      simp [RevocationRequest.clause, hreq, hf, hen, htoken]
    · have hstep : h' = h ∧ v' = v.at (.updated
          { family := h.db.matching fun r => r.familyId = token.familyId, now := now }) := by
        split at hs
        next s hen hsome => exact absurd ⟨hen, by simp [hsome]⟩ hsession
        next => cases hs; exact ⟨rfl, rfl⟩
      obtain ⟨rfl, rfl⟩ := hstep
      refine hv.move hp (by simp) ?_
      intro h₁ hh hkept _
      have hreach := (hlogout h₁ token hh hp).resolve_left hsession
      simpa [RevokePhase.Sound] using family_matches hkept hinh hreach
  | familyUpdated token s hashes time =>
    simp only [hp] at hs
    split at hs
    next hnone =>
      cases hs
      refine hv.move hp (by simp) ?_
      rintro h₁ _ hkept ⟨hown, htoken, hclause⟩
      exact inactive_matches hkept hinh (howned (by rw [hp]; rfl)) hown htoken hclause hnone _
    next =>
      cases hs
      refine hv.move hp (by simp) ?_
      intro h₁ _ _ hsound
      exact ⟨hsound.2.2, rfl⟩
  | userRead user =>
    simp only [hp] at hs
    split at hs
    next =>
      cases hs
      exact hv.move hp (by simp) fun _ _ _ _ => trivial
    next =>
      cases hs
      exact hv.move hp (by simp) fun _ _ _ hsound => hsound
  | codeRead user record time =>
    simp only [hp] at hs
    cases hs
    refine hv.move hp (by simp) ?_
    intro h₁ _ hkept hsound
    have hmatched := marked_matches hkept hinh hsound rfl [] time
    rw [commitRevocation_nil] at hmatched
    exact hmatched
  | tokensUpdated user record hashes time =>
    simp only [hp] at hs
    cases hs
    exact hv.move hp (by simp) fun _ _ _ hsound => hsound
  | updated writes =>
    simp only [hp] at hs
    cases hs
    refine .at ?_ ?_
    · intro hn
      have hstart := hv.unmoved hn
      simp [hp] at hstart
    · intro h₁ hh
      obtain ⟨hkept, hsound⟩ := hv.sound h₁ hh
      rw [hp] at hsound
      refine ⟨hkept.trans (.of_onlyRevokes (commit_onlyRevokes P writes h.db)), ?_⟩
      intro raw hl
      obtain ⟨row, hf, hmatch⟩ := hsound raw (lineage_congr rfl hl)
      exact commit_kills P writes hf hmatch
  | done => simp [hp] at hs
  | raised error => simp [hp] at hs

theorem revokeStep_store {P : Primitives} {now : Time} {h h' : AuthHistory}
    {v v' : RevokeThread} (hs : revokeStep P now h v = some (h', v')) :
    (h' = h ∧ (v.phase.settled = true → v'.phase.settled = true)) ∨
      ∃ w, v.phase = .updated w ∧ h' = { h with db := w.commit P h.db } ∧ v'.phase = .done := by
  unfold revokeStep at hs
  cases hp : v.phase with
  | start => simp only [hp] at hs; cases hs; exact Or.inl ⟨rfl, by simp [RevokePhase.settled]⟩
  | marked => simp only [hp] at hs; cases hs; exact Or.inl ⟨rfl, by simp [RevokePhase.settled]⟩
  | tokenRead =>
    simp only [hp] at hs
    split at hs <;> (cases hs; exact Or.inl ⟨rfl, by simp [RevokePhase.settled]⟩)
  | familyUpdated =>
    simp only [hp] at hs
    split at hs <;> (cases hs; exact Or.inl ⟨rfl, by simp [RevokePhase.settled]⟩)
  | userRead =>
    simp only [hp] at hs
    split at hs <;> (cases hs; exact Or.inl ⟨rfl, by simp [RevokePhase.settled]⟩)
  | codeRead => simp only [hp] at hs; cases hs; exact Or.inl ⟨rfl, by simp [RevokePhase.settled]⟩
  | tokensUpdated =>
    simp only [hp] at hs
    cases hs
    exact Or.inl ⟨rfl, by simp [RevokePhase.settled]⟩
  | updated w => simp only [hp] at hs; cases hs; exact Or.inr ⟨w, rfl, rfl, rfl⟩
  | done => simp [hp] at hs
  | raised error => simp [hp] at hs

end JobRadar
