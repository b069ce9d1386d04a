import JobRadar.RevocationSteps

namespace JobRadar

open Database Interleave

/-- The row a refresh call goes on with after it accepted it. -/
def RefreshPhase.held : RefreshPhase → Option RefreshToken
  | .accepted token _ | .updated token _ _ | .rotated token | .identified token _
  | .authorized token _ _ => some token
  | _ => none

def RefreshPhase.user : RefreshPhase → Option User
  | .identified _ user | .authorized _ user _ => some user
  | _ => none

/-- The held row is stored still, and the user read for it is its owner. -/
def RefreshThread.Holds (P : Primitives) (db : AuthDb) (t : RefreshThread) : Prop :=
  ∀ token, t.phase.held = some token →
    (∃ row, db.refreshToken (P.hashRefreshToken t.raw) = some row ∧ token.Kept row) ∧
    ∀ user, t.phase.user = some user → user.id = token.userId

section Refresher

variable {P : Primitives} {now : Time} {h h' : AuthHistory} {t t' : RefreshThread}

theorem RefreshThread.Holds.keep {db db' : AuthDb} (ht : t.Holds P db)
    (hkeep : db.KeepsRows db') : t.Holds P db' := by
  intro token hheld
  obtain ⟨⟨row, hf, hk⟩, huser⟩ := ht token hheld
  obtain ⟨row', hf', hk'⟩ := hkeep _ row hf
  exact ⟨⟨row', hf', hk.trans hk'⟩, huser⟩

theorem refreshStep_held (hs : refreshStep P now h t = some (h', t')) {token : RefreshToken}
    (hheld : t'.phase.held = some token) :
    (t.phase.held = some token ∧ ∀ user, t'.phase.user = some user →
      t.phase.user = some user ∨ h.db.activeUser token.userId = some user) ∨
    h' = h ∧ h.db.refreshToken (P.hashRefreshToken t.raw) = some token ∧
      token.revokedAt = none ∧ t'.phase.user = none := by
  rcases refreshStep_cases hs with ⟨phase, rfl, rfl, hphase⟩ | ⟨_, _, _, _, _, rfl⟩ |
    ⟨held, _, _, hp, _, rfl⟩ | ⟨_, _, _, _, _, _, _, _, _, rfl, _⟩
  · rcases hphase with ⟨read, hf, hu, _, rfl⟩ | ⟨_, _, _, rfl⟩ | ⟨_, _, _, _, _, rfl⟩ |
      ⟨held, _, hp, rfl⟩ | ⟨held, user, hp, ha, rfl⟩ | ⟨held, user, _, hp, rfl⟩ | ⟨_, rfl⟩
    · cases Option.some.inj hheld
      exact Or.inr ⟨rfl, hf, hu.1, rfl⟩
    · simp [RefreshPhase.held] at hheld
    · simp [RefreshPhase.held] at hheld
    · cases Option.some.inj hheld
      exact Or.inl ⟨by rw [hp]; rfl, by simp [RefreshPhase.user]⟩
    · cases Option.some.inj hheld
      refine Or.inl ⟨by rw [hp]; rfl, ?_⟩
      intro user' hu
      cases Option.some.inj hu
      exact Or.inr ha
    · cases Option.some.inj hheld
      refine Or.inl ⟨by rw [hp]; rfl, ?_⟩
      intro user' hu
      exact Or.inl (by rw [hp]; exact hu)
    · simp [RefreshPhase.held] at hheld
  · simp [RefreshPhase.held] at hheld
  · cases Option.some.inj hheld
    exact Or.inl ⟨by rw [hp]; rfl, by simp [RefreshPhase.user]⟩
  · simp [RefreshPhase.held] at hheld

theorem refreshStep_holds (ht : t.Holds P h.db) (hs : refreshStep P now h t = some (h', t')) :
    t'.Holds P h'.db := by
  obtain ⟨issued, heff⟩ := refreshStep_effect hs
  intro token hheld
  rw [refreshStep_raw hs]
  rcases refreshStep_held hs hheld with ⟨hold, huser⟩ | ⟨rfl, hf, _, hnone⟩
  · obtain ⟨hrow, hold'⟩ := ht.keep (.of_effect heff) token hold
    refine ⟨hrow, ?_⟩
    intro user hu
    rcases huser user hu with hu | ha
    · exact hold' user hu
    · exact activeUser_id ha
  · exact ⟨⟨token, hf, .refl token⟩, by simp [hnone]⟩

theorem refreshStep_inherited (hinh : h.Inherited P) (ht : t.Holds P h.db)
    (hs : refreshStep P now h t = some (h', t')) : h'.Inherited P := by
  rcases refreshStep_cases hs with ⟨_, rfl, _, _⟩ | ⟨_, _, _, _, rfl, _⟩ | ⟨_, _, _, _, rfl, _⟩ |
    ⟨token, user, _, db', pair, _, sid, hp, rfl, _, hpair, ho, hsave⟩
  · exact hinh
  · exact hinh.effect (.of_onlyRevokes (AuthDb.onlyRevokes_revokeTokensWhere _ _ _))
  · exact hinh.effect (.of_onlyRevokes (AuthDb.onlyRevokes_revokeTokensWhere _ _ _))
  · have heff := tokenEffect_of_saved (openSession_tokens ho) hsave
    obtain ⟨⟨row, hf, hk⟩, huser⟩ := ht token (by rw [hp]; rfl)
    have hedge := reissued_inherits heff hf
      (by rw [hk.userId_eq]; exact huser user (by rw [hp]; rfl))
      (fun s hrow => openSession_inherits ho s (by rw [← hk.sessionId_eq, hrow]))
    rw [← hpair] at hedge
    exact (hinh.effect heff).cons hedge

theorem refreshStep_owned (howned : h.db.SessionsOwned) (ht : t.Holds P h.db)
    (hactive : ∀ token, t.phase.held = some token → h.db.SessionActive token)
    (hs : refreshStep P now h t = some (h', t')) :
    h'.db.SessionsOwned ∧ h.db.SessionsGrow h'.db := by
  rcases refreshStep_cases hs with ⟨_, rfl, _, _⟩ | ⟨_, _, _, _, rfl, _⟩ | ⟨_, _, _, _, rfl, _⟩ |
    ⟨token, user, _, db', pair, _, sid, hp, rfl, _, _, ho, hsave⟩
  · exact ⟨howned, .of_eq rfl⟩
  · exact ⟨howned.effect (.of_onlyRevokes (AuthDb.onlyRevokes_revokeTokensWhere _ _ _))
      (.of_eq rfl) (by simp), .of_eq rfl⟩
  · exact ⟨howned.effect (.of_onlyRevokes (AuthDb.onlyRevokes_revokeTokensWhere _ _ _))
      (.of_eq rfl) (by simp), .of_eq rfl⟩
  · have huser := (ht token (by rw [hp]; rfl)).2 user (by rw [hp]; rfl)
    exact saved_owned ho hsave ((hactive token (by rw [hp]; rfl)).forUser huser) howned

theorem refreshStep_lineage {cfg : Settings} {request : RevocationRequest} {h₁ : AuthHistory}
    (hs : refreshStep P now h t = some (h', t'))
    (hout : t.phase.inserts = true → ¬InLineage P cfg request h₁ h t.raw) {raw : String}
    (hl : InLineage P cfg request h₁ h' raw) : InLineage P cfg request h₁ h raw := by
  rcases refreshStep_cases hs with ⟨_, rfl, _, _⟩ | ⟨_, _, _, _, rfl, _⟩ | ⟨_, _, _, _, rfl, _⟩ |
    ⟨_, _, _, _, _, _, _, hp, rfl, _⟩
  · exact hl
  · exact lineage_congr rfl hl
  · exact lineage_congr rfl hl
  · exact lineage_cons rfl (hout (by rw [hp]; rfl)) hl

end Refresher

theorem RevokeThread.Tracks.keep {P : Primitives} {h h' : AuthHistory} {v : RevokeThread}
    (hv : v.Tracks P h) (hkeep : h.db.KeepsRows h'.db)
    (hgrow : v.phase.settled = false → h.db.SessionsGrow h'.db)
    (hlin : v.phase.settled = true → ∀ h₁, v.seen = some h₁ → ∀ raw,
      InLineage P v.cfg v.request h₁ h' raw → InLineage P v.cfg v.request h₁ h raw) :
    v.Tracks P h' := by
  refine ⟨hv.unmoved, ?_⟩
  intro h₁ hh
  obtain ⟨hkept, hsound⟩ := hv.sound h₁ hh
  refine ⟨hkept.trans hkeep, ?_⟩
  cases hp : v.phase with
  | start => trivial
  | marked => rw [hp] at hsound; exact hsound
  | tokenRead token =>
    rw [hp] at hsound
    exact ⟨hsound.1.grow (hgrow (by rw [hp]; rfl)), hsound.2⟩
  | familyUpdated token s hashes now =>
    rw [hp] at hsound
    exact ⟨hsound.1.grow (hgrow (by rw [hp]; rfl)), hsound.2⟩
  | userRead => rw [hp] at hsound; exact hsound
  | codeRead => rw [hp] at hsound; exact hsound
  | tokensUpdated =>
    rw [hp] at hsound
    exact Matched.mono hsound hkeep (hlin (by rw [hp]; rfl) h₁ hh)
  | updated =>
    rw [hp] at hsound
    exact Matched.mono hsound hkeep (hlin (by rw [hp]; rfl) h₁ hh)
  | done =>
    rw [hp] at hsound
    exact RevocationWon.mono hsound hkeep (hlin (by rw [hp]; rfl) h₁ hh)
  | raised => trivial

variable {ι : Type} {P : Primitives}

/-- What holds between the steps of refresh calls and one revoking call. -/
structure Contested (P : Primitives) (c : Pool (Option ι) AuthHistory AuthThread) : Prop where
  inherited : c.store.Inherited P
  holds : ∀ i t, c.thread i = .inl t → t.Holds P c.store.db
  single : ∀ i v, c.thread i = .inr v → i = none
  revoker : ∃ v, c.thread none = .inr v ∧ v.Tracks P c.store ∧
    (v.phase.settled = false → c.store.db.SessionsOwned ∧ ∀ i t token, c.thread i = .inl t →
      t.phase.held = some token → c.store.db.SessionActive token)

theorem contested_contest {allowed : AuthEnv → AuthOp → Prop} {h : AuthHistory}
    (reach : Reachable P allowed h) (cfg : Settings) (request : RevocationRequest)
    (calls : ι → RefreshCall) : Contested P (contest h cfg request calls) := by
  obtain ⟨howned, hinh⟩ := reachable_owned reach
  have hfresh : ∀ (i : Option ι) t, (contest h cfg request calls).thread i = .inl t →
      t.phase = .start := by
    intro i t hi
    cases i with
    | none => simp [contest] at hi
    | some i => cases hi; rfl
  refine ⟨hinh, ?_, ?_, _, rfl, ⟨fun _ => rfl, by simp⟩, ?_⟩
  · intro i t hi token hheld
    simp [hfresh i t hi, RefreshPhase.held] at hheld
  · intro i v hi
    cases i with
    | none => rfl
    | some i => simp [contest] at hi
  · intro _
    refine ⟨howned, ?_⟩
    intro i t token hi hheld
    simp [hfresh i t hi, RefreshPhase.held] at hheld

variable [DecidableEq ι]

theorem Contested.refresh {c : Pool (Option ι) AuthHistory AuthThread} {i : Option ι}
    {now : Time} {t t' : RefreshThread} {h' : AuthHistory} (hc : Contested P c)
    (hi : c.thread i = .inl t) (hs : refreshStep P now c.store t = some (h', t'))
    (hok : InsertsInTime P ⟨c, i, now⟩) : Contested P (c.set i (h', .inl t')) := by
  obtain ⟨v, hnone, htracks, hopen⟩ := hc.revoker
  obtain ⟨issued, heff⟩ := refreshStep_effect hs
  have hkeep : c.store.db.KeepsRows h'.db := .of_effect heff
  have hne : (none : Option ι) ≠ i := by
    rintro rfl
    simp [hnone] at hi
  have hother : ∀ j, j ≠ i → (c.set i (h', .inl t')).thread j = c.thread j := fun j hj =>
    Pool.set_thread_ne c _ hj
  refine ⟨refreshStep_inherited hc.inherited (hc.holds i t hi) hs, ?_, ?_, v, ?_, ?_, ?_⟩
  · refine Pool.forall_set (Q := fun v : AuthThread => ∀ u, v = .inl u → u.Holds P h'.db) ?_
      fun j _ u hu => (hc.holds j u hu).keep hkeep
    intro u hu
    cases hu
    exact refreshStep_holds (hc.holds i t hi) hs
  · intro j u hu
    by_cases hj : j = i
    · subst j
      simp at hu
    · rw [hother j hj] at hu
      exact hc.single j u hu
  · rw [hother none hne, hnone]
  · refine htracks.keep hkeep ?_ ?_
    · intro hset
      obtain ⟨howned, hactive⟩ := hopen hset
      exact (refreshStep_owned howned (hc.holds i t hi) (fun token => hactive i t token hi) hs).2
    · intro hset h₁ hh raw hl
      exact refreshStep_lineage hs (fun hins => hok t v h₁ hi hnone hh hins hset) hl
  · intro hset
    obtain ⟨howned, hactive⟩ := hopen hset
    obtain ⟨howned', hgrow⟩ :=
      refreshStep_owned howned (hc.holds i t hi) (fun token => hactive i t token hi) hs
    refine ⟨howned', ?_⟩
    intro j u token hu hheld
    by_cases hj : j = i
    · subst j
      rw [Pool.set_thread_self] at hu
      cases hu
      rcases refreshStep_held hs hheld with ⟨hold, _⟩ | ⟨_, hf, hlive, _⟩
      · exact (hactive i t token hi hold).grow hgrow
      · exact ((howned _ token hf).active hlive).grow hgrow
    · rw [hother j hj] at hu
      exact (hactive j u token hu hheld).grow hgrow

theorem Contested.revoke {c : Pool (Option ι) AuthHistory AuthThread} {i : Option ι}
    {now : Time} {v v' : RevokeThread} {h' : AuthHistory} (hc : Contested P c)
    (hi : c.thread i = .inr v) (hs : revokeStep P now c.store v = some (h', v'))
    (hok : LogoutReachesLineage P ⟨c, i, now⟩) : Contested P (c.set i (h', .inr v')) := by
  obtain ⟨v₀, hnone, htracks, hopen⟩ := hc.revoker
  cases hc.single i v hi
  cases Sum.inr.inj (hnone.symm.trans hi)
  have hother : ∀ j, j ≠ none → (c.set none (h', .inr v')).thread j = c.thread j := fun j hj =>
    Pool.set_thread_ne c _ hj
  have honly : c.store.db.OnlyRevokes h'.db ∧ h'.rotations = c.store.rotations ∧
      (v'.phase.settled = false → h' = c.store ∧ v.phase.settled = false) := by
    rcases revokeStep_store hs with ⟨rfl, hset⟩ | ⟨w, _, rfl, hdone⟩
    · refine ⟨.refl _, rfl, ?_⟩
      intro hv'
      exact ⟨rfl, by simpa [hv'] using hset⟩
    · refine ⟨commit_onlyRevokes P w c.store.db, rfl, ?_⟩
      simp [hdone, RevokePhase.settled]
  obtain ⟨hrevokes, hrot, hback⟩ := honly
  have hkeep : c.store.db.KeepsRows h'.db := .of_onlyRevokes hrevokes
  refine ⟨?_, ?_, ?_, v', by simp, ?_, ?_⟩
  · have hinh := hc.inherited.effect (.of_onlyRevokes hrevokes)
    rw [← hrot] at hinh
    exact hinh
  · refine Pool.forall_set (Q := fun v : AuthThread => ∀ u, v = .inl u → u.Holds P h'.db) ?_
      fun j _ u hu => (hc.holds j u hu).keep hkeep
    intro u hu
    cases hu
  · intro j u hu
    by_cases hj : j = none
    · exact hj
    · rw [hother j hj] at hu
      exact hc.single j u hu
  · refine revokeStep_tracks hc.inherited (fun hset => (hopen hset).1) htracks ?_ hs
    intro h₁ token hh hp
    exact hok v h₁ token hi hh hp
  · intro hset
    obtain ⟨rfl, hset'⟩ := hback hset
    obtain ⟨howned, hactive⟩ := hopen hset'
    refine ⟨howned, ?_⟩
    intro j u token hu hheld
    by_cases hj : j = none
    · subst j
      simp at hu
    · rw [hother j hj] at hu
      exact hactive j u token hu hheld

def NotOvertaken (P : Primitives) (e : Event (Option ι) Time AuthHistory AuthThread) : Prop :=
  InsertsInTime P e ∧ LogoutReachesLineage P e

/-- Once the revoking call has returned, nothing it was asked to revoke is live, and nothing
that descends from it. -/
def RevocationWins (P : Primitives) (c : Pool (Option ι) AuthHistory AuthThread) : Prop :=
  ∀ v h₁, c.thread none = .inr v → v.phase = .done → v.seen = some h₁ →
    RevocationWon P v.cfg v.request h₁ c.store

/-- A step that is neither an insert after the revoking statement nor a logout's UPDATE. -/
def calm (e : Event (Option ι) Time AuthHistory AuthThread) : Bool :=
  match e.before.thread e.mover, e.before.thread none with
  | .inl t, .inr v => !(t.phase.inserts && v.phase.settled)
  | .inr { phase := .tokenRead _, .. }, _ => false
  | _, _ => true

omit [DecidableEq ι] in
theorem notOvertaken_of_calm {e : Event (Option ι) Time AuthHistory AuthThread}
    (h : calm e = true) : NotOvertaken P e := by
  refine ⟨?_, ?_⟩
  · intro t v h₁ ht hv _ hins hset
    simp [calm, ht, hv, hins, hset] at h
  · intro v h₁ token hv _ hp
    obtain ⟨cfg, request, phase, seen⟩ := v
    cases hp
    simp [calm, hv] at h

def sessionSettings : Settings where
  authSessionManagementEnabled := true

/-- Ann has logged in with session management on, which opened session 1. -/
def annInSession : AuthHistory :=
  AuthHistory.step .plain (callAt 1 "first" sessionSettings) { db := annDb }
    (.login "ann@example.com" "correct horse" {})

theorem annInSession_reachable : Reachable .plain (fun _ _ => True) annInSession :=
  .step _ _ (.init rfl rfl) trivial (freshDraw_of_rows (by decide) (by decide))

/-- She revokes that session while a client refreshes its token. -/
def annContest : Pool (Option Unit) AuthHistory AuthThread :=
  contest annInSession sessionSettings (.session 1 1) fun _ =>
    ⟨sessionSettings, "first", ⟨3, "second", 3, 3, 3, 3⟩⟩

def refreshFirst : List (Option Unit × Time) :=
  List.replicate 6 (some (), 2) ++ List.replicate 3 (none, 3)

/-- The client's row is read, the session is revoked, and then the client goes on. -/
def revokeBetween : List (Option Unit × Time) :=
  [(some (), 2)] ++ List.replicate 3 (none, 3) ++ List.replicate 5 (some (), 4)

end JobRadar
