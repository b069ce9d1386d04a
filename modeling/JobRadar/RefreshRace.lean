import JobRadar.RefreshThreads

namespace JobRadar

open Database Interleave

variable {ι : Type} {P : Primitives} {h : AuthHistory} {raw : String}
  {calls : ι → Settings × TokenDraw}

/-- Any number of refresh calls that are about to present the same raw token. -/
def racers (h : AuthHistory) (raw : String) (calls : ι → Settings × TokenDraw) :
    Pool ι AuthHistory RefreshThread where
  store := h
  thread i := { cfg := (calls i).1, raw := raw, draw := (calls i).2 }

/-- The call has committed the revocation of the presented row and goes on to issue a pair. -/
def RefreshPhase.spends : RefreshPhase → Prop
  | .rotated _ | .identified _ _ | .authorized _ _ _ | .returned _ => True
  | _ => False

/-- The next statement of the call commits its rotation. -/
def RefreshPhase.rotates : RefreshPhase → Bool
  | .updated _ _ _ => true
  | _ => false

/-- Whenever a call commits its rotation, no other transaction has revoked the row before. -/
def RotatesLiveRow (P : Primitives) (e : Event ι Time AuthHistory RefreshThread) : Prop :=
  (e.before.thread e.mover).phase.rotates = true →
    ¬e.before.store.db.TokenRevoked P (e.before.thread e.mover).raw

instance (P : Primitives) (e : Event ι Time AuthHistory RefreshThread) :
    Decidable (RotatesLiveRow P e) :=
  inferInstanceAs (Decidable (_ → _))

/-- A call that read the row still knows its family, and a call whose `UPDATE` ran has
matched the row unless it is dead. -/
def RefreshPhase.Tracks (tokenHash : String) (db : AuthDb) : RefreshPhase → Prop
  | .accepted token _ => ∃ row, db.refreshToken tokenHash = some row ∧ token.Kept row
  | .updated _ hashes _ => ∃ row, db.refreshToken tokenHash = some row ∧
      (row.revokedAt = none → tokenHash ∈ hashes)
  | _ => True

/-- What holds between the steps of calls that race for one token. -/
structure SpentOnce (P : Primitives) (raw : String) (c : Pool ι AuthHistory RefreshThread) :
    Prop where
  presents : ∀ i, (c.thread i).raw = raw
  tracks : ∀ i, (c.thread i).phase.Tracks (P.hashRefreshToken raw) c.store.db
  revoked : ∀ i, (c.thread i).phase.spends → c.store.db.TokenRevoked P raw
  unique : ∀ i j, (c.thread i).phase.spends → (c.thread j).phase.spends → i = j

theorem spentOnce_racers : SpentOnce P raw (racers h raw calls) where
  presents _ := rfl
  tracks _ := trivial
  revoked _ hs := hs.elim
  unique _ _ hs := hs.elim

theorem RefreshPhase.Tracks.effect {tokenHash : String} {db db' : AuthDb} {phase : RefreshPhase}
    {issued : Option RefreshToken} (ht : phase.Tracks tokenHash db)
    (heff : TokenEffect db db' issued) : phase.Tracks tokenHash db' := by
  cases phase with
  | accepted token now =>
    obtain ⟨row, hf, hk⟩ := ht
    obtain ⟨new, hn, hk'⟩ := heff.forward hf
    exact ⟨new, hn, hk.trans hk'⟩
  | updated token hashes now =>
    obtain ⟨row, hf, hmatch⟩ := ht
    obtain ⟨new, hn, hk⟩ := heff.forward hf
    refine ⟨new, hn, ?_⟩
    intro hlive
    exact hmatch (hk.live hlive ▸ hlive)
  | _ => trivial

theorem refreshStep_tracks {now : Time} {h' : AuthHistory} {t t' : RefreshThread}
    (ht : t.phase.Tracks (P.hashRefreshToken t.raw) h.db)
    (hs : refreshStep P now h t = some (h', t')) :
    t'.phase.Tracks (P.hashRefreshToken t.raw) h'.db := by
  rcases refreshStep_cases hs with ⟨phase, rfl, rfl, hphase⟩ | ⟨_, _, _, _, _, rfl⟩ |
    ⟨_, _, _, _, _, rfl⟩ | ⟨_, _, _, _, _, _, _, _, _, rfl, _⟩
  · rcases hphase with ⟨token, hf, _, _, rfl⟩ | ⟨_, _, _, rfl⟩ | ⟨_, _, _, _, _, rfl⟩ |
      ⟨token, time, hp, rfl⟩ | ⟨_, _, _, _, rfl⟩ | ⟨_, _, _, _, rfl⟩ | ⟨_, rfl⟩
    · exact ⟨token, hf, .refl token⟩
    · trivial
    · trivial
    · rw [hp] at ht
      obtain ⟨row, hf, hk⟩ := ht
      refine ⟨row, hf, ?_⟩
      intro hlive
      exact (mem_matching hf).mpr ⟨hk.familyId_eq, hlive⟩
    all_goals trivial
  · trivial
  · trivial
  · trivial

theorem refreshStep_spends {now : Time} {h' : AuthHistory} {t t' : RefreshThread}
    (hs : refreshStep P now h t = some (h', t')) (hspends : t'.phase.spends) :
    t.phase.spends ∨ ∃ token hashes time, t.phase = .updated token hashes time ∧
      h' = { h with db := h.db.commitRevocation hashes time } := by
  rcases refreshStep_cases hs with ⟨phase, rfl, rfl, hphase⟩ | ⟨_, _, _, _, _, rfl⟩ |
    ⟨token, hashes, time, hp, rfl, rfl⟩ | ⟨_, _, _, _, _, _, _, hp, _, rfl, _⟩
  · rcases hphase with ⟨_, _, _, _, rfl⟩ | ⟨_, _, _, rfl⟩ | ⟨_, _, _, _, _, rfl⟩ |
      ⟨_, _, _, rfl⟩ | ⟨_, _, hp, _, rfl⟩ | ⟨_, _, _, hp, rfl⟩ | ⟨_, rfl⟩
    · exact hspends.elim
    · exact hspends.elim
    · exact hspends.elim
    · exact hspends.elim
    · exact Or.inl (by rw [hp]; trivial)
    · exact Or.inl (by rw [hp]; trivial)
    · exact hspends.elim
  · exact hspends.elim
  · exact Or.inr ⟨token, hashes, time, hp, rfl⟩
  · exact Or.inl (by rw [hp]; trivial)

variable [DecidableEq ι]

theorem SpentOnce.step {c : Pool ι AuthHistory RefreshThread} {i : ι} {now : Time}
    {r : AuthHistory × RefreshThread} (hc : SpentOnce P raw c) (hok : RotatesLiveRow P ⟨c, i, now⟩)
    (hs : refreshStep P now c.store (c.thread i) = some r) : SpentOnce P raw (c.set i r) := by
  obtain ⟨h', t'⟩ := r
  obtain ⟨issued, heff⟩ := refreshStep_effect hs
  have hself : ∀ j, j ≠ i → (c.set i (h', t')).thread j = c.thread j := fun j hj =>
    Pool.set_thread_ne c _ hj
  -- the mover is new among the spenders only when it has just revoked a live row
  have hnew : t'.phase.spends → (c.thread i).phase.spends ∨
      ¬c.store.db.TokenRevoked P raw ∧ h'.db.TokenRevoked P raw := by
    intro hspends
    rcases refreshStep_spends hs hspends with hold | ⟨token, hashes, time, hp, rfl⟩
    · exact Or.inl hold
    · have htracks := hc.tracks i
      rw [hp] at htracks
      obtain ⟨row, hf, hmatch⟩ := htracks
      have hlive := hok (by rw [hp]; rfl)
      rw [hc.presents i] at hlive
      obtain ⟨new, hn, hrev⟩ := commitRevocation_kills hf hmatch time
      exact Or.inr ⟨hlive, new, hn, hrev⟩
  refine ⟨?_, ?_, ?_, ?_⟩
  · refine Pool.forall_set (Q := fun t : RefreshThread => t.raw = raw) ?_ fun j _ => hc.presents j
    rw [refreshStep_raw hs, hc.presents i]
  · refine Pool.forall_set
      (Q := fun t : RefreshThread => t.phase.Tracks (P.hashRefreshToken raw) h'.db) ?_ fun j _ =>
        (hc.tracks j).effect heff
    have htracks := hc.tracks i
    rw [← hc.presents i] at htracks
    have hmine := refreshStep_tracks htracks hs
    rwa [hc.presents i] at hmine
  · intro j hspends
    by_cases hj : j = i
    · subst j
      rw [Pool.set_thread_self] at hspends
      rcases hnew hspends with hold | ⟨_, hdead⟩
      · exact tokenRevoked_of_effect heff (hc.revoked i hold)
      · exact hdead
    · rw [hself j hj] at hspends
      exact tokenRevoked_of_effect heff (hc.revoked j hspends)
  · intro j k hsj hsk
    by_cases hj : j = i <;> by_cases hk : k = i
    · rw [hj, hk]
    · subst j
      rw [Pool.set_thread_self] at hsj
      rw [hself k hk] at hsk
      rcases hnew hsj with hold | ⟨hlive, _⟩
      · exact hc.unique _ _ hold hsk
      · exact absurd (hc.revoked k hsk) hlive
    · subst k
      rw [Pool.set_thread_self] at hsk
      rw [hself j hj] at hsj
      rcases hnew hsk with hold | ⟨hlive, _⟩
      · exact hc.unique _ _ hsj hold
      · exact absurd (hc.revoked j hsj) hlive
    · rw [hself j hj] at hsj
      rw [hself k hk] at hsk
      exact hc.unique j k hsj hsk

/-- At most one call of the race has returned a pair. -/
def OnePairReturned (c : Pool ι AuthHistory RefreshThread) : Prop :=
  ∀ i j p q, (c.thread i).phase = .returned p → (c.thread j).phase = .returned q → i = j

theorem refresh_race_spends_once {c : Pool ι AuthHistory RefreshThread}
    {es : List (Event ι Time AuthHistory RefreshThread)}
    (path : Path (refreshStep P) (racers h raw calls) es c)
    (hok : ∀ e ∈ es, RotatesLiveRow P e) : OnePairReturned c := by
  have hspent : SpentOnce P raw c :=
    path.invariant spentOnce_racers (fun _ _ _ _ hc hok hs => hc.step hok hs) hok
  intro i j p q hi hj
  exact hspent.unique i j (by rw [hi]; trivial) (by rw [hj]; trivial)

/-- Two clients hold it and refresh at the same time. -/
def annRacers : Pool Bool AuthHistory RefreshThread :=
  racers annLoggedIn "first" fun b =>
    ({}, if b then ⟨4, "second", 4, 4, 4, 4⟩ else ⟨5, "third", 5, 5, 5, 5⟩)

/-- One after the other: the second call finds the token spent. -/
def oneByOne : List (Bool × Time) :=
  List.replicate 6 (true, 2) ++ List.replicate 3 (false, 3)

/-- Both read the row before either revokes it. -/
def bothReadFirst : List (Bool × Time) :=
  [(true, 2), (false, 3)] ++ List.replicate 5 (true, 4) ++ List.replicate 5 (false, 5)

theorem annRacers_oneByOne : ∃ es c, Path (refreshStep .plain) annRacers es c ∧
    (c.thread false).phase = .raised .refreshTokenReplay ∧ OnePairReturned c := by
  obtain ⟨es, c, hrun, hok, hraised⟩ : ∃ es c,
      exec (refreshStep .plain) [] annRacers oneByOne = some (es, c) ∧
      (∀ e ∈ es, RotatesLiveRow .plain e) ∧
      (c.thread false).phase = .raised .refreshTokenReplay := by
    refine ⟨_, _, rfl, ?_, rfl⟩
    decide
  have path := exec_path .start oneByOne hrun
  exact ⟨es, c, path, hraised, refresh_race_spends_once path hok⟩

/-- Both calls return a pair for the one token they presented. -/
theorem refresh_race_returns_two_pairs : ∃ es c, Path (refreshStep .plain) annRacers es c ∧
    ¬OnePairReturned c := by
  obtain ⟨es, c, hrun, p, q, hp, hq⟩ : ∃ es c,
      exec (refreshStep .plain) [] annRacers bothReadFirst = some (es, c) ∧
      ∃ p q, (c.thread true).phase = .returned p ∧ (c.thread false).phase = .returned q :=
    ⟨_, _, rfl, _, _, rfl, rfl⟩
  refine ⟨es, c, exec_path .start bothReadFirst hrun, ?_⟩
  intro hone
  exact absurd (hone true false p q hp hq) (by decide)

end JobRadar
