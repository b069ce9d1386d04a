import JobRadar.AuthEffects

namespace JobRadar

open Database

variable {P : Primitives} {allowed : AuthEnv → AuthOp → Prop}

/-- Every family has one row, and whatever was rotated is revoked and rotated once. -/
structure AuthHistory.Lineages (P : Primitives) (h : AuthHistory) : Prop where
  families : ∀ {a b ta tb}, h.db.refreshToken a = some ta → h.db.refreshToken b = some tb →
    ta.familyId = tb.familyId → a = b
  rotated : ∀ {raw raw'}, h.Successor raw raw' → h.db.TokenRevoked P raw
  issued : ∀ {raw raw'}, h.Successor raw raw' →
    ∃ token, h.db.refreshToken (P.hashRefreshToken raw') = some token
  once : ∀ {raw raw' raw''}, h.Successor raw raw' → h.Successor raw raw'' → raw' = raw''

theorem families_of_effect {db db' : AuthDb} {issued : Option RefreshToken}
    (heff : TokenEffect db db' issued)
    (hfresh : ∀ new ∈ issued, ∀ a ta, db.refreshToken a = some ta → ta.familyId ≠ new.familyId)
    (h : ∀ {a b ta tb}, db.refreshToken a = some ta → db.refreshToken b = some tb →
      ta.familyId = tb.familyId → a = b)
    {a b : String} {ta tb : RefreshToken} (ha : db'.refreshToken a = some ta)
    (hb : db'.refreshToken b = some tb) (he : ta.familyId = tb.familyId) : a = b := by
  rcases heff.backward ha with ⟨oa, hoa, hka⟩ | ⟨hia, hta, _⟩
  · rcases heff.backward hb with ⟨ob, hob, hkb⟩ | ⟨hib, _, _⟩
    · exact h hoa hob (by rw [← hka.familyId_eq, ← hkb.familyId_eq, he])
    · exact absurd (by rw [← hka.familyId_eq, he]) (hfresh tb hib a oa hoa)
  · rcases heff.backward hb with ⟨ob, hob, hkb⟩ | ⟨hib, htb, _⟩
    · exact absurd (by rw [← hkb.familyId_eq, ← he]) (hfresh ta hia b ob hob)
    · cases hia.symm.trans hib
      exact hta.symm.trans htb

theorem mem_rotation {e : AuthEnv} {db : AuthDb} {op : AuthOp} {raw raw' : String}
    (h : (raw, raw') ∈ db.rotation P e op) :
    op = .refresh raw ∧
      ∃ pair, db.reply P e (.refresh raw) = some pair ∧ raw' = pair.refresh := by
  cases op with
  | refresh presented =>
    obtain ⟨pair, hm, hp⟩ := List.mem_map.mp h
    obtain ⟨rfl, rfl⟩ := Prod.mk.inj hp
    exact ⟨rfl, pair, by simpa [Option.mem_toList] using hm, rfl⟩
  | _ => simp [AuthDb.rotation] at h

theorem reply_refresh {e : AuthEnv} {db : AuthDb} {raw : String} {pair : TokenPair}
    (h : db.reply P e (.refresh raw) = some pair) :
    ¬db.TokenRevoked P raw ∧ (db.commit P e (.refresh raw)).TokenRevoked P raw ∧
      ∃ token, (db.commit P e (.refresh raw)).refreshToken (P.hashRefreshToken pair.refresh) =
        some token := by
  rcases refresh_effect P e.cfg e.now e.draw db raw with
    ⟨hn, _⟩ | ⟨pair', user, sid, hr, hp, ⟨mid, _, _, _, hlook⟩, hrev⟩
  · rw [AuthDb.reply, hn] at h
    simp at h
  · have he : pair' = pair := by simpa [AuthDb.reply, hr, Except.toOption] using h
    subst pair'
    refine ⟨?_, hrev, newRefreshToken P e.cfg e.draw user sid, ?_⟩
    · rintro ⟨token, hf, hdead⟩
      rcases refresh_cases P e.cfg e.now e.draw db raw with
        ⟨hn, _⟩ | ⟨t, ht, ⟨_, hbad⟩ | ⟨hu, _⟩ | ⟨hu, _⟩⟩
      · simp [hf] at hn
      · simp [hbad] at hr
      · exact hdead (Option.some.inj (hf.symm.trans ht) ▸ hu.1)
      · exact hdead (Option.some.inj (hf.symm.trans ht) ▸ hu.1)
    · change (refresh P e.cfg e.now e.draw db raw).1.refreshToken _ = _
      rw [hlook, hp]
      exact if_pos rfl

theorem commit_issued (e : AuthEnv) (db : AuthDb) (op : AuthOp) :
    ∃ issued, TokenEffect db (db.commit P e op) issued ∧
      ∀ new ∈ issued, new.familyId = e.draw.familyId := by
  rcases commit_effect (P := P) (e := e) db op with ⟨_, he⟩ | ⟨_, user, sid, _, _, he⟩
  · exact ⟨none, he, by simp⟩
  · exact ⟨_, he, by simp [newRefreshToken]⟩

theorem AuthHistory.Lineages.step {h : AuthHistory} (hl : h.Lineages P) {e : AuthEnv}
    (fresh : FreshDraw P h.db e.draw) (op : AuthOp) : (h.step P e op).Lineages P := by
  obtain ⟨issued, heff, hissued⟩ := commit_issued (P := P) e h.db op
  refine ⟨?_, ?_, ?_, ?_⟩
  · intro a b ta tb ha hb he
    refine families_of_effect heff ?_ hl.families ha hb he
    intro new hnew a ta hta
    rw [hissued new hnew]
    exact fresh.familyId a ta hta
  · intro raw raw' hs
    rcases List.mem_append.mp hs with hnew | hold
    · obtain ⟨rfl, pair, hreply, _⟩ := mem_rotation hnew
      exact (reply_refresh hreply).2.1
    · exact tokenRevoked_of_effect heff (hl.rotated hold)
  · intro raw raw' hs
    rcases List.mem_append.mp hs with hnew | hold
    · obtain ⟨rfl, pair, hreply, rfl⟩ := mem_rotation hnew
      exact (reply_refresh hreply).2.2
    · obtain ⟨token, hf⟩ := hl.issued hold
      obtain ⟨new, hn, _⟩ := heff.forward hf
      exact ⟨new, hn⟩
  · intro raw raw' raw'' hs hs'
    rcases List.mem_append.mp hs with hnew | hold <;>
      rcases List.mem_append.mp hs' with hnew' | hold'
    · obtain ⟨rfl, pair, hreply, rfl⟩ := mem_rotation hnew
      obtain ⟨_, pair', hreply', rfl⟩ := mem_rotation hnew'
      cases hreply.symm.trans hreply'
      rfl
    · obtain ⟨rfl, pair, hreply, rfl⟩ := mem_rotation hnew
      exact absurd (hl.rotated hold') (reply_refresh hreply).1
    · obtain ⟨rfl, pair, hreply, rfl⟩ := mem_rotation hnew'
      exact absurd (hl.rotated hold) (reply_refresh hreply).1
    · exact hl.once hold hold'

theorem refreshToken_empty {db : AuthDb} (h : db.tokens = .empty) (tokenHash : String) :
    db.refreshToken tokenHash = none := by
  rw [AuthDb.refreshToken, h]
  rfl

theorem reachable_lineages {h : AuthHistory} (reach : Reachable P allowed h) : h.Lineages P := by
  induction reach with
  | init htokens _ =>
    refine ⟨?_, ?_, ?_, ?_⟩
    · intro a b ta tb ha
      simp [refreshToken_empty htokens] at ha
    all_goals simp [AuthHistory.Successor]
  | step e op _ _ fresh ih => exact ih.step fresh op

theorem successor_unique {h : AuthHistory} (reach : Reachable P allowed h) {raw a b : String}
    (ha : h.Successor raw a) (hb : h.Successor raw b) : a = b :=
  (reachable_lineages reach).once ha hb

theorem refresh_replay {e : AuthEnv} {h : AuthHistory} (hl : h.Lineages P) {raw : String}
    (hrev : h.db.TokenRevoked P raw) :
    refresh P e.cfg e.now e.draw h.db raw = (h.db, .error .refreshTokenReplay) := by
  obtain ⟨token, hf, hdead⟩ := hrev
  have hsame : h.db.revokeTokens token.familyId e.now = h.db := by
    have htable : h.db.tokens.updateWhere
        (fun t => t.familyId = token.familyId ∧ t.revokedAt = none) (·.revoke e.now)
        (fun _ => rfl) = h.db.tokens := by
      apply Table.updateWhere_eq_self
      rintro t ht ⟨hfam, hlive⟩
      have hlook : h.db.refreshToken t.tokenHash = some t := Table.find_of_mem ht
      have hhash := hl.families hlook hf hfam
      rw [hhash, hf] at hlook
      exact hdead (Option.some.inj hlook ▸ hlive)
    simp [AuthDb.revokeTokens, AuthDb.revokeTokensWhere, htable]
  have hbad : ¬token.usable e.now := fun hu => hdead hu.1
  simp [refresh, hf, hbad, hsame, RefreshToken.refusal, hdead]

/-- What reuse detection promises: the replay raises, and all that descends from the
presented token is revoked in the state the call leaves. -/
def ReplayRevokesLineage (P : Primitives) (e : AuthEnv) (h : AuthHistory) (raw : String) : Prop :=
  (∃ err, (refresh P e.cfg e.now e.draw h.db raw).2 = .error err) ∧
    ∀ raw', h.Descends raw raw' → (refresh P e.cfg e.now e.draw h.db raw).1.TokenRevoked P raw'

/-- The newest token of the lineage of `raw` is dead already. -/
def LineageSpent (P : Primitives) (h : AuthHistory) (raw : String) : Prop :=
  ∀ newest, h.Descends raw newest → (∀ next, ¬h.Successor newest next) →
    h.db.TokenRevoked P newest

theorem replay_revokes_lineage_iff {h : AuthHistory} (reach : Reachable P allowed h) (e : AuthEnv)
    {raw : String} (hrev : h.db.TokenRevoked P raw) :
    ReplayRevokesLineage P e h raw ↔ LineageSpent P h raw := by
  have hl := reachable_lineages reach
  rw [ReplayRevokesLineage, refresh_replay hl hrev]
  constructor
  · rintro ⟨_, hall⟩ newest hd _
    exact hall newest hd
  · intro hspent
    refine ⟨⟨_, rfl⟩, ?_⟩
    intro raw' hd
    by_cases hnext : ∃ next, h.Successor raw' next
    · obtain ⟨next, hs⟩ := hnext
      exact hl.rotated hs
    · exact hspent raw' hd fun next hs => hnext ⟨next, hs⟩

def AuthOp.handlesTokens : AuthOp → Bool
  | .login _ _ _ | .refresh _ | .logout _ => true
  | _ => false

def annRotated : AuthHistory :=
  (AuthHistory.step .plain (callAt 1 "first" {}) { db := annDb }
    (.login "ann@example.com" "correct horse" {})).step .plain (callAt 2 "second" {})
    (.refresh "first")

theorem annRotated_reachable :
    Reachable .plain (fun _ op => op.handlesTokens = true) annRotated :=
  .step _ _ (.step _ _ (.init rfl rfl) rfl (freshDraw_of_rows (by decide) (by decide))) rfl
    (freshDraw_of_rows (by decide) (by decide))

theorem annRotated_replay_iff :
    ReplayRevokesLineage .plain (callAt 3 "third" {}) annRotated "first" ↔
      LineageSpent .plain annRotated "first" :=
  replay_revokes_lineage_iff annRotated_reachable _ ⟨_, rfl, by decide⟩

/-- The thief replays the first token: the call raises, and the second token stays live. -/
theorem replay_spares_successor :
    Reachable .plain (fun _ op => op.handlesTokens = true) annRotated ∧
      annRotated.db.TokenRevoked .plain "first" ∧
      ¬ReplayRevokesLineage .plain (callAt 3 "third" {}) annRotated "first" := by
  refine ⟨annRotated_reachable, ⟨_, rfl, by decide⟩, ?_⟩
  rintro ⟨_, hall⟩
  obtain ⟨token, hf, hdead⟩ := hall "second"
    (.single (show ("first", "second") ∈ annRotated.rotations by decide))
  cases Option.some.inj hf
  exact hdead rfl

end JobRadar
