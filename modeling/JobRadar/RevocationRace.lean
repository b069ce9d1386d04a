import JobRadar.RevocationThreads

namespace JobRadar

open Database Interleave

structure RefreshCall where
  cfg : Settings
  raw : String
  draw : TokenDraw

abbrev AuthThread := RefreshThread ⊕ RevokeThread

def authStep (P : Primitives) : Atomic Time AuthHistory AuthThread :=
  (refreshStep P).either (revokeStep P)

/-- One revoking call, the thread `none`, among any number of refresh calls. -/
def contest {ι : Type} (h : AuthHistory) (cfg : Settings) (request : RevocationRequest)
    (calls : ι → RefreshCall) : Pool (Option ι) AuthHistory AuthThread where
  store := h
  thread
    | none => .inr { cfg := cfg, request := request }
    | some i => .inl { cfg := (calls i).cfg, raw := (calls i).raw, draw := (calls i).draw }

/-- The tokens a request asks to revoke in a state: those of a session, of the other sessions
or of the user. A logout means the session of the presented token, and its family when the
route looks at no session. -/
def RevocationRequest.clause (P : Primitives) (cfg : Settings) (db : AuthDb) :
    RevocationRequest → Option TokenClause
  | .session _ s => some (.session s)
  | .others userId current => current.map fun current => .others userId current
  | .logout raw => (db.refreshToken (P.hashRefreshToken raw)).map fun token =>
    match cfg.authSessionManagementEnabled, token.sessionId with
    | true, some s => .session s
    | _, _ => .family token.familyId
  | .reset _ email _ _ => (db.userByEmail P (P.lower email)).map fun user => .user user.id

/-- The token was to be revoked in the state `h₁` the request met, or descends from one
that was. -/
def InLineage (P : Primitives) (cfg : Settings) (request : RevocationRequest)
    (h₁ h : AuthHistory) (raw : String) : Prop :=
  ∃ clause target row, request.clause P cfg h₁.db = some clause ∧
    h₁.db.refreshToken (P.hashRefreshToken target) = some row ∧ clause.holds row ∧
    Relation.ReflTransGen h.Successor target raw

/-- No token of the lineage is left unrevoked. -/
def RevocationWon (P : Primitives) (cfg : Settings) (request : RevocationRequest)
    (h₁ h : AuthHistory) : Prop :=
  ∀ raw, InLineage P cfg request h₁ h raw → h.db.TokenRevoked P raw

/-- The next statement of the call inserts the new token. -/
def RefreshPhase.inserts : RefreshPhase → Bool
  | .authorized _ _ _ => true
  | _ => false

/-- The last statement that matches tokens has been executed. -/
def RevokePhase.settled : RevokePhase → Bool
  | .tokensUpdated _ _ _ _ | .updated _ | .done => true
  | _ => false

/-- A successor is not inserted into the lineage once the revoking statement has run. -/
def InsertsInTime {ι : Type} (P : Primitives)
    (e : Event (Option ι) Time AuthHistory AuthThread) : Prop :=
  ∀ t v h₁, e.before.thread e.mover = .inl t → e.before.thread none = .inr v →
    v.seen = some h₁ → t.phase.inserts = true → v.phase.settled = true →
    ¬InLineage P v.cfg v.request h₁ e.before.store t.raw

/-- A logout that looks at no session finds every live token of the lineage in the family. -/
def LogoutReachesLineage {ι : Type} (P : Primitives)
    (e : Event (Option ι) Time AuthHistory AuthThread) : Prop :=
  ∀ v h₁ token, e.before.thread e.mover = .inr v → v.seen = some h₁ →
    v.phase = .tokenRead token →
    v.cfg.authSessionManagementEnabled = true ∧ token.sessionId ≠ none ∨
      ∀ raw row, InLineage P v.cfg v.request h₁ e.before.store raw →
        e.before.store.db.refreshToken (P.hashRefreshToken raw) = some row →
        row.revokedAt = none → row.familyId = token.familyId

def AuthDb.KeepsRows (db db' : AuthDb) : Prop :=
  ∀ tokenHash row, db.refreshToken tokenHash = some row →
    ∃ row', db'.refreshToken tokenHash = some row' ∧ row.Kept row'

/-- Every lineage token that is still live is among the matched rows. -/
def Matched (P : Primitives) (cfg : Settings) (request : RevocationRequest)
    (h₁ h : AuthHistory) (hashes : List String) : Prop :=
  ∀ raw, InLineage P cfg request h₁ h raw →
    ∃ row, h.db.refreshToken (P.hashRefreshToken raw) = some row ∧
      (row.revokedAt = none → P.hashRefreshToken raw ∈ hashes)

/-- The clauses that a token hands on to its successors. -/
def TokenClause.heritable : TokenClause → Bool
  | .family _ => false
  | _ => true

def RevokePhase.Sound (P : Primitives) (cfg : Settings) (request : RevocationRequest)
    (h₁ h : AuthHistory) : RevokePhase → Prop
  | .start => True
  | .marked _ clause _ _ => request.clause P cfg h₁.db = some clause ∧ clause.heritable = true
  | .tokenRead token => h.db.Owns token ∧ ∃ raw, request = .logout raw ∧
      h₁.db.refreshToken (P.hashRefreshToken raw) = some token
  | .familyUpdated token s _ _ => h.db.Owns token ∧ token.sessionId = some s ∧
      request.clause P cfg h₁.db = some (.session s)
  | .userRead user => request.clause P cfg h₁.db = some (.user user.id)
  | .codeRead user _ _ => request.clause P cfg h₁.db = some (.user user.id)
  | .tokensUpdated _ _ hashes _ => Matched P cfg request h₁ h hashes
  | .updated w => Matched P cfg request h₁ h (w.family ++ w.tokens)
  | .done => RevocationWon P cfg request h₁ h
  | .raised _ => True

section Lineage

variable {P : Primitives} {cfg : Settings} {request : RevocationRequest} {h₁ h h' : AuthHistory}
  {raw : String} {clause : TokenClause} {old new : RefreshToken}

theorem TokenClause.holds_kept (hold : clause.holds old) (hk : old.Kept new) :
    clause.holds new := by
  cases clause with
  | session s => exact hk.sessionId_eq.trans hold
  | others userId current =>
    obtain ⟨hu, hs⟩ := hold
    exact ⟨hk.userId_eq.trans hu, by rwa [hk.sessionId_eq]⟩
  | user userId => exact hk.userId_eq.trans hold
  | family familyId => exact hk.familyId_eq.trans hold

theorem TokenClause.holds_inherits (hher : clause.heritable = true) (hold : clause.holds old)
    (hi : old.Inherits new) : clause.holds new := by
  obtain ⟨huser, hsession⟩ := hi
  cases clause with
  | session s => exact hsession s hold
  | others userId current =>
    obtain ⟨hu, s, hs, hne⟩ := hold
    exact ⟨huser.trans hu, s, hsession s hs, hne⟩
  | user userId => exact huser.trans hold
  | family familyId => simp [heritable] at hher

theorem lineage_holds (hkept : h₁.db.KeepsRows h.db) (hinh : h.Inherited P)
    (hclause : request.clause P cfg h₁.db = some clause) (hher : clause.heritable = true)
    (hl : InLineage P cfg request h₁ h raw) :
    ∃ row, h.db.refreshToken (P.hashRefreshToken raw) = some row ∧ clause.holds row := by
  obtain ⟨clause', target, row₀, hc, ht, hold, hpath⟩ := hl
  cases Option.some.inj (hclause.symm.trans hc)
  induction hpath with
  | refl =>
    obtain ⟨row, hf, hk⟩ := hkept _ row₀ ht
    exact ⟨row, hf, clause.holds_kept hold hk⟩
  | tail _ hs ih =>
    obtain ⟨row, hf, hrow⟩ := ih
    obtain ⟨token, new, htoken, hnew, hi⟩ := hinh _ _ hs
    cases Option.some.inj (htoken.symm.trans hf)
    exact ⟨new, hnew, clause.holds_inherits hher hrow hi⟩

theorem lineage_congr (hrot : h'.rotations = h.rotations)
    (hl : InLineage P cfg request h₁ h' raw) : InLineage P cfg request h₁ h raw := by
  obtain ⟨clause, target, row, hc, ht, hold, hpath⟩ := hl
  have hsame : h'.Successor = h.Successor := by
    funext a b
    simp only [AuthHistory.Successor, hrot]
  exact ⟨clause, target, row, hc, ht, hold, hsame ▸ hpath⟩

theorem lineage_cons {presented issued : String}
    (hrot : h'.rotations = (presented, issued) :: h.rotations)
    (hout : ¬InLineage P cfg request h₁ h presented)
    (hl : InLineage P cfg request h₁ h' raw) : InLineage P cfg request h₁ h raw := by
  obtain ⟨clause, target, row, hc, ht, hold, hpath⟩ := hl
  refine ⟨clause, target, row, hc, ht, hold, ?_⟩
  induction hpath with
  | refl => exact .refl
  | @tail b c _ hs ih =>
    rw [AuthHistory.Successor, hrot] at hs
    rcases List.mem_cons.mp hs with hnew | hs
    · obtain ⟨rfl, rfl⟩ := Prod.mk.inj hnew
      exact absurd ⟨clause, target, row, hc, ht, hold, ih⟩ hout
    · exact ih.tail hs

theorem Matched.mono {hashes : List String} (hm : Matched P cfg request h₁ h hashes)
    (hkeep : h.db.KeepsRows h'.db)
    (hlin : ∀ raw, InLineage P cfg request h₁ h' raw → InLineage P cfg request h₁ h raw) :
    Matched P cfg request h₁ h' hashes := by
  intro raw hl
  obtain ⟨row, hf, hmem⟩ := hm raw (hlin raw hl)
  obtain ⟨row', hf', hk⟩ := hkeep _ row hf
  exact ⟨row', hf', fun hlive => hmem (hk.live hlive ▸ hlive)⟩

theorem RevocationWon.mono (hw : RevocationWon P cfg request h₁ h)
    (hkeep : h.db.KeepsRows h'.db)
    (hlin : ∀ raw, InLineage P cfg request h₁ h' raw → InLineage P cfg request h₁ h raw) :
    RevocationWon P cfg request h₁ h' := by
  intro raw hl
  obtain ⟨row, hf, hrev⟩ := hw raw (hlin raw hl)
  obtain ⟨row', hf', hk⟩ := hkeep _ row hf
  exact ⟨row', hf', by rwa [hk.revoked hrev]⟩

end Lineage

end JobRadar
