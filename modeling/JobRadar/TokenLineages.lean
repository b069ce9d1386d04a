import JobRadar.RefreshReplay
import JobRadar.Sequence

namespace JobRadar

open Database Sequence

def AuthDb.returned (P : Primitives) (c : Call (AuthEnv × AuthOp) AuthDb) : Option TokenPair :=
  c.before.reply P c.call.1 c.call.2

/-- The token that a call returned for one of the presented ones. -/
def rotatedFrom (P : Primitives) (line : List String) (c : Call (AuthEnv × AuthOp) AuthDb) :
    Option String :=
  match c.call.2 with
  | .refresh presented =>
    if presented ∈ line then (AuthDb.returned P c).map TokenPair.refresh else none
  | _ => none

/-- A token and its successors through the calls, the most recently issued first. -/
def lineage (P : Primitives) (raw : String) : List (Call (AuthEnv × AuthOp) AuthDb) → List String
  | [] => [raw]
  | c :: earlier => (rotatedFrom P (lineage P raw earlier) c).toList ++ lineage P raw earlier

def AuthDb.TokenLive (P : Primitives) (db : AuthDb) (raw : String) : Prop :=
  ∃ token, db.refreshToken (P.hashRefreshToken raw) = some token ∧ token.revokedAt = none

/-- The tokens have rows of their own, and all but the latest are revoked. -/
structure AuthDb.Line (P : Primitives) (db : AuthDb) (line : List String) : Prop where
  stored : ∀ raw ∈ line, db.refreshToken (P.hashRefreshToken raw) ≠ none
  nodup : line.Nodup
  spent : ∀ raw ∈ line.tail, db.TokenRevoked P raw

section Lines

variable {P : Primitives} {db db₀ : AuthDb} {line : List String}

theorem mem_rotatedFrom {c : Call (AuthEnv × AuthOp) AuthDb} {issued : String}
    (h : rotatedFrom P line c = some issued) :
    ∃ presented ∈ line, ∃ pair, c.call.2 = .refresh presented ∧
      AuthDb.returned P c = some pair ∧ pair.refresh = issued := by
  unfold rotatedFrom at h
  split at h
  next presented hop =>
    split at h
    next hmem =>
      obtain ⟨pair, hpair, rfl⟩ := Option.map_eq_some_iff.mp h
      exact ⟨presented, hmem, pair, hop, hpair, rfl⟩
    next => cases h
  next => cases h

theorem returned_new {e : AuthEnv} {op : AuthOp} {pair : TokenPair}
    (h : db.reply P e op = some pair) :
    db.refreshToken (P.hashRefreshToken pair.refresh) = none := by
  rcases commit_effect (P := P) (e := e) db op with
    ⟨hnone, _⟩ | ⟨pair', user, sid, hreply, hdraw, mid, hmid, _, hnew, _⟩
  · rw [hnone] at h
    cases h
  · rw [hreply] at h
    cases h
    rw [hdraw]
    exact hmid.none_iff.mp hnew

theorem returned_stored {e : AuthEnv} {op : AuthOp} {pair : TokenPair}
    (h : db.reply P e op = some pair) :
    (db.commit P e op).refreshToken (P.hashRefreshToken pair.refresh) ≠ none := by
  rcases commit_effect (P := P) (e := e) db op with
    ⟨hnone, _⟩ | ⟨pair', user, sid, hreply, hdraw, mid, _, _, _, hlook⟩
  · rw [hnone] at h
    cases h
  · rw [hreply] at h
    cases h
    have hfind := (hlook (P.hashRefreshToken pair.refresh)).trans (if_pos (congrArg _ hdraw))
    rw [hfind]
    exact Option.some_ne_none _

theorem exists_effect (db : AuthDb) (e : AuthEnv) (op : AuthOp) :
    ∃ issued, TokenEffect db (db.commit P e op) issued := by
  rcases commit_effect (P := P) (e := e) db op with ⟨_, h⟩ | ⟨_, _, _, _, _, h⟩
  · exact ⟨_, h⟩
  · exact ⟨_, h⟩

theorem AuthDb.Line.kept (h : db.Line P line) (e : AuthEnv) (op : AuthOp) :
    (db.commit P e op).Line P line := by
  obtain ⟨issued, heff⟩ := exists_effect (P := P) db e op
  refine ⟨?_, h.nodup, ?_⟩
  · intro raw hraw
    obtain ⟨token, hfind⟩ := Option.ne_none_iff_exists'.mp (h.stored raw hraw)
    obtain ⟨new, hnew, _⟩ := heff.forward hfind
    rw [hnew]
    exact Option.some_ne_none new
  · intro raw hraw
    exact tokenRevoked_of_effect heff (h.spent raw hraw)

theorem AuthDb.Line.rotate (h : db.Line P line) {e : AuthEnv} {presented : String}
    {pair : TokenPair} (hmem : presented ∈ line)
    (hreply : db.reply P e (.refresh presented) = some pair) :
    (db.commit P e (.refresh presented)).Line P (pair.refresh :: line) := by
  obtain ⟨hlive, hspent, token, hstored⟩ := reply_refresh hreply
  have hkept := h.kept e (.refresh presented)
  refine ⟨?_, ?_, ?_⟩
  · intro raw hraw
    rcases List.mem_cons.mp hraw with rfl | hraw
    · rw [hstored]
      exact Option.some_ne_none token
    · exact hkept.stored raw hraw
  · apply List.nodup_cons.mpr
    refine ⟨?_, h.nodup⟩
    intro hold
    exact h.stored _ hold (returned_new hreply)
  · intro raw hraw
    cases line with
    | nil => cases hraw
    | cons latest older =>
      have hlatest : presented = latest := by
        rcases List.mem_cons.mp hmem with he | hold
        · exact he
        · exact absurd (h.spent presented hold) hlive
      rcases List.mem_cons.mp hraw with rfl | hold
      · exact hlatest ▸ hspent
      · exact hkept.spent raw hold

theorem AuthDb.Line.call {raw : String} {calls : List (Call (AuthEnv × AuthOp) AuthDb)}
    (h : db.Line P (lineage P raw calls)) (c : AuthEnv × AuthOp) :
    (db.call P c).Line P (lineage P raw (⟨db, c⟩ :: calls)) := by
  obtain ⟨e, op⟩ := c
  simp only [lineage]
  cases hrotated : rotatedFrom P (lineage P raw calls) ⟨db, e, op⟩ with
  | none => exact h.kept e op
  | some issued =>
    obtain ⟨presented, hmem, pair, hop, hreply, rfl⟩ := mem_rotatedFrom hrotated
    obtain rfl : op = .refresh presented := hop
    exact h.rotate hmem hreply

theorem AuthDb.Line.run {raw : String} {calls : List (Call (AuthEnv × AuthOp) AuthDb)}
    (hstored : db₀.refreshToken (P.hashRefreshToken raw) ≠ none)
    (run : Run (AuthDb.call P) db₀ calls db) : db.Line P (lineage P raw calls) := by
  induction run with
  | start => exact ⟨by simpa [lineage] using hstored, by simp [lineage], by simp [lineage]⟩
  | next c _ ih => exact ih.call c

theorem AuthDb.Line.live_eq_head (h : db.Line P line) {raw : String} (hmem : raw ∈ line)
    (hlive : db.TokenLive P raw) : line.head? = some raw := by
  obtain ⟨token, hfind, hunset⟩ := hlive
  cases line with
  | nil => cases hmem
  | cons latest older =>
    rcases List.mem_cons.mp hmem with rfl | hold
    · rfl
    · obtain ⟨dead, hdead, hrevoked⟩ := h.spent raw hold
      rw [hfind] at hdead
      cases hdead
      exact absurd hunset hrevoked

theorem revoked_kept {calls : List (Call (AuthEnv × AuthOp) AuthDb)}
    (run : Run (AuthDb.call P) db₀ calls db) : ∀ c ∈ calls, ∀ tokenHash token,
      c.before.refreshToken tokenHash = some token → token.revokedAt ≠ none →
      db.refreshToken tokenHash = some token := by
  induction run with
  | start => simp
  | @next calls db call run ih =>
    have hstep : ∀ tokenHash token, db.refreshToken tokenHash = some token →
        token.revokedAt ≠ none → (db.call P call).refreshToken tokenHash = some token := by
      intro tokenHash token hfind hrevoked
      obtain ⟨issued, heff⟩ := exists_effect (P := P) db call.1 call.2
      obtain ⟨new, hnew, hkept⟩ := heff.forward hfind
      rw [hkept.revoked hrevoked] at hnew
      exact hnew
    intro c hc tokenHash token hfind hrevoked
    rcases List.mem_cons.mp hc with rfl | hc
    · exact hstep tokenHash token hfind hrevoked
    · exact hstep tokenHash token (ih c hc tokenHash token hfind hrevoked) hrevoked

end Lines

/-- Of the token that a login returned and its successors at most one is live, and it is the most
recently issued; and what is revoked stays as it is. -/
theorem one_live_token {P : Primitives} {db₀ db before : AuthDb} {e : AuthEnv}
    {email password : String} {metadata : SessionMetadata} {pair : TokenPair}
    {earlier later : List (Call (AuthEnv × AuthOp) AuthDb)}
    (run : Run (AuthDb.call P) db₀
      (later ++ ⟨before, e, .login email password metadata⟩ :: earlier) db)
    (hlogin : before.reply P e (.login email password metadata) = some pair) :
    (∀ a ∈ lineage P pair.refresh later, ∀ b ∈ lineage P pair.refresh later,
      db.TokenLive P a → db.TokenLive P b → a = b) ∧
    (∀ a ∈ lineage P pair.refresh later, db.TokenLive P a →
      (lineage P pair.refresh later).head? = some a) ∧
    ∀ c ∈ later ++ ⟨before, e, .login email password metadata⟩ :: earlier, ∀ tokenHash token,
      c.before.refreshToken tokenHash = some token → token.revokedAt ≠ none →
      db.refreshToken tokenHash = some token := by
  obtain ⟨_, hlater⟩ := run.split
  have hline := AuthDb.Line.run (returned_stored hlogin) hlater
  refine ⟨?_, ?_, revoked_kept run⟩
  · intro a ha b hb hlive hlive'
    have hhead := hline.live_eq_head ha hlive
    rw [hline.live_eq_head hb hlive'] at hhead
    exact (Option.some.inj hhead).symm
  · intro a ha hlive
    exact hline.live_eq_head ha hlive

/-- Ann logs in and rotates her token twice; in between the first one is replayed. -/
def annRotates : List (Call (AuthEnv × AuthOp) AuthDb) × AuthDb :=
  runAll (AuthDb.call .plain) [] annLoggedIn.db
    [(callAt 2 "second" {}, .refresh "first"), (callAt 3 "lost" {}, .refresh "first"),
      (callAt 4 "third" {}, .refresh "second")]

theorem annRotates_live : lineage .plain "first" annRotates.1 = ["third", "second", "first"] ∧
    ∀ a ∈ lineage .plain "first" annRotates.1, annRotates.2.TokenLive .plain a →
      (lineage .plain "first" annRotates.1).head? = some a := by
  have run : Run (AuthDb.call .plain) annDb (annRotates.1 ++
      [⟨annDb, callAt 1 "first" {}, .login "ann@example.com" "correct horse" {}⟩])
      annRotates.2 :=
    (Run.next _ .start).append (run_runAll .start _)
  exact ⟨by decide, (one_live_token run rfl).2.1⟩

end JobRadar
