import JobRadar.MatchReproduction
import JobRadar.NotificationModel
import JobRadar.PerfectMatch

namespace JobRadar

open Database Python Sequence

/-- The calls that match jobs and change what they are matched on, and the delivery of a match to a
user. -/
inductive DeliveryOp
  | matching (op : MatchingOp)
  | deliver (userId profileId : Uuid) (m : MatchResult) (channel : String) (reply : ProviderReply)

/-- The tables, and the job of every match as it was when it was matched. -/
structure DeliveryHistory where
  db : RadarDb
  notifications : NotificationStore
  matched : List (MatchResult × Job) := []

namespace DeliveryHistory

/-- The matches that a call adds, with the job it evaluated. -/
def additions (u : Casefold) (first : FirstRow Job) (db : RadarDb) (op : MatchingOp) :
    List (MatchResult × Job) :=
  match MatchHistory.target db op with
  | none => []
  | some (job, _) =>
    ((MatchHistory.stepDb u first db op).matchResults.drop db.matchResults.length).map
      fun m => (m, job)

/-- The delivery that the call makes for the match. -/
def delivery (h : DeliveryHistory) (userId profileId : Uuid) (m : MatchResult) (channel : String)
    (reply : ProviderReply) :
    NotificationStore × Bool × Except NotificationError (Option NotificationDelivery) :=
  JobRadar.deliver h.notifications ⟨userId, m.jobId, profileId, channel⟩ m.decision reply

def step (u : Casefold) (first : FirstRow Job) (h : DeliveryHistory) :
    DeliveryOp → DeliveryHistory
  | .matching op =>
    { h with
      db := MatchHistory.stepDb u first h.db op
      matched := additions u first h.db op ++ h.matched }
  | .deliver userId profileId m channel reply =>
    { h with notifications := (h.delivery userId profileId m channel reply).1 }

/-- A call that comes to `send` is for a job that the rules notify the user's active profile of. -/
def NotifiesCurrent (u : Casefold) (c : Call DeliveryOp DeliveryHistory) : Prop :=
  ∀ userId profileId m channel reply, c.call = .deliver userId profileId m channel reply →
    (c.before.delivery userId profileId m channel reply).2.1 = true →
    ∃ job profile, c.before.db.jobs.jobs.find m.jobId = some job ∧
      c.before.db.getActiveProfile userId = some profile ∧ Notified u job profile.config ∧
      ∀ term ∈ profile.config.exclusions, ¬job.mentions u term

def DeliversStored (c : Call DeliveryOp DeliveryHistory) : Prop :=
  ∀ userId profileId m channel reply, c.call = .deliver userId profileId m channel reply →
    m ∈ c.before.db.matchResults

/-- Where there is something to send, the job has the title, the description and the locations the
match was made with, and the profile of the match is the user's active one. -/
def UnchangedSince (c : Call DeliveryOp DeliveryHistory) : Prop :=
  ∀ userId profileId m channel reply, c.call = .deliver userId profileId m channel reply →
    m.decision = .notify →
    c.before.notifications.Undelivered ⟨userId, m.jobId, profileId, channel⟩ →
    (∀ old, (m, old) ∈ c.before.matched →
      ∃ job ∈ c.before.db.jobs.jobs, job.id = m.jobId ∧ job.toJobContent = old.toJobContent) ∧
    ∃ profile, c.before.db.getActiveProfile userId = some profile ∧
      profile.id = m.preferenceProfileId

/-- Every stored match has its job on record, which is a row with another content, and its
profile. -/
structure Recorded (u : Casefold) (h : DeliveryHistory) : Prop where
  stored : ∀ m ∈ h.db.matchResults, ∃ old, (m, old) ∈ h.matched
  rules : ∀ m old, (m, old) ∈ h.matched → ∃ p ∈ h.db.profiles,
    p.id = m.preferenceProfileId ∧ evaluateRules u old p.config = some m.toMatchDecision
  rows : ∀ m old, (m, old) ∈ h.matched → old.id = m.jobId ∧
    ∃ job ∈ h.db.jobs.jobs, job.id = old.id ∧ job.update old.toJobContent = old

section Step

variable {u : Casefold} {first : FirstRow Job} {h : DeliveryHistory} {db : RadarDb}

theorem not_mentions_of_notified {job : Job} {p : PreferenceInput} (hnotified : Notified u job p) :
    ∀ term ∈ p.exclusions, ¬job.mentions u term := by
  obtain ⟨d, hd, hnotify⟩ := hnotified
  simp only [evaluateRules, Option.bind_eq_bind, Option.bind_eq_some_iff, Option.pure_def] at hd
  obtain ⟨location, _, hd⟩ := hd
  cases hd
  dsimp only at hnotify
  split at hnotify
  next => cases hnotify
  next hnone => exact List.filter_eq_nil_iff.mp (not_not.mp hnone)

theorem stepDb_frame (u : Casefold) (first : FirstRow Job) {op : MatchingOp}
    (htarget : MatchHistory.target db op = none) :
    (MatchHistory.stepDb u first db op).matchResults = db.matchResults ∧
    (∀ p ∈ db.profiles, ∃ p' ∈ (MatchHistory.stepDb u first db op).profiles,
      p'.id = p.id ∧ p'.config = p.config) ∧
    ∀ job ∈ db.jobs.jobs, ∃ row ∈ (MatchHistory.stepDb u first db op).jobs.jobs,
      row.id = job.id ∧ ∀ content, row.update content = job.update content := by
  have hkeep : ∀ p ∈ db.profiles, ∃ p' ∈ db.profiles, p'.id = p.id ∧ p'.config = p.config :=
    fun p hp => ⟨p, hp, rfl, rfl⟩
  have hsame : ∀ job ∈ db.jobs.jobs, ∃ row ∈ db.jobs.jobs,
      row.id = job.id ∧ ∀ content, row.update content = job.update content :=
    fun job hjob => ⟨job, hjob, rfl, fun _ => rfl⟩
  cases op with
  | evaluate matchId jobId profileId now =>
    dsimp only [MatchHistory.stepDb]
    rw [htarget]
    exact ⟨rfl, hkeep, hsame⟩
  | radar op =>
    cases op with
    | createSource source =>
      dsimp only [MatchHistory.stepDb, RadarDb.step]
      split
      next => exact ⟨rfl, hkeep, hsame⟩
      next => exact ⟨rfl, hkeep, hsame⟩
    | upsert sourceId candidate =>
      dsimp only [MatchHistory.stepDb, RadarDb.step]
      split
      next => exact ⟨rfl, hkeep, hsame⟩
      next jobs rest hupsert =>
        obtain ⟨job, created, changed⟩ := rest
        refine ⟨rfl, hkeep, ?_⟩
        intro row hrow
        rcases JobStore.upsert_cases hupsert with
          ⟨jobs', record, _, _, hinsert, _, rfl⟩ | ⟨record, _, _, _, rfl⟩ |
            ⟨found, content, record, _, _, _, _, _, rfl⟩
        · exact ⟨row, (Table.mem_of_insert hinsert).mpr (Or.inl hrow), rfl, fun _ => rfl⟩
        · exact ⟨row, hrow, rfl, fun _ => rfl⟩
        · refine ⟨_, JobStore.mem_updated hrow found content, ?_⟩
          split
          next => exact ⟨rfl, fun _ => rfl⟩
          next => exact ⟨rfl, fun _ => rfl⟩
    | updatePreferences userId profileId config =>
      have hprofiles := MatchHistory.updatePreferences_profiles db userId profileId config
      obtain ⟨profiles, hdb⟩ := db.updatePreferences_frame userId profileId config
      dsimp only [MatchHistory.stepDb, RadarDb.step]
      rw [hdb] at hprofiles ⊢
      exact ⟨rfl, hprofiles, hsame⟩
    | matchJob matchId jobId userId now =>
      dsimp only [MatchHistory.stepDb, RadarDb.step]
      rw [MatchHistory.matchJob_missing htarget]
      exact ⟨rfl, hkeep, hsame⟩
    | feedback userId jobId label note =>
      obtain ⟨feedback, hdb⟩ := db.saveFeedback_frame userId jobId label note
      dsimp only [MatchHistory.stepDb, RadarDb.step]
      rw [hdb]
      exact ⟨rfl, hkeep, hsame⟩

theorem evaluate_additions {job : Job} {profile : PreferenceProfile} {matchId : Uuid} {now : Time}
    {m : MatchResult}
    (hm : m ∈ (db.evaluate u matchId job profile now).1.matchResults.drop
      db.matchResults.length) : job.id = m.jobId ∧ profile.id = m.preferenceProfileId ∧
      evaluateRules u job profile.config = some m.toMatchDecision := by
  unfold RadarDb.evaluate at hm
  split at hm
  next => simp at hm
  next decision hrules =>
    rw [List.drop_left] at hm
    obtain rfl := List.mem_singleton.mp hm
    exact ⟨rfl, rfl, hrules⟩

theorem evaluate_stored {job : Job} {profile : PreferenceProfile} {matchId : Uuid} {now : Time}
    {m : MatchResult} (hm : m ∈ (db.evaluate u matchId job profile now).1.matchResults) :
    m ∈ db.matchResults ∨ m ∈ (db.evaluate u matchId job profile now).1.matchResults.drop
      db.matchResults.length := by
  unfold RadarDb.evaluate at hm ⊢
  split at hm
  next => exact Or.inl hm
  next decision hrules =>
    rcases List.mem_append.mp hm with hold | hnew
    · exact Or.inl hold
    · right
      rw [List.drop_left]
      exact hnew

theorem Recorded.matching (hr : h.Recorded u) (op : MatchingOp) :
    Recorded u (step u first h (.matching op)) := by
  cases htarget : MatchHistory.target h.db op with
  | none =>
    obtain ⟨hmatches, hprofiles, hjobs⟩ := stepDb_frame u first htarget
    have hnone : additions u first h.db op = [] := by
      simp only [additions, htarget]
    simp only [step, hnone, List.nil_append]
    refine ⟨?_, ?_, ?_⟩
    · rw [hmatches]
      exact hr.stored
    · intro m old hm
      obtain ⟨p, hp, hid, hrules⟩ := hr.rules m old hm
      obtain ⟨p', hp', hid', hconfig⟩ := hprofiles p hp
      exact ⟨p', hp', hid'.trans hid, by rw [hconfig]; exact hrules⟩
    · intro m old hm
      obtain ⟨hid, job, hjob, hjobid, hupdate⟩ := hr.rows m old hm
      obtain ⟨row, hrow, hrowid, hkept⟩ := hjobs job hjob
      exact ⟨hid, row, hrow, hrowid.trans hjobid, (hkept _).trans hupdate⟩
  | some pair =>
    obtain ⟨job, profile⟩ := pair
    obtain ⟨hjob, hprofile⟩ := MatchHistory.target_mem htarget
    have hevaluates : ∃ matchId now, MatchHistory.stepDb u first h.db op =
        (h.db.evaluate u matchId job profile now).1 := MatchHistory.step_target htarget
    obtain ⟨matchId, now, hdb⟩ := hevaluates
    have hadded : additions u first h.db op =
        ((h.db.evaluate u matchId job profile now).1.matchResults.drop
          h.db.matchResults.length).map fun m => (m, job) := by
      simp only [additions, htarget, hdb]
    have hnew : ∀ m old, (m, old) ∈ additions u first h.db op → old = job ∧
        m ∈ (h.db.evaluate u matchId job profile now).1.matchResults.drop
          h.db.matchResults.length := by
      intro m old hm
      rw [hadded] at hm
      obtain ⟨m', hm', hpair⟩ := List.mem_map.mp hm
      cases hpair
      exact ⟨rfl, hm'⟩
    refine ⟨?_, ?_, ?_⟩
    · intro m hm
      simp only [step, hdb] at hm
      rcases evaluate_stored hm with hold | hfresh
      · obtain ⟨old, hmem⟩ := hr.stored m hold
        exact ⟨old, List.mem_append_right _ hmem⟩
      · refine ⟨job, List.mem_append_left _ ?_⟩
        rw [hadded]
        exact List.mem_map_of_mem hfresh
    · intro m old hm
      simp only [step, hdb, RadarDb.evaluate_profiles]
      rcases List.mem_append.mp hm with hfresh | hold
      · obtain ⟨rfl, hin⟩ := hnew m old hfresh
        obtain ⟨_, hpid, hrules⟩ := evaluate_additions hin
        exact ⟨profile, hprofile, hpid, hrules⟩
      · exact hr.rules m old hold
    · intro m old hm
      simp only [step, hdb, RadarDb.evaluate_jobs]
      rcases List.mem_append.mp hm with hfresh | hold
      · obtain ⟨rfl, hin⟩ := hnew m old hfresh
        obtain ⟨hid, _, _⟩ := evaluate_additions hin
        exact ⟨hid, old, hjob, rfl, MatchHistory.update_content old⟩
      · exact hr.rows m old hold

theorem Recorded.step (hr : h.Recorded u) (op : DeliveryOp) : Recorded u (step u first h op) := by
  cases op with
  | matching op => exact hr.matching op
  | deliver userId profileId m channel reply => exact ⟨hr.stored, hr.rules, hr.rows⟩

theorem Recorded.notifies (hr : h.Recorded u) {op : DeliveryOp} (hstored : DeliversStored ⟨h, op⟩)
    (hsame : UnchangedSince ⟨h, op⟩) : NotifiesCurrent u ⟨h, op⟩ := by
  intro userId profileId m channel reply hcall hsends
  obtain ⟨hdecision, hundelivered⟩ := deliver_sends hsends
  obtain ⟨hcontent, profile, hactive, hprofile⟩ :=
    hsame userId profileId m channel reply hcall hdecision hundelivered
  obtain ⟨old, hmatched⟩ := hr.stored m (hstored userId profileId m channel reply hcall)
  obtain ⟨job, hjob, hid, hunchanged⟩ := hcontent old hmatched
  obtain ⟨p, hp, hpid, hrules⟩ := hr.rules m old hmatched
  obtain ⟨holdid, row, hrow, hrowid, hupdate⟩ := hr.rows m old hmatched
  obtain rfl : row = job := Table.eq_of_key_eq hrow hjob (hrowid.trans (holdid.trans hid.symm))
  obtain rfl : p = profile :=
    Table.eq_of_key_eq hp (List.mem_of_find?_eq_some hactive) (hpid.trans hprofile.symm)
  have hold : row = old := by
    rw [← hupdate, ← hunchanged]
    rfl
  have hnotified : Notified u row p.config := by
    rw [hold]
    exact ⟨_, hrules, hdecision⟩
  refine ⟨row, p, ?_, hactive, hnotified, not_mentions_of_notified hnotified⟩
  rw [← hid]
  exact Table.find_of_mem hjob

end Step

/-- In a run whose deliveries are of matches that still stand as they were made, the provider is
asked to send only what the rules notify of at that moment. -/
theorem notifications_current {u : Casefold} {first : FirstRow Job} {h : DeliveryHistory}
    {calls : List (Call DeliveryOp DeliveryHistory)}
    (run : Run (step u first) ⟨.empty, ⟨.empty, []⟩, []⟩ calls h)
    (hstored : ∀ c ∈ calls, DeliversStored c) (hsame : ∀ c ∈ calls, UnchangedSince c) :
    ∀ c ∈ calls, NotifiesCurrent u c := by
  have init : Recorded u ⟨.empty, ⟨.empty, []⟩, []⟩ := by
    refine ⟨?_, ?_, ?_⟩
    · intro m hm
      cases hm
    · intro m old hm
      cases hm
    · intro m old hm
      cases hm
  have keep : ∀ h op, Recorded u h → Recorded u (step u first h op) := fun h op hr => hr.step op
  have hrecorded := Run.always_before (I := Recorded u) init keep run
  intro c hc
  exact (hrecorded c hc).notifies (hstored c hc) (hsame c hc)

def backendMatch : MatchResult where
  score := 10
  confidence := 4 / 5
  decision := .notify
  componentScores := ⟨0, 0, 0, 10, 0, 0⟩
  matchedCriteria := []
  missingCriteria := []
  concerns := []
  reasoning := "Rule-based match evaluation"
  id := 31
  jobId := 1
  preferenceProfileId := 22
  jobDescriptionHash := text "a5"
  createdAt := 100

/-- User 1 is matched with the backend posting, the given calls follow, and the match is
delivered. -/
def backendDelivered (calls : List DeliveryOp) :
    List (Call DeliveryOp DeliveryHistory) × DeliveryHistory :=
  runAll (step .ascii .head) [] ⟨.empty, ⟨.empty, []⟩, []⟩
    ([.matching (.radar (.updatePreferences 1 22
        { titles := [text "Backend"], matching := ⟨10⟩ })),
      .matching (.radar (.upsert 11 (MatchHistory.backendListing "Backend" "Python" "a5"))),
      .matching (.radar (.matchJob 31 1 1 100))] ++ calls ++
      [.deliver 1 22 backendMatch "email" (.sent (text "m1"))])

theorem backendDelivered_run (calls : List DeliveryOp) :
    Run (step .ascii .head) ⟨.empty, ⟨.empty, []⟩, []⟩ (backendDelivered calls).1
      (backendDelivered calls).2 := run_runAll .start _

theorem backendDelivered_current :
    (backendDelivered []).2.notifications.outbox.length = 1 ∧
      ∀ c ∈ (backendDelivered []).1, NotifiesCurrent .ascii c := by
  refine ⟨by decide, ?_⟩
  apply notifications_current (backendDelivered_run [])
  · intro c hc userId profileId m channel reply hcall
    rcases List.mem_cons.mp hc with rfl | hc
    · cases hcall
      exact List.mem_singleton.mpr rfl
    rcases List.mem_cons.mp hc with rfl | hc
    · cases hcall
    rcases List.mem_pair.mp hc with rfl | rfl
    · cases hcall
    · cases hcall
  · intro c hc userId profileId m channel reply hcall _ _
    rcases List.mem_cons.mp hc with rfl | hc
    · cases hcall
      refine ⟨?_, _, rfl, rfl⟩
      intro old hold
      cases List.mem_singleton.mp hold
      exact ⟨_, List.mem_singleton.mpr rfl, rfl, rfl⟩
    rcases List.mem_cons.mp hc with rfl | hc
    · cases hcall
    rcases List.mem_pair.mp hc with rfl | rfl
    · cases hcall
    · cases hcall

def pythonExcluded : DeliveryOp :=
  .matching (.radar (.updatePreferences 1 23
    { titles := [text "Backend"], exclusions := [text "python"], matching := ⟨10⟩ }))

/-- Between the match and its delivery the user excludes what the posting asks for, and is told of
it all the same. -/
theorem excluded_job_sent :
    Run (step .ascii .head) ⟨.empty, ⟨.empty, []⟩, []⟩ (backendDelivered [pythonExcluded]).1
      (backendDelivered [pythonExcluded]).2 ∧
    (∀ c ∈ (backendDelivered [pythonExcluded]).1, DeliversStored c) ∧
    ¬∀ c ∈ (backendDelivered [pythonExcluded]).1, NotifiesCurrent .ascii c := by
  refine ⟨backendDelivered_run _, ?_, ?_⟩
  · intro c hc userId profileId m channel reply hcall
    rcases List.mem_cons.mp hc with rfl | hc
    · cases hcall
      exact List.mem_singleton.mpr rfl
    rcases List.mem_cons.mp hc with rfl | hc
    · cases hcall
    rcases List.mem_cons.mp hc with rfl | hc
    · cases hcall
    rcases List.mem_pair.mp hc with rfl | rfl
    · cases hcall
    · cases hcall
  · intro hcurrent
    obtain ⟨job, profile, hjob, hprofile, -, hexclusions⟩ :=
      hcurrent _ (List.mem_cons_self ..) 1 22 backendMatch "email" (.sent (text "m1")) rfl
        (by decide)
    cases hjob
    cases hprofile
    exact absurd (by decide) (hexclusions (text "python") (List.mem_singleton.mpr rfl))

end DeliveryHistory

end JobRadar
