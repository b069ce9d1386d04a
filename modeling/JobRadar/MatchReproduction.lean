import JobRadar.JobDeduplication
import JobRadar.JobQueries
import JobRadar.Sequence

namespace JobRadar

open Database Python Sequence

namespace RadarDb

/-- `MatchingService.evaluate`. -/
def evaluate (db : RadarDb) (u : Casefold) (matchId : Uuid) (job : Job)
    (profile : PreferenceProfile) (now : Time) : RadarDb × Except JobQueryError MatchResult :=
  match evaluateRules u job profile.config with
  | none => (db, .error .typeError)
  | some decision =>
    let result : MatchResult :=
      { decision with
        id := matchId, jobId := job.id, preferenceProfileId := profile.id
        jobDescriptionHash := job.descriptionHash, createdAt := now }
    ({ db with matchResults := db.matchResults ++ [result] }, .ok result)

section Evaluate

variable {db : RadarDb} {u : Casefold} {matchId jobId userId : Uuid} {job : Job}
  {profile : PreferenceProfile} {now : Time}

theorem matchJob_found (hjob : db.jobs.jobs.find jobId = some job)
    (hprofile : db.getActiveProfile userId = some profile) :
    db.matchJob u matchId jobId userId now = db.evaluate u matchId job profile now := by
  simp only [matchJob, hjob, hprofile]
  rfl

theorem evaluate_jobs : (db.evaluate u matchId job profile now).1.jobs = db.jobs := by
  unfold evaluate
  split
  next => rfl
  next => rfl

theorem evaluate_profiles : (db.evaluate u matchId job profile now).1.profiles = db.profiles := by
  unfold evaluate
  split
  next => rfl
  next => rfl

theorem mem_evaluate {m : MatchResult}
    (h : m ∈ (db.evaluate u matchId job profile now).1.matchResults) :
    m ∈ db.matchResults ∨ job.id = m.jobId ∧ profile.id = m.preferenceProfileId ∧
      job.descriptionHash = m.jobDescriptionHash ∧
      evaluateRules u job profile.config = some m.toMatchDecision := by
  unfold evaluate at h
  split at h
  next => exact Or.inl h
  next decision hrules =>
    rcases List.mem_append.mp h with hold | hnew
    · exact Or.inl hold
    · obtain rfl := List.mem_singleton.mp hnew
      exact Or.inr ⟨rfl, rfl, rfl, hrules⟩

end Evaluate

end RadarDb

/-- The calls that write what matches are made of, and evaluations of any job and profile. -/
inductive MatchingOp
  | radar (op : RadarOp)
  | evaluate (matchId jobId profileId : Uuid) (now : Time)

/-- The tables, and the jobs as they were when they were matched. -/
structure MatchHistory where
  db : RadarDb
  evaluated : List Job := []

namespace MatchHistory

/-- The job and the profile that a call evaluates. -/
def target (db : RadarDb) : MatchingOp → Option (Job × PreferenceProfile)
  | .radar (.matchJob _ jobId userId _) =>
    (db.jobs.jobs.find jobId).bind fun job =>
      (db.getActiveProfile userId).map fun profile => (job, profile)
  | .evaluate _ jobId profileId _ =>
    (db.jobs.jobs.find jobId).bind fun job =>
      (db.profiles.find profileId).map fun profile => (job, profile)
  | _ => none

def stepDb (u : Casefold) (first : FirstRow Job) (db : RadarDb) : MatchingOp → RadarDb
  | .radar op => db.step u first op
  | .evaluate matchId jobId profileId now =>
    match target db (.evaluate matchId jobId profileId now) with
    | none => db
    | some (job, profile) => (db.evaluate u matchId job profile now).1

def step (u : Casefold) (first : FirstRow Job) (h : MatchHistory) (op : MatchingOp) :
    MatchHistory where
  db := stepDb u first h.db op
  evaluated := ((target h.db op).map Prod.fst).toList ++ h.evaluated

/-- Wherever a job has the description hash of one of its matches, the rules give the match again,
for the profile it was computed for. -/
def Reproducible (u : Casefold) (db : RadarDb) : Prop :=
  ∀ m ∈ db.matchResults, ∀ job ∈ db.jobs.jobs.rows, job.id = m.jobId →
    job.descriptionHash = m.jobDescriptionHash →
    ∀ p ∈ db.profiles.rows, p.id = m.preferenceProfileId →
      evaluateRules u job p.config = some m.toMatchDecision

/-- A listing that takes a job back to a description hash it was matched with takes it back to the
title, the description and the locations of then as well. -/
def ReturnsAsMatched (first : FirstRow Job) (c : Call MatchingOp MatchHistory) : Prop :=
  ∀ sourceId candidate, c.call = .radar (.upsert sourceId candidate) →
    ∀ job content, c.before.db.jobs.findExisting first sourceId candidate = .ok (some job) →
      job.descriptionHash ≠ candidate.descriptionHash → candidate.content = some content →
      ∀ old ∈ c.before.evaluated, old.id = job.id →
        old.descriptionHash = content.descriptionHash → old.toJobContent = content

/-- Each match has the job it was computed from on record, and each job on record is a row with
another content, which is the same content wherever the hash is. -/
structure Faithful (u : Casefold) (h : MatchHistory) : Prop where
  computed : ∀ m ∈ h.db.matchResults, ∃ old ∈ h.evaluated, ∃ p ∈ h.db.profiles,
    old.id = m.jobId ∧ p.id = m.preferenceProfileId ∧
      old.descriptionHash = m.jobDescriptionHash ∧
      evaluateRules u old p.config = some m.toMatchDecision
  current : ∀ old ∈ h.evaluated, ∃ job ∈ h.db.jobs.jobs, job.id = old.id ∧
    job.update old.toJobContent = old ∧
    (job.descriptionHash = old.descriptionHash → job.toJobContent = old.toJobContent)

section Step

variable {u : Casefold} {first : FirstRow Job} {h : MatchHistory} {db : RadarDb}

theorem update_content (job : Job) : job.update job.toJobContent = job := rfl

theorem Faithful.reproducible (hf : h.Faithful u) : Reproducible u h.db := by
  intro m hm job hjob hid hhash p hp hprofile
  obtain ⟨old, hold, p', hp', holdid, hpid, holdhash, heval⟩ := hf.computed m hm
  obtain ⟨row, hrow, hrowid, hupdate, hcontent⟩ := hf.current old hold
  obtain rfl : row = job := Table.eq_of_key_eq hrow hjob (hrowid.trans (holdid.trans hid.symm))
  obtain rfl : p' = p := Table.eq_of_key_eq hp' hp (hpid.trans hprofile.symm)
  have hsame : row = old := by
    rw [← hupdate, ← hcontent (hhash.trans holdhash.symm)]
    rfl
  rw [hsame]
  exact heval

theorem Faithful.quiet (hf : h.Faithful u) {db' : RadarDb}
    (hmatches : db'.matchResults = h.db.matchResults)
    (hprofiles : ∀ p ∈ h.db.profiles, ∃ p' ∈ db'.profiles, p'.id = p.id ∧ p'.config = p.config)
    (hjobs : ∀ old ∈ h.evaluated, ∀ job ∈ h.db.jobs.jobs, job.id = old.id →
      job.update old.toJobContent = old →
      (job.descriptionHash = old.descriptionHash → job.toJobContent = old.toJobContent) →
      ∃ row ∈ db'.jobs.jobs, row.id = old.id ∧ row.update old.toJobContent = old ∧
        (row.descriptionHash = old.descriptionHash → row.toJobContent = old.toJobContent)) :
    Faithful u ⟨db', h.evaluated⟩ := by
  refine ⟨?_, ?_⟩
  · intro m hm
    rw [hmatches] at hm
    obtain ⟨old, hold, p, hp, hid, hpid, hhash, heval⟩ := hf.computed m hm
    obtain ⟨p', hp', hpid', hconfig⟩ := hprofiles p hp
    refine ⟨old, hold, p', hp', hid, hpid'.trans hpid, hhash, ?_⟩
    rw [hconfig]
    exact heval
  · intro old hold
    obtain ⟨job, hjob, hid, hupdate, hcontent⟩ := hf.current old hold
    exact hjobs old hold job hjob hid hupdate hcontent

theorem Faithful.frame (hf : h.Faithful u) {db' : RadarDb}
    (hmatches : db'.matchResults = h.db.matchResults)
    (hprofiles : ∀ p ∈ h.db.profiles, ∃ p' ∈ db'.profiles, p'.id = p.id ∧ p'.config = p.config)
    (hjobs : db'.jobs = h.db.jobs) : Faithful u ⟨db', h.evaluated⟩ := by
  apply hf.quiet hmatches hprofiles
  intro old _ job hjob hid hupdate hcontent
  rw [hjobs]
  exact ⟨job, hjob, hid, hupdate, hcontent⟩

theorem updatePreferences_profiles (db : RadarDb) (userId profileId : Uuid)
    (config : PreferenceInput) : ∀ p ∈ db.profiles,
      ∃ p' ∈ (db.updatePreferences userId profileId config).profiles,
        p'.id = p.id ∧ p'.config = p.config := by
  intro p hp
  unfold RadarDb.updatePreferences
  dsimp only
  split
  next => exact ⟨p, hp, rfl, rfl⟩
  next profiles hinsert =>
    have hretired := (Table.mem_updateWhere (t := db.profiles)
      (p := fun p => p.userId = userId ∧ p.isActive) (f := fun p => { p with isActive := false })
      fun _ => rfl).mpr ⟨p, hp, rfl⟩
    refine ⟨_, (Table.mem_of_insert hinsert).mpr (Or.inl hretired), ?_⟩
    split
    next => exact ⟨rfl, rfl⟩
    next => exact ⟨rfl, rfl⟩

theorem Faithful.evaluate (hf : h.Faithful u) {job : Job} {profile : PreferenceProfile}
    (hjob : job ∈ h.db.jobs.jobs) (hprofile : profile ∈ h.db.profiles) (matchId : Uuid)
    (now : Time) :
    Faithful u ⟨(h.db.evaluate u matchId job profile now).1, job :: h.evaluated⟩ := by
  refine ⟨?_, ?_⟩
  · intro m hm
    show ∃ old ∈ job :: h.evaluated, ∃ p ∈ (h.db.evaluate u matchId job profile now).1.profiles, _
    rw [RadarDb.evaluate_profiles]
    rcases RadarDb.mem_evaluate hm with hbefore | ⟨hid, hpid, hhash, heval⟩
    · obtain ⟨old, hold, p, hp, hrest⟩ := hf.computed m hbefore
      exact ⟨old, List.mem_cons_of_mem _ hold, p, hp, hrest⟩
    · exact ⟨job, List.mem_cons_self .., profile, hprofile, hid, hpid, hhash, heval⟩
  · intro old hold
    show ∃ row ∈ (h.db.evaluate u matchId job profile now).1.jobs.jobs, _
    rw [RadarDb.evaluate_jobs]
    rcases List.mem_cons.mp hold with rfl | hearlier
    · exact ⟨old, hjob, rfl, update_content old, fun _ => rfl⟩
    · exact hf.current old hearlier

theorem Faithful.upsert (hf : h.Faithful u) {sourceId : Uuid} {candidate : JobCandidate}
    (hok : ReturnsAsMatched first ⟨h, .radar (.upsert sourceId candidate)⟩) :
    Faithful u ⟨h.db.step u first (.upsert sourceId candidate), h.evaluated⟩ := by
  dsimp only [RadarDb.step]
  split
  next => exact hf
  next jobs rest hupsert =>
    obtain ⟨job, created, changed⟩ := rest
    apply hf.quiet
    · rfl
    · exact fun p hp => ⟨p, hp, rfl, rfl⟩
    · intro old hold row hrow hid hupdate hcontent
      rcases JobStore.upsert_cases hupsert with
        ⟨jobs', record, -, -, hinsert, -, rfl⟩ | ⟨record, -, -, -, rfl⟩ |
          ⟨found, content, record, hfind, hhash, hwritten, -, -, rfl⟩
      · exact ⟨row, (Table.mem_of_insert hinsert).mpr (Or.inl hrow), hid, hupdate, hcontent⟩
      · exact ⟨row, hrow, hid, hupdate, hcontent⟩
      · refine ⟨_, JobStore.mem_updated hrow found content, ?_⟩
        by_cases hchanged : row.id = found.id
        · rw [if_pos hchanged]
          refine ⟨hid, hupdate, ?_⟩
          intro hback
          exact (hok sourceId candidate rfl found content hfind hhash hwritten old hold
            (hid.symm.trans hchanged) hback.symm).symm
        · rw [if_neg hchanged]
          exact ⟨hid, hupdate, hcontent⟩

theorem target_mem {op : MatchingOp} {job : Job} {profile : PreferenceProfile}
    (htarget : target db op = some (job, profile)) :
    job ∈ db.jobs.jobs ∧ profile ∈ db.profiles := by
  unfold target at htarget
  split at htarget
  next matchId jobId userId now =>
    obtain ⟨row, hrow, hmap⟩ := Option.bind_eq_some_iff.mp htarget
    obtain ⟨p, hp, hpair⟩ := Option.map_eq_some_iff.mp hmap
    cases hpair
    exact ⟨(Table.find_eq_some_iff.mp hrow).1, List.mem_of_find?_eq_some hp⟩
  next matchId jobId profileId now =>
    obtain ⟨row, hrow, hmap⟩ := Option.bind_eq_some_iff.mp htarget
    obtain ⟨p, hp, hpair⟩ := Option.map_eq_some_iff.mp hmap
    cases hpair
    exact ⟨(Table.find_eq_some_iff.mp hrow).1, (Table.find_eq_some_iff.mp hp).1⟩
  next => cases htarget

theorem step_target {op : MatchingOp} {job : Job} {profile : PreferenceProfile}
    (htarget : target db op = some (job, profile)) :
    ∃ matchId now, stepDb u first db op = (db.evaluate u matchId job profile now).1 := by
  cases op with
  | evaluate matchId jobId profileId now =>
    refine ⟨matchId, now, ?_⟩
    simp only [stepDb, htarget]
  | radar op =>
    cases op with
    | matchJob matchId jobId userId now =>
      obtain ⟨row, hrow, hmap⟩ := Option.bind_eq_some_iff.mp htarget
      obtain ⟨p, hp, hpair⟩ := Option.map_eq_some_iff.mp hmap
      cases hpair
      refine ⟨matchId, now, ?_⟩
      show (db.matchJob u matchId jobId userId now).1 = _
      rw [RadarDb.matchJob_found hrow hp]
    | createSource source => cases htarget
    | upsert sourceId candidate => cases htarget
    | updatePreferences userId profileId config => cases htarget
    | feedback userId jobId label note => cases htarget

theorem matchJob_missing {matchId jobId userId : Uuid} {now : Time}
    (htarget : target db (.radar (.matchJob matchId jobId userId now)) = none) :
    (db.matchJob u matchId jobId userId now).1 = db := by
  unfold RadarDb.matchJob
  split
  next => rfl
  next job hjob =>
    split
    next => rfl
    next profile hprofile => simp [target, hjob, hprofile] at htarget

theorem Faithful.radar (hf : h.Faithful u) {op : RadarOp} (htarget : target h.db (.radar op) = none)
    (hok : ReturnsAsMatched first ⟨h, .radar op⟩) :
    Faithful u ⟨h.db.step u first op, h.evaluated⟩ := by
  have hsame : ∀ p ∈ h.db.profiles, ∃ p' ∈ h.db.profiles, p'.id = p.id ∧ p'.config = p.config :=
    fun p hp => ⟨p, hp, rfl, rfl⟩
  cases op with
  | upsert sourceId candidate => exact hf.upsert hok
  | matchJob matchId jobId userId now =>
    show Faithful u ⟨(h.db.matchJob u matchId jobId userId now).1, h.evaluated⟩
    rw [matchJob_missing htarget]
    exact hf
  | updatePreferences userId profileId config =>
    obtain ⟨profiles, hdb⟩ := h.db.updatePreferences_frame userId profileId config
    have hkept := updatePreferences_profiles h.db userId profileId config
    show Faithful u ⟨h.db.updatePreferences userId profileId config, h.evaluated⟩
    rw [hdb] at hkept ⊢
    exact hf.frame rfl hkept rfl
  | createSource source =>
    dsimp only [RadarDb.step]
    split
    next => exact hf
    next sources hinsert => exact hf.frame rfl hsame rfl
  | feedback userId jobId label note =>
    show Faithful u ⟨(h.db.saveFeedback userId jobId label note).1, h.evaluated⟩
    obtain ⟨feedback, hdb⟩ := h.db.saveFeedback_frame userId jobId label note
    rw [hdb]
    exact hf.frame rfl hsame rfl

theorem Faithful.step (hf : h.Faithful u) {op : MatchingOp}
    (hok : ReturnsAsMatched first ⟨h, op⟩) : Faithful u (step u first h op) := by
  cases htarget : target h.db op with
  | some pair =>
    obtain ⟨job, profile⟩ := pair
    obtain ⟨hjob, hprofile⟩ := target_mem htarget
    have hevaluates : ∃ matchId now,
        stepDb u first h.db op = (h.db.evaluate u matchId job profile now).1 := step_target htarget
    obtain ⟨matchId, now, hstep⟩ := hevaluates
    simp only [MatchHistory.step, htarget, hstep]
    exact hf.evaluate hjob hprofile matchId now
  | none =>
    simp only [MatchHistory.step, htarget]
    cases op with
    | radar op => exact hf.radar htarget hok
    | evaluate matchId jobId profileId now =>
      simp only [stepDb, htarget]
      exact hf

end Step

/-- Matches stay reproducible as long as no listing takes a job back to the hash of a match with
another title, description or location than it was matched with. -/
theorem matches_reproducible {u : Casefold} {first : FirstRow Job} {h : MatchHistory}
    {calls : List (Call MatchingOp MatchHistory)}
    (run : Run (step u first) ⟨.empty, []⟩ calls h)
    (hreturns : ∀ c ∈ calls, ReturnsAsMatched first c) :
    Reproducible u h.db ∧ ∀ c ∈ calls, Reproducible u c.before.db := by
  have init : Faithful u ⟨.empty, []⟩ := by
    refine ⟨?_, ?_⟩
    · intro m hm
      cases hm
    · intro old hold
      cases hold
  have keep : ∀ h op, Faithful u h → ReturnsAsMatched first ⟨h, op⟩ →
      Faithful u (step u first h op) := fun h op hf hok => hf.step hok
  refine ⟨(run.invariant (I := Faithful u) init keep hreturns).reproducible, ?_⟩
  intro c hc
  exact (run.invariant_before (I := Faithful u) init keep hreturns c hc).reproducible

/-- The backend posting of source 11 under another title and description. -/
def backendListing (title description descriptionHash : String) : JobCandidate :=
  { (JobStore.backendPosting 11 (text "1")).candidate with
    title := text title
    description := text description
    descriptionHash := text descriptionHash }

/-- The posting is matched, gets another description, and then its earlier one back. -/
def backendReturns (title : String) : List (Call MatchingOp MatchHistory) × MatchHistory :=
  runAll (step .ascii .head) [] ⟨.empty, []⟩
    [.radar (.updatePreferences 1 22 { titles := [text "Backend"] }),
      .radar (.upsert 11 (backendListing "Backend" "Python" "a5")), .evaluate 31 1 22 100,
      .radar (.upsert 11 (backendListing "Backend" "Rust" "b6")),
      .radar (.upsert 11 (backendListing title "Python" "a5"))]

theorem backendReturns_run (title : String) : Run (step .ascii .head) ⟨.empty, []⟩
    (backendReturns title).1 (backendReturns title).2 := run_runAll .start _

theorem backendReturns_reproducible : Reproducible .ascii (backendReturns "Backend").2.db ∧
    ∀ c ∈ (backendReturns "Backend").1, Reproducible .ascii c.before.db := by
  refine matches_reproducible (backendReturns_run "Backend") ?_
  intro c hc sourceId candidate hcall job content _ _ hcontent old hold _ hback
  rcases List.mem_cons.mp hc with rfl | hc
  · cases hcall
    obtain rfl := List.mem_singleton.mp hold
    exact Option.some.inj hcontent
  rcases List.mem_cons.mp hc with rfl | hc
  · cases hcall
    obtain rfl := List.mem_singleton.mp hold
    have hhash : content.descriptionHash = text "b6" :=
      congrArg JobContent.descriptionHash (Option.some.inj hcontent).symm
    rw [hhash] at hback
    exact absurd hback (by decide)
  -- before the evaluation nothing is matched
  rcases List.mem_cons.mp hc with rfl | hc
  · cases hcall
  rcases List.mem_pair.mp hc with rfl | rfl
  · cases hold
  · cases hold

/-- Its title is another one by then: the match gave it 10 points, and the rules now give none. -/
theorem backendReturns_renamed :
    Run (step .ascii .head) ⟨.empty, []⟩ (backendReturns "Frontend").1
      (backendReturns "Frontend").2 ∧
    (backendReturns "Frontend").2.db.matchResults.map
      (fun m => (m.jobDescriptionHash, m.score)) = [(text "a5", 10)] ∧
    (backendReturns "Frontend").2.db.jobs.jobs.rows.map (fun job => job.descriptionHash) =
      [text "a5"] ∧
    ¬Reproducible .ascii (backendReturns "Frontend").2.db := by
  refine ⟨backendReturns_run "Frontend", by decide, by decide, ?_⟩
  intro hsame
  have hrules := hsame _ (List.mem_singleton.mpr rfl) _ (List.mem_singleton.mpr rfl) rfl rfl _
    (List.mem_singleton.mpr rfl) rfl
  exact absurd hrules (by decide)

end MatchHistory

end JobRadar
