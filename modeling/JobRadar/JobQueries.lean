import JobRadar.IngestionModel
import JobRadar.MatchModel

namespace JobRadar

open Database Python

inductive FeedbackLabel
  | saved
  | applied
  | rejected
  | hidden
  deriving DecidableEq

structure JobFeedback where
  userId : Uuid
  jobId : Uuid
  label : FeedbackLabel
  note : Option Text

structure RadarDb where
  sources : Table Source.id
  jobs : JobStore
  profiles : Table PreferenceProfile.id
  matchResults : List MatchResult
  feedback : List JobFeedback

inductive JobQueryError
  | jobNotFound
  | matchNotFound
  | activePreferenceNotFound
  | typeError
  | dataConflict
  deriving DecidableEq

structure JobDetail where
  job : Job
  matchResult : Option MatchResult
  feedback : Option JobFeedback

namespace RadarDb

def empty : RadarDb := ⟨.empty, .empty, .empty, [], []⟩

variable (db : RadarDb)

/-- A source of the user has a record for the job. -/
def visible (userId jobId : Uuid) : Bool :=
  db.jobs.records.any fun r =>
    r.jobId = jobId && (db.sources.find r.sourceId).any fun source => source.userId = userId

/-- `JobQueryRepository.get`. -/
def getJob (userId jobId : Uuid) : Option Job :=
  (db.jobs.jobs.find jobId).filter fun job => db.visible userId job.id

/-- `MatchingRepository.latest`. -/
def latest (first : FirstRow MatchResult) (jobId : Uuid) : Option MatchResult :=
  first.latest MatchResult.createdAt (db.matchResults.filter fun m => m.jobId = jobId)

def getFeedback (userId jobId : Uuid) : Option JobFeedback :=
  db.feedback.find? fun f => f.userId = userId ∧ f.jobId = jobId

/-- `JobQueryService.detail`. -/
def detail (first : FirstRow MatchResult) (userId jobId : Uuid) :
    Except JobQueryError JobDetail :=
  match db.getJob userId jobId with
  | none => .error .jobNotFound
  | some job => .ok ⟨job, db.latest first jobId, db.getFeedback userId jobId⟩

/-- `JobQueryService.latest_match`. -/
def latestMatch (first : FirstRow MatchResult) (userId jobId : Uuid) :
    Except JobQueryError MatchResult :=
  match db.getJob userId jobId, db.latest first jobId with
  | some _, some m => .ok m
  | _, _ => .error .matchNotFound

/-- `JobQueryService.feedback`. -/
def saveFeedback (userId jobId : Uuid) (label : FeedbackLabel) (note : Option Text) :
    RadarDb × Except JobQueryError JobFeedback :=
  match db.getJob userId jobId with
  | none => (db, .error .jobNotFound)
  | some _ =>
    let row : JobFeedback := ⟨userId, jobId, label, note⟩
    match db.getFeedback userId jobId with
    | some _ =>
      ({ db with feedback := db.feedback.map fun f =>
          if f.userId = userId ∧ f.jobId = jobId then row else f }, .ok row)
    | none => ({ db with feedback := db.feedback ++ [row] }, .ok row)

def getActiveProfile (userId : Uuid) : Option PreferenceProfile :=
  db.profiles.rows.find? fun p => p.userId = userId ∧ p.isActive

def latestVersion (userId : Uuid) : Nat :=
  ((db.profiles.rows.filter fun p => p.userId = userId).map PreferenceProfile.version).foldr max 0

/-- `PreferenceService.update` in one transaction. -/
def updatePreferences (userId profileId : Uuid) (config : PreferenceInput) : RadarDb :=
  let retired := db.profiles.updateWhere (fun p => p.userId = userId ∧ p.isActive)
    (fun p => { p with isActive := false }) fun _ => rfl
  match retired.insert ⟨profileId, userId, db.latestVersion userId + 1, config, true⟩ with
  | none => db
  | some profiles => { db with profiles := profiles }

/-- `MatchingService.match_job`. -/
def matchJob (u : Casefold) (matchId jobId userId : Uuid) (now : Time) :
    RadarDb × Except JobQueryError MatchResult :=
  match db.jobs.jobs.find jobId with
  | none => (db, .error .jobNotFound)
  | some job =>
    match db.getActiveProfile userId with
    | none => (db, .error .activePreferenceNotFound)
    | some profile =>
      match evaluateRules u job profile.config with
      | none => (db, .error .typeError)
      | some decision =>
        let result : MatchResult :=
          { decision with
            id := matchId, jobId := job.id, preferenceProfileId := profile.id
            jobDescriptionHash := job.descriptionHash, createdAt := now }
        ({ db with matchResults := db.matchResults ++ [result] }, .ok result)

end RadarDb

inductive RadarOp
  | createSource (source : Source)
  | upsert (sourceId : Uuid) (candidate : JobCandidate)
  | updatePreferences (userId profileId : Uuid) (config : PreferenceInput)
  | matchJob (matchId jobId userId : Uuid) (now : Time)
  | feedback (userId jobId : Uuid) (label : FeedbackLabel) (note : Option Text)

namespace RadarDb

def step (u : Casefold) (first : FirstRow Job) (db : RadarDb) : RadarOp → RadarDb
  | .createSource source =>
    match db.sources.insert source with
    | none => db
    | some sources => { db with sources := sources }
  | .upsert sourceId candidate =>
    match db.jobs.upsert first db.jobs.jobs.freshKey sourceId candidate with
    | .error _ => db
    | .ok (jobs, _) => { db with jobs := jobs }
  | .updatePreferences userId profileId config => db.updatePreferences userId profileId config
  | .matchJob matchId jobId userId now => (db.matchJob u matchId jobId userId now).1
  | .feedback userId jobId label note => (db.saveFeedback userId jobId label note).1

def run (u : Casefold) (first : FirstRow Job) (ops : List RadarOp) : RadarDb :=
  ops.foldl (step u first) empty

section Frames

variable {u : Casefold} {first : FirstRow Job}

theorem updatePreferences_frame (db : RadarDb) (userId profileId : Uuid)
    (config : PreferenceInput) : ∃ profiles,
      db.updatePreferences userId profileId config = { db with profiles := profiles } := by
  unfold updatePreferences
  dsimp only
  split
  next => exact ⟨db.profiles, rfl⟩
  next profiles hinsert => exact ⟨profiles, rfl⟩

theorem matchJob_frame (db : RadarDb) (u : Casefold) (matchId jobId userId : Uuid) (now : Time) :
    ∃ results, (db.matchJob u matchId jobId userId now).1 =
      { db with matchResults := results } := by
  unfold matchJob
  split
  next => exact ⟨db.matchResults, rfl⟩
  next =>
    split
    next => exact ⟨db.matchResults, rfl⟩
    next =>
      split
      next => exact ⟨db.matchResults, rfl⟩
      next => exact ⟨_, rfl⟩

theorem saveFeedback_frame (db : RadarDb) (userId jobId : Uuid) (label : FeedbackLabel)
    (note : Option Text) : ∃ feedback,
      (db.saveFeedback userId jobId label note).1 = { db with feedback := feedback } := by
  unfold saveFeedback
  split
  next => exact ⟨db.feedback, rfl⟩
  next =>
    dsimp only
    split
    next => exact ⟨_, rfl⟩
    next => exact ⟨_, rfl⟩

theorem step_jobs (db : RadarDb) (op : RadarOp) : (db.step u first op).jobs = db.jobs ∨
    ∃ sourceId candidate jobs job created changed, op = .upsert sourceId candidate ∧
      db.jobs.upsert first db.jobs.jobs.freshKey sourceId candidate =
        .ok (jobs, job, created, changed) ∧ db.step u first op = { db with jobs := jobs } := by
  cases op with
  | createSource source =>
    left
    dsimp only [step]
    split
    next => rfl
    next => rfl
  | upsert sourceId candidate =>
    cases hupsert : db.jobs.upsert first db.jobs.jobs.freshKey sourceId candidate with
    | error e =>
      left
      simp only [step, hupsert]
    | ok result =>
      obtain ⟨jobs, job, created, changed⟩ := result
      refine Or.inr ⟨sourceId, candidate, jobs, job, created, changed, rfl, hupsert, ?_⟩
      simp only [step, hupsert]
  | updatePreferences userId profileId config =>
    obtain ⟨profiles, hdb⟩ := updatePreferences_frame db userId profileId config
    left
    rw [step, hdb]
  | matchJob matchId jobId userId now =>
    obtain ⟨results, hdb⟩ := matchJob_frame db u matchId jobId userId now
    left
    rw [step, hdb]
  | feedback userId jobId label note =>
    obtain ⟨feedback, hdb⟩ := saveFeedback_frame db userId jobId label note
    left
    rw [step, hdb]

end Frames

end RadarDb

end JobRadar
