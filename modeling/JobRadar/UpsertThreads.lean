import JobRadar.Interleave
import JobRadar.JobDeduplication

namespace JobRadar

open Database Interleave Python

namespace JobStore

variable (s : JobStore)

/-- The first lookup of `find_existing`. -/
def findListed (first : FirstRow Job) (sourceId : Uuid) (c : JobCandidate) :
    Except StoreError (Option Job) :=
  if storable c.externalId then .ok (first.pick (s.jobsOfListing sourceId c.externalId))
  else .error .statementRefused

/-- Its second lookup. -/
def findPosted (first : FirstRow Job) (c : JobCandidate) : Except StoreError (Option Job) :=
  match c.applicationUrl with
  | .null => .ok none
  | .str url =>
    if storable url ∧ storable c.companyNormalized then
      .ok (first.pick (s.jobsOfPosting url c.companyNormalized))
    else .error .statementRefused
  | _ => .error .statementRefused

theorem findExisting_eq (first : FirstRow Job) (sourceId : Uuid) (c : JobCandidate) :
    s.findExisting first sourceId c =
      match s.findListed first sourceId c with
      | .error error => .error error
      | .ok (some job) => .ok (some job)
      | .ok none => s.findPosted first c := by
  unfold findExisting findListed
  by_cases hid : storable c.externalId
  · rw [if_neg (not_not_intro hid), if_pos hid]
    cases first.pick (s.jobsOfListing sourceId c.externalId) with
    | none => rfl
    | some job => rfl
  · rw [if_pos hid, if_neg hid]

/-- The commit of a job that the lookups found, with its record. -/
def commitFound (job : Job) (sourceId : Uuid) (c : JobCandidate) :
    Except StoreError (JobStore × Job × Bool) :=
  if job.descriptionHash = c.descriptionHash then do
    let s ← s.addRecord job sourceId c
    return (s, job, false)
  else do
    let content ← stored c.content
    let s ← (s.updateJob job content).addRecord job sourceId c
    return (s, job.update content, true)

/-- The commit of a job that was flushed, with its record. -/
def commitNew (job : Job) (sourceId : Uuid) (c : JobCandidate) : Except StoreError JobStore :=
  match s.jobs.insert job with
  | none => .error .dataConflict
  | some jobs => { s with jobs := jobs }.addRecord job sourceId c

end JobStore

/-- Where an `upsert` call stands between two statements. A flushed job is seen by its own
transaction alone until the commit. -/
inductive UpsertPhase
  | start
  | unlisted
  | missing
  | found (job : Job)
  | flushed (job : Job)
  | committed (job : Job) (created changed : Bool)
  | returned (job : Job) (created changed : Bool)
  | raised (error : StoreError)

structure UpsertThread where
  sourceId : Uuid
  candidate : JobCandidate
  phase : UpsertPhase := .start

def UpsertThread.at (t : UpsertThread) (phase : UpsertPhase) : UpsertThread :=
  { t with phase := phase }

/-- What a call is told: the row that a query comes back with first, and the id drawn for a new
job. -/
structure UpsertAnswer where
  first : FirstRow Job
  jobId : Uuid

/-- `upsert` statement by statement, each reading the state committed by then. -/
def upsertStep : Atomic UpsertAnswer JobStore UpsertThread := fun answer s t =>
  match t.phase with
  | .start =>
    match s.findListed answer.first t.sourceId t.candidate with
    | .error error => some (s, t.at (.raised error))
    | .ok none => some (s, t.at .unlisted)
    | .ok (some job) => some (s, t.at (.found job))
  | .unlisted =>
    match s.findPosted answer.first t.candidate with
    | .error error => some (s, t.at (.raised error))
    | .ok none => some (s, t.at .missing)
    | .ok (some job) => some (s, t.at (.found job))
  | .missing =>
    match s.addJob answer.jobId t.candidate with
    | .error error => some (s, t.at (.raised error))
    | .ok (_, job) => some (s, t.at (.flushed job))
  | .found job =>
    match s.commitFound job t.sourceId t.candidate with
    | .error error => some (s, t.at (.raised error))
    | .ok (s, job, changed) => some (s, t.at (.committed job false changed))
  | .flushed job =>
    match s.commitNew job t.sourceId t.candidate with
    | .error error => some (s, t.at (.raised error))
    | .ok s => some (s, t.at (.committed job true false))
  | .committed job created changed =>
    match s.jobs.find job.id with
    | none => some (s, t.at (.raised .persistenceFailure))
    | some job => some (s, t.at (.returned job created changed))
  | .returned _ _ _ => none
  | .raised _ => none

section Alone

variable {s s' : JobStore} {t : UpsertThread} {job : Job}
  {jobId sourceId : Uuid} {c : JobCandidate}

theorem addRecord_jobs (h : s.addRecord job sourceId c = .ok s') : s'.jobs = s.jobs := by
  unfold JobStore.addRecord stored at h
  split at h
  next => cases h; rfl
  next => cases h

theorem find_updateJob {content : JobContent} (h : s.jobs.find job.id = some job) :
    (s.updateJob job content).jobs.find job.id = some (job.update content) := by
  rw [JobStore.find_updated, h, Option.map_some, if_pos rfl]

theorem commitFound_cases {changed : Bool} {job' : Job}
    (h : s.commitFound job sourceId c = .ok (s', job', changed)) :
    (s.addRecord job sourceId c = .ok s' ∧ job' = job ∧ changed = false) ∨
      ∃ content, (s.updateJob job content).addRecord job sourceId c = .ok s' ∧
        job' = job.update content ∧ changed = true := by
  unfold JobStore.commitFound at h
  split at h
  next =>
    cases hrecord : s.addRecord job sourceId c with
    | error error => simp [hrecord, bind, Except.bind] at h
    | ok s₁ =>
      simp only [hrecord, bind, Except.bind, pure, Except.pure] at h
      cases h
      exact Or.inl ⟨rfl, rfl, rfl⟩
  next =>
    cases hcontent : stored c.content with
    | error error => simp [hcontent, bind, Except.bind] at h
    | ok content =>
      cases hrecord : (s.updateJob job content).addRecord job sourceId c with
      | error error => simp [hcontent, hrecord, bind, Except.bind] at h
      | ok s₁ =>
        simp only [hcontent, hrecord, bind, Except.bind, pure, Except.pure] at h
        cases h
        exact Or.inr ⟨content, hrecord, rfl, rfl⟩

theorem commitFound_find {changed : Bool} {job' : Job} (hfind : s.jobs.find job.id = some job)
    (h : s.commitFound job sourceId c = .ok (s', job', changed)) :
    s'.jobs.find job'.id = some job' := by
  rcases commitFound_cases h with ⟨hrecord, rfl, -⟩ | ⟨content, hrecord, rfl, -⟩
  · rwa [addRecord_jobs hrecord]
  · rw [addRecord_jobs hrecord]
    exact find_updateJob hfind

theorem commitNew_find (h : s.commitNew job sourceId c = .ok s') :
    s'.jobs.find job.id = some job := by
  unfold JobStore.commitNew at h
  split at h
  next => cases h
  next jobs hinsert =>
    rw [addRecord_jobs h, Table.find_of_insert hinsert, if_pos rfl]

theorem commitNew_of_addJob (h : s.addJob jobId c = .ok (s', job)) :
    s.commitNew job sourceId c = s'.addRecord job sourceId c := by
  unfold JobStore.addJob at h
  cases hjob : stored (c.job jobId) with
  | error error => simp [hjob, bind, Except.bind] at h
  | ok new =>
    simp only [hjob, bind, Except.bind] at h
    split at h
    next => cases h
    next jobs hinsert =>
      cases h
      simp only [JobStore.commitNew, hinsert]

theorem findListed_row {first : FirstRow Job}
    (h : s.findListed first sourceId c = .ok (some job)) : s.jobs.find job.id = some job := by
  unfold JobStore.findListed at h
  split at h
  next =>
    have hpick := first.mem_of_pick _ _ (Except.ok.inj h)
    obtain ⟨record, -, hrow⟩ := List.mem_filterMap.mp hpick
    exact Table.find_of_mem (Table.find_eq_some_iff.mp hrow).1
  next => cases h

theorem findPosted_row {first : FirstRow Job} (h : s.findPosted first c = .ok (some job)) :
    s.jobs.find job.id = some job := by
  unfold JobStore.findPosted at h
  split at h
  next => cases h
  next =>
    split at h
    next =>
      have hpick := first.mem_of_pick _ _ (Except.ok.inj h)
      exact Table.find_of_mem (JobStore.mem_jobsOfPosting.mp hpick).1
    next => cases h
  next => cases h

/-- The store and the call after an `upsert` in one step. -/
def UpsertThread.ended (t : UpsertThread) (s : JobStore) :
    Except StoreError (JobStore × Job × Bool × Bool) → JobStore × UpsertThread
  | .ok (s, job, created, changed) => (s, t.at (.returned job created changed))
  | .error error => (s, t.at (.raised error))

theorem committed_alone (answer : UpsertAnswer) {created changed : Bool}
    (hrow : s.jobs.find job.id = some job) :
    Solo upsertStep (s, t.at (.committed job created changed))
      (s, t.at (.returned job created changed)) := by
  refine .single ⟨answer, ?_⟩
  simp [upsertStep, UpsertThread.at, hrow]

theorem found_alone (answer : UpsertAnswer) (hrow : s.jobs.find job.id = some job)
    (hfind : s.findExisting answer.first t.sourceId t.candidate = .ok (some job)) :
    Solo upsertStep (s, t.at (.found job))
      (t.ended s (s.upsert answer.first answer.jobId t.sourceId t.candidate)) := by
  have hupsert : s.upsert answer.first answer.jobId t.sourceId t.candidate =
      (s.commitFound job t.sourceId t.candidate).map fun r => (r.1, r.2.1, false, r.2.2) := by
    simp only [JobStore.upsert, JobStore.commitFound, hfind, bind, Except.bind, pure, Except.pure]
    split
    next => cases s.addRecord job t.sourceId t.candidate <;> rfl
    next =>
      cases stored t.candidate.content with
      | error error => rfl
      | ok content =>
        dsimp only
        cases (s.updateJob job content).addRecord job t.sourceId t.candidate <;> rfl
  cases hcommit : s.commitFound job t.sourceId t.candidate with
  | error error =>
    refine .single ⟨answer, ?_⟩
    simp [upsertStep, UpsertThread.at, hupsert, hcommit, UpsertThread.ended, Except.map]
  | ok r =>
    obtain ⟨s', job', changed⟩ := r
    have hstep : upsertStep answer s (t.at (.found job)) =
        some (s', t.at (.committed job' false changed)) := by
      simp [upsertStep, UpsertThread.at, hcommit]
    refine .head ⟨answer, hstep⟩ ?_
    rw [hupsert, hcommit]
    exact committed_alone answer (commitFound_find hrow hcommit)

theorem missing_alone (answer : UpsertAnswer)
    (hfind : s.findExisting answer.first t.sourceId t.candidate = .ok none) :
    Solo upsertStep (s, t.at .missing)
      (t.ended s (s.upsert answer.first answer.jobId t.sourceId t.candidate)) := by
  cases hadd : s.addJob answer.jobId t.candidate with
  | error error =>
    have hupsert : s.upsert answer.first answer.jobId t.sourceId t.candidate = .error error := by
      simp only [JobStore.upsert, hfind, hadd, bind, Except.bind]
    refine .single ⟨answer, ?_⟩
    simp [upsertStep, UpsertThread.at, hadd, hupsert, UpsertThread.ended]
  | ok r =>
    obtain ⟨s₁, job⟩ := r
    have hflush : upsertStep answer s (t.at .missing) = some (s, t.at (.flushed job)) := by
      simp [upsertStep, UpsertThread.at, hadd]
    have hupsert : s.upsert answer.first answer.jobId t.sourceId t.candidate =
        (s.commitNew job t.sourceId t.candidate).map fun s' => (s', job, true, false) := by
      rw [commitNew_of_addJob hadd]
      simp only [JobStore.upsert, hfind, hadd, bind, Except.bind, pure, Except.pure]
      cases s₁.addRecord job t.sourceId t.candidate <;> rfl
    refine .head ⟨answer, hflush⟩ ?_
    cases hcommit : s.commitNew job t.sourceId t.candidate with
    | error error =>
      refine .single ⟨answer, ?_⟩
      simp [upsertStep, UpsertThread.at, hupsert, hcommit, UpsertThread.ended, Except.map]
    | ok s' =>
      have hstep : upsertStep answer s (t.at (.flushed job)) =
          some (s', t.at (.committed job true false)) := by
        simp [upsertStep, UpsertThread.at, hcommit]
      refine .head ⟨answer, hstep⟩ ?_
      rw [hupsert, hcommit]
      exact committed_alone answer (commitNew_find hcommit)

/-- Without interruption the statements amount to the call as one step. -/
theorem upsert_alone (answer : UpsertAnswer) (s : JobStore) (t : UpsertThread)
    (hstart : t.phase = .start) :
    Solo upsertStep (s, t)
      (t.ended s (s.upsert answer.first answer.jobId t.sourceId t.candidate)) := by
  have hfind := s.findExisting_eq answer.first t.sourceId t.candidate
  have hraise : ∀ error, s.findExisting answer.first t.sourceId t.candidate = .error error →
      t.ended s (s.upsert answer.first answer.jobId t.sourceId t.candidate) =
        (s, t.at (.raised error)) := by
    intro error he
    simp [JobStore.upsert, he, bind, Except.bind, UpsertThread.ended]
  cases hlisted : s.findListed answer.first t.sourceId t.candidate with
  | error error =>
    rw [hlisted] at hfind
    rw [hraise error hfind]
    refine .single ⟨answer, ?_⟩
    simp [upsertStep, hstart, hlisted]
  | ok found =>
    rw [hlisted] at hfind
    cases found with
    | some job =>
      have hstep : upsertStep answer s t = some (s, t.at (.found job)) := by
        simp [upsertStep, hstart, hlisted]
      exact .head ⟨answer, hstep⟩ (found_alone answer (findListed_row hlisted) hfind)
    | none =>
      have hstep : upsertStep answer s t = some (s, t.at .unlisted) := by
        simp [upsertStep, hstart, hlisted]
      refine .head ⟨answer, hstep⟩ ?_
      cases hposted : s.findPosted answer.first t.candidate with
      | error error =>
        rw [hposted] at hfind
        rw [hraise error hfind]
        refine .single ⟨answer, ?_⟩
        simp [upsertStep, UpsertThread.at, hposted]
      | ok found =>
        rw [hposted] at hfind
        cases found with
        | some job =>
          have hselect : upsertStep answer s (t.at .unlisted) = some (s, t.at (.found job)) := by
            simp [upsertStep, UpsertThread.at, hposted]
          exact .head ⟨answer, hselect⟩ (found_alone answer (findPosted_row hposted) hfind)
        | none =>
          have hselect : upsertStep answer s (t.at .unlisted) = some (s, t.at .missing) := by
            simp [upsertStep, UpsertThread.at, hposted]
          exact .head ⟨answer, hselect⟩ (missing_alone answer hfind)

end Alone

end JobRadar
