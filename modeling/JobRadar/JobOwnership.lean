import JobRadar.JobDeduplication
import JobRadar.JobQueries

namespace JobRadar

open Database Python

namespace RadarDb

/-- The foreign key of a source record: its job is there. -/
def RecordsLinked (db : RadarDb) : Prop :=
  ∀ r ∈ db.jobs.records, ∃ job, db.jobs.jobs.find r.jobId = some job

/-- The three endpoints refuse the job to exactly the users without a source that lists it. -/
def OwnershipRule (u : Casefold) (db : RadarDb) (userId jobId : Uuid) : Prop :=
  ∀ first matchId now label note,
    ((db.matchJob u matchId jobId userId now).2 = .error .jobNotFound ↔
      db.visible userId jobId = false) ∧
    (db.detail first userId jobId = .error .jobNotFound ↔ db.visible userId jobId = false) ∧
    ((db.saveFeedback userId jobId label note).2 = .error .jobNotFound ↔
      db.visible userId jobId = false)

section Rule

variable {u : Casefold} {db db' : RadarDb} {userId jobId : Uuid}

theorem RecordsLinked.exists_job (h : db.RecordsLinked)
    (hvisible : db.visible userId jobId = true) :
    ∃ job, db.jobs.jobs.find jobId = some job := by
  obtain ⟨r, hr, hrow⟩ := List.any_eq_true.mp hvisible
  simp only [Bool.and_eq_true, decide_eq_true_eq] at hrow
  rw [← hrow.1]
  exact h r hr

theorem getJob_eq_none_iff (h : db.RecordsLinked) :
    db.getJob userId jobId = none ↔ db.visible userId jobId = false := by
  constructor
  · intro hnone
    rw [← Bool.not_eq_true]
    intro hvisible
    obtain ⟨job, hjob⟩ := h.exists_job hvisible
    have hid : job.id = jobId := (Table.find_eq_some_iff.mp hjob).2
    rw [getJob, hjob, Option.filter_eq_none_iff] at hnone
    exact hnone job rfl (hid ▸ hvisible)
  · intro hhidden
    rw [getJob, Option.filter_eq_none_iff]
    intro job hjob hvisible
    have hid : job.id = jobId := (Table.find_eq_some_iff.mp hjob).2
    rw [hid, hhidden] at hvisible
    cases hvisible

theorem detail_refused_iff (first : FirstRow MatchResult) :
    db.detail first userId jobId = .error .jobNotFound ↔ db.getJob userId jobId = none := by
  unfold detail
  cases db.getJob userId jobId with
  | none => simp
  | some job => simp

theorem saveFeedback_refused_iff (label : FeedbackLabel) (note : Option Text) :
    (db.saveFeedback userId jobId label note).2 = .error .jobNotFound ↔
      db.getJob userId jobId = none := by
  unfold saveFeedback
  cases db.getJob userId jobId with
  | none => simp
  | some job =>
    dsimp only
    split
    next => simp
    next => simp

theorem matchJob_refused_iff (matchId : Uuid) (now : Time) :
    (db.matchJob u matchId jobId userId now).2 = .error .jobNotFound ↔
      db.jobs.jobs.find jobId = none := by
  unfold matchJob
  cases db.jobs.jobs.find jobId with
  | none => simp
  | some job =>
    dsimp only
    split
    next => simp
    next =>
      split
      next => simp
      next => simp

/-- The endpoints agree exactly on the jobs that are not there or are visible to the user. -/
theorem ownership_rule_iff (h : db.RecordsLinked) :
    db.OwnershipRule u userId jobId ↔
      db.jobs.jobs.find jobId = none ∨ db.visible userId jobId = true := by
  constructor
  · intro hrule
    obtain ⟨hmatch, -, -⟩ := hrule .head 0 0 .saved none
    rw [matchJob_refused_iff] at hmatch
    cases hvisible : db.visible userId jobId with
    | true => exact Or.inr rfl
    | false => exact Or.inl (hmatch.mpr hvisible)
  · intro hjob first matchId now label note
    rw [matchJob_refused_iff, detail_refused_iff, saveFeedback_refused_iff, getJob_eq_none_iff h]
    refine ⟨?_, Iff.rfl, Iff.rfl⟩
    rcases hjob with hnone | hvisible
    · rw [hnone, ← getJob_eq_none_iff h, getJob, hnone]
      simp
    · obtain ⟨job, hfound⟩ := h.exists_job hvisible
      simp [hfound, hvisible]

theorem RecordsLinked.of_jobs (h : db.RecordsLinked) (hjobs : db'.jobs = db.jobs) :
    db'.RecordsLinked := by
  intro r hr
  rw [hjobs] at hr ⊢
  exact h r hr

end Rule

section Run

variable {u : Casefold} {first : FirstRow Job}

theorem recordsLinked_upsert {s s' : JobStore} {jobId sourceId : Uuid} {c : JobCandidate}
    {job : Job} {created changed : Bool}
    (h : ∀ r ∈ s.records, ∃ job, s.jobs.find r.jobId = some job)
    (hupsert : s.upsert first jobId sourceId c = .ok (s', job, created, changed)) :
    ∀ r ∈ s'.records, ∃ job, s'.jobs.find r.jobId = some job := by
  rcases JobStore.upsert_cases hupsert with
    ⟨jobs, record, hfind, hjob, hinsert, hrecord, rfl⟩ | ⟨record, hfind, -, hrecord, rfl⟩ |
      ⟨old, content, record, hfind, -, -, hrecord, -, rfl⟩
  all_goals
    have hid := (JobCandidate.sourceRecord_some hrecord).1
    intro r hr
    rcases List.mem_append.mp hr with hr | hr
  · obtain ⟨old, hold⟩ := h r hr
    exact ⟨old, Table.find_of_insert_of_find hinsert hold⟩
  · rw [List.mem_singleton.mp hr, hid]
    exact ⟨job, Table.find_of_mem ((Table.mem_of_insert hinsert).mpr (Or.inr rfl))⟩
  · exact h r hr
  · rw [List.mem_singleton.mp hr, hid]
    have hrow : s.jobs.find job.id = some job := JobStore.findExisting_row hfind
    exact ⟨job, hrow⟩
  · obtain ⟨row, hrow⟩ := h r hr
    exact ⟨_, (JobStore.find_updated s old content _).trans (by rw [hrow]; rfl)⟩
  · rw [List.mem_singleton.mp hr, hid]
    have hrow := JobStore.findExisting_row hfind
    exact ⟨_, (JobStore.find_updated s old content _).trans (by rw [hrow]; rfl)⟩

theorem step_recordsLinked {db : RadarDb} (h : db.RecordsLinked) (op : RadarOp) :
    (db.step u first op).RecordsLinked := by
  rcases step_jobs db op with hjobs | ⟨sourceId, candidate, jobs, job, created, changed, -,
    hupsert, hdb⟩
  · exact h.of_jobs hjobs
  · rw [hdb]
    exact recordsLinked_upsert h hupsert

theorem run_recordsLinked (ops : List RadarOp) : (run u first ops).RecordsLinked := by
  have hall : ∀ (db : RadarDb), db.RecordsLinked → (ops.foldl (step u first) db).RecordsLinked := by
    induction ops with
    | nil => exact fun _ h => h
    | cons op ops ih => exact fun db h => ih _ (step_recordsLinked h op)
  exact hall empty fun r hr => by cases hr

end Run

def annsJob : RadarDb :=
  run .ascii .head [.createSource ⟨11, 1, "lever", text "Acme", []⟩,
    .upsert 11 (JobStore.backendPosting 11 (text "1")).candidate,
    .updatePreferences 2 22 { titles := [text "Backend"] }]

theorem annsJob_linked : annsJob.RecordsLinked := run_recordsLinked _

theorem ann_meets_rule : annsJob.OwnershipRule .ascii 1 1 :=
  (ownership_rule_iff annsJob_linked).mpr (Or.inr (by decide))

/-- Bob is not shown Ann's job, and gets a match for it all the same. -/
theorem bob_matches_anns_job : annsJob.detail .head 2 1 = .error .jobNotFound ∧
    ((annsJob.matchJob .ascii 31 1 2 100).2.toOption.map fun m => (m.jobId, m.score)) =
      some (1, 10) ∧
    ¬annsJob.OwnershipRule .ascii 2 1 := by
  refine ⟨rfl, by decide, ?_⟩
  rw [ownership_rule_iff annsJob_linked]
  rintro (hnone | hvisible)
  · have hsome : (annsJob.jobs.jobs.find 1).isSome := by decide
    rw [hnone] at hsome
    cases hsome
  · exact absurd hvisible (by decide)

end RadarDb

end JobRadar
