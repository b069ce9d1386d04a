import JobRadar.JobListing
import JobRadar.MatchPrivacy

namespace JobRadar

open Database Paging Python

namespace JobCatalog

/-- The match is of the job, and none of the job is later. -/
def Newest (c : JobCatalog) (jobId : Uuid) (m : MatchResult) : Prop :=
  m ∈ c.matchResults ∧ m.jobId = jobId ∧
    ∀ m' ∈ c.matchResults, m'.jobId = jobId → m'.createdAt ≤ m.createdAt

/-- Whatever order equal times come back in, the listing with the job's status has the job exactly
when the detail shows a match that reaches the score. -/
def ScoreFilterAgrees (c : JobCatalog) (q : SqlText) (u : Casefold) (userId : Uuid) (job : Job)
    (minScore : Int) : Prop :=
  ∀ first pageSize status, 0 < pageSize →
    Option.getD status (text "active") = (c.columns job.id).status →
    ((∃ page, job ∈
        (c.list q u userId { minScore := some minScore, status := status } page pageSize).1) ↔
      ∃ d m, c.detail first userId job.id = .ok d ∧ d.matchResult = some m ∧ minScore ≤ m.score)

variable {c : JobCatalog} {q : SqlText} {u : Casefold} {userId : Uuid} {job : Job}
  {minScore : Int} {first : FirstRow MatchResult}

theorem exists_page_iff {f : JobFilters} {pageSize : Nat} (hsize : 0 < pageSize) :
    (∃ page, job ∈ (c.list q u userId f page pageSize).1) ↔
      job ∈ c.jobs.jobs ∧ c.Satisfies q u userId f job := by
  rw [← mem_queryRows, ← List.mem_insertionSort c.ListedBefore]
  exact mem_pages hsize

theorem listed_iff {status : Option Text} {pageSize : Nat} (hsize : 0 < pageSize)
    (hjob : job ∈ c.jobs.jobs) (hvisible : c.visible userId job.id = true)
    (hstatus : status.getD (text "active") = (c.columns job.id).status) :
    (∃ page, job ∈
      (c.list q u userId { minScore := some minScore, status := status } page pageSize).1) ↔
      ∃ m ∈ c.matchResults, m.jobId = job.id ∧ minScore ≤ m.score := by
  have hadmits : JobFilters.admits { minScore := some minScore, status := status } q u job
      (c.columns job.id) = true := by
    simp [JobFilters.admits, hstatus]
  rw [exists_page_iff hsize]
  constructor
  · rintro ⟨-, -, hscore⟩
    exact hscore minScore rfl
  · intro hmatch
    refine ⟨hjob, ⟨hvisible, hadmits⟩, ?_⟩
    intro minScore' hscore
    cases hscore
    exact hmatch

theorem shown_iff (hjob : job ∈ c.jobs.jobs) (hvisible : c.visible userId job.id = true) :
    (∃ d m, c.detail first userId job.id = .ok d ∧ d.matchResult = some m ∧ minScore ≤ m.score) ↔
      ∃ m, c.latest first job.id = some m ∧ minScore ≤ m.score := by
  have hget : c.getJob userId job.id = some job := by
    rw [RadarDb.getJob, Table.find_of_mem hjob]
    simp [hvisible]
  have hdetail : c.detail first userId job.id =
      .ok ⟨job, c.latest first job.id, c.getFeedback userId job.id⟩ := by
    simp [RadarDb.detail, hget]
  rw [hdetail]
  constructor
  · rintro ⟨d, m, hd, hm, hscore⟩
    cases hd
    exact ⟨m, hm, hscore⟩
  · rintro ⟨m, hm, hscore⟩
    exact ⟨_, m, rfl, hm, hscore⟩

theorem newest_of_latest {m : MatchResult} (h : c.latest first job.id = some m) :
    c.Newest job.id m :=
  RadarDb.latest_spec h

theorem latest_prefer {m : MatchResult} (h : c.Newest job.id m) :
    c.latest (FirstRow.prefer m) job.id = some m := by
  obtain ⟨hmem, hid, hmax⟩ := h
  apply FirstRow.latest_prefer (RadarDb.mem_jobMatches.mpr ⟨hmem, hid⟩)
  intro m' hm'
  obtain ⟨hmem', hid'⟩ := RadarDb.mem_jobMatches.mp hm'
  exact hmax m' hmem' hid'

/-- Listing and detail agree about a visible job exactly when, should any of its matches reach the
score, the newest do. -/
theorem score_filter_agrees_iff (hjob : job ∈ c.jobs.jobs)
    (hvisible : c.visible userId job.id = true) :
    c.ScoreFilterAgrees q u userId job minScore ↔
      ∀ m ∈ c.matchResults, m.jobId = job.id → minScore ≤ m.score →
        ∀ newest, c.Newest job.id newest → minScore ≤ newest.score := by
  constructor
  · intro hagrees m hm hid hscore newest hnewest
    have hstatus : (some (c.columns job.id).status).getD (text "active") =
        (c.columns job.id).status := rfl
    have hlisted := (listed_iff (q := q) (u := u) Nat.one_pos hjob hvisible hstatus).mpr
      ⟨m, hm, hid, hscore⟩
    have hshown := (hagrees (FirstRow.prefer newest) 1 (some (c.columns job.id).status)
      Nat.one_pos hstatus).mp hlisted
    obtain ⟨shown, hlatest, hreaches⟩ := (shown_iff hjob hvisible).mp hshown
    rw [latest_prefer hnewest] at hlatest
    cases hlatest
    exact hreaches
  · intro hnewest first pageSize status hsize hstatus
    rw [listed_iff hsize hjob hvisible hstatus, shown_iff hjob hvisible]
    constructor
    · rintro ⟨m, hm, hid, hscore⟩
      obtain ⟨latest, hlatest⟩ := first.exists_latest (f := MatchResult.createdAt)
        (RadarDb.mem_jobMatches.mpr ⟨hm, hid⟩)
      exact ⟨latest, hlatest, hnewest m hm hid hscore latest (newest_of_latest hlatest)⟩
    · rintro ⟨m, hlatest, hscore⟩
      obtain ⟨hm, hid, -⟩ := newest_of_latest hlatest
      exact ⟨m, hm, hid, hscore⟩

end JobCatalog

/-- Ann matches the backend job, and again after she has changed her preferences. -/
def annsRematch (titles : List Text) : JobCatalog where
  toRadarDb := RadarDb.run .ascii .head (RadarDb.sharedListing ++
    [.matchJob 31 1 1 100, .updatePreferences 1 23 { titles := titles }, .matchJob 32 1 1 200])
  columns _ := {}

theorem rematch_agrees : ∃ job ∈ (annsRematch [text "Backend"]).jobs.jobs,
    (annsRematch [text "Backend"]).ScoreFilterAgrees plainSql .ascii 1 job 5 := by
  have hscores : ∀ m ∈ (annsRematch [text "Backend"]).matchResults, (5 : Int) ≤ m.score := by
    decide
  refine ⟨_, List.mem_singleton.mpr rfl, ?_⟩
  apply (JobCatalog.score_filter_agrees_iff (List.mem_singleton.mpr rfl) (by decide)).mpr
  intro m _ _ _ newest hnewest
  exact hscores newest hnewest.1

/-- The first match gives 10 points and the second none: at 5 the job is listed, and its detail
shows 0. -/
theorem rematch_disagrees : ∃ job ∈ (annsRematch [text "Rust"]).jobs.jobs,
    (annsRematch [text "Rust"]).visible 1 job.id = true ∧
    ((annsRematch [text "Rust"]).list plainSql .ascii 1 { minScore := some 5 } 1 20).1.map Job.id =
      [job.id] ∧
    ((annsRematch [text "Rust"]).latest .head job.id).map (fun m => m.score) = some 0 ∧
    ¬(annsRematch [text "Rust"]).ScoreFilterAgrees plainSql .ascii 1 job 5 := by
  refine ⟨_, List.mem_singleton.mpr rfl, by decide, by decide, by decide, ?_⟩
  rw [JobCatalog.score_filter_agrees_iff (List.mem_singleton.mpr rfl) (by decide)]
  intro hnewest
  have hrows : ∀ m ∈ (annsRematch [text "Rust"]).matchResults, m.jobId = 1 →
      (5 : Int) ≤ m.score → ∀ newest ∈ (annsRematch [text "Rust"]).matchResults,
      (newest.jobId = 1 ∧ ∀ m' ∈ (annsRematch [text "Rust"]).matchResults,
        m'.jobId = 1 → m'.createdAt ≤ newest.createdAt) → (5 : Int) ≤ newest.score :=
    fun m hm hid hscore newest hmem hlast => hnewest m hm hid hscore newest ⟨hmem, hlast⟩
  exact absurd hrows (by decide)

end JobRadar
