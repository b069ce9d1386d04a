import JobRadar.JobDeduplication
import JobRadar.JobQueries
import JobRadar.Paging

namespace JobRadar

open Database Paging Python

/-- The columns of a job that only the listing reads. -/
structure JobColumns where
  status : Text := text "active"
  lastSeenAt : Time := 0

structure JobCatalog extends RadarDb where
  columns : Uuid → JobColumns

/-- `lower(…)` and `CAST(… AS TEXT)` in the database. -/
structure SqlText where
  lower : Text → Text
  jsonText : List Json → Text

structure JobFilters where
  minScore : Option Int := none
  status : Option Text := none
  company : Option Text := none
  location : Option Text := none

/-- `t LIKE pattern`: `%` stands for any text, `_` for one code point, and a backslash takes the
next code point as it is. -/
def like : Text → Text → Bool
  | [], t => t.isEmpty
  | 37 :: pattern, t => t.tails.any fun rest => like pattern rest
  | 95 :: pattern, t => !t.isEmpty && like pattern t.tail
  | 92 :: c :: pattern, t => t.head? = some c && like pattern t.tail
  | c :: pattern, t => t.head? = some c && like pattern t.tail

/-- `column.contains(needle)`, which escapes nothing. -/
def sqlContains (t needle : Text) : Bool := like (37 :: needle ++ [37]) t

/-- The conditions on the columns of a job. An empty company or location is no condition. -/
def JobFilters.admits (f : JobFilters) (q : SqlText) (u : Casefold) (job : Job)
    (columns : JobColumns) : Bool :=
  columns.status = f.status.getD (text "active") &&
    f.company.all (fun company =>
      company.isEmpty || sqlContains (q.lower job.companyName) (u.text company)) &&
    f.location.all fun location =>
      location.isEmpty || sqlContains (q.jsonText job.locations) location

namespace JobCatalog

variable (c : JobCatalog) (q : SqlText) (u : Casefold) (userId : Uuid) (f : JobFilters)

def scored (minScore : Int) (jobId : Uuid) : List MatchResult :=
  c.matchResults.filter fun m => m.jobId = jobId ∧ minScore ≤ m.score

/-- How often the join with the matches repeats a job. -/
def partners (job : Job) : Nat :=
  match f.minScore with
  | none => 1
  | some minScore => (c.scored minScore job.id).length

def queryRows : List Job :=
  join (c.partners f) (c.jobs.jobs.rows.filter fun job =>
    c.visible userId job.id && f.admits q u job (c.columns job.id))

/-- `ORDER BY last_seen_at DESC, id`. -/
def ListedBefore (a b : Job) : Prop :=
  (c.columns b.id).lastSeenAt < (c.columns a.id).lastSeenAt ∨
    (c.columns a.id).lastSeenAt = (c.columns b.id).lastSeenAt ∧ a.id ≤ b.id

instance : DecidableRel c.ListedBefore := fun _ _ => inferInstanceAs (Decidable (_ ∨ _))

def list (page pageSize : Nat) : List Job × Nat :=
  let rows := c.queryRows q u userId f
  (Paging.page pageSize page (rows.insertionSort c.ListedBefore), rows.length)

/-- The job is visible to the user and meets the filters. -/
def Satisfies (job : Job) : Prop :=
  (c.visible userId job.id = true ∧ f.admits q u job (c.columns job.id) = true) ∧
    ∀ minScore ∈ f.minScore, ∃ m ∈ c.matchResults, m.jobId = job.id ∧ minScore ≤ m.score

/-- The jobs of all pages, one page after another. -/
def allPages (pageSize : Nat) : List Job :=
  (List.range' 1 (pageCount pageSize (c.list q u userId f 1 pageSize).2)).flatMap
    fun page => (c.list q u userId f page pageSize).1

/-- The pages have each job that meets the filters once, in order, and the total counts them. -/
def PagesPartition (pageSize : Nat) : Prop :=
  (c.allPages q u userId f pageSize).Nodup ∧
  (∀ job, job ∈ c.allPages q u userId f pageSize ↔
    job ∈ c.jobs.jobs ∧ c.Satisfies q u userId f job) ∧
  (c.allPages q u userId f pageSize).Pairwise c.ListedBefore ∧
  (c.list q u userId f 1 pageSize).2 = (c.allPages q u userId f pageSize).length

section Order

instance : Std.Total c.ListedBefore := by
  constructor
  intro a b
  rcases Nat.lt_trichotomy (c.columns a.id).lastSeenAt (c.columns b.id).lastSeenAt with
    hlt | heq | hgt
  · exact Or.inr (Or.inl hlt)
  · rcases Nat.le_total a.id b.id with hle | hle
    · exact Or.inl (Or.inr ⟨heq, hle⟩)
    · exact Or.inr (Or.inr ⟨heq.symm, hle⟩)
  · exact Or.inl (Or.inl hgt)

instance : IsTrans Job c.ListedBefore := by
  constructor
  rintro x y z (hxy | ⟨hxy, hle⟩) (hyz | ⟨hyz, hle'⟩)
  · exact Or.inl (Nat.lt_trans hyz hxy)
  · exact Or.inl (hyz ▸ hxy)
  · exact Or.inl (hxy ▸ hyz)
  · exact Or.inr ⟨hxy.trans hyz, Nat.le_trans hle hle'⟩

end Order

section Pages

variable {c q u userId f} {pageSize : Nat} {job : Job}

theorem partners_ne_zero : c.partners f job ≠ 0 ↔
    ∀ minScore ∈ f.minScore, ∃ m ∈ c.matchResults, m.jobId = job.id ∧ minScore ≤ m.score := by
  unfold partners
  cases f.minScore with
  | none => simp
  | some minScore =>
    rw [← Nat.pos_iff_ne_zero, List.length_pos_iff_exists_mem]
    simp [scored]

theorem mem_queryRows :
    job ∈ c.queryRows q u userId f ↔ job ∈ c.jobs.jobs ∧ c.Satisfies q u userId f job := by
  unfold queryRows Satisfies
  rw [mem_join, partners_ne_zero, List.mem_filter, Bool.and_eq_true, and_assoc]
  exact Iff.rfl

theorem allPages_eq (hsize : 0 < pageSize) : c.allPages q u userId f pageSize =
    (c.queryRows q u userId f).insertionSort c.ListedBefore := by
  have hlength : (c.list q u userId f 1 pageSize).2 =
      ((c.queryRows q u userId f).insertionSort c.ListedBefore).length :=
    (List.length_insertionSort _ _).symm
  rw [allPages, hlength]
  exact flatMap_pages hsize _

theorem mem_allPages (hsize : 0 < pageSize) : job ∈ c.allPages q u userId f pageSize ↔
    job ∈ c.jobs.jobs ∧ c.Satisfies q u userId f job := by
  rw [allPages_eq hsize, List.mem_insertionSort, mem_queryRows]

/-- The pages partition the result exactly when no job has two matches that the score filter
lets through. -/
theorem pages_partition_iff (hsize : 0 < pageSize) :
    c.PagesPartition q u userId f pageSize ↔
      ∀ minScore ∈ f.minScore, ∀ job ∈ c.jobs.jobs,
        c.visible userId job.id = true → f.admits q u job (c.columns job.id) = true →
        (c.scored minScore job.id).length ≤ 1 := by
  have hrows : c.jobs.jobs.rows.Nodup := c.jobs.jobs.unique.of_map _
  have hnodup : (c.allPages q u userId f pageSize).Nodup ↔
      ∀ job ∈ c.jobs.jobs.rows.filter (fun job =>
        c.visible userId job.id && f.admits q u job (c.columns job.id)), c.partners f job ≤ 1 := by
    rw [allPages_eq hsize, (List.perm_insertionSort _ _).nodup_iff]
    exact nodup_join_iff (hrows.filter _)
  constructor
  · rintro ⟨hpages, -, -, -⟩ minScore hscore job hjob hvisible hadmits
    have hle := hnodup.mp hpages job (by
      rw [List.mem_filter, hvisible, hadmits]
      exact ⟨hjob, rfl⟩)
    rw [partners, hscore] at hle
    exact hle
  · intro hsingle
    refine ⟨hnodup.mpr ?_, fun job => mem_allPages hsize, ?_, ?_⟩
    · intro job hjob
      obtain ⟨hmem, hvisible⟩ := List.mem_filter.mp hjob
      rw [Bool.and_eq_true] at hvisible
      unfold partners
      cases hscore : f.minScore with
      | none => exact Nat.le_refl 1
      | some minScore => exact hsingle minScore hscore job hmem hvisible.1 hvisible.2
    · rw [allPages_eq hsize]
      exact List.pairwise_insertionSort _ _
    · rw [allPages_eq hsize, List.length_insertionSort]
      rfl

end Pages

end JobCatalog

/-- Ann's job, matched as often as there are ids. -/
def annsMatches (matchIds : List Uuid) : JobCatalog where
  toRadarDb :=
    RadarDb.run .ascii .head
      ([.createSource ⟨11, 1, "lever", text "Acme", []⟩,
        .upsert 11 (JobStore.backendPosting 11 (text "1")).candidate,
        .updatePreferences 1 21 { titles := [text "Backend"] }] ++
        matchIds.map fun matchId => .matchJob matchId 1 1 100)
  columns _ := {}

def plainSql : SqlText := ⟨id, fun _ => []⟩

theorem one_match_partition :
    (annsMatches [31]).PagesPartition plainSql .ascii 1 { minScore := some 5 } 20 := by
  apply (JobCatalog.pages_partition_iff (by decide)).mpr
  intro minScore hscore job hjob _ _
  cases hscore
  revert job
  decide

/-- After a second match the one job is listed twice, and counted twice. -/
theorem two_matches_repeat_job :
    ((annsMatches [31, 32]).list plainSql .ascii 1 { minScore := some 5 } 1 20).1.map Job.id =
      [1, 1] ∧
    ((annsMatches [31, 32]).list plainSql .ascii 1 { minScore := some 5 } 1 20).2 = 2 ∧
    ¬(annsMatches [31, 32]).PagesPartition plainSql .ascii 1 { minScore := some 5 } 20 := by
  refine ⟨by decide, by decide, ?_⟩
  rw [JobCatalog.pages_partition_iff (by decide)]
  intro hsingle
  have htwice : ∀ job ∈ (annsMatches [31, 32]).jobs.jobs.rows,
      (annsMatches [31, 32]).visible 1 job.id = true ∧
      JobFilters.admits { minScore := some 5 } plainSql .ascii job
        ((annsMatches [31, 32]).columns job.id) = true ∧
      ((annsMatches [31, 32]).scored 5 job.id).length = 2 := by
    decide
  obtain ⟨job, hjob⟩ : ∃ job, job ∈ (annsMatches [31, 32]).jobs.jobs :=
    ⟨_, List.mem_singleton.mpr rfl⟩
  obtain ⟨hvisible, hadmits, hlength⟩ := htwice job hjob
  have hle := hsingle 5 rfl job hjob hvisible hadmits
  omega

end JobRadar
