import JobRadar.AuthModel
import JobRadar.Columns

namespace JobRadar

open Database Python

/-- What `normalize_record` makes of a listing. The adapters pass the provider's own values
for the link, the location and the payload. -/
structure JobCandidate where
  title : Text
  companyName : Text
  companyNormalized : Text
  description : Text
  descriptionHash : Text
  locations : List Json
  applicationUrl : Json
  externalId : Text
  rawPayload : Json

/-- The columns an update of a job may change. -/
structure JobContent where
  title : Text
  description : Text
  descriptionHash : Text
  locations : List Json

structure Job extends JobContent where
  id : Uuid
  companyName : Text
  companyNormalized : Text
  applicationUrl : Text

def Job.update (job : Job) (content : JobContent) : Job := { job with toJobContent := content }

structure JobSourceRecord where
  jobId : Uuid
  sourceId : Uuid
  externalId : Text
  sourceUrl : Text
  rawPayload : Json

structure JobStore where
  jobs : Table Job.id
  records : List JobSourceRecord

def JobStore.empty : JobStore := ⟨.empty, []⟩

/-- How a statement fails: refused while it is prepared or executed, or at the flush or
commit, which the session helpers translate. -/
inductive StoreError
  | statementRefused
  | persistenceFailure
  | dataConflict
  deriving DecidableEq

/-- The value a column stores, or the failure of the flush. -/
def stored {α : Type} : Option α → Except StoreError α
  | some value => .ok value
  | none => .error .persistenceFailure

namespace JobCandidate

variable (c : JobCandidate)

def content : Option JobContent := do
  let title ← varcharColumn 500 c.title
  let description ← textColumn c.description
  let descriptionHash ← varcharColumn 64 c.descriptionHash
  if jsonItems c.locations then some ⟨title, description, descriptionHash, c.locations⟩ else none

/-- The link as a column value: a missing link is the NULL that the column refuses. -/
def url : Option Text :=
  match c.applicationUrl with
  | .str url => textColumn url
  | _ => none

def job (jobId : Uuid) : Option Job := do
  let content ← c.content
  let companyName ← varcharColumn 255 c.companyName
  let companyNormalized ← varcharColumn 255 c.companyNormalized
  let url ← c.url
  some ⟨content, jobId, companyName, companyNormalized, url⟩

def sourceRecord (jobId sourceId : Uuid) : Option JobSourceRecord := do
  let externalId ← varcharColumn 255 c.externalId
  let url ← c.url
  if jsonColumn c.rawPayload then some ⟨jobId, sourceId, externalId, url, c.rawPayload⟩ else none

variable {c}

theorem job_some {jobId : Uuid} {job : Job} (h : c.job jobId = some job) :
    job.id = jobId ∧ c.content = some job.toJobContent ∧ c.url = some job.applicationUrl ∧
      varcharColumn 255 c.companyName = some job.companyName ∧
      varcharColumn 255 c.companyNormalized = some job.companyNormalized := by
  simp only [JobCandidate.job, Option.bind_eq_bind, Option.bind_eq_some_iff] at h
  obtain ⟨content, hcontent, name, hname, normalized, hnormalized, url, hurl, hjob⟩ := h
  cases hjob
  exact ⟨rfl, hcontent, hurl, hname, hnormalized⟩

theorem sourceRecord_some {jobId sourceId : Uuid} {record : JobSourceRecord}
    (h : c.sourceRecord jobId sourceId = some record) :
    record.jobId = jobId ∧ record.sourceId = sourceId ∧
      varcharColumn 255 c.externalId = some record.externalId ∧ c.url = some record.sourceUrl := by
  simp only [JobCandidate.sourceRecord, Option.bind_eq_bind, Option.bind_eq_some_iff] at h
  obtain ⟨externalId, hid, url, hurl, hrecord⟩ := h
  split at hrecord
  next =>
    cases hrecord
    exact ⟨rfl, rfl, hid, hurl⟩
  next => cases hrecord

theorem url_some {url : Text} (h : c.url = some url) :
    c.applicationUrl = .str url ∧ storable url = true := by
  unfold JobCandidate.url at h
  split at h
  next url' hurl =>
    unfold textColumn at h
    split at h
    next hstorable =>
      cases h
      exact ⟨hurl, hstorable⟩
    next => cases h
  next => cases h

end JobCandidate

namespace JobStore

variable (s : JobStore)

/-- The rows of `jobs JOIN job_source_records` for one listing of a source. -/
def jobsOfListing (sourceId : Uuid) (externalId : Text) : List Job :=
  (s.records.filter fun r => r.sourceId = sourceId ∧ r.externalId = externalId).filterMap
    fun r => s.jobs.find r.jobId

def jobsOfPosting (url companyNormalized : Text) : List Job :=
  s.jobs.rows.filter fun job =>
    job.applicationUrl = url ∧ job.companyNormalized = companyNormalized

def findExisting (first : FirstRow Job) (sourceId : Uuid) (c : JobCandidate) :
    Except StoreError (Option Job) :=
  if ¬storable c.externalId then .error .statementRefused
  else match first.pick (s.jobsOfListing sourceId c.externalId) with
    | some job => .ok (some job)
    | none =>
      match c.applicationUrl with
      | .null => .ok none
      | .str url =>
        if storable url ∧ storable c.companyNormalized then
          .ok (first.pick (s.jobsOfPosting url c.companyNormalized))
        else .error .statementRefused
      | _ => .error .statementRefused

def addRecord (job : Job) (sourceId : Uuid) (c : JobCandidate) :
    Except StoreError JobStore := do
  let record ← stored (c.sourceRecord job.id sourceId)
  return { s with records := s.records ++ [record] }

def addJob (jobId : Uuid) (c : JobCandidate) : Except StoreError (JobStore × Job) := do
  let job ← stored (c.job jobId)
  match s.jobs.insert job with
  | none => .error .dataConflict
  | some jobs => return ({ s with jobs := jobs }, job)

def updateJob (job : Job) (content : JobContent) : JobStore :=
  { s with jobs := s.jobs.updateWhere (·.id = job.id) (·.update content) fun _ => rfl }

/-- `upsert`: the store, the job, and whether it was created or changed. A call that raises
has been rolled back. -/
def upsert (first : FirstRow Job) (jobId sourceId : Uuid) (c : JobCandidate) :
    Except StoreError (JobStore × Job × Bool × Bool) := do
  match ← s.findExisting first sourceId c with
  | none =>
    let (s, job) ← s.addJob jobId c
    let s ← s.addRecord job sourceId c
    return (s, job, true, false)
  | some job =>
    if job.descriptionHash = c.descriptionHash then
      let s ← s.addRecord job sourceId c
      return (s, job, false, false)
    else
      let content ← stored c.content
      let s ← (s.updateJob job content).addRecord job sourceId c
      return (s, job.update content, false, true)

section Upsert

variable {s} {s' s'' : JobStore} {first : FirstRow Job} {jobId sourceId : Uuid} {c : JobCandidate}
  {job : Job}

theorem upsert_new (hfind : s.findExisting first sourceId c = .ok none)
    (hjob : s.addJob jobId c = .ok (s', job)) (hrecord : s'.addRecord job sourceId c = .ok s'') :
    s.upsert first jobId sourceId c = .ok (s'', job, true, false) := by
  simp only [upsert, hfind, hjob, hrecord, bind, Except.bind, pure, Except.pure]

theorem upsert_same (hfind : s.findExisting first sourceId c = .ok (some job))
    (hhash : job.descriptionHash = c.descriptionHash)
    (hrecord : s.addRecord job sourceId c = .ok s') :
    s.upsert first jobId sourceId c = .ok (s', job, false, false) := by
  simp only [upsert, hfind, hhash, hrecord, if_true, bind, Except.bind, pure, Except.pure]

theorem upsert_changed {content : JobContent}
    (hfind : s.findExisting first sourceId c = .ok (some job))
    (hhash : job.descriptionHash ≠ c.descriptionHash) (hcontent : c.content = some content)
    (hrecord : (s.updateJob job content).addRecord job sourceId c = .ok s') :
    s.upsert first jobId sourceId c = .ok (s', job.update content, false, true) := by
  simp only [upsert, hfind, hhash, hcontent, stored, hrecord, if_false, bind, Except.bind, pure,
    Except.pure]

theorem addRecord_ok (h : s.addRecord job sourceId c = .ok s') :
    ∃ record, c.sourceRecord job.id sourceId = some record ∧
      s' = { s with records := s.records ++ [record] } := by
  unfold addRecord stored at h
  split at h
  next record hrecord =>
    cases h
    exact ⟨record, hrecord, rfl⟩
  next => cases h

theorem addJob_ok (h : s.addJob jobId c = .ok (s', job)) :
    c.job jobId = some job ∧ ∃ jobs, s.jobs.insert job = some jobs ∧
      s' = { s with jobs := jobs } := by
  unfold addJob stored at h
  cases hjob : c.job jobId with
  | none => simp [hjob, bind, Except.bind] at h
  | some new =>
    simp only [hjob, bind, Except.bind] at h
    split at h
    next => cases h
    next jobs hinsert =>
      cases h
      exact ⟨rfl, jobs, hinsert, rfl⟩

theorem find_updated (s : JobStore) (job : Job) (content : JobContent) (id : Uuid) :
    (s.updateJob job content).jobs.find id =
      (s.jobs.find id).map fun row => if row.id = job.id then row.update content else row :=
  s.jobs.find_updateWhere (·.id = job.id) (·.update content) (fun _ => rfl) id

theorem mem_updated {s : JobStore} {row : Job} (hrow : row ∈ s.jobs) (job : Job)
    (content : JobContent) :
    (if row.id = job.id then row.update content else row) ∈ (s.updateJob job content).jobs := by
  have hkeep : ∀ r : Job, (r.update content).id = r.id := fun _ => rfl
  exact (Table.mem_updateWhere hkeep).mpr ⟨row, hrow, rfl⟩

theorem pick_none_eq_nil {rows : List Job} (h : first.pick rows = none) : rows = [] :=
  List.eq_nil_iff_forall_not_mem.mpr (first.pick_eq_none_iff.mp h)

/-- A job is found under its listing, or else by link and company. -/
theorem findExisting_some (h : s.findExisting first sourceId c = .ok (some job)) :
    job ∈ s.jobsOfListing sourceId c.externalId ∨
      s.jobsOfListing sourceId c.externalId = [] ∧
        ∃ url, c.applicationUrl = .str url ∧ job ∈ s.jobsOfPosting url c.companyNormalized := by
  unfold findExisting at h
  split at h
  next => cases h
  next =>
    split at h
    next row hpick =>
      cases h
      exact Or.inl (first.mem_of_pick _ _ hpick)
    next hpick =>
      split at h
      next => cases h
      next url hurl =>
        split at h
        next =>
          exact Or.inr ⟨pick_none_eq_nil hpick, url, hurl,
            first.mem_of_pick _ _ (Except.ok.inj h)⟩
        next => cases h
      next => cases h

theorem findExisting_none (h : s.findExisting first sourceId c = .ok none) :
    s.jobsOfListing sourceId c.externalId = [] ∧
      ∀ url, c.applicationUrl = .str url → s.jobsOfPosting url c.companyNormalized = [] := by
  unfold findExisting at h
  split at h
  next => cases h
  next =>
    split at h
    next => cases h
    next hpick =>
      refine ⟨pick_none_eq_nil hpick, ?_⟩
      intro url hurl
      rw [hurl] at h
      dsimp only at h
      split at h
      next => exact pick_none_eq_nil (Except.ok.inj h)
      next => cases h

theorem findExisting_storable {found : Option Job}
    (h : s.findExisting first sourceId c = .ok found) : storable c.externalId = true ∧
      (s.jobsOfListing sourceId c.externalId = [] →
        ∀ url, c.applicationUrl = .str url → storable c.companyNormalized = true) := by
  unfold findExisting at h
  split at h
  next => cases h
  next hid =>
    refine ⟨not_not.mp hid, ?_⟩
    intro hlisting url hurl
    have hnone : first.pick (s.jobsOfListing sourceId c.externalId) = none := by
      rw [first.pick_eq_none_iff, hlisting]
      exact fun _ => List.not_mem_nil
    simp only [hnone, hurl] at h
    split at h
    next hstorable => exact hstorable.2
    next => cases h

/-- The lookup goes through if its values can be sent. -/
theorem exists_findExisting {url : Text} (hid : storable c.externalId = true)
    (hurl : c.applicationUrl = .str url) (hstorable : storable url = true)
    (hcompany : s.jobsOfListing sourceId c.externalId = [] →
      storable c.companyNormalized = true) :
    ∃ found, s.findExisting first sourceId c = .ok found := by
  unfold findExisting
  rw [if_neg (not_not.mpr hid)]
  split
  next job hpick => exact ⟨_, rfl⟩
  next hpick =>
    rw [hurl]
    dsimp only
    rw [if_pos ⟨hstorable, hcompany (pick_none_eq_nil hpick)⟩]
    exact ⟨_, rfl⟩

theorem mem_jobsOfListing {externalId : Text} : job ∈ s.jobsOfListing sourceId externalId ↔
    ∃ r ∈ s.records, r.sourceId = sourceId ∧ r.externalId = externalId ∧
      s.jobs.find r.jobId = some job := by
  simp [jobsOfListing, and_assoc]

theorem findExisting_row (h : s.findExisting first sourceId c = .ok (some job)) :
    s.jobs.find job.id = some job := by
  rcases findExisting_some h with hlisting | ⟨-, url, -, hposting⟩
  · obtain ⟨record, -, -, -, hfind⟩ := mem_jobsOfListing.mp hlisting
    exact Table.find_of_mem (Table.find_eq_some_iff.mp hfind).1
  · exact Table.find_of_mem (List.mem_filter.mp hposting).1

/-- A call that goes through adds one record, for a new job, for the job it found, or for that
job with its content changed. -/
theorem upsert_outcome {created changed : Bool}
    (h : s.upsert first jobId sourceId c = .ok (s', job, created, changed)) :
    (∃ jobs record, s.findExisting first sourceId c = .ok none ∧ c.job jobId = some job ∧
      s.jobs.insert job = some jobs ∧ c.sourceRecord job.id sourceId = some record ∧
      s' = ⟨jobs, s.records ++ [record]⟩ ∧ created = true ∧ changed = false) ∨
    (∃ record, s.findExisting first sourceId c = .ok (some job) ∧
      job.descriptionHash = c.descriptionHash ∧ c.sourceRecord job.id sourceId = some record ∧
      s' = ⟨s.jobs, s.records ++ [record]⟩ ∧ created = false ∧ changed = false) ∨
    ∃ old content record, s.findExisting first sourceId c = .ok (some old) ∧
      old.descriptionHash ≠ c.descriptionHash ∧ c.content = some content ∧
      c.sourceRecord old.id sourceId = some record ∧ job = old.update content ∧
      s' = ⟨(s.updateJob old content).jobs, s.records ++ [record]⟩ ∧
      created = false ∧ changed = true := by
  unfold upsert at h
  cases hfind : s.findExisting first sourceId c with
  | error e => simp [hfind, bind, Except.bind] at h
  | ok found =>
    cases found with
    | none =>
      cases hadd : s.addJob jobId c with
      | error e => simp [hfind, hadd, bind, Except.bind] at h
      | ok added =>
        obtain ⟨s₁, new⟩ := added
        cases hrecord : s₁.addRecord new sourceId c with
        | error e => simp [hfind, hadd, hrecord, bind, Except.bind] at h
        | ok s₂ =>
          simp only [hfind, hadd, hrecord, bind, Except.bind, pure, Except.pure] at h
          cases h
          obtain ⟨hjob, jobs, hinsert, rfl⟩ := addJob_ok hadd
          obtain ⟨record, hsource, rfl⟩ := addRecord_ok hrecord
          exact Or.inl ⟨jobs, record, rfl, hjob, hinsert, hsource, rfl, rfl, rfl⟩
    | some old =>
      by_cases hhash : old.descriptionHash = c.descriptionHash
      · cases hrecord : s.addRecord old sourceId c with
        | error e => simp [hfind, hhash, hrecord, bind, Except.bind] at h
        | ok s₁ =>
          simp only [hfind, hhash, hrecord, if_true, bind, Except.bind, pure, Except.pure] at h
          cases h
          obtain ⟨record, hsource, rfl⟩ := addRecord_ok hrecord
          exact Or.inr (Or.inl ⟨record, rfl, hhash, hsource, rfl, rfl, rfl⟩)
      · cases hcontent : c.content with
        | none => simp [hfind, hhash, hcontent, stored, bind, Except.bind] at h
        | some content =>
          cases hrecord : (s.updateJob old content).addRecord old sourceId c with
          | error e => simp [hfind, hhash, hcontent, hrecord, stored, bind, Except.bind] at h
          | ok s₁ =>
            simp only [hfind, hhash, hcontent, stored, hrecord, if_false, bind, Except.bind, pure,
              Except.pure] at h
            cases h
            obtain ⟨record, hsource, rfl⟩ := addRecord_ok hrecord
            exact Or.inr (Or.inr
              ⟨old, content, record, rfl, hhash, rfl, hsource, rfl, rfl, rfl, rfl⟩)

theorem upsert_cases {created changed : Bool}
    (h : s.upsert first jobId sourceId c = .ok (s', job, created, changed)) :
    (∃ jobs record, s.findExisting first sourceId c = .ok none ∧ c.job jobId = some job ∧
      s.jobs.insert job = some jobs ∧ c.sourceRecord job.id sourceId = some record ∧
      s' = ⟨jobs, s.records ++ [record]⟩) ∨
    (∃ record, s.findExisting first sourceId c = .ok (some job) ∧
      job.descriptionHash = c.descriptionHash ∧ c.sourceRecord job.id sourceId = some record ∧
      s' = ⟨s.jobs, s.records ++ [record]⟩) ∨
    ∃ old content record, s.findExisting first sourceId c = .ok (some old) ∧
      old.descriptionHash ≠ c.descriptionHash ∧ c.content = some content ∧
      c.sourceRecord old.id sourceId = some record ∧ job = old.update content ∧
      s' = ⟨(s.updateJob old content).jobs, s.records ++ [record]⟩ := by
  rcases upsert_outcome h with
    ⟨jobs, record, hfind, hjob, hinsert, hrecord, hs', -⟩ |
      ⟨record, hfind, hhash, hrecord, hs', -⟩ |
      ⟨old, content, record, hfind, hhash, hcontent, hrecord, hjob, hs', -⟩
  · exact Or.inl ⟨jobs, record, hfind, hjob, hinsert, hrecord, hs'⟩
  · exact Or.inr (Or.inl ⟨record, hfind, hhash, hrecord, hs'⟩)
  · exact Or.inr (Or.inr ⟨old, content, record, hfind, hhash, hcontent, hrecord, hjob, hs'⟩)

end Upsert

/-- The columns take the listing's record, and what would be written of its job. -/
def Takes (s : JobStore) (first : FirstRow Job) (sourceId : Uuid) (c : JobCandidate) : Prop :=
  (c.sourceRecord 0 sourceId).isSome ∧ ∃ found, s.findExisting first sourceId c = .ok found ∧
    found.elim ((c.job 0).isSome = true) fun job =>
      job.descriptionHash = c.descriptionHash ∨ c.content.isSome = true

section Takes

variable {s : JobStore} {first : FirstRow Job} {sourceId : Uuid} {c : JobCandidate}

theorem sourceRecord_any {jobId : Uuid} {record : JobSourceRecord}
    (h : c.sourceRecord jobId sourceId = some record) (jobId' : Uuid) :
    c.sourceRecord jobId' sourceId = some { record with jobId := jobId' } := by
  simp only [JobCandidate.sourceRecord, Option.bind_eq_bind, Option.bind_eq_some_iff] at h ⊢
  obtain ⟨externalId, hid, url, hurl, hrecord⟩ := h
  split at hrecord
  next hpayload =>
    cases hrecord
    exact ⟨externalId, hid, url, hurl, if_pos hpayload⟩
  next => cases hrecord

theorem job_any {jobId : Uuid} {job : Job} (h : c.job jobId = some job) (jobId' : Uuid) :
    c.job jobId' = some { job with id := jobId' } := by
  simp only [JobCandidate.job, Option.bind_eq_bind, Option.bind_eq_some_iff] at h ⊢
  obtain ⟨content, hcontent, name, hname, normalized, hnormalized, url, hurl, hjob⟩ := h
  cases hjob
  exact ⟨content, hcontent, name, hname, normalized, hnormalized, url, hurl, rfl⟩

theorem addRecord_of_record {job : Job} {record : JobSourceRecord}
    (h : c.sourceRecord job.id sourceId = some record) :
    s.addRecord job sourceId c = .ok { s with records := s.records ++ [record] } := by
  simp only [addRecord, h, stored, bind, Except.bind, pure, Except.pure]

/-- A call goes through exactly when the store takes its listing. -/
theorem takes_iff : s.Takes first sourceId c ↔
    ∃ r, s.upsert first s.jobs.freshKey sourceId c = .ok r := by
  constructor
  · rintro ⟨hrecord, found, hfind, hfits⟩
    obtain ⟨record, hrecord⟩ := Option.isSome_iff_exists.mp hrecord
    cases found with
    | none =>
      obtain ⟨job₀, hjob₀⟩ := Option.isSome_iff_exists.mp hfits
      have hjob := job_any hjob₀ s.jobs.freshKey
      obtain ⟨jobs, hinsert⟩ := Table.insert_isSome_of_fresh
        (t := s.jobs) (r := { job₀ with id := s.jobs.freshKey })
        fun old ho => Table.key_ne_freshKey ho
      have hadd : s.addJob s.jobs.freshKey c =
          .ok ({ s with jobs := jobs }, { job₀ with id := s.jobs.freshKey }) := by
        simp only [addJob, hjob, stored, hinsert, bind, Except.bind, pure, Except.pure]
      have hrecord' := sourceRecord_any hrecord s.jobs.freshKey
      exact ⟨_, upsert_new hfind hadd (addRecord_of_record hrecord')⟩
    | some job =>
      have hrecord' := sourceRecord_any hrecord job.id
      by_cases hhash : job.descriptionHash = c.descriptionHash
      · exact ⟨_, upsert_same hfind hhash (addRecord_of_record hrecord')⟩
      · obtain ⟨content, hcontent⟩ := Option.isSome_iff_exists.mp (hfits.resolve_left hhash)
        exact ⟨_, upsert_changed hfind hhash hcontent (addRecord_of_record hrecord')⟩
  · rintro ⟨⟨s', job, created, changed⟩, h⟩
    rcases upsert_cases h with
      ⟨jobs, record, hfind, hjob, -, hrecord, -⟩ | ⟨record, hfind, hhash, hrecord, -⟩ |
        ⟨old, content, record, hfind, -, hcontent, hrecord, -, -⟩
    all_goals have hrecord' := sourceRecord_any hrecord 0
    all_goals refine ⟨Option.isSome_iff_exists.mpr ⟨_, hrecord'⟩, _, hfind, ?_⟩
    · exact Option.isSome_iff_exists.mpr ⟨_, job_any hjob 0⟩
    · exact Or.inl hhash
    · exact Or.inr (Option.isSome_iff_exists.mpr ⟨content, hcontent⟩)

end Takes

end JobStore

end JobRadar
