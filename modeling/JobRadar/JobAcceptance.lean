import JobRadar.JobNormalizer

namespace JobRadar

open Database Python

/-- The value is one a `VARCHAR(n)` column takes. -/
def FitsVarchar (n : Nat) (t : Text) : Prop := storable t ∧ ∀ c ∈ t.drop n, c = 32

theorem fitsVarchar_iff {n : Nat} {t : Text} :
    FitsVarchar n t ↔ ∃ v, varcharColumn n t = some v := by
  unfold varcharColumn FitsVarchar
  split
  next h => simpa using h
  next h => simpa using h

theorem storable_iff {t : Text} : storable t ↔ ∃ v, textColumn t = some v := by
  unfold textColumn
  split
  next h => simp [h]
  next h => simp [h]

/-- The columns of a job that a listing may change. -/
structure JobCandidate.ContentFits (c : JobCandidate) : Prop where
  title : FitsVarchar 500 c.title
  description : storable c.description
  locations : jsonItems c.locations

/-- The database takes the listing: its own record fits, and so do the columns of the job where
they are written. -/
structure JobStore.Accepts (s : JobStore) (first : FirstRow Job) (sourceId : Uuid)
    (c : JobCandidate) : Prop where
  externalId : FitsVarchar 255 c.externalId
  link : ∃ url, c.applicationUrl = .str url ∧ storable url
  payload : jsonColumn c.rawPayload
  new : s.findExisting first sourceId c = .ok none →
    c.ContentFits ∧ FitsVarchar 255 c.companyName ∧ FitsVarchar 255 c.companyNormalized
  changed : ∀ job, s.findExisting first sourceId c = .ok (some job) →
    job.descriptionHash ≠ c.descriptionHash → c.ContentFits

namespace JobCandidate

variable {c : JobCandidate}

theorem content_iff (h : c.Normalized) : c.ContentFits ↔ ∃ content, c.content = some content := by
  have hhash := varcharColumn_of_fits h.hash.1 h.hash.2
  constructor
  · rintro ⟨htitle, hdescription, hlocations⟩
    obtain ⟨title, ht⟩ := fitsVarchar_iff.mp htitle
    obtain ⟨description, hd⟩ := storable_iff.mp hdescription
    simp [content, ht, hd, hhash, hlocations]
  · rintro ⟨content', hc⟩
    simp only [content, hhash, Option.bind_eq_bind, Option.bind_eq_some_iff] at hc
    obtain ⟨title, ht, description, hd, _, _, hc⟩ := hc
    split at hc
    next hlocations =>
      exact ⟨fitsVarchar_iff.mpr ⟨title, ht⟩, storable_iff.mpr ⟨description, hd⟩, hlocations⟩
    next => cases hc

theorem url_iff :
    (∃ url, c.applicationUrl = .str url ∧ storable url) ↔ ∃ url, c.url = some url := by
  cases hlink : c.applicationUrl with
  | str url => simp [JobCandidate.url, hlink, storable_iff]
  | _ => simp [JobCandidate.url, hlink]

theorem job_iff (h : c.Normalized) (hlink : ∃ url, c.url = some url) (jobId : Uuid) :
    (c.ContentFits ∧ FitsVarchar 255 c.companyName ∧ FitsVarchar 255 c.companyNormalized) ↔
      ∃ job, c.job jobId = some job := by
  obtain ⟨url, hurl⟩ := hlink
  rw [content_iff h, fitsVarchar_iff, fitsVarchar_iff]
  constructor
  · rintro ⟨⟨content', hc⟩, ⟨name, hname⟩, company, hcompany⟩
    simp [job, hc, hname, hcompany, hurl]
  · rintro ⟨job', hjob⟩
    simp only [job, Option.bind_eq_bind, Option.bind_eq_some_iff] at hjob
    obtain ⟨content', hc, name, hname, company, hcompany, _⟩ := hjob
    exact ⟨⟨content', hc⟩, ⟨name, hname⟩, company, hcompany⟩

theorem sourceRecord_iff (jobId sourceId : Uuid) :
    (FitsVarchar 255 c.externalId ∧ (∃ url, c.url = some url) ∧ jsonColumn c.rawPayload) ↔
      ∃ record, c.sourceRecord jobId sourceId = some record := by
  rw [fitsVarchar_iff]
  constructor
  · rintro ⟨⟨externalId', he⟩, ⟨url, hurl⟩, hpayload⟩
    simp [sourceRecord, he, hurl, hpayload]
  · rintro ⟨record, hr⟩
    simp only [sourceRecord, Option.bind_eq_bind, Option.bind_eq_some_iff] at hr
    obtain ⟨externalId', he, url, hurl, hr⟩ := hr
    split at hr
    next hpayload => exact ⟨⟨externalId', he⟩, ⟨url, hurl⟩, hpayload⟩
    next => cases hr

end JobCandidate

namespace JobStore

variable {s : JobStore} {first : FirstRow Job} {sourceId : Uuid} {c : JobCandidate}

theorem accepts_iff (s : JobStore) (first : FirstRow Job) (sourceId : Uuid) (h : c.Normalized) :
    s.Accepts first sourceId c ↔ ∃ r, s.upsert first s.jobs.freshKey sourceId c = .ok r := by
  rw [← takes_iff]
  constructor
  · rintro ⟨hid, hlink, hpayload, hnew, hchanged⟩
    have hurl := JobCandidate.url_iff.mp hlink
    have hrecord := (JobCandidate.sourceRecord_iff 0 sourceId).mp ⟨hid, hurl, hpayload⟩
    obtain ⟨url, hlinked, hstorable⟩ := hlink
    have hfind : ∃ found, s.findExisting first sourceId c = .ok found :=
      exists_findExisting hid.1 hlinked hstorable fun _ => h.company
    obtain ⟨found, hfound⟩ := hfind
    refine ⟨Option.isSome_iff_exists.mpr hrecord, found, hfound, ?_⟩
    cases found with
    | none =>
      have hjob := (JobCandidate.job_iff h hurl 0).mp (hnew hfound)
      exact Option.isSome_iff_exists.mpr hjob
    | some job =>
      by_cases hhash : job.descriptionHash = c.descriptionHash
      · exact Or.inl hhash
      · have hcontent := (JobCandidate.content_iff h).mp (hchanged job hfound hhash)
        exact Or.inr (Option.isSome_iff_exists.mpr hcontent)
  · rintro ⟨hrecord, found, hfound, hfits⟩
    have hrecorded := (JobCandidate.sourceRecord_iff 0 sourceId).mpr
      (Option.isSome_iff_exists.mp hrecord)
    obtain ⟨hid, hurl, hpayload⟩ := hrecorded
    refine ⟨hid, JobCandidate.url_iff.mpr hurl, hpayload, ?_, ?_⟩
    · intro hnone
      obtain rfl : found = none := Except.ok.inj (hfound.symm.trans hnone)
      exact (JobCandidate.job_iff h hurl 0).mpr (Option.isSome_iff_exists.mp hfits)
    · intro job hsome hhash
      obtain rfl : found = some job := Except.ok.inj (hfound.symm.trans hsome)
      have hcontent := hfits.resolve_left hhash
      exact (JobCandidate.content_iff h).mpr (Option.isSome_iff_exists.mp hcontent)

end JobStore

end JobRadar
