import JobRadar.Reingestion
import JobRadar.Sequence

namespace JobRadar

open Database Python Sequence

/-- The column stores the external id as it is, or refuses it. -/
def IdKept (p : Posting) : Prop :=
  ∀ v, varcharColumn 255 p.candidate.externalId = some v → v = p.candidate.externalId

theorem idKept_of_length {p : Posting} (h : p.candidate.externalId.length ≤ 255) : IdKept p := by
  intro v hv
  unfold varcharColumn at hv
  split at hv
  next =>
    rw [← Option.some.inj hv]
    exact List.take_of_length_le h
  next => cases hv

namespace JobStore

/-- A call with the row that its unordered lookups come back with first. -/
def upsertCall (s : JobStore) (call : FirstRow Job × Posting) : JobStore :=
  upsertPosting call.1 s call.2

def OneJobPerListing (s : JobStore) : Prop :=
  ∀ r ∈ s.records, ∀ r' ∈ s.records, r.sourceKey = r'.sourceKey → r.jobId = r'.jobId

/-- Records and jobs refer to each other, and a listing refers to one job. -/
structure Listed (s : JobStore) : Prop where
  linked : ∀ r ∈ s.records, ∃ job ∈ s.jobs, job.id = r.jobId
  listed : ∀ job ∈ s.jobs, ∃ r ∈ s.records, r.jobId = job.id
  oneJob : s.OneJobPerListing

theorem listed_empty : empty.Listed where
  linked r hr := by cases hr
  listed job hjob := by cases hjob
  oneJob r hr := by cases hr

section Step

variable {s s' : JobStore} {first : FirstRow Job} {p : Posting} {job : Job}

theorem Listed.mem_jobsOfListing (h : s.Listed) {r : JobSourceRecord} (hr : r ∈ s.records) :
    ∃ job, job ∈ s.jobsOfListing r.sourceId r.externalId ∧ job.id = r.jobId := by
  obtain ⟨job, hjob, hid⟩ := h.linked r hr
  refine ⟨job, JobStore.mem_jobsOfListing.mpr ⟨r, hr, rfl, rfl, ?_⟩, hid⟩
  rw [← hid]
  exact Table.find_of_mem hjob

theorem Listed.found_id (h : s.Listed) {r : JobSourceRecord} (hr : r ∈ s.records)
    (hkey : r.sourceKey = p.sourceKey) {found : Option Job}
    (hfind : s.findExisting first p.sourceId p.candidate = .ok found) :
    ∃ job, found = some job ∧ job.id = r.jobId := by
  obtain ⟨hsource, hexternal⟩ := Prod.mk.inj hkey
  obtain ⟨known, hknown, _⟩ := h.mem_jobsOfListing hr
  rw [hsource, hexternal] at hknown
  cases found with
  | none =>
    rw [(findExisting_none hfind).1] at hknown
    cases hknown
  | some job =>
    refine ⟨job, rfl, ?_⟩
    rcases findExisting_some hfind with hlisting | ⟨hnone, _⟩
    · obtain ⟨r', hr', hsource', hexternal', hrow⟩ := JobStore.mem_jobsOfListing.mp hlisting
      have hsame : r'.sourceKey = r.sourceKey := by
        rw [hkey]
        exact Prod.ext hsource' hexternal'
      rw [← h.oneJob r' hr' r hr hsame]
      exact (Table.find_eq_some_iff.mp hrow).2
    · rw [hnone] at hknown
      cases hknown

theorem sourceKey_of_record (hkept : IdKept p) {jobId : Uuid} {record : JobSourceRecord}
    (hrecord : p.candidate.sourceRecord jobId p.sourceId = some record) :
    record.jobId = jobId ∧ record.sourceKey = p.sourceKey := by
  obtain ⟨hjobId, hsource, hexternal, _⟩ := JobCandidate.sourceRecord_some hrecord
  exact ⟨hjobId, Prod.ext hsource (hkept _ hexternal)⟩

theorem oneJobPerListing_append (h : s.OneJobPerListing) {record : JobSourceRecord}
    (hrecords : s'.records = s.records ++ [record])
    (hnew : ∀ r ∈ s.records, r.sourceKey = record.sourceKey → r.jobId = record.jobId) :
    s'.OneJobPerListing := by
  intro r hr r' hr' hkey
  rw [hrecords] at hr hr'
  rcases List.mem_append.mp hr with ho | hn <;> rcases List.mem_append.mp hr' with ho' | hn'
  · exact h r ho r' ho' hkey
  · obtain rfl := List.mem_singleton.mp hn'
    exact hnew r ho hkey
  · obtain rfl := List.mem_singleton.mp hn
    exact (hnew r' ho' hkey.symm).symm
  · rw [List.mem_singleton.mp hn, List.mem_singleton.mp hn']

theorem Listed.upsert (h : s.Listed) (hkept : IdKept p) : (upsertPosting first s p).Listed := by
  by_cases htakes : s.Takes first p.sourceId p.candidate
  · obtain ⟨record, jobId, hrecord, hrecords, hwrite⟩ := upsertPosting_effect htakes
    obtain ⟨hjobId, hkey⟩ := sourceKey_of_record hkept hrecord
    have hlast : record ∈ (upsertPosting first s p).records := by
      rw [hrecords]
      exact List.mem_append_right _ (List.mem_singleton_self record)
    have hearlier : ∀ r ∈ s.records, r ∈ (upsertPosting first s p).records := by
      intro r hr
      rw [hrecords]
      exact List.mem_append_left _ hr
    have hone : ∀ {found : Option Job}, s.findExisting first p.sourceId p.candidate = .ok found →
        (∀ job, found = some job → job.id = jobId) →
        (upsertPosting first s p).OneJobPerListing := by
      intro found hfind hid
      refine oneJobPerListing_append h.oneJob hrecords ?_
      intro r hr hsame
      obtain ⟨job, hsome, hjob⟩ := h.found_id hr (hsame.trans hkey) hfind
      rw [hjobId, ← hid job hsome, hjob]
    rcases hwrite with ⟨hfind, job, hjob, hid, hinsert⟩ | ⟨job, hfind, hid, hjobs⟩
    · refine ⟨?_, ?_, hone hfind (by simp)⟩
      · intro r hr
        rw [hrecords] at hr
        rcases List.mem_append.mp hr with ho | hn
        · obtain ⟨old, hrow, hold⟩ := h.linked r ho
          exact ⟨old, (Table.mem_of_insert hinsert).mpr (Or.inl hrow), hold⟩
        · rw [List.mem_singleton.mp hn]
          exact ⟨job, (Table.mem_of_insert hinsert).mpr (Or.inr rfl), hid.trans hjobId.symm⟩
      · intro x hx
        rcases (Table.mem_of_insert hinsert).mp hx with ho | rfl
        · obtain ⟨r, hr, hrjob⟩ := h.listed x ho
          exact ⟨r, hearlier r hr, hrjob⟩
        · exact ⟨record, hlast, hjobId.trans hid.symm⟩
    · have hrow : job ∈ s.jobs := (Table.find_eq_some_iff.mp (findExisting_row hfind)).1
      refine ⟨?_, ?_, hone hfind (by rintro _ ⟨⟩; exact hid)⟩
      · intro r hr
        rw [hrecords] at hr
        rcases List.mem_append.mp hr with ho | hn
        · obtain ⟨old, hold, hlinked⟩ := h.linked r ho
          obtain ⟨new, hnew, hnewid, _⟩ := (rows_of_found hjobs).2 hold
          exact ⟨new, hnew, hnewid.trans hlinked⟩
        · obtain ⟨new, hnew, hnewid, _⟩ := (rows_of_found hjobs).2 hrow
          rw [List.mem_singleton.mp hn, hjobId]
          exact ⟨new, hnew, hnewid.trans hid⟩
      · intro x hx
        obtain ⟨old, hold, holdid, _⟩ := (rows_of_found hjobs).1 hx
        obtain ⟨r, hr, hrjob⟩ := h.listed old hold
        exact ⟨r, hearlier r hr, hrjob.trans holdid⟩
  · rw [upsertPosting_refused htakes]
    exact h

theorem Listed.returned_id (h : s.Listed) {r : JobSourceRecord} (hr : r ∈ s.records)
    (hkey : r.sourceKey = p.sourceKey) {jobId : Uuid} {created changed : Bool}
    (hupsert : s.upsert first jobId p.sourceId p.candidate = .ok (s', job, created, changed)) :
    job.id = r.jobId := by
  rcases upsert_cases hupsert with
    ⟨jobs, record, hfind, _⟩ | ⟨record, hfind, _⟩ | ⟨old, content, record, hfind, _, _, _, rfl, _⟩
  · obtain ⟨_, hnone, _⟩ := h.found_id hr hkey hfind
    cases hnone
  · obtain ⟨_, hsome, hid⟩ := h.found_id hr hkey hfind
    cases hsome
    exact hid
  · obtain ⟨_, hsome, hid⟩ := h.found_id hr hkey hfind
    cases hsome
    exact hid

end Step

section Run

variable {s : JobStore} {calls : List (Call (FirstRow Job × Posting) JobStore)}

theorem grows_run (run : Run upsertCall empty calls s) : ∀ c ∈ calls, c.before.Grows s := by
  induction run with
  | start => simp
  | @next calls s call _ ih =>
    have hlast : s.Grows (s.upsertCall call) := grows_upsertPosting
    intro c hc
    rcases List.mem_cons.mp hc with rfl | hold
    · exact hlast
    · exact (ih c hold).trans hlast

/-- After any upserts from an empty store a listing refers to one job, which every later call for it
returns whatever the lookups come back with first. Every job is listed, and none ever changes its
link or its company. -/
theorem listing_identity (run : Run upsertCall empty calls s)
    (hkept : ∀ c ∈ calls, IdKept c.call.2) :
    s.OneJobPerListing ∧
    (∀ r ∈ s.records, ∀ (first : FirstRow Job) (jobId : Uuid) (p : Posting) (s' : JobStore)
      (job : Job) (created changed : Bool), p.sourceId = r.sourceId →
      p.candidate.externalId = r.externalId →
      s.upsert first jobId p.sourceId p.candidate = .ok (s', job, created, changed) →
      job.id = r.jobId) ∧
    (∀ job ∈ s.jobs, ∃ r ∈ s.records, r.jobId = job.id) ∧
    ∀ c ∈ calls, ∀ job ∈ c.before.jobs, ∃ job' ∈ s.jobs, job'.id = job.id ∧
      job'.applicationUrl = job.applicationUrl ∧
      job'.companyNormalized = job.companyNormalized := by
  have keep : ∀ (s : JobStore) (call : FirstRow Job × Posting), s.Listed → IdKept call.2 →
      (s.upsertCall call).Listed := fun s call h hok => h.upsert hok
  have hlisted : s.Listed := Run.invariant (I := Listed) listed_empty keep run hkept
  refine ⟨hlisted.oneJob, ?_, hlisted.listed, ?_⟩
  · intro r hr first jobId p s' job created changed hsource hexternal hupsert
    exact hlisted.returned_id hr (Prod.ext hsource.symm hexternal.symm) hupsert
  · intro c hc job hjob
    obtain ⟨job', hjob', hid, hidentity⟩ := (grows_run run c hc).jobs job hjob
    obtain ⟨hurl, hcompany⟩ := Prod.mk.inj hidentity
    exact ⟨job', hjob', hid, Json.str.inj hurl, hcompany⟩

end Run

def movedPosting (externalId : Text) : Posting :=
  let p := backendPosting 1 externalId
  { p with candidate := { p.candidate with applicationUrl := .str (text "https://moved") } }

/-- The job is listed, and listed again under another link. -/
def moved : List (Call (FirstRow Job × Posting) JobStore) × JobStore :=
  runAll upsertCall [] empty
    [(.head, backendPosting 1 (text "1")), (.head, movedPosting (text "1"))]

theorem moved_same_job : moved.2.records.map JobSourceRecord.jobId = [1, 1] ∧
    moved.2.OneJobPerListing ∧ ∀ job ∈ moved.2.jobs, ∃ r ∈ moved.2.records, r.jobId = job.id := by
  have hkept : ∀ c ∈ moved.1, IdKept c.call.2 := by
    intro c hc
    apply idKept_of_length
    have hlength : ∀ c ∈ moved.1, c.call.2.candidate.externalId.length ≤ 255 := by decide
    exact hlength c hc
  obtain ⟨hone, _, hlisted, _⟩ := listing_identity (run_runAll .start _) hkept
  exact ⟨by decide, hone, hlisted⟩

/-- The second listing has one blank more than the column holds. -/
def blankCut : List (Call (FirstRow Job × Posting) JobStore) × JobStore :=
  runAll upsertCall [] empty
    [(.head, backendPosting 1 (List.replicate 255 120)),
      (.head, movedPosting (List.replicate 255 120 ++ [32]))]

set_option maxRecDepth 4000 in
/-- Both records have the external id without the blank, and refer to different jobs. -/
theorem cut_listing_has_two_jobs : Run upsertCall empty blankCut.1 blankCut.2 ∧
    blankCut.2.records.map (fun r => (r.sourceKey, r.jobId)) =
      [((1, List.replicate 255 120), 1), ((1, List.replicate 255 120), 2)] ∧
    ¬blankCut.2.OneJobPerListing := by
  have hrecords : blankCut.2.records.map (fun r => (r.sourceKey, r.jobId)) =
      [((1, List.replicate 255 120), 1), ((1, List.replicate 255 120), 2)] := by
    decide
  refine ⟨run_runAll .start _, hrecords, ?_⟩
  intro hone
  have hmem : ∀ jobId, ((1, List.replicate 255 120), jobId) ∈
      blankCut.2.records.map (fun r => (r.sourceKey, r.jobId)) →
      ∃ r ∈ blankCut.2.records, r.sourceKey = (1, List.replicate 255 120) ∧ r.jobId = jobId := by
    intro jobId h
    obtain ⟨r, hr, he⟩ := List.mem_map.mp h
    exact ⟨r, hr, Prod.mk.inj he⟩
  rw [hrecords] at hmem
  obtain ⟨r, hr, hkey, hjob⟩ := hmem 1 (List.mem_cons_self ..)
  obtain ⟨r', hr', hkey', hjob'⟩ := hmem 2 (List.mem_cons_of_mem _ (List.mem_cons_self ..))
  have hsame := hone r hr r' hr' (hkey.trans hkey'.symm)
  rw [hjob, hjob'] at hsame
  cases hsame

end JobStore

end JobRadar
