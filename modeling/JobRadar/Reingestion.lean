import JobRadar.JobDeduplication
import JobRadar.Sequence

namespace JobRadar

open Database Python Sequence

/-- The key that a record of the posting would have. -/
def Posting.recordKey (p : Posting) : Option (Uuid × Text) :=
  (p.candidate.sourceRecord 0 p.sourceId).map JobSourceRecord.sourceKey

namespace JobStore

/-- The listings that one run fetched for a source, stored one after another. -/
def ingest (first : FirstRow Job) (s : JobStore) (sourceId : Uuid) (cs : List JobCandidate) :
    JobStore :=
  (cs.map fun c => (⟨sourceId, c⟩ : Posting)).foldl (upsertPosting first) s

/-- Once the listings of a source are stored, storing them again leaves the jobs and the keys of
the records as they are, each as often as before. -/
def Reingests (s : JobStore) (first : FirstRow Job) (sourceId : Uuid) (cs : List JobCandidate) :
    Prop :=
  (ingest first (ingest first s sourceId cs) sourceId cs).jobs.rows.Perm
    (ingest first s sourceId cs).jobs.rows ∧
  ((ingest first (ingest first s sourceId cs) sourceId cs).records.map
    JobSourceRecord.sourceKey).Perm
      ((ingest first s sourceId cs).records.map JobSourceRecord.sourceKey)

def KeysOnce (s : JobStore) : Prop := (s.records.map JobSourceRecord.sourceKey).Nodup

/-- No record has the key that the record of the posting would have. -/
def NewListing (s : JobStore) (p : Posting) : Prop :=
  ∀ r ∈ s.records, p.recordKey ≠ some r.sourceKey

section Calls

variable {s : JobStore} {first : FirstRow Job} {sourceId : Uuid} {c : JobCandidate} {p : Posting}
  {cs : List JobCandidate}

theorem recordKey_eq {jobId : Uuid} {record : JobSourceRecord}
    (h : p.candidate.sourceRecord jobId p.sourceId = some record) :
    p.recordKey = some record.sourceKey := by
  rw [Posting.recordKey, sourceRecord_any h 0]
  rfl

theorem upsertPosting_refused (h : ¬s.Takes first p.sourceId p.candidate) :
    upsertPosting first s p = s := by
  unfold upsertPosting
  split
  next s' rest hupsert => exact absurd (takes_iff.mpr ⟨_, hupsert⟩) h
  next => rfl

/-- A listing that is taken gets a record of its own, whether there is one for it or not. Its job
is new, or is the one that was found, with the same link and company as before. -/
theorem upsertPosting_effect (h : s.Takes first p.sourceId p.candidate) :
    ∃ record jobId, p.candidate.sourceRecord jobId p.sourceId = some record ∧
      (upsertPosting first s p).records = s.records ++ [record] ∧
      ((s.findExisting first p.sourceId p.candidate = .ok none ∧
          ∃ job, p.candidate.job s.jobs.freshKey = some job ∧ job.id = jobId ∧
            s.jobs.insert job = some (upsertPosting first s p).jobs) ∨
        ∃ job, s.findExisting first p.sourceId p.candidate = .ok (some job) ∧ job.id = jobId ∧
          ((upsertPosting first s p).jobs = s.jobs ∨
            ∃ content, (upsertPosting first s p).jobs = (s.updateJob job content).jobs)) := by
  obtain ⟨⟨s', job, created, changed⟩, hupsert⟩ := takes_iff.mp h
  have hstore : upsertPosting first s p = s' := by
    simp only [upsertPosting, hupsert]
  rw [hstore]
  rcases upsert_cases hupsert with
    ⟨jobs, record, hfind, hjob, hinsert, hrecord, rfl⟩ | ⟨record, hfind, -, hrecord, rfl⟩ |
      ⟨old, content, record, hfind, -, -, hrecord, -, rfl⟩
  · exact ⟨record, _, hrecord, rfl, Or.inl ⟨hfind, job, hjob, rfl, hinsert⟩⟩
  · exact ⟨record, _, hrecord, rfl, Or.inr ⟨job, hfind, rfl, Or.inl rfl⟩⟩
  · exact ⟨record, _, hrecord, rfl, Or.inr ⟨old, hfind, rfl, Or.inr ⟨content, rfl⟩⟩⟩

theorem ingest_cons : ingest first s sourceId (c :: cs) =
    ingest first (upsertPosting first s ⟨sourceId, c⟩) sourceId cs := rfl

theorem ingest_refused (h : ∀ c ∈ cs, ¬s.Takes first sourceId c) :
    ingest first s sourceId cs = s := by
  induction cs with
  | nil => rfl
  | cons c cs ih =>
    rw [ingest_cons, upsertPosting_refused (h c (List.mem_cons_self ..))]
    exact ih fun c' hc' => h c' (List.mem_cons_of_mem _ hc')

theorem records_upsertPosting_le :
    s.records.length ≤ (upsertPosting first s p).records.length := by
  by_cases h : s.Takes first p.sourceId p.candidate
  · obtain ⟨record, jobId, -, hrecords, -⟩ := upsertPosting_effect h
    rw [hrecords, List.length_append]
    omega
  · rw [upsertPosting_refused h]

theorem records_ingest_le : s.records.length ≤ (ingest first s sourceId cs).records.length := by
  induction cs generalizing s with
  | nil => exact Nat.le_refl _
  | cons c cs ih => exact records_upsertPosting_le.trans ih

theorem records_ingest_lt (h : ∃ c ∈ cs, s.Takes first sourceId c) :
    s.records.length < (ingest first s sourceId cs).records.length := by
  induction cs with
  | nil =>
    obtain ⟨c, hc, -⟩ := h
    cases hc
  | cons c cs ih =>
    rw [ingest_cons]
    by_cases hhead : s.Takes first sourceId c
    · obtain ⟨record, jobId, -, hrecords, -⟩ := upsertPosting_effect (p := ⟨sourceId, c⟩) hhead
      have hle : (upsertPosting first s ⟨sourceId, c⟩).records.length ≤
          (ingest first (upsertPosting first s ⟨sourceId, c⟩) sourceId cs).records.length :=
        records_ingest_le
      rw [hrecords, List.length_append, List.length_singleton] at hle
      omega
    · rw [upsertPosting_refused hhead]
      obtain ⟨c', hc', htakes⟩ := h
      rcases List.mem_cons.mp hc' with rfl | hc'
      · exact absurd htakes hhead
      · exact ih ⟨c', hc', htakes⟩

theorem rows_of_found {s' : JobStore} {job : Job} (hjobs : s'.jobs = s.jobs ∨
    ∃ content, s'.jobs = (s.updateJob job content).jobs) {x : Job} :
    (x ∈ s'.jobs → ∃ old ∈ s.jobs, old.id = x.id ∧ old.identity = x.identity) ∧
      (x ∈ s.jobs → ∃ new ∈ s'.jobs, new.id = x.id ∧ new.identity = x.identity) := by
  have hgroups : s'.groups = s.groups := by
    rcases hjobs with h | ⟨content, h⟩
    · simp only [groups, h]
    · rw [← groups_updateJob (s := s) job content]
      simp only [groups, h]
  constructor
  · intro hx
    have hm := mem_groups_of_job hx
    rw [hgroups] at hm
    obtain ⟨old, ho, he⟩ := List.mem_map.mp hm
    obtain ⟨hid, hidentity⟩ := Prod.mk.inj he
    exact ⟨old, ho, hid, hidentity⟩
  · intro hx
    have hm := mem_groups_of_job hx
    rw [← hgroups] at hm
    obtain ⟨new, hn, he⟩ := List.mem_map.mp hm
    obtain ⟨hid, hidentity⟩ := Prod.mk.inj he
    exact ⟨new, hn, hid, hidentity⟩

/-- No record goes, and no job but for its content. -/
structure Grows (s s' : JobStore) : Prop where
  records : s.records ⊆ s'.records
  jobs : ∀ job ∈ s.jobs, ∃ job' ∈ s'.jobs, job'.id = job.id ∧ job'.identity = job.identity

theorem Grows.refl (s : JobStore) : s.Grows s :=
  ⟨List.Subset.refl _, fun job hjob => ⟨job, hjob, rfl, rfl⟩⟩

theorem Grows.trans {s₁ s₂ : JobStore} (h : s.Grows s₁) (h' : s₁.Grows s₂) : s.Grows s₂ := by
  refine ⟨List.Subset.trans h.records h'.records, ?_⟩
  intro job hjob
  obtain ⟨job₁, hjob₁, hid₁, hidentity₁⟩ := h.jobs job hjob
  obtain ⟨job₂, hjob₂, hid₂, hidentity₂⟩ := h'.jobs job₁ hjob₁
  exact ⟨job₂, hjob₂, hid₂.trans hid₁, hidentity₂.trans hidentity₁⟩

theorem grows_upsertPosting : s.Grows (upsertPosting first s p) := by
  by_cases h : s.Takes first p.sourceId p.candidate
  · obtain ⟨record, jobId, -, hrecords, ⟨-, job, -, -, hinsert⟩ | ⟨job, -, -, hjobs⟩⟩ :=
      upsertPosting_effect h
    all_goals refine ⟨?_, ?_⟩
    · rw [hrecords]
      exact List.subset_append_left _ _
    · intro old hold
      exact ⟨old, (Table.mem_of_insert hinsert).mpr (Or.inl hold), rfl, rfl⟩
    · rw [hrecords]
      exact List.subset_append_left _ _
    · exact fun old hold => (rows_of_found hjobs).2 hold
  · rw [upsertPosting_refused h]
    exact .refl s

theorem grows_ingest : s.Grows (ingest first s sourceId cs) := by
  induction cs generalizing s with
  | nil => exact .refl s
  | cons c cs ih => exact grows_upsertPosting.trans ih

theorem Grows.listing {s' : JobStore} (h : s.Grows s') {externalId : Text}
    (hempty : s'.jobsOfListing sourceId externalId = []) :
    s.jobsOfListing sourceId externalId = [] := by
  apply List.eq_nil_iff_forall_not_mem.mpr
  intro job hjob
  obtain ⟨r, hr, hsource, hexternal, hfind⟩ := mem_jobsOfListing.mp hjob
  obtain ⟨hrow, hid⟩ := Table.find_eq_some_iff.mp hfind
  obtain ⟨job', hrow', hid', -⟩ := h.jobs job hrow
  have hfind' : s'.jobs.find r.jobId = some job' :=
    Table.find_eq_some_iff.mpr ⟨hrow', hid'.trans hid⟩
  have hlisted := mem_jobsOfListing.mpr ⟨r, h.records hr, hsource, hexternal, hfind'⟩
  rw [hempty] at hlisted
  cases hlisted

theorem Grows.posting {s' : JobStore} (h : s.Grows s') {url company : Text}
    (hempty : s'.jobsOfPosting url company = []) : s.jobsOfPosting url company = [] := by
  apply List.eq_nil_iff_forall_not_mem.mpr
  intro job hjob
  obtain ⟨hrow, hidentity⟩ := mem_jobsOfPosting.mp hjob
  obtain ⟨job', hrow', -, hidentity'⟩ := h.jobs job hrow
  have hposted := mem_jobsOfPosting.mpr ⟨hrow', hidentity'.trans hidentity⟩
  rw [hempty] at hposted
  cases hposted

theorem Takes.later {s' : JobStore} (h : s.Takes first sourceId c) (hgrows : s.Grows s')
    (hcontent : c.content.isSome = true) : s'.Takes first sourceId c := by
  obtain ⟨hrecord, found, hfind, hfits⟩ := h
  obtain ⟨record, hsome⟩ := Option.isSome_iff_exists.mp hrecord
  obtain ⟨-, -, -, hlink⟩ := JobCandidate.sourceRecord_some hsome
  obtain ⟨hurl, hstorable⟩ := JobCandidate.url_some hlink
  obtain ⟨hid, hcompany⟩ := findExisting_storable hfind
  have hlater : ∃ found', s'.findExisting first sourceId c = .ok found' :=
    exists_findExisting hid hurl hstorable fun hempty =>
      hcompany (hgrows.listing hempty) _ hurl
  obtain ⟨found', hfind'⟩ := hlater
  refine ⟨hrecord, found', hfind', ?_⟩
  cases found' with
  | some job => exact Or.inr hcontent
  | none =>
    obtain ⟨hlisting, hposting⟩ := findExisting_none hfind'
    have hlisting₀ := hgrows.listing hlisting
    have hposting₀ := hgrows.posting (hposting _ hurl)
    cases found with
    | none => exact hfits
    | some job =>
      rcases findExisting_some hfind with hlisted | ⟨-, url, hurl', hposted⟩
      · rw [hlisting₀] at hlisted
        cases hlisted
      · rw [hurl] at hurl'
        cases hurl'
        rw [hposting₀] at hposted
        cases hposted

theorem reingests_iff : s.Reingests first sourceId cs ↔
    ∀ c ∈ cs, ¬(ingest first s sourceId cs).Takes first sourceId c := by
  constructor
  · rintro ⟨-, hkeys⟩ c hc htakes
    have hlength := hkeys.length_eq
    rw [List.length_map, List.length_map] at hlength
    have hlt := records_ingest_lt ⟨c, hc, htakes⟩
    omega
  · intro hrefused
    unfold Reingests
    rw [ingest_refused hrefused]
    exact ⟨.refl _, .refl _⟩

theorem takes_storable (h : c.Storable) : s.Takes first sourceId c := by
  obtain ⟨url, hurl, hstorable⟩ := h.applicationUrl
  refine ⟨by rw [h.sourceRecord_eq 0 sourceId hurl]; rfl, ?_⟩
  have hfits : ∀ found : Option Job, found.elim ((c.job 0).isSome = true) fun job =>
      job.descriptionHash = c.descriptionHash ∨ c.content.isSome = true := by
    intro found
    cases found with
    | none =>
      obtain ⟨job, hjob, -⟩ := h.exists_job 0
      exact Option.isSome_iff_exists.mpr ⟨job, hjob⟩
    | some job => exact Or.inr (by rw [h.content_eq]; rfl)
  have hfind : ∃ found, s.findExisting first sourceId c = .ok found :=
    exists_findExisting h.externalId.1 hurl hstorable fun _ => h.companyNormalized.1
  obtain ⟨found, hfound⟩ := hfind
  exact ⟨found, hfound, hfits found⟩

theorem keysOnce_upsertPosting (h : s.KeysOnce) : (upsertPosting first s p).KeysOnce ↔
    (s.Takes first p.sourceId p.candidate → s.NewListing p) := by
  by_cases htakes : s.Takes first p.sourceId p.candidate
  · obtain ⟨record, jobId, hrecord, hrecords, -⟩ := upsertPosting_effect htakes
    have hnodup : (upsertPosting first s p).KeysOnce ↔
        ∀ r ∈ s.records, r.sourceKey ≠ record.sourceKey := by
      rw [KeysOnce, hrecords, List.map_append, List.map_singleton, List.nodup_append]
      constructor
      · rintro ⟨-, -, hapart⟩ r hr
        exact hapart _ (List.mem_map_of_mem hr) _ (List.mem_singleton_self _)
      · intro hnew
        refine ⟨h, List.nodup_singleton _, ?_⟩
        intro k hk k' hk'
        obtain ⟨r, hr, rfl⟩ := List.mem_map.mp hk
        rw [List.mem_singleton.mp hk']
        exact hnew r hr
    have hnew : s.NewListing p ↔ ∀ r ∈ s.records, r.sourceKey ≠ record.sourceKey := by
      rw [NewListing, recordKey_eq hrecord]
      simp only [ne_eq, Option.some.injEq, eq_comm]
    rw [hnodup, hnew]
    exact ⟨fun h _ => h, fun h => h htakes⟩
  · rw [upsertPosting_refused htakes]
    exact iff_of_true h fun htaken => absurd htaken htakes

end Calls

/-- Storing the listings of a source twice is as storing them once exactly when the second time
nothing is taken. For listings whose content fits its columns this means that the store takes none
of them to begin with, and for listings that fit all columns that there are none. The source keys
stay apart exactly as long as no key is taken twice. -/
theorem reingestion_iff {first : FirstRow Job} {s : JobStore} {calls : List (Call Posting JobStore)}
    (run : Run (upsertPosting first) empty calls s) (sourceId : Uuid) (cs : List JobCandidate) :
    (s.Reingests first sourceId cs ↔
      ∀ c ∈ cs, ¬(ingest first s sourceId cs).Takes first sourceId c) ∧
    ((∀ c ∈ cs, c.content.isSome = true) →
      (s.Reingests first sourceId cs ↔ ∀ c ∈ cs, ¬s.Takes first sourceId c)) ∧
    ((∀ c ∈ cs, c.Storable) → (s.Reingests first sourceId cs ↔ cs = [])) ∧
    ((s.KeysOnce ∧ ∀ c ∈ calls, c.before.KeysOnce) ↔ ∀ c ∈ calls,
      c.before.Takes first c.call.sourceId c.call.candidate → c.before.NewListing c.call) := by
  refine ⟨reingests_iff, ?_, ?_, ?_⟩
  · intro hcontent
    rw [reingests_iff]
    constructor
    · intro hrefused c hc htakes
      exact hrefused c hc (htakes.later grows_ingest (hcontent c hc))
    · intro hrefused
      rw [ingest_refused hrefused]
      exact hrefused
  · intro hstorable
    rw [reingests_iff]
    constructor
    · intro hrefused
      apply List.eq_nil_iff_forall_not_mem.mpr
      intro c hc
      exact hrefused c hc (takes_storable (hstorable c hc))
    · rintro rfl c hc
      cases hc
  · have keep : ∀ (s : JobStore) (p : Posting), s.KeysOnce →
        (s.Takes first p.sourceId p.candidate → s.NewListing p) →
        (upsertPosting first s p).KeysOnce :=
      fun s p h hok => (keysOnce_upsertPosting h).mpr hok
    have only : ∀ (s : JobStore) (p : Posting), s.KeysOnce → True →
        (upsertPosting first s p).KeysOnce →
        s.Takes first p.sourceId p.candidate → s.NewListing p :=
      fun s p h _ hkept => (keysOnce_upsertPosting h).mp hkept
    have hempty : KeysOnce empty := List.nodup_nil
    exact Run.promise_iff (I := KeysOnce) hempty keep (fun _ h => h) only run fun _ _ => trivial

def backendStored : List (Call Posting JobStore) × JobStore :=
  runAll (upsertPosting .head) [] empty [backendPosting 1 (text "1")]

theorem backendStored_run : Run (upsertPosting .head) empty backendStored.1 backendStored.2 :=
  run_runAll .start _

/-- A listing whose id cannot be sent to the database. -/
def nulPosting : Posting := backendPosting 1 [0]

/-- The backend posting under two ids of source 1 and one of source 2; an id with NUL is refused. -/
def backendListings : List (Call Posting JobStore) × JobStore :=
  runAll (upsertPosting .head) [] empty [backendPosting 1 (text "1"), nulPosting,
    backendPosting 2 (text "1"), backendPosting 1 (text "2")]

theorem backendListings_keysOnce :
    backendListings.2.Reingests .head 1 [nulPosting.candidate, nulPosting.candidate] ∧
    backendListings.2.KeysOnce ∧ ∀ c ∈ backendListings.1, c.before.KeysOnce := by
  have hnul : ∀ s : JobStore, ¬s.Takes .head 1 nulPosting.candidate := by
    intro s htakes
    obtain ⟨record, jobId, hrecord, -⟩ := upsertPosting_effect (p := nulPosting) htakes
    have hnone : nulPosting.candidate.sourceRecord jobId 1 = none := rfl
    cases hnone.symm.trans hrecord
  have hnew : ∀ c ∈ backendListings.1, ∀ r ∈ c.before.records,
      c.call.recordKey ≠ some r.sourceKey := by decide
  obtain ⟨hagain, -, -, honce⟩ := reingestion_iff (run_runAll .start _ : Run (upsertPosting .head)
    empty backendListings.1 backendListings.2) 1 [nulPosting.candidate, nulPosting.candidate]
  refine ⟨hagain.mpr ?_, honce.mpr fun c hc _ => hnew c hc⟩
  intro c hc
  rcases List.mem_pair.mp hc with rfl | rfl
  · exact hnul _
  · exact hnul _

/-- A second run of the source gives the listing a second record. -/
theorem backend_recorded_twice :
    Run (upsertPosting .head) empty backendStored.1 backendStored.2 ∧
    (ingest .head backendStored.2 1 [(backendPosting 1 (text "1")).candidate]).records.map
      JobSourceRecord.sourceKey = [(1, text "1"), (1, text "1")] ∧
    ¬backendStored.2.Reingests .head 1 [(backendPosting 1 (text "1")).candidate] ∧
    ¬(ingest .head backendStored.2 1 [(backendPosting 1 (text "1")).candidate]).KeysOnce := by
  have hlength : (ingest .head (ingest .head backendStored.2 1
      [(backendPosting 1 (text "1")).candidate]) 1
      [(backendPosting 1 (text "1")).candidate]).records.length = 3 := by
    decide
  have hkeys : (ingest .head backendStored.2 1
      [(backendPosting 1 (text "1")).candidate]).records.map JobSourceRecord.sourceKey =
      [(1, text "1"), (1, text "1")] := by
    decide
  refine ⟨backendStored_run, hkeys, ?_, ?_⟩
  · rintro ⟨-, hperm⟩
    have heq := hperm.length_eq
    rw [List.length_map, hlength, hkeys] at heq
    cases heq
  · rw [KeysOnce, hkeys]
    decide

end JobStore

end JobRadar
