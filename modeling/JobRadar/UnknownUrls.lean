import JobRadar.CanonicalJobs
import JobRadar.JobAcceptance
import JobRadar.Reingestion

namespace JobRadar

open Database Python Sequence

/-- An item of a provider's listing, as a run of a source meets it. -/
structure FetchedItem where
  sourceId : Uuid
  companyName : Text
  kind : SourceKind
  item : Json

/-- What the adapter and the normaliser make of it, unless it is malformed. -/
def FetchedItem.posting (lib : Stdlib) (l : FetchedItem) : Option Posting :=
  match (l.kind.adapter lib).record l.item with
  | .ok (some record) =>
    match normalizeRecord lib record l.companyName with
    | .ok c => some ⟨l.sourceId, c⟩
    | .error _ => none
  | _ => none

namespace JobStore

def ingestItem (lib : Stdlib) (first : FirstRow Job) (s : JobStore) (l : FetchedItem) : JobStore :=
  match l.posting lib with
  | none => s
  | some p => upsertPosting first s p

/-- Two source keys are linked to one job only if its link is known. -/
def UnknownApart (s : JobStore) : Prop :=
  ∀ r ∈ s.records, ∀ r' ∈ s.records, r.sourceKey ≠ r'.sourceKey → r.jobId = r'.jobId →
    ∀ job ∈ s.jobs.rows, job.id = r.jobId → job.applicationUrl ≠ []

instance (s : JobStore) : Decidable s.UnknownApart :=
  inferInstanceAs (Decidable (∀ r ∈ s.records, ∀ r' ∈ s.records, _))

/-- The posting has no link and is new to its source, and a job of the company has no link either
and comes from another listing. -/
def MeetsUnknown (s : JobStore) (p : Posting) : Prop :=
  p.candidate.applicationUrl = .str [] ∧
    s.jobsOfListing p.sourceId p.candidate.externalId = [] ∧
    ∃ job ∈ s.jobs, job.applicationUrl = [] ∧
      job.companyNormalized = p.candidate.companyNormalized ∧
      ∃ r ∈ s.records, r.jobId = job.id ∧ p.recordKey ≠ some r.sourceKey

/-- What holds of every store, and that unknown links link nothing. -/
structure Ingested (s : JobStore) : Prop where
  linked : ∀ r ∈ s.records, ∃ job ∈ s.jobs, job.id = r.jobId
  fits : ∀ r ∈ s.records, r.externalId.length ≤ 255
  oneJob : s.OneJobEach
  apart : s.UnknownApart

section Step

variable {s s' : JobStore} {first : FirstRow Job} {p : Posting} {job : Job}

theorem strip_drop_eq_nil {t : Text} {n : Nat} (h : (t.strip.drop n).all (· = 32) = true) :
    t.strip.drop n = [] := by
  unfold Text.strip at *
  generalize hw : (t.dropWhile isSpace).reverse.dropWhile isSpace = w at *
  cases w with
  | nil => simp
  | cons c w =>
    have hhead : isSpace c = false := by
      have hne : (t.dropWhile isSpace).reverse.dropWhile isSpace ≠ [] := by simp [hw]
      have hnot := List.head_dropWhile_not isSpace hne
      simpa [hw] using hnot
    rw [List.reverse_cons] at h ⊢
    by_cases hn : n ≤ w.reverse.length
    · rw [List.drop_append_of_le_length hn] at h
      have hblank := List.all_eq_true.mp h c (by simp)
      rw [of_decide_eq_true hblank] at hhead
      cases hhead
    · apply List.drop_eq_nil_of_le
      rw [List.length_append, List.length_singleton]
      omega

theorem varcharColumn_strip {n : Nat} {t v : Text} (h : varcharColumn n t.strip = some v) :
    v = t.strip := by
  unfold varcharColumn at h
  split at h
  next hfits =>
    have hnil := strip_drop_eq_nil hfits.2
    cases h
    exact List.take_of_length_le (List.drop_eq_nil_iff.mp hnil)
  next => cases h

theorem length_of_varcharColumn {n : Nat} {t v : Text} (h : varcharColumn n t = some v) :
    v.length ≤ n := by
  unfold varcharColumn at h
  split at h
  next =>
    cases h
    exact List.length_take_le n t
  next => cases h

theorem url_of_identity {a b : Job} (h : a.identity = b.identity) :
    a.applicationUrl = b.applicationUrl := by
  obtain ⟨hurl, -⟩ := Prod.mk.inj h
  exact Json.str.inj hurl

theorem unknownApart_append {record : JobSourceRecord}
    (hrecords : s'.records = s.records ++ [record])
    (hold : ∀ r ∈ s.records, ∀ r' ∈ s.records, r.sourceKey ≠ r'.sourceKey → r.jobId = r'.jobId →
      ∀ x ∈ s'.jobs, x.id = r.jobId → x.applicationUrl ≠ [])
    (hnew : ∀ r ∈ s.records, r.sourceKey ≠ record.sourceKey → r.jobId = record.jobId →
      ∀ x ∈ s'.jobs, x.id = r.jobId → x.applicationUrl ≠ []) : s'.UnknownApart := by
  intro r hr r' hr' hkey hjob x hx hid
  rw [hrecords] at hr hr'
  rcases List.mem_append.mp hr with ho | hn <;> rcases List.mem_append.mp hr' with ho' | hn'
  · exact hold r ho r' ho' hkey hjob x hx hid
  · obtain rfl := List.mem_singleton.mp hn'
    exact hnew r ho hkey hjob x hx hid
  · obtain rfl := List.mem_singleton.mp hn
    exact hnew r' ho' hkey.symm hjob.symm x hx (hid.trans hjob)
  · rw [List.mem_singleton.mp hn, List.mem_singleton.mp hn'] at hkey
    exact absurd rfl hkey

/-- The columns leave the company that a posting is recognised by as it is. -/
def CompanyKept (p : Posting) : Prop :=
  ∀ v, varcharColumn 255 p.candidate.companyNormalized = some v →
    v = p.candidate.companyNormalized

theorem Ingested.insert (h : s.Ingested) (hcompany : CompanyKept p) {record : JobSourceRecord}
    (hrecords : s'.records = s.records ++ [record]) (hfits : record.externalId.length ≤ 255)
    (hfind : s.findExisting first p.sourceId p.candidate = .ok none)
    (hjob : p.candidate.job s.jobs.freshKey = some job) (hid : record.jobId = job.id)
    (hinsert : s.jobs.insert job = some s'.jobs) : s'.Ingested := by
  obtain ⟨-, -, hurl, -, hnormalized⟩ := JobCandidate.job_some hjob
  have hfree : s.jobsOfPosting job.applicationUrl job.companyNormalized = [] := by
    rw [hcompany _ hnormalized]
    exact (findExisting_none hfind).2 _ ((JobCandidate.url_some hurl).1)
  have holder : ∀ r ∈ s.records, r.jobId ≠ job.id := by
    intro r hr he
    obtain ⟨old, ho, hold⟩ := h.linked r hr
    exact Table.key_ne_of_insert hinsert ho (hold.trans he)
  refine ⟨?_, ?_, (h.oneJob.insert_iff hinsert).mpr hfree, unknownApart_append hrecords ?_ ?_⟩
  · intro r hr
    rw [hrecords] at hr
    rcases List.mem_append.mp hr with ho | hn
    · obtain ⟨old, hrow, hold⟩ := h.linked r ho
      exact ⟨old, (Table.mem_of_insert hinsert).mpr (Or.inl hrow), hold⟩
    · rw [List.mem_singleton.mp hn]
      exact ⟨job, (Table.mem_of_insert hinsert).mpr (Or.inr rfl), hid.symm⟩
  · intro r hr
    rw [hrecords] at hr
    rcases List.mem_append.mp hr with ho | hn
    · exact h.fits r ho
    · rw [List.mem_singleton.mp hn]
      exact hfits
  · intro r hr r' hr' hkey hsame x hx hxid
    rcases (Table.mem_of_insert hinsert).mp hx with ho | rfl
    · exact h.apart r hr r' hr' hkey hsame x ho hxid
    · exact absurd hxid.symm (holder r hr)
  · intro r hr _ hsame
    exact absurd (hsame.trans hid) (holder r hr)

theorem Ingested.found_key (h : s.Ingested) {record : JobSourceRecord} {jobId : Uuid}
    (hrecord : p.candidate.sourceRecord jobId p.sourceId = some record)
    (hfind : s.findExisting first p.sourceId p.candidate = .ok (some job))
    (hok : ¬s.MeetsUnknown p) {r : JobSourceRecord} (hr : r ∈ s.records)
    (hkey : r.sourceKey ≠ record.sourceKey) (hrjob : r.jobId = job.id) :
    job.applicationUrl ≠ [] := by
  obtain ⟨-, hsource, hexternal, -⟩ := JobCandidate.sourceRecord_some hrecord
  have hrow : job ∈ s.jobs := (Table.find_eq_some_iff.mp (findExisting_row hfind)).1
  rcases findExisting_some hfind with hlisting | ⟨hnone, url, hurl, hposting⟩
  · obtain ⟨r₀, hr₀, hsource₀, hexternal₀, hfound⟩ := mem_jobsOfListing.mp hlisting
    have hstored : record.externalId = p.candidate.externalId := by
      have hlength := h.fits r₀ hr₀
      rw [hexternal₀] at hlength
      unfold varcharColumn at hexternal
      split at hexternal
      next =>
        rw [← Option.some.inj hexternal]
        exact List.take_of_length_le hlength
      next => cases hexternal
    have hkey₀ : r₀.sourceKey = record.sourceKey := by
      simp only [JobSourceRecord.sourceKey, hsource₀, hexternal₀, hsource, hstored]
    have hjob₀ : r₀.jobId = job.id := (Table.find_eq_some_iff.mp hfound).2.symm
    exact h.apart r hr r₀ hr₀ (hkey₀ ▸ hkey) (hrjob.trans hjob₀.symm) job hrow hrjob.symm
  · intro hempty
    obtain ⟨-, hidentity⟩ := mem_jobsOfPosting.mp hposting
    obtain ⟨hlink, hcompany⟩ := Prod.mk.inj hidentity
    have hblank : url = [] := by
      rw [← Json.str.inj hlink, hempty]
    rw [hblank] at hurl
    apply hok
    refine ⟨hurl, hnone, job, hrow, hempty, hcompany, r, hr, hrjob, ?_⟩
    rw [recordKey_eq hrecord]
    intro he
    exact hkey (Option.some.inj he).symm

theorem Ingested.found (h : s.Ingested) {record : JobSourceRecord} {jobId : Uuid}
    (hrecord : p.candidate.sourceRecord jobId p.sourceId = some record)
    (hrecords : s'.records = s.records ++ [record])
    (hfind : s.findExisting first p.sourceId p.candidate = .ok (some job)) (hid : job.id = jobId)
    (hjobs : s'.jobs = s.jobs ∨ ∃ content, s'.jobs = (s.updateJob job content).jobs)
    (hok : ¬s.MeetsUnknown p) : s'.Ingested := by
  obtain ⟨hjobId, -, hexternal, -⟩ := JobCandidate.sourceRecord_some hrecord
  have hrow : job ∈ s.jobs := (Table.find_eq_some_iff.mp (findExisting_row hfind)).1
  have hone : s'.OneJobEach := by
    rcases hjobs with he | ⟨content, he⟩
    · exact h.oneJob.congr he
    · exact (h.oneJob.updateJob job content).congr he
  refine ⟨?_, ?_, hone, unknownApart_append hrecords ?_ ?_⟩
  · intro r hr
    rw [hrecords] at hr
    rcases List.mem_append.mp hr with ho | hn
    · obtain ⟨old, hold, hlinked⟩ := h.linked r ho
      obtain ⟨new, hnew, hnewid, -⟩ := (rows_of_found hjobs).2 hold
      exact ⟨new, hnew, hnewid.trans hlinked⟩
    · obtain ⟨new, hnew, hnewid, -⟩ := (rows_of_found hjobs).2 hrow
      rw [List.mem_singleton.mp hn, hjobId]
      exact ⟨new, hnew, hnewid.trans hid⟩
  · intro r hr
    rw [hrecords] at hr
    rcases List.mem_append.mp hr with ho | hn
    · exact h.fits r ho
    · rw [List.mem_singleton.mp hn]
      exact length_of_varcharColumn hexternal
  · intro r hr r' hr' hkey hsame x hx hxid
    obtain ⟨old, hold, holdid, hidentity⟩ := (rows_of_found hjobs).1 hx
    rw [← url_of_identity hidentity]
    exact h.apart r hr r' hr' hkey hsame old hold (holdid.trans hxid)
  · intro r hr hkey hsame x hx hxid
    obtain ⟨old, hold, holdid, hidentity⟩ := (rows_of_found hjobs).1 hx
    have hrjob : r.jobId = job.id := by
      rw [hsame, hjobId, hid]
    have hsamejob : old = job :=
      Table.eq_of_key_eq hold hrow (holdid.trans (hxid.trans hrjob))
    rw [← url_of_identity hidentity, hsamejob]
    exact h.found_key hrecord hfind hok hr hkey hrjob

theorem Ingested.upsert (h : s.Ingested) (hcompany : CompanyKept p)
    (hok : s.Takes first p.sourceId p.candidate → ¬s.MeetsUnknown p) :
    (upsertPosting first s p).Ingested := by
  by_cases htakes : s.Takes first p.sourceId p.candidate
  · obtain ⟨record, jobId, hrecord, hrecords, ⟨hfind, job, hjob, hid, hinsert⟩ |
      ⟨job, hfind, hid, hjobs⟩⟩ := upsertPosting_effect htakes
    · obtain ⟨hjobId, -, hexternal, -⟩ := JobCandidate.sourceRecord_some hrecord
      exact h.insert hcompany hrecords (length_of_varcharColumn hexternal) hfind hjob
        (hjobId.trans hid.symm) hinsert
    · exact h.found hrecord hrecords hfind hid hjobs (hok htakes)
  · rw [upsertPosting_refused htakes]
    exact h

theorem Ingested.merges (h : s.Ingested) (htakes : s.Takes first p.sourceId p.candidate)
    (hmeets : s.MeetsUnknown p) : ¬(upsertPosting first s p).UnknownApart := by
  obtain ⟨hurl, hlisting, job, hjob, hblank, hcompany, r, hr, hrjob, hkey⟩ := hmeets
  have hposting : job ∈ s.jobsOfPosting [] p.candidate.companyNormalized := by
    rw [mem_jobsOfPosting]
    refine ⟨hjob, ?_⟩
    rw [Job.identity, hblank, hcompany]
  have hrow : ∀ {found}, s.findExisting first p.sourceId p.candidate = .ok found →
      found = some job := by
    intro found hfind
    cases found with
    | none =>
      have hnone := (findExisting_none hfind).2 [] hurl
      rw [hnone] at hposting
      cases hposting
    | some row =>
      rcases findExisting_some hfind with hlisted | ⟨-, url, hurl', hposted⟩
      · rw [hlisting] at hlisted
        cases hlisted
      · rw [hurl] at hurl'
        cases hurl'
        obtain ⟨hrow, hidentity⟩ := mem_jobsOfPosting.mp hposted
        obtain ⟨-, hidentity'⟩ := mem_jobsOfPosting.mp hposting
        rw [h.oneJob row hrow job hjob (hidentity.trans hidentity'.symm)]
  obtain ⟨record, jobId, hrecord, hrecords, ⟨hfind, -⟩ | ⟨found, hfind, hid, hjobs⟩⟩ :=
    upsertPosting_effect htakes
  · cases hrow hfind
  · cases hrow hfind
    obtain ⟨hjobId, -, -, -⟩ := JobCandidate.sourceRecord_some hrecord
    obtain ⟨new, hnew, hnewid, hidentity⟩ := (rows_of_found hjobs).2 hjob
    intro hapart
    have hold : r ∈ (upsertPosting first s p).records := by
      rw [hrecords]
      exact List.mem_append_left _ hr
    have hlast : record ∈ (upsertPosting first s p).records := by
      rw [hrecords]
      exact List.mem_append_right _ (List.mem_singleton_self record)
    have hdifferent : r.sourceKey ≠ record.sourceKey := by
      intro he
      rw [recordKey_eq hrecord, he] at hkey
      exact hkey rfl
    have hlinked : r.jobId = record.jobId := by
      rw [hrjob, hjobId, hid]
    apply hapart r hold record hlast hdifferent hlinked new hnew (hnewid.trans hrjob.symm)
    rw [url_of_identity hidentity, hblank]

end Step

section Run

variable {lib : Stdlib} {first : FirstRow Job} {s : JobStore} {l : FetchedItem} {p : Posting}

theorem ingested_empty : Ingested empty where
  linked r hr := by cases hr
  fits r hr := by cases hr
  oneJob job hjob := by cases hjob
  apart r hr := by cases hr

theorem posting_companyKept (h : l.posting lib = some p) : CompanyKept p := by
  unfold FetchedItem.posting at h
  split at h
  next record _ =>
    split at h
    next c hnormalize =>
      cases h
      obtain ⟨_, _, _, _, _, hcompany, _⟩ := normalizeRecord_ok hnormalize
      intro v hv
      rw [hcompany] at hv ⊢
      exact varcharColumn_strip hv
    next => cases h
  next => cases h

/-- If the store takes the item, it has a link, or is not new to its source, or its company has no
job without a link from another listing. -/
def ItemApart (lib : Stdlib) (first : FirstRow Job) (c : Call FetchedItem JobStore) : Prop :=
  ∀ p, c.call.posting lib = some p → c.before.Takes first p.sourceId p.candidate →
    ¬c.before.MeetsUnknown p

theorem ingestItem_ingested (h : s.Ingested) (hok : ItemApart lib first ⟨s, l⟩) :
    (ingestItem lib first s l).Ingested := by
  unfold ingestItem
  cases hposting : l.posting lib with
  | none => exact h
  | some p => exact h.upsert (posting_companyKept hposting) (hok p hposting)

theorem ingestItem_apart (h : s.Ingested) (hapart : (ingestItem lib first s l).UnknownApart) :
    ItemApart lib first ⟨s, l⟩ := by
  intro p hposting htakes hmeets
  have hposting : l.posting lib = some p := hposting
  rw [ingestItem, hposting] at hapart
  exact h.merges htakes hmeets hapart

/-- Listings are linked by an unknown link in no state of a run exactly when no item that the run
stores meets another one without a link. -/
theorem unknown_apart_iff {calls : List (Call FetchedItem JobStore)}
    (run : Run (ingestItem lib first) empty calls s) :
    (s.UnknownApart ∧ ∀ c ∈ calls, c.before.UnknownApart) ↔
      ∀ c ∈ calls, ItemApart lib first c := by
  have keep : ∀ (s : JobStore) (l : FetchedItem), s.Ingested → ItemApart lib first ⟨s, l⟩ →
      (ingestItem lib first s l).Ingested := fun s l h hok => ingestItem_ingested h hok
  have only : ∀ (s : JobStore) (l : FetchedItem), s.Ingested → True →
      (ingestItem lib first s l).UnknownApart → ItemApart lib first ⟨s, l⟩ :=
    fun s l h _ hapart => ingestItem_apart h hapart
  exact Run.promise_iff (I := Ingested) ingested_empty keep (fun _ h => h.apart) only run
    fun _ _ => trivial

end Run

end JobStore

/-- A library to compute with: its digest is a digit of the length of the text, over and over. -/
def lengthStdlib : Stdlib where
  casefold := .ascii
  repr _ := []
  sha256 t := List.replicate 64 (48 + t.length % 10)
  sha256_length t := List.length_replicate
  sha256_ascii t c hc := by
    have hdigit := Nat.mod_lt t.length (show 0 < 10 by omega)
    rw [(List.mem_replicate.mp hc).2]
    omega

def greenhouseItem (id title content : String) (fields : List (Text × Json)) : FetchedItem where
  sourceId := 1
  companyName := text "Acme"
  kind := .greenhouse
  item := .obj ([(text "id", .str (text id)), (text "title", .str (text title)),
    (text "content", .str (text content))] ++ fields)

/-- One of the two jobs has no link. -/
def oneLinkMissing : List (Call FetchedItem JobStore) × JobStore :=
  runAll (JobStore.ingestItem lengthStdlib .head) [] .empty
    [greenhouseItem "1" "Backend" "Python" [(text "absolute_url", .str (text "https://apply"))],
      greenhouseItem "2" "Designer" "Figma" []]

theorem oneLinkMissing_apart : oneLinkMissing.2.UnknownApart ∧
    ∀ c ∈ oneLinkMissing.1, c.before.UnknownApart := by
  have run : Run (JobStore.ingestItem lengthStdlib .head) .empty oneLinkMissing.1
      oneLinkMissing.2 :=
    run_runAll .start _
  have hlinks : ∀ c ∈ oneLinkMissing.1, ∀ job ∈ c.before.jobs.rows, job.applicationUrl ≠ [] := by
    decide
  apply (JobStore.unknown_apart_iff run).mpr
  rintro c hc p - - ⟨-, -, job, hjob, hblank, -⟩
  exact hlinks c hc job hjob hblank

/-- Neither has one: the two are one job, with the second one's title. -/
def bothLinksMissing : List (Call FetchedItem JobStore) × JobStore :=
  runAll (JobStore.ingestItem lengthStdlib .head) [] .empty
    [greenhouseItem "1" "Backend" "Python" [], greenhouseItem "2" "Designer" "Figma" []]

theorem missing_links_merge :
    Run (JobStore.ingestItem lengthStdlib .head) .empty bothLinksMissing.1 bothLinksMissing.2 ∧
    bothLinksMissing.2.records.map (fun r => (r.sourceKey, r.jobId)) =
      [((1, text "1"), 1), ((1, text "2"), 1)] ∧
    bothLinksMissing.2.jobs.rows.map (fun job => (job.id, job.title, job.applicationUrl)) =
      [(1, text "Designer", [])] ∧
    ¬bothLinksMissing.2.UnknownApart :=
  ⟨run_runAll .start _, by decide, by decide, by decide⟩

end JobRadar
