import JobRadar.Grouping
import JobRadar.JobModel
import Mathlib.Data.List.Induction

namespace JobRadar

open Database Grouping Python

structure Posting where
  sourceId : Uuid
  candidate : JobCandidate

/-- The key under which the source lists it. -/
def Posting.sourceKey (p : Posting) : Uuid × Text := (p.sourceId, p.candidate.externalId)

def JobSourceRecord.sourceKey (r : JobSourceRecord) : Uuid × Text := (r.sourceId, r.externalId)

/-- What a posting is recognised by across sources. -/
def Posting.identity (p : Posting) : Json × Text :=
  (p.candidate.applicationUrl, p.candidate.companyNormalized)

def Job.identity (job : Job) : Json × Text := (.str job.applicationUrl, job.companyNormalized)

namespace JobStore

/-- One call, with a fresh id at hand. A call that raises leaves the store as it was. -/
def upsertPosting (first : FirstRow Job) (s : JobStore) (p : Posting) : JobStore :=
  match s.upsert first s.jobs.freshKey p.sourceId p.candidate with
  | .ok (s', _) => s'
  | .error _ => s

def upsertAll (first : FirstRow Job) (postings : List Posting) : JobStore :=
  postings.foldl (upsertPosting first) empty

/-- Both postings are linked, and to the same job. -/
def SameJob (s : JobStore) (a b : Posting) : Prop :=
  ∃ r ∈ s.records, ∃ r' ∈ s.records,
    r.sourceKey = a.sourceKey ∧ r'.sourceKey = b.sourceKey ∧ r.jobId = r'.jobId

/-- The groups of the store: job ids with what the jobs are recognised by. -/
def groups (s : JobStore) : List (Uuid × Json × Text) :=
  s.jobs.rows.map fun job => (job.id, job.identity)

end JobStore

structure JobCandidate.Storable (c : JobCandidate) : Prop where
  title : storable c.title ∧ c.title.length ≤ 500
  companyName : storable c.companyName ∧ c.companyName.length ≤ 255
  companyNormalized : storable c.companyNormalized ∧ c.companyNormalized.length ≤ 255
  description : storable c.description
  descriptionHash : storable c.descriptionHash ∧ c.descriptionHash.length ≤ 64
  locations : jsonItems c.locations
  applicationUrl : ∃ url, c.applicationUrl = .str url ∧ storable url
  externalId : storable c.externalId ∧ c.externalId.length ≤ 255
  rawPayload : jsonColumn c.rawPayload

namespace JobCandidate.Storable

variable {c : JobCandidate} (h : c.Storable)

include h

theorem content_eq : c.content = some ⟨c.title, c.description, c.descriptionHash, c.locations⟩ := by
  simp [content, varcharColumn_of_fits h.title.1 h.title.2, textColumn_of_storable h.description,
    varcharColumn_of_fits h.descriptionHash.1 h.descriptionHash.2, h.locations]

theorem url_eq {url : Text} (hurl : c.applicationUrl = .str url) : c.url = some url := by
  obtain ⟨url', hurl', hs⟩ := h.applicationUrl
  obtain rfl : url = url' := Json.str.inj (hurl.symm.trans hurl')
  simp [JobCandidate.url, hurl, textColumn_of_storable hs]

theorem exists_job (jobId : Uuid) : ∃ job, c.job jobId = some job ∧ job.id = jobId ∧
    job.identity = (c.applicationUrl, c.companyNormalized) := by
  obtain ⟨url, hurl, -⟩ := h.applicationUrl
  refine ⟨⟨⟨c.title, c.description, c.descriptionHash, c.locations⟩, jobId, c.companyName,
    c.companyNormalized, url⟩, ?_, rfl, by rw [hurl]; rfl⟩
  simp [job, h.content_eq, h.url_eq hurl, varcharColumn_of_fits h.companyName.1 h.companyName.2,
    varcharColumn_of_fits h.companyNormalized.1 h.companyNormalized.2]

theorem sourceRecord_eq (jobId sourceId : Uuid) {url : Text} (hurl : c.applicationUrl = .str url) :
    c.sourceRecord jobId sourceId = some ⟨jobId, sourceId, c.externalId, url, c.rawPayload⟩ := by
  simp [sourceRecord, h.url_eq hurl, varcharColumn_of_fits h.externalId.1 h.externalId.2,
    h.rawPayload]

end JobCandidate.Storable

namespace JobStore

variable {s : JobStore} {first : FirstRow Job} {p : Posting} {links : List (Posting × Uuid)}

/-- The records are those of the linked postings, and the jobs are their groups. -/
structure Linked (s : JobStore) (links : List (Posting × Uuid)) : Prop where
  records : s.records.map (fun r => (r.sourceKey, r.jobId)) =
    links.map fun link => (link.1.sourceKey, link.2)
  grouped : Grouped Posting.identity links s.groups

theorem linked_empty : Linked empty [] := ⟨rfl, .empty⟩

theorem Linked.mem_record (h : s.Linked links) {k : Uuid × Text} {jobId : Uuid} :
    (∃ r ∈ s.records, r.sourceKey = k ∧ r.jobId = jobId) ↔
      ∃ a, (a, jobId) ∈ links ∧ a.sourceKey = k := by
  have hmem : (k, jobId) ∈ s.records.map (fun r => (r.sourceKey, r.jobId)) ↔
      (k, jobId) ∈ links.map fun link => (link.1.sourceKey, link.2) := by
    rw [h.records]
  simpa [and_comm] using hmem

theorem Linked.source_new (h : s.Linked links)
    (hnew : ∀ link ∈ links, link.1.sourceKey ≠ p.sourceKey) {r : JobSourceRecord}
    (hr : r ∈ s.records) : r.sourceKey ≠ p.sourceKey := by
  intro hk
  obtain ⟨a, ha, hak⟩ := h.mem_record.mp ⟨r, hr, hk, rfl⟩
  exact hnew _ ha hak

theorem findExisting_new (hp : p.candidate.Storable) {url : Text}
    (hurl : p.candidate.applicationUrl = .str url)
    (hnew : ∀ r ∈ s.records, r.sourceKey ≠ p.sourceKey) :
    s.findExisting first p.sourceId p.candidate =
      .ok (first.pick (s.jobsOfPosting url p.candidate.companyNormalized)) := by
  have hlisting : s.jobsOfListing p.sourceId p.candidate.externalId = [] := by
    have hnone : s.records.filter (fun r => r.sourceId = p.sourceId ∧
        r.externalId = p.candidate.externalId) = [] := by
      apply List.filter_eq_nil_iff.mpr
      intro r hr hk
      exact hnew r hr (by simpa [JobSourceRecord.sourceKey, Posting.sourceKey] using hk)
    rw [jobsOfListing, hnone, List.filterMap_nil]
  have hnone : first.pick (s.jobsOfListing p.sourceId p.candidate.externalId) = none := by
    rw [first.pick_eq_none_iff, hlisting]
    exact fun _ => List.not_mem_nil
  obtain ⟨url', hurl', hs⟩ := hp.applicationUrl
  obtain rfl : url = url' := Json.str.inj (hurl.symm.trans hurl')
  simp [findExisting, hp.externalId.1, hnone, hurl, hs, hp.companyNormalized.1]

theorem mem_jobsOfPosting {url company : Text} {job : Job} :
    job ∈ s.jobsOfPosting url company ↔ job ∈ s.jobs ∧ job.identity = (.str url, company) := by
  simp [jobsOfPosting, Job.identity, Table.mem_rows]

theorem mem_groups_of_job {job : Job} (h : job ∈ s.jobs) : (job.id, job.identity) ∈ s.groups :=
  List.mem_map_of_mem h

theorem groups_updateJob (job : Job) (content : JobContent) :
    (s.updateJob job content).groups = s.groups := by
  simp only [groups, updateJob, Table.updateWhere, List.map_map]
  apply List.map_congr_left
  intro old _
  by_cases hid : old.id = job.id <;> simp [hid, Job.update, Job.identity]

theorem addRecord_eq (hp : p.candidate.Storable) (job : Job) {url : Text}
    (hurl : p.candidate.applicationUrl = .str url) :
    s.addRecord job p.sourceId p.candidate = .ok { s with records := s.records ++
      [⟨job.id, p.sourceId, p.candidate.externalId, url, p.candidate.rawPayload⟩] } := by
  exact addRecord_of_record (hp.sourceRecord_eq job.id p.sourceId hurl)

theorem Linked.record (h : s.Linked links) {jobs : Table Job.id} {jobId : Uuid}
    (hgroups : Grouped Posting.identity (links ++ [(p, jobId)]) (groups ⟨jobs, s.records⟩))
    (url : Text) (payload : Json) :
    Linked ⟨jobs, s.records ++ [⟨jobId, p.sourceId, p.candidate.externalId, url, payload⟩]⟩
      (links ++ [(p, jobId)]) where
  records := by
    simp only [List.map_append, h.records]
    rfl
  grouped := hgroups

theorem Linked.upsert (h : s.Linked links) (hp : p.candidate.Storable)
    (hnew : ∀ link ∈ links, link.1.sourceKey ≠ p.sourceKey) (first : FirstRow Job) :
    ∃ jobId, (upsertPosting first s p).Linked (links ++ [(p, jobId)]) := by
  obtain ⟨url, hurl, -⟩ := hp.applicationUrl
  have hfind : s.findExisting first p.sourceId p.candidate =
      .ok (first.pick (s.jobsOfPosting url p.candidate.companyNormalized)) :=
    findExisting_new hp hurl fun _ hr => h.source_new hnew hr
  have hidentity : p.identity = (.str url, p.candidate.companyNormalized) := by
    simp [Posting.identity, hurl]
  cases hpick : first.pick (s.jobsOfPosting url p.candidate.companyNormalized) with
  | none =>
    rw [hpick] at hfind
    obtain ⟨job, hjob, hid, hjobidentity⟩ := hp.exists_job s.jobs.freshKey
    obtain ⟨jobs, hjobs⟩ := Table.insert_isSome_of_fresh fun old ho =>
      (hid ▸ Table.key_ne_freshKey ho : old.id ≠ job.id)
    have hadd : s.addJob s.jobs.freshKey p.candidate = .ok (⟨jobs, s.records⟩, job) := by
      simp only [addJob, hjob, stored, hjobs, bind, Except.bind, pure, Except.pure]
    refine ⟨job.id, ?_⟩
    simp only [upsertPosting, upsert_new hfind hadd (addRecord_eq hp _ hurl)]
    refine h.record ?_ url p.candidate.rawPayload
    have hgroups : groups ⟨jobs, s.records⟩ = s.groups ++ [(job.id, p.identity)] := by
      rw [groups, Table.rows_of_insert hjobs, List.map_append, List.map_singleton, hjobidentity]
      rfl
    rw [hgroups]
    apply h.grouped.openGroup
    · intro hm
      obtain ⟨old, ho, hold⟩ : ∃ old ∈ s.jobs, old.id = job.id := by
        simpa [groups, Table.mem_rows] using hm
      exact Table.key_ne_freshKey ho (hold.trans hid)
    · intro hm
      obtain ⟨old, ho, hold⟩ : ∃ old ∈ s.jobs, old.identity = p.identity := by
        simpa [groups, Table.mem_rows] using hm
      exact first.pick_eq_none_iff.mp hpick old (mem_jobsOfPosting.mpr ⟨ho, hold.trans hidentity⟩)
  | some job =>
    rw [hpick] at hfind
    obtain ⟨hjob, hid⟩ := mem_jobsOfPosting.mp (first.mem_of_pick _ _ hpick)
    have hgroup : (job.id, p.identity) ∈ s.groups := by
      rw [hidentity, ← hid]
      exact mem_groups_of_job hjob
    refine ⟨job.id, ?_⟩
    by_cases hhash : job.descriptionHash = p.candidate.descriptionHash
    · simp only [upsertPosting, upsert_same hfind hhash (addRecord_eq hp job hurl)]
      exact h.record (h.grouped.join hgroup) url p.candidate.rawPayload
    · simp only [upsertPosting,
        upsert_changed hfind hhash hp.content_eq (addRecord_eq hp job hurl)]
      refine h.record ?_ url p.candidate.rawPayload
      have hgroups := groups_updateJob (s := s) job ⟨p.candidate.title, p.candidate.description,
        p.candidate.descriptionHash, p.candidate.locations⟩
      exact hgroups ▸ h.grouped.join hgroup

theorem linked_upsertAll (first : FirstRow Job) {postings : List Posting}
    (hstorable : ∀ p ∈ postings, p.candidate.Storable)
    (hdistinct : (postings.map Posting.sourceKey).Nodup) :
    ∃ links, (upsertAll first postings).Linked links ∧ links.map Prod.fst = postings := by
  induction postings using List.reverseRecOn with
  | nil => exact ⟨[], linked_empty, rfl⟩
  | append_singleton postings p ih =>
    rw [List.map_append, List.map_singleton] at hdistinct
    obtain ⟨links, hlinked, hfst⟩ := ih (fun q hq => hstorable q (by simp [hq]))
      hdistinct.of_append_left
    have hnew : ∀ link ∈ links, link.1.sourceKey ≠ p.sourceKey := by
      intro link hlink
      have hm : link.1 ∈ postings := hfst ▸ List.mem_map_of_mem hlink
      exact (List.nodup_append.mp hdistinct).2.2 _ (List.mem_map_of_mem hm) _ (by simp)
    obtain ⟨jobId, hstep⟩ := hlinked.upsert (hstorable p (by simp)) hnew first
    refine ⟨links ++ [(p, jobId)], ?_, by simp [hfst]⟩
    rw [upsertAll, List.foldl_append]
    exact hstep

theorem Linked.sameJob_iff (h : s.Linked links)
    (hdistinct : ((links.map Prod.fst).map Posting.sourceKey).Nodup) {a b : Posting}
    (ha : a ∈ links.map Prod.fst) (hb : b ∈ links.map Prod.fst) :
    s.SameJob a b ↔ a.identity = b.identity := by
  obtain ⟨⟨_, i⟩, hai, rfl⟩ := List.mem_map.mp ha
  obtain ⟨⟨_, j⟩, hbj, rfl⟩ := List.mem_map.mp hb
  have hfst : ∀ {x y : Posting} {k l}, (x, k) ∈ links → (y, l) ∈ links →
      x.sourceKey = y.sourceKey → x = y := by
    intro x y k l hx hy hk
    exact List.inj_on_of_nodup_map hdistinct (List.mem_map_of_mem hx) (List.mem_map_of_mem hy) hk
  constructor
  · rintro ⟨r, hr, r', hr', hra, hrb, hjob⟩
    obtain ⟨x, hx, hxk⟩ := h.mem_record.mp ⟨r, hr, hra, rfl⟩
    obtain ⟨y, hy, hyk⟩ := h.mem_record.mp ⟨r', hr', hrb, rfl⟩
    rw [← hfst hx hai hxk, ← hfst hy hbj hyk]
    exact (h.grouped.same_iff hx hy).mp hjob
  · intro hidentity
    obtain ⟨r, hr, hra, hri⟩ := h.mem_record.mpr ⟨_, hai, rfl⟩
    obtain ⟨r', hr', hrb, hrj⟩ := h.mem_record.mpr ⟨_, hbj, rfl⟩
    refine ⟨r, hr, r', hr', hra, hrb, ?_⟩
    rw [hri, hrj]
    exact (h.grouped.same_iff hai hbj).mpr hidentity

/-- Two postings are linked to one job exactly when link and company agree. -/
def GroupsPostings (s : JobStore) (postings : List Posting) : Prop :=
  ∀ a ∈ postings, ∀ b ∈ postings, s.SameJob a b ↔ a.identity = b.identity

/-- Postings that fit their columns are grouped by link and company, in any order. -/
theorem upserts_group_postings (first first' : FirstRow Job) {postings postings' : List Posting}
    (hstorable : ∀ p ∈ postings, p.candidate.Storable)
    (hdistinct : (postings.map Posting.sourceKey).Nodup) (hperm : postings.Perm postings') :
    GroupsPostings (upsertAll first postings) postings ∧
    (upsertAll first' postings').jobs.rows.length = (upsertAll first postings).jobs.rows.length ∧
    ((upsertAll first' postings').jobs.rows.map Job.identity).Perm
      ((upsertAll first postings).jobs.rows.map Job.identity) ∧
    ∀ a ∈ postings, ∀ b ∈ postings,
      (upsertAll first' postings').SameJob a b ↔ (upsertAll first postings).SameJob a b := by
  obtain ⟨links, hlinked, hfst⟩ := linked_upsertAll first hstorable hdistinct
  have hdistinct' := (hperm.map Posting.sourceKey).nodup_iff.mp hdistinct
  obtain ⟨links', hlinked', hfst'⟩ := linked_upsertAll first'
    (fun p hp => hstorable p (hperm.mem_iff.mpr hp)) hdistinct'
  have hgroups : GroupsPostings (upsertAll first postings) postings := by
    intro a ha b hb
    exact hlinked.sameJob_iff (hfst ▸ hdistinct) (hfst ▸ ha) (hfst ▸ hb)
  have hgroups' : GroupsPostings (upsertAll first' postings') postings' := by
    intro a ha b hb
    exact hlinked'.sameJob_iff (hfst' ▸ hdistinct') (hfst' ▸ ha) (hfst' ▸ hb)
  have hkeys : ∀ s : JobStore, s.groups.map Prod.snd = s.jobs.rows.map Job.identity := by
    intro s
    simp [groups]
  have hidentities := hlinked'.grouped.keys_perm hlinked.grouped
    (by rw [hfst, hfst']; exact hperm.symm)
  rw [hkeys, hkeys] at hidentities
  refine ⟨hgroups, by simpa using hidentities.length_eq, hidentities, ?_⟩
  intro a ha b hb
  rw [hgroups a ha b hb, hgroups' a (hperm.mem_iff.mp ha) b (hperm.mem_iff.mp hb)]

/-- One job under the same link, as listed by source 1 and source 2. -/
def backendPosting (sourceId : Uuid) (externalId : Text) : Posting where
  sourceId := sourceId
  candidate :=
    { title := text "Backend"
      companyName := text "Acme"
      companyNormalized := text "acme"
      description := text "Python"
      descriptionHash := text "a5"
      locations := []
      applicationUrl := .str (text "https://apply")
      externalId := externalId
      rawPayload := .null }

theorem backendPosting_grouped : GroupsPostings
    (upsertAll .head [backendPosting 1 (text "1"), backendPosting 2 (text "x")])
    [backendPosting 1 (text "1"), backendPosting 2 (text "x")] := by
  refine (upserts_group_postings .head .head ?_ (by decide) (.refl _)).1
  intro p hp
  have hstorable : storable p.candidate.externalId ∧ p.candidate.externalId.length ≤ 255 := by
    revert p
    decide
  rcases List.mem_pair.mp hp with rfl | rfl <;>
    exact ⟨by decide, by decide, by decide, by decide, by decide, rfl, ⟨_, rfl, by decide⟩,
      hstorable, rfl⟩

set_option maxRecDepth 4000 in
/-- An external id of 256 letters is refused, and its posting is linked to no job. -/
theorem long_external_id_not_grouped : ∃ postings : List Posting,
    (postings.map Posting.sourceKey).Nodup ∧
      ¬GroupsPostings (upsertAll .head postings) postings := by
  refine ⟨[backendPosting 1 (text "1"), backendPosting 2 (List.replicate 256 120)], by decide, ?_⟩
  intro hgroups
  have hrecords : (upsertAll .head [backendPosting 1 (text "1"),
      backendPosting 2 (List.replicate 256 120)]).records.map JobSourceRecord.sourceKey =
      [(1, text "1")] := by
    decide
  obtain ⟨_, _, r, hr, _, hrb, _⟩ := (hgroups (backendPosting 1 (text "1")) (by simp)
    (backendPosting 2 (List.replicate 256 120)) (by simp)).mpr rfl
  have hm := List.mem_map_of_mem (f := JobSourceRecord.sourceKey) hr
  rw [hrecords, hrb, List.mem_singleton] at hm
  exact absurd hm (by decide)

end JobStore

end JobRadar
