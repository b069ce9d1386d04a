import JobRadar.JobDeduplication

namespace JobRadar

open Database Python

/-- The jobs, with the instants in their `last_seen_at`: the server default `now()` of the
transaction that inserted the row. -/
structure DatedStore extends JobStore where
  lastSeenAt : Uuid → Time

/-- A call of `upsert`, with the `now()` of its transaction. -/
structure UpsertCall where
  posting : Posting
  stamp : Time

/-- The job in the store is what the candidate says, and was seen in this call. -/
structure Refreshed (s : DatedStore) (job : Job) (c : JobCandidate) (started : Time) : Prop where
  row : s.jobs.find job.id = some job
  title : job.title = c.title
  locations : job.locations = c.locations
  description : job.description.strip = c.description.strip
  seen : started ≤ s.lastSeenAt job.id

/-- The content is written, and its title is not cut; or the job has it already. -/
def Job.TakesOver (job : Job) (c : JobCandidate) : Prop :=
  (job.descriptionHash ≠ c.descriptionHash ∧ c.title.length ≤ 500) ∨
    (job.descriptionHash = c.descriptionHash ∧ job.title = c.title ∧
      job.locations = c.locations ∧ job.description.strip = c.description.strip)

namespace DatedStore

def empty : DatedStore := ⟨.empty, fun _ => 0⟩

/-- `upsert`, which sets no `last_seen_at`: only an insert gives it a value. -/
def upsert (s : DatedStore) (first : FirstRow Job) (jobId sourceId : Uuid) (c : JobCandidate)
    (stamp : Time) : Except StoreError (DatedStore × Job × Bool × Bool) := do
  let (store, job, created, changed) ← s.toJobStore.upsert first jobId sourceId c
  let lastSeenAt := if created then Function.update s.lastSeenAt job.id stamp else s.lastSeenAt
  return (⟨store, lastSeenAt⟩, job, created, changed)

/-- A call that raises has been rolled back. -/
def call (first : FirstRow Job) (s : DatedStore) (u : UpsertCall) : DatedStore :=
  match s.upsert first s.jobs.freshKey u.posting.sourceId u.posting.candidate u.stamp with
  | .ok (s', _) => s'
  | .error _ => s

section Calls

variable {s s' : DatedStore} {first : FirstRow Job} {jobId sourceId : Uuid} {c : JobCandidate}
  {job old : Job} {started stamp : Time} {created changed : Bool}

theorem upsert_ok (h : s.upsert first jobId sourceId c stamp = .ok (s', job, created, changed)) :
    s.toJobStore.upsert first jobId sourceId c = .ok (s'.toJobStore, job, created, changed) ∧
      s'.lastSeenAt =
        if created then Function.update s.lastSeenAt job.id stamp else s.lastSeenAt := by
  unfold upsert at h
  cases hupsert : s.toJobStore.upsert first jobId sourceId c with
  | error e => simp [hupsert, bind, Except.bind] at h
  | ok r =>
    simp only [hupsert, bind, Except.bind, pure, Except.pure] at h
    cases h
    exact ⟨rfl, rfl⟩

theorem findExisting_linked {found : Option Job}
    (hlinked : first.pick (s.jobsOfListing sourceId c.externalId) = some old)
    (h : s.findExisting first sourceId c = .ok found) : found = some old := by
  unfold JobStore.findExisting at h
  split at h
  next => cases h
  next =>
    rw [hlinked] at h
    cases h
    rfl

theorem content_some {content : JobContent} (h : c.content = some content) :
    content.title = c.title.take 500 ∧ content.description = c.description ∧
      content.locations = c.locations := by
  simp only [JobCandidate.content, Option.bind_eq_bind, Option.bind_eq_some_iff] at h
  obtain ⟨title, htitle, description, hdescription, hash, -, hlocations⟩ := h
  split at hlocations
  next =>
    cases hlocations
    refine ⟨?_, ?_, rfl⟩
    · unfold varcharColumn at htitle
      split at htitle
      next => exact (Option.some.inj htitle).symm
      next => cases htitle
    · unfold textColumn at hdescription
      split at hdescription
      next => exact (Option.some.inj hdescription).symm
      next => cases hdescription
  next => cases hlocations

/-- For a listing that is linked already, the job after the call is the one that was found, with
its content written if the hash differs. Its `last_seen_at` stays. -/
theorem upsert_linked (hlinked : first.pick (s.jobsOfListing sourceId c.externalId) = some old)
    (h : s.upsert first jobId sourceId c stamp = .ok (s', job, created, changed)) :
    s'.jobs.find job.id = some job ∧ s'.lastSeenAt job.id = s.lastSeenAt old.id ∧
      ((old.descriptionHash = c.descriptionHash ∧ job = old) ∨
        (old.descriptionHash ≠ c.descriptionHash ∧
          ∃ content, c.content = some content ∧ job = old.update content)) := by
  obtain ⟨hupsert, hseen⟩ := upsert_ok h
  rcases JobStore.upsert_outcome hupsert with
    ⟨jobs, record, hfind, -⟩ | ⟨record, hfind, hhash, -, hs', rfl, -⟩ |
      ⟨row, content, record, hfind, hhash, hcontent, -, rfl, hs', rfl, -⟩
  · cases findExisting_linked hlinked hfind
  · cases findExisting_linked hlinked hfind
    have hrow := JobStore.findExisting_row hfind
    refine ⟨?_, by rw [hseen]; rfl, .inl ⟨hhash, rfl⟩⟩
    rwa [hs']
  · cases findExisting_linked hlinked hfind
    refine ⟨?_, by rw [hseen]; rfl, .inr ⟨hhash, content, hcontent, rfl⟩⟩
    rw [hs']
    dsimp only
    rw [JobStore.find_updated, show (old.update content).id = old.id from rfl,
      JobStore.findExisting_row hfind, Option.map_some, if_pos rfl]

/-- An upsert of a linked listing refreshes its job exactly if the job takes the content over and
was inserted no earlier than the call began. -/
theorem upsert_refreshes_iff
    (hlinked : first.pick (s.jobsOfListing sourceId c.externalId) = some old)
    (h : s.upsert first jobId sourceId c stamp = .ok (s', job, created, changed)) :
    Refreshed s' job c started ↔ old.TakesOver c ∧ started ≤ s.lastSeenAt old.id := by
  obtain ⟨hrow, hseen, hjob⟩ := upsert_linked hlinked h
  rcases hjob with ⟨hhash, rfl⟩ | ⟨hhash, content, hcontent, rfl⟩
  · rw [Job.TakesOver, or_iff_right fun hchanged => hchanged.1 hhash, and_iff_right hhash]
    constructor
    · intro hr
      exact ⟨⟨hr.title, hr.locations, hr.description⟩, hseen ▸ hr.seen⟩
    · rintro ⟨⟨htitle, hlocations, hdescription⟩, hstarted⟩
      exact ⟨hrow, htitle, hlocations, hdescription, hseen ▸ hstarted⟩
  · obtain ⟨htitle, hdescription, hlocations⟩ := content_some hcontent
    rw [Job.TakesOver, or_iff_left fun hsame => hhash hsame.1, and_iff_right hhash]
    have hcut : c.title.take 500 = c.title ↔ c.title.length ≤ 500 := List.take_eq_self_iff _
    constructor
    · intro hr
      exact ⟨hcut.mp (htitle.symm.trans hr.title), hseen ▸ hr.seen⟩
    · rintro ⟨hfits, hstarted⟩
      exact ⟨hrow, htitle.trans (hcut.mpr hfits), hlocations, congrArg Text.strip hdescription,
        hseen ▸ hstarted⟩

theorem call_effect (first : FirstRow Job) (s : DatedStore) (u : UpsertCall) :
    ((∀ id, (s.call first u).jobs.find id = none ↔ s.jobs.find id = none) ∧
      (s.call first u).lastSeenAt = s.lastSeenAt) ∨
    ∃ new, s.jobs.find new = none ∧
      (∀ id, (s.call first u).jobs.find id = none ↔ id ≠ new ∧ s.jobs.find id = none) ∧
      (s.call first u).lastSeenAt = Function.update s.lastSeenAt new u.stamp := by
  unfold call
  split
  next s' rest hupsert =>
    obtain ⟨job, created, changed⟩ := rest
    obtain ⟨hupsert, hseen⟩ := upsert_ok hupsert
    rcases JobStore.upsert_outcome hupsert with
      ⟨jobs, record, -, -, hinsert, -, hs', rfl, -⟩ | ⟨record, -, -, -, hs', rfl, -⟩ |
        ⟨row, content, record, -, -, -, -, -, hs', rfl, -⟩
    · refine .inr ⟨job.id, ?_, fun id => ?_, hseen⟩
      · exact Table.find_eq_none_iff.mpr fun old ho => Table.key_ne_of_insert hinsert ho
      · rw [hs', Table.find_of_insert hinsert]
        split
        next hid => simp [hid]
        next hid => simp [hid]
    · exact .inl ⟨fun id => by rw [hs'], hseen⟩
    · refine .inl ⟨fun id => ?_, hseen⟩
      rw [hs']
      dsimp only
      rw [JobStore.find_updated, Option.map_eq_none_iff]
  next => exact .inl ⟨fun _ => Iff.rfl, rfl⟩

theorem dated_of_calls (first : FirstRow Job) (calls : List UpsertCall) (s : DatedStore) {id : Uuid}
    (h : (calls.foldl (call first) s).jobs.find id ≠ none) :
    (s.jobs.find id ≠ none ∧ (calls.foldl (call first) s).lastSeenAt id = s.lastSeenAt id) ∨
      (s.jobs.find id = none ∧
        ∃ u ∈ calls, (calls.foldl (call first) s).lastSeenAt id = u.stamp) := by
  induction calls generalizing s with
  | nil => exact .inl ⟨h, rfl⟩
  | cons u calls ih =>
    rcases ih (s.call first u) h with ⟨hthere, hsame⟩ | ⟨hnew, v, hv, hstamp⟩
    · rcases call_effect first s u with ⟨hids, hdates⟩ | ⟨new, hfree, hids, hdates⟩
      · rw [ne_eq, hids] at hthere
        exact .inl ⟨hthere, hsame.trans (congrFun hdates id)⟩
      · rw [ne_eq, hids, not_and_or, not_not] at hthere
        rw [List.foldl_cons, hsame, hdates]
        by_cases hid : id = new
        · subst hid
          exact .inr ⟨hfree, u, List.mem_cons_self .., Function.update_self ..⟩
        · exact .inl ⟨hthere.resolve_left hid, Function.update_of_ne hid ..⟩
    · refine .inr ⟨?_, v, List.mem_cons_of_mem _ hv, hstamp⟩
      rcases call_effect first s u with ⟨hids, -⟩ | ⟨new, -, hids, -⟩
      · exact (hids id).mp hnew
      · exact ((hids id).mp hnew).2

theorem not_refreshed_after_calls {calls : List UpsertCall}
    (hbefore : ∀ u ∈ calls, u.stamp < started)
    (hlinked : first.pick ((calls.foldl (call first) empty).jobsOfListing sourceId c.externalId) =
      some old)
    (h : (calls.foldl (call first) empty).upsert first jobId sourceId c stamp =
      .ok (s', job, created, changed)) :
    ¬Refreshed s' job c started := by
  intro hr
  have hseen := ((upsert_refreshes_iff hlinked h).mp hr).2
  obtain ⟨record, -, -, -, hfind⟩ :=
    JobStore.mem_jobsOfListing.mp (first.mem_of_pick _ _ hlinked)
  have hrow := Table.find_of_mem (Table.find_eq_some_iff.mp hfind).1
  rcases dated_of_calls first calls empty (hrow.symm ▸ Option.some_ne_none old) with
    ⟨hempty, -⟩ | ⟨-, u, hu, hstamp⟩
  · exact hempty rfl
  · rw [hstamp] at hseen
    exact Nat.not_le_of_gt (hbefore u hu) hseen

end Calls

def backendListed : DatedStore :=
  empty.call .head ⟨JobStore.backendPosting 1 (text "1"), 5⟩

def backendJob : Job :=
  ⟨⟨text "Backend", text "Python", text "a5", []⟩, 1, text "Acme", text "acme",
    text "https://apply"⟩

theorem backendJob_linked :
    FirstRow.head.pick (backendListed.jobsOfListing 1 (text "1")) = some backendJob := rfl

def retitled : JobCandidate :=
  { (JobStore.backendPosting 1 (text "1")).candidate with title := text "Senior Backend" }

def redescribed : JobCandidate :=
  { (JobStore.backendPosting 1 (text "1")).candidate with
    description := text "Rust"
    descriptionHash := text "b6" }

/-- At instant 10 the posting comes with another title, which is not taken over, or with another
description, and was last seen at 5 for all that. -/
theorem retitled_not_refreshed :
    FirstRow.head.pick (backendListed.jobsOfListing 1 (text "1")) = some backendJob ∧
    (∃ s' job, backendListed.upsert .head 2 1 retitled 10 = .ok (s', job, false, false) ∧
      job.title = text "Backend" ∧ ¬Refreshed s' job retitled 10) ∧
    ∃ s' job, backendListed.upsert .head 2 1 redescribed 10 = .ok (s', job, false, true) ∧
      job.description = text "Rust" ∧ s'.lastSeenAt job.id = 5 ∧
      ¬Refreshed s' job redescribed 10 := by
  refine ⟨backendJob_linked, ⟨_, _, rfl, by decide, fun hr => ?_⟩,
    _, _, rfl, by decide, rfl, fun hr => ?_⟩
  · exact absurd hr.title (by decide)
  · exact absurd hr.seen (by decide)

/-- Listed twice at one instant, the posting is up to date. -/
theorem backend_listed_twice :
    ∃ s' job, backendListed.upsert .head 2 1 (JobStore.backendPosting 1 (text "1")).candidate 5 =
      .ok (s', job, false, false) ∧
      Refreshed s' job (JobStore.backendPosting 1 (text "1")).candidate 5 := by
  have htaken : backendJob.TakesOver (JobStore.backendPosting 1 (text "1")).candidate :=
    .inr ⟨rfl, rfl, rfl, rfl⟩
  have hseen : 5 ≤ backendListed.lastSeenAt backendJob.id := by decide
  obtain ⟨s', job, h⟩ : ∃ s' job, backendListed.upsert .head 2 1
      (JobStore.backendPosting 1 (text "1")).candidate 5 = .ok (s', job, false, false) :=
    ⟨_, _, rfl⟩
  exact ⟨s', job, h, (upsert_refreshes_iff backendJob_linked h).mpr ⟨htaken, hseen⟩⟩

end DatedStore

end JobRadar
