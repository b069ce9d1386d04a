import JobRadar.RunEnds
import JobRadar.UnknownUrls

namespace JobRadar

open Database Python

/-- The record is of the listing, under the id that the column makes of the provider's. -/
def JobSourceRecord.Lists (r : JobSourceRecord) (sourceId : Uuid) (record : RawJobRecord) : Prop :=
  r.sourceId = sourceId ∧ varcharColumn 255 record.externalId = some r.externalId

/-- What becomes of a store when what was fetched is upserted: how many of the records made, changed
or met a job, and the source records that they added. -/
structure JobStore.Accounts (s s' : JobStore) (sourceId : Uuid) (fetched : List RawJobRecord)
    (counts : UpsertCounts) (added : List JobSourceRecord) : Prop where
  total : counts.created + counts.updated + counts.duplicate = fetched.length
  jobs : s'.jobs.rows.length = s.jobs.rows.length + counts.created
  records : s'.records = s.records ++ added
  listed : List.Forall₂ (fun record r => r.Lists sourceId record) fetched added
  linked : ∀ r ∈ added, ∃ job ∈ s'.jobs, job.id = r.jobId
  kept : ∀ job ∈ s.jobs, ∃ job' ∈ s'.jobs, job'.id = job.id
  others : ∀ job ∈ s.jobs, (∀ r ∈ added, r.jobId ≠ job.id) → job ∈ s'.jobs

namespace JobStore

section Step

variable {first : FirstRow Job} {sourceId jobId : Uuid} {record : RawJobRecord} {c : JobCandidate}
  {s s₁ s' : JobStore} {job : Job} {created changed : Bool}

theorem lists_of_sourceRecord (hid : c.externalId = record.externalId) {r : JobSourceRecord}
    (h : c.sourceRecord jobId sourceId = some r) : r.jobId = jobId ∧ r.Lists sourceId record := by
  obtain ⟨hjob, hsource, hexternal, -⟩ := JobCandidate.sourceRecord_some h
  rw [hid] at hexternal
  exact ⟨hjob, hsource, hexternal⟩

theorem upsert_accounts (hid : c.externalId = record.externalId)
    (h : s.upsert first jobId sourceId c = .ok (s', job, created, changed)) :
    ∃ r, s.Accounts s' sourceId [record] (UpsertCounts.add {} created changed) [r] := by
  rcases upsert_outcome h with
    ⟨jobs, r, hfind, hjob, hinsert, hrecord, rfl, rfl, rfl⟩ |
      ⟨r, hfind, hhash, hrecord, rfl, rfl, rfl⟩ |
      ⟨old, content, r, hfind, hhash, hcontent, hrecord, rfl, rfl, rfl, rfl⟩
  all_goals obtain ⟨hlinked, hlists⟩ := lists_of_sourceRecord hid hrecord
  all_goals refine ⟨r, ?_⟩
  · have hnew : job ∈ jobs := (Table.mem_of_insert hinsert).mpr (Or.inr rfl)
    have hold : ∀ x ∈ s.jobs, x ∈ jobs := fun x hx =>
      (Table.mem_of_insert hinsert).mpr (Or.inl hx)
    exact {
      total := rfl
      jobs := by
        rw [Table.rows_of_insert hinsert, List.length_append]
        rfl
      records := rfl
      listed := .cons hlists .nil
      linked := fun x hx => ⟨job, hnew, by rw [List.mem_singleton.mp hx, hlinked]⟩
      kept := fun x hx => ⟨x, hold x hx, rfl⟩
      others := fun x hx _ => hold x hx }
  · have hrow : job ∈ s.jobs := (Table.find_eq_some_iff.mp (findExisting_row hfind)).1
    exact {
      total := rfl
      jobs := rfl
      records := rfl
      listed := .cons hlists .nil
      linked := fun x hx => ⟨job, hrow, by rw [List.mem_singleton.mp hx, hlinked]⟩
      kept := fun x hx => ⟨x, hx, rfl⟩
      others := fun x hx _ => hx }
  · have hrow : old ∈ s.jobs := (Table.find_eq_some_iff.mp (findExisting_row hfind)).1
    exact {
      total := rfl
      jobs := List.length_map _
      records := rfl
      listed := .cons hlists .nil
      linked := by
        intro x hx
        refine ⟨_, mem_updated hrow old content, ?_⟩
        rw [if_pos rfl, List.mem_singleton.mp hx, hlinked]
        rfl
      kept := by
        intro x hx
        refine ⟨_, mem_updated hx old content, ?_⟩
        split <;> rfl
      others := by
        intro x hx hother
        have hapart : x.id ≠ old.id := by
          intro hsame
          exact hother r (List.mem_singleton_self r) (hlinked.trans hsame.symm)
        have hmem := mem_updated hx old content
        rwa [if_neg hapart] at hmem }

theorem Accounts.cons {fetched : List RawJobRecord} {counts : UpsertCounts} {r : JobSourceRecord}
    {added : List JobSourceRecord}
    (h : s.Accounts s₁ sourceId [record] (UpsertCounts.add {} created changed) [r])
    (h' : s₁.Accounts s' sourceId fetched counts added) :
    s.Accounts s' sourceId (record :: fetched) (counts.add created changed) (r :: added) where
  total := by
    have hone := h.total
    have hrest := h'.total
    simp only [UpsertCounts.add, List.length_cons, List.length_nil] at hone hrest ⊢
    omega
  jobs := by
    have hone := h.jobs
    have hrest := h'.jobs
    simp only [UpsertCounts.add] at hone ⊢
    omega
  records := by
    rw [h'.records, h.records, List.append_assoc]
    rfl
  listed := by
    cases h.listed with
    | cons hlists _ => exact .cons hlists h'.listed
  linked := by
    intro x hx
    rcases List.mem_cons.mp hx with rfl | hlater
    · obtain ⟨job₁, hjob₁, hid₁⟩ := h.linked x (List.mem_singleton_self x)
      obtain ⟨job', hjob', hid'⟩ := h'.kept job₁ hjob₁
      exact ⟨job', hjob', hid'.trans hid₁⟩
    · exact h'.linked x hlater
  kept := by
    intro x hx
    obtain ⟨job₁, hjob₁, hid₁⟩ := h.kept x hx
    obtain ⟨job', hjob', hid'⟩ := h'.kept job₁ hjob₁
    exact ⟨job', hjob', hid'.trans hid₁⟩
  others := by
    intro x hx hother
    have hmiddle : x ∈ s₁.jobs := by
      refine h.others x hx ?_
      intro r' hr'
      rw [List.mem_singleton.mp hr']
      exact hother r (List.mem_cons_self ..)
    exact h'.others x hmiddle fun r' hr' => hother r' (List.mem_cons_of_mem _ hr')

end Step

end JobStore

theorem upsertFetched_accounts {lib : Stdlib} {first : FirstRow Job} {sourceId : Uuid}
    {companyName : Text} {fetched : List RawJobRecord} {s s' : JobStore} {counts : UpsertCounts}
    (h : upsertFetched lib first sourceId companyName s fetched = (s', .ok counts)) :
    ∃ added, s.Accounts s' sourceId fetched counts added := by
  induction fetched generalizing s s' counts with
  | nil =>
    cases h
    exact ⟨[], rfl, rfl, by simp, .nil, by simp, fun x hx => ⟨x, hx, rfl⟩, fun x hx _ => hx⟩
  | cons record fetched ih =>
    simp only [upsertFetched] at h
    cases hc : normalizeRecord lib record companyName with
    | error e => simp [hc] at h
    | ok c =>
      cases hupsert : s.upsert first s.jobs.freshKey sourceId c with
      | error e => simp [hc, hupsert] at h
      | ok stored =>
        obtain ⟨s₁, job, created, changed⟩ := stored
        cases hrest : upsertFetched lib first sourceId companyName s₁ fetched with
        | mk s₂ result =>
          cases result with
          | error e => simp [hc, hupsert, hrest, Except.map] at h
          | ok rest =>
            simp only [hc, hupsert, hrest, Except.map] at h
            cases h
            obtain ⟨r, hone⟩ := JobStore.upsert_accounts
              (normalizeRecord_externalId hc) hupsert
            obtain ⟨added, hadded⟩ := ih hrest
            exact ⟨r :: added, hone.cons hadded⟩

/-- The counters of a run that was finished account for every fetched record: each made, changed or
met a job of the source under the id that the column makes of its own, and no other job was
touched. -/
theorem run_counters {lib : Stdlib} {first : FirstRow Job} {clients : Nat → AsyncClient}
    {redis : Bool} {now : Time} {s : RunStore} {call : RunCall} {kind : SourceKind}
    {sourceId : Uuid} {companyName : Text} {run : IngestionRun}
    (hkind : SourceKind.ofName call.kind = some kind) (hsource : call.sourceId = some sourceId)
    (hcompany : call.companyName = some companyName) (hrun : s.getRun call.runId = some run)
    (h : (executeRun lib first clients redis now s call).2 = .ok ()) :
    ∃ run' added,
      (executeRun lib first clients redis now s call).1.getRun call.runId = some run' ∧
      run'.fetchedCount = (collectRun lib clients kind call.config).records.length ∧
      run'.normalizedCount = run'.fetchedCount ∧
      s.jobs.Accounts (executeRun lib first clients redis now s call).1.jobs sourceId
        (collectRun lib clients kind call.config).records
        ⟨run'.createdCount, run'.updatedCount, run'.duplicateCount⟩ added := by
  obtain ⟨s', counts, hstored, hs⟩ := RunStore.executeRun_returned hkind hrun h
  have hkept := RunStore.getRun_upsertRecords s call.runId lib first call
    (collectRun lib clients kind call.config).records
  rw [hstored, hrun] at hkept
  rw [hs, RunStore.getRun_unlock, RunStore.getRun_finishRun hkept]
  have hjobs : ((s'.finishRun run ((collectRun lib clients kind call.config).report counts)
      now).unlock redis call).jobs = s'.jobs := by
    unfold RunStore.unlock
    split <;> rfl
  rw [hjobs]
  simp only [RunStore.upsertRecords, hsource, hcompany] at hstored
  obtain ⟨hstores, hcounts⟩ := Prod.mk.inj hstored
  obtain ⟨added, hadded⟩ := upsertFetched_accounts (Prod.ext rfl hcounts)
  rw [← hstores]
  exact ⟨_, added, rfl, rfl, rfl, hadded⟩

def acmePosting (id : Nat) (title content : String) : Json :=
  .obj [(text "id", .int id), (text "title", .str (text title)),
    (text "absolute_url", .str (text title)), (text "content", .str (text content))]

def acmeBoard (postings : List Json) : Nat → AsyncClient := fun _ _ =>
  .response 200 none (some (.obj [(text "jobs", .arr postings)]))

/-- The store has the first posting of the board, and the run is still under way. -/
def acmeStocked : RunStore :=
  { acmeStore with
    jobs := (executeRun lengthStdlib .head (acmeBoard [acmePosting 1 "Backend" "Python"]) true 5
      acmeStore acmeCall).1.jobs }

/-- The posting is described in another way, and a second one is on the page twice. -/
def acmeChanged : Nat → AsyncClient :=
  acmeBoard [acmePosting 1 "Backend" "Python and Go", acmePosting 2 "Frontend" "Elm",
    acmePosting 2 "Frontend" "Elm"]

theorem acme_counters :
    ((executeRun lengthStdlib .head acmeChanged true 9 acmeStocked acmeCall).1.getRun 50).map
      (fun run => (run.createdCount, run.updatedCount, run.duplicateCount)) = some (1, 1, 1) ∧
    ∃ run' added,
      (executeRun lengthStdlib .head acmeChanged true 9 acmeStocked acmeCall).1.getRun 50 =
        some run' ∧
      run'.fetchedCount =
        (collectRun lengthStdlib acmeChanged .greenhouse acmeCall.config).records.length ∧
      run'.normalizedCount = run'.fetchedCount ∧
      acmeStocked.jobs.Accounts
        (executeRun lengthStdlib .head acmeChanged true 9 acmeStocked acmeCall).1.jobs 1
        (collectRun lengthStdlib acmeChanged .greenhouse acmeCall.config).records
        ⟨run'.createdCount, run'.updatedCount, run'.duplicateCount⟩ added :=
  ⟨by decide, run_counters rfl rfl rfl rfl rfl⟩

/-- A page with one posting, whose id has a blank more than the column holds. -/
def blankIdPage : HttpReply :=
  .response 200 none (some (.obj [(text "jobs", .arr [.obj [
    (text "id", .str (List.replicate 255 120 ++ [32])), (text "title", .str (text "Backend")),
    (text "absolute_url", .str (text "https://apply"))]])]))

set_option maxRecDepth 4000 in
/-- The run succeeds, and the id it was given is linked to no job. -/
theorem blank_id_not_linked :
    (executeRun emptyTextLib .head (fun _ _ => blankIdPage) true 5 acmeStore acmeCall).2 = .ok () ∧
    (collectRun emptyTextLib (fun _ _ => blankIdPage) .greenhouse acmeCall.config).records.map
      RawJobRecord.externalId = [List.replicate 255 120 ++ [32]] ∧
    (executeRun emptyTextLib .head (fun _ _ => blankIdPage) true 5 acmeStore
      acmeCall).1.jobs.records.map JobSourceRecord.sourceKey = [(1, List.replicate 255 120)] := by
  refine ⟨by decide, by decide, by decide⟩

end JobRadar
