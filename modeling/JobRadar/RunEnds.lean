import JobRadar.ExecuteRun
import JobRadar.JobAcceptance
import JobRadar.JobDeduplication
import JobRadar.RunAttempts

namespace JobRadar

open Database Interleave Python Stages

/-- Each listing in turn is legible and taken by the database as it is by then. -/
def JobStore.TakesAll (lib : Stdlib) (first : FirstRow Job) (sourceId : Uuid) (companyName : Text) :
    JobStore → List RawJobRecord → Prop
  | _, [] => True
  | s, record :: records =>
    record.Legible ∧ ∀ c, normalizeRecord lib record companyName = .ok c →
      s.Accepts first sourceId c ∧
        TakesAll lib first sourceId companyName (s.upsertPosting first ⟨sourceId, c⟩) records

/-- The records are taken, if the run is to store them. -/
def RunStore.Takes (s : RunStore) (lib : Stdlib) (first : FirstRow Job) (call : RunCall)
    (records : List RawJobRecord) : Prop :=
  ∀ sourceId companyName, call.sourceId = some sourceId → call.companyName = some companyName →
    s.jobs.TakesAll lib first sourceId companyName records

/-- The run has one of the three statuses of an end. -/
def RunStore.RunEnded (s : RunStore) (runId : Uuid) : Prop :=
  ∃ run, s.getRun runId = some run ∧
    (run.status = .succeeded ∨ run.status = .partialRun ∨ run.status = .failed)

section Records

variable {lib : Stdlib} {first : FirstRow Job} {sourceId : Uuid} {companyName : Text}

theorem upsertFetched_ok_iff {s : JobStore} {records : List RawJobRecord} :
    (∃ counts, (upsertFetched lib first sourceId companyName s records).2 = .ok counts) ↔
      s.TakesAll lib first sourceId companyName records := by
  induction records generalizing s with
  | nil => simp [upsertFetched, JobStore.TakesAll]
  | cons record records ih =>
    simp only [upsertFetched, JobStore.TakesAll, legible_iff lib companyName]
    cases hc : normalizeRecord lib record companyName with
    | error e => simp
    | ok c =>
      have haccepts := JobStore.accepts_iff s first sourceId (normalizeRecord_normalized hc)
      cases hr : s.upsert first s.jobs.freshKey sourceId c with
      | error e => simp [haccepts, hr]
      | ok r =>
        obtain ⟨s', job, created, changed⟩ := r
        have hposting : s.upsertPosting first ⟨sourceId, c⟩ = s' := by
          simp only [JobStore.upsertPosting, hr]
        have haccepted : s.Accepts first sourceId c := haccepts.mpr ⟨_, hr⟩
        have hcounts : (∃ counts, Except.map (·.add created changed)
            (upsertFetched lib first sourceId companyName s' records).2 = .ok counts) ↔
            ∃ counts, (upsertFetched lib first sourceId companyName s' records).2 = .ok counts := by
          cases (upsertFetched lib first sourceId companyName s' records).2 <;> simp [Except.map]
        simpa [hr, haccepted, hposting, ← ih] using hcounts

theorem upsertFetched_error {s : JobStore} {records : List RawJobRecord} {e : PyError}
    (h : (upsertFetched lib first sourceId companyName s records).2 = .error e) :
    ¬e.isAdapterError := by
  induction records generalizing s with
  | nil => cases h
  | cons record records ih =>
    simp only [upsertFetched] at h
    split at h
    next e' hnormalize =>
      cases h
      rcases normalizeRecord_error hnormalize with rfl | rfl <;> simp [PyError.isAdapterError]
    next c hc =>
      split at h
      next => cases h; simp [PyError.isAdapterError]
      next s' _ _ _ _ =>
        cases hrecords : (upsertFetched lib first sourceId companyName s' records).2 with
        | error e' =>
          rw [hrecords] at h
          cases h
          exact ih hrecords
        | ok counts =>
          rw [hrecords] at h
          cases h

theorem upsertRecords_ok_iff {s : RunStore} {call : RunCall} {records : List RawJobRecord} :
    (∃ counts, (s.upsertRecords lib first call records).2 = .ok counts) ↔
      s.Takes lib first call records := by
  simp only [RunStore.upsertRecords, RunStore.Takes]
  cases call.sourceId with
  | none => simp
  | some sourceId =>
    cases call.companyName with
    | none => simp
    | some companyName => simp [← upsertFetched_ok_iff]

theorem upsertRecords_error {s : RunStore} {call : RunCall} {records : List RawJobRecord}
    {e : PyError} (h : (s.upsertRecords lib first call records).2 = .error e) :
    ¬e.isAdapterError := by
  unfold RunStore.upsertRecords at h
  split at h
  next => exact upsertFetched_error h
  next => cases h

end Records

namespace RunStore

variable {s : RunStore} {runId : Uuid} {run : IngestionRun} {now : Time}

theorem runEnded_iff (h : s.getRun runId = some run) :
    s.RunEnded runId ↔ run.status ≠ .running := by
  simp only [RunEnded, h, Option.some.injEq, exists_eq_left']
  cases run.status <;> simp

theorem getRun_finishRun (h : s.getRun runId = some run) (report : RunReport) :
    (s.finishRun run report now).getRun runId = some (run.finish report now) := by
  have hfind := Table.find_updateWhere s.ingestion.db.runs (·.id = run.id) (·.finish report now)
    (fun _ => rfl) runId
  rw [show s.ingestion.db.runs.find runId = some run from h, Option.map_some, if_pos rfl] at hfind
  exact hfind

@[simp] theorem getRun_unlock (redis : Bool) (call : RunCall) :
    (s.unlock redis call).getRun runId = s.getRun runId := by
  unfold unlock
  split <;> rfl

@[simp] theorem getRun_upsertRecords (s : RunStore) (runId : Uuid) (lib : Stdlib)
    (first : FirstRow Job) (call : RunCall) (records : List RawJobRecord) :
    (s.upsertRecords lib first call records).1.getRun runId = s.getRun runId := by
  unfold upsertRecords
  split <;> rfl

/-- The run is carried to its end: the adapter is done or has failed in a way that is recorded,
and what it yielded is taken. -/
def Ends (s : RunStore) (lib : Stdlib) (first : FirstRow Job) (call : RunCall)
    (fetched : Attempt) : Prop :=
  ¬fetched.Escaped ∧ (fetched.Completed → s.Takes lib first call fetched.records)

theorem executeRun_getRun (lib : Stdlib) (first : FirstRow Job) (clients : Nat → AsyncClient)
    (redis : Bool) (now : Time) {call : RunCall} {kind : SourceKind}
    (hkind : SourceKind.ofName call.kind = some kind) (hrun : s.getRun call.runId = some run) :
    (s.Ends lib first call (collectRun lib clients kind call.config) ∧ ∃ report,
      (executeRun lib first clients redis now s call).1.getRun call.runId =
        some (run.finish report now)) ∨
    (¬s.Ends lib first call (collectRun lib clients kind call.config) ∧
      (executeRun lib first clients redis now s call).1.getRun call.runId = some run) := by
  simp only [executeRun, hkind, getRun_unlock]
  generalize collectRun lib clients kind call.config = fetched
  unfold Ends
  cases hended : fetched.ended with
  | error e =>
    have hcompleted : ¬fetched.Completed := by simp [Attempt.Completed, hended]
    simp only [storeFetched, hended, hcompleted, false_implies, and_true]
    by_cases hadapter : e.isAdapterError
    · have hescaped : ¬fetched.Escaped := by
        simp [Attempt.Escaped, hended, hadapter]
      cases e with
      | adapterError message retryable =>
        simp only [handleError, hrun]
        exact Or.inl ⟨hescaped, _, getRun_finishRun hrun _⟩
      | _ => simp [PyError.isAdapterError] at hadapter
    · have hescaped : fetched.Escaped := ⟨e, hended, hadapter⟩
      have hkept : s.handleError now call fetched (.error e) = s := by
        cases e <;> simp_all [handleError, PyError.isAdapterError]
      rw [hkept]
      exact Or.inr ⟨not_not_intro hescaped, hrun⟩
  | ok _ =>
    have hescaped : ¬fetched.Escaped := by simp [Attempt.Escaped, hended]
    have hcompleted : fetched.Completed := hended
    simp only [storeFetched, hended, hrun, hescaped, hcompleted, not_false_eq_true, true_and,
      true_implies, ← upsertRecords_ok_iff]
    have hkept := getRun_upsertRecords s call.runId lib first call fetched.records
    rw [hrun] at hkept
    cases hstored : s.upsertRecords lib first call fetched.records with
    | mk s' result =>
      rw [hstored] at hkept
      cases result with
      | error e =>
        have hescapes : ¬e.isAdapterError := upsertRecords_error (by rw [hstored])
        have hkept' : s'.handleError now call fetched (.error e) = s' := by
          cases e <;> simp_all [handleError, PyError.isAdapterError]
        rw [hkept']
        exact Or.inr ⟨by simp, hkept⟩
      | ok counts => exact Or.inl ⟨⟨counts, rfl⟩, _, getRun_finishRun hkept _⟩

theorem executeRun_getRun_other (lib : Stdlib) (first : FirstRow Job) (clients : Nat → AsyncClient)
    (redis : Bool) (now : Time) {call : RunCall} (hother : call.runId ≠ runId) :
    (executeRun lib first clients redis now s call).1.getRun runId = s.getRun runId := by
  unfold executeRun
  split
  next => rfl
  next kind _ =>
    simp only [getRun_unlock]
    rcases s.handleError_storeFetched lib first now call (collectRun lib clients kind call.config)
      with hkept | ⟨run, report, hrun, hdb⟩
    · rw [getRun, getRun, hkept]
    · have hid : run.id = call.runId := (Table.find_eq_some_iff.mp hrun).2
      have hfind := Table.find_updateWhere s.ingestion.db.runs (·.id = run.id)
        (·.finish report now) (fun _ => rfl) runId
      rw [getRun, getRun, hdb]
      refine hfind.trans ?_
      cases hrow : s.ingestion.db.runs.find runId with
      | none => exact hrow.symm
      | some row =>
        have hrow' : row.id = runId := (Table.find_eq_some_iff.mp hrow).2
        rw [Option.map_some, if_neg (by rw [hrow', hid]; exact fun h => hother h.symm)]
        exact hrow.symm

theorem executeRun_returned {lib : Stdlib} {first : FirstRow Job} {clients : Nat → AsyncClient}
    {redis : Bool} {call : RunCall} {kind : SourceKind}
    (hkind : SourceKind.ofName call.kind = some kind) (hrun : s.getRun call.runId = some run)
    (h : (executeRun lib first clients redis now s call).2 = .ok ()) :
    ∃ s' counts, s.upsertRecords lib first call
        (collectRun lib clients kind call.config).records = (s', .ok counts) ∧
      (executeRun lib first clients redis now s call).1 =
        (s'.finishRun run ((collectRun lib clients kind call.config).report counts) now).unlock
          redis call := by
  simp only [executeRun, hkind] at h ⊢
  generalize collectRun lib clients kind call.config = fetched at h ⊢
  cases hended : fetched.ended with
  | error e => simp [storeFetched, hended] at h
  | ok _ =>
    simp only [storeFetched, hended, hrun] at h ⊢
    split at h
    next => cases h
    next s' counts hstored => exact ⟨s', counts, hstored, rfl⟩

theorem executeRun_ended_iff {lib : Stdlib} {first : FirstRow Job} {clients : Nat → AsyncClient}
    {redis : Bool} {call : RunCall} {kind : SourceKind}
    (hkind : SourceKind.ofName call.kind = some kind) (hrun : s.getRun call.runId = some run) :
    (executeRun lib first clients redis now s call).1.RunEnded call.runId ↔
      run.status ≠ .running ∨
        s.Ends lib first call (collectRun lib clients kind call.config) := by
  rcases executeRun_getRun lib first clients redis now hkind hrun with
    ⟨hends, report, hnew⟩ | ⟨hends, hnew⟩
  · rw [runEnded_iff hnew]
    simp only [hends, or_true, iff_true]
    exact report.ended
  · rw [runEnded_iff hnew]
    simp only [hends, or_false]

end RunStore

/-- The records of the attempts up to attempt `a`. -/
def fetchedUpTo (lib : Stdlib) (clients : Nat → AsyncClient) (kind : SourceKind) (config : Dict)
    (a : Nat) : List RawJobRecord :=
  (List.range (a + 1)).flatMap fun b => ((kind.adapter lib).fetch lib config (clients b)).records

theorem collectRun_iff {lib : Stdlib} {clients : Nat → AsyncClient} {kind : SourceKind}
    {config : Dict} {P : List RawJobRecord → Prop} :
    (¬(collectRun lib clients kind config).Escaped ∧
      ((collectRun lib clients kind config).Completed →
        P (collectRun lib clients kind config).records)) ↔
    ∀ a < 3, Reached (fun b => ((kind.adapter lib).fetch lib config (clients b)).Retries) a →
      ¬((kind.adapter lib).fetch lib config (clients a)).Escaped ∧
        (((kind.adapter lib).fetch lib config (clients a)).Completed →
          P (fetchedUpTo lib clients kind config a)) := by
  obtain ⟨i, hlast⟩ := exists_last
    (fun b => ((kind.adapter lib).fetch lib config (clients b)).Retries) (Nat.zero_lt_succ 2)
  rw [hlast.forall_iff fun a hretries => ⟨hretries.not_escaped,
    fun hcompleted => absurd hcompleted hretries.not_completed⟩]
  obtain ⟨hended, hrecords⟩ := withRetries_last hlast
  simp only [collectRun, Attempt.Escaped, Attempt.Completed, hended, hrecords, fetchedUpTo]

/-- The run meets only what it can deal with. `reply a p` is what attempt `a` gets for page `p`:
it asks for a page once every page before it was read and had items, and it comes about once
every attempt before it met an error to try again after. -/
structure RunStore.Manages (s : RunStore) (lib : Stdlib) (first : FirstRow Job) (call : RunCall)
    (clients : Nat → AsyncClient) (kind : SourceKind) (pages : Nat)
    (reply : Nat → Nat → HttpReply) : Prop where
  replies : ∀ a < 3, Reached (fun b => ∃ p < pages, Reached (fun q => kind.Continues (reply b q)) p ∧
      (reply b p).Retryable) a →
    ∀ p < pages, Reached (fun q => kind.Continues (reply a q)) p → kind.Handles (reply a p)
  records : ∀ a < 3, Reached (fun b => ∃ p < pages, Reached (fun q => kind.Continues (reply b q)) p ∧
      (reply b p).Retryable) a →
    (∀ p < pages, Reached (fun q => kind.Continues (reply a q)) p →
      ∃ items, kind.Delivers (reply a p) items) →
    s.Takes lib first call (fetchedUpTo lib clients kind call.config a)

theorem SourceKind.Configured.manages_iff {s : RunStore} {lib : Stdlib} {first : FirstRow Job}
    {clients : Nat → AsyncClient} {call : RunCall} {kind : SourceKind} {url : Text} {pages : Nat}
    (h : kind.Configured lib call.config url pages) :
    (¬(collectRun lib clients kind call.config).Escaped ∧
      ((collectRun lib clients kind call.config).Completed →
        s.Takes lib first call (collectRun lib clients kind call.config).records)) ↔
    s.Manages lib first call clients kind pages
      fun a p => clients a ((kind.adapter lib).pageUrl url p) := by
  have hended := fun a => fetch_ended (clients a) h
  have hretries : (fun b => ((kind.adapter lib).fetch lib call.config (clients b)).Retries) =
      fun b => ∃ p < pages, Reached (fun q => kind.Continues
        (clients b ((kind.adapter lib).pageUrl url q))) p ∧
        (clients b ((kind.adapter lib).pageUrl url p)).Retryable := by
    funext b
    exact propext (hended b).2.2
  rw [collectRun_iff (P := s.Takes lib first call), hretries]
  constructor
  · intro hall
    refine ⟨fun a ha hreached => (hended a).2.1.mp (hall a ha hreached).1, ?_⟩
    intro a ha hreached hdelivers
    exact (hall a ha hreached).2 ((hended a).1.mpr hdelivers)
  · rintro ⟨hreplies, hrecords⟩ a ha hreached
    refine ⟨(hended a).2.1.mpr (hreplies a ha hreached), ?_⟩
    intro hcompleted
    exact hrecords a ha hreached ((hended a).1.mp hcompleted)

theorem SourceKind.ends_iff {s : RunStore} {lib : Stdlib} {first : FirstRow Job}
    {clients : Nat → AsyncClient} {call : RunCall} {kind : SourceKind} :
    s.Ends lib first call (collectRun lib clients kind call.config) ↔
      ∃ url pages, kind.Configured lib call.config url pages ∧
        s.Manages lib first call clients kind pages
          fun a p => clients a ((kind.adapter lib).pageUrl url p) := by
  constructor
  · intro hends
    by_cases hconfigured : ∃ url pages, kind.Configured lib call.config url pages
    · obtain ⟨url, pages, h⟩ := hconfigured
      exact ⟨url, pages, h, h.manages_iff.mp hends⟩
    · have hfirst := collectRun_iff.mp hends 0 (by omega) (fun b hb => by omega)
      exact absurd (fetch_not_configured hconfigured) hfirst.1
  · rintro ⟨url, pages, h, hmanages⟩
    exact h.manages_iff.mpr hmanages

/-- An existing run has ended after `execute_run` exactly when it had ended before, or its
source has one of the two kinds, a config that can be read, and answers and listings that the
adapter, the normaliser and the database can deal with. -/
theorem run_ended_iff (lib : Stdlib) (first : FirstRow Job) (clients : Nat → AsyncClient)
    (redis : Bool) (now : Time) (s : RunStore) (call : RunCall) {run : IngestionRun}
    (hrun : s.getRun call.runId = some run) :
    (executeRun lib first clients redis now s call).1.RunEnded call.runId ↔
      run.status ≠ .running ∨ ∃ kind url pages, SourceKind.ofName call.kind = some kind ∧
        kind.Configured lib call.config url pages ∧
        s.Manages lib first call clients kind pages
          fun a p => clients a ((kind.adapter lib).pageUrl url p) := by
  cases hkind : SourceKind.ofName call.kind with
  | none =>
    simp only [executeRun, hkind, RunStore.runEnded_iff hrun]
    simp
  | some kind =>
    rw [RunStore.executeRun_ended_iff hkind hrun]
    apply or_congr_right
    rw [SourceKind.ends_iff]
    constructor
    · rintro ⟨url, pages, hends⟩
      exact ⟨kind, url, pages, rfl, hends⟩
    · rintro ⟨kind', url, pages, hkind', hends⟩
      obtain rfl : kind = kind' := Option.some.inj hkind'
      exact ⟨url, pages, hends⟩

/-- The standard library on texts that are empty: their digest is SHA-256's. -/
def emptyTextLib : Stdlib where
  casefold := .ascii
  repr _ := []
  sha256 _ := text "e3b0c44298fc1c149afbf4c8996fb92427ae41e4649b934ca495991b7852b855"
  sha256_length _ := by decide
  sha256_ascii _ := by decide

/-- Run 50 of source 1, which is under way. -/
def acmeStore : RunStore where
  ingestion := { db := ⟨⟨[⟨1, 7, "greenhouse", text "Acme", [(text "board", .str (text "acme"))]⟩],
    by simp⟩, ⟨[{ id := 50, sourceId := 1, startedAt := 1 }], by simp⟩⟩ }
  jobs := .empty

def acmeCall : RunCall where
  runId := 50
  config := [(text "board", .str (text "acme"))]
  kind := "greenhouse"
  sourceId := some 1
  companyName := some (text "Acme")

/-- A page with one posting under the given link, and an item without id and title. -/
def acmePage (link : Json) : HttpReply :=
  .response 200 none (some (.obj [(text "jobs", .arr [.obj [(text "id", .int 1),
    (text "title", .str (text "Backend")), (text "absolute_url", link)], .obj []])]))

theorem acme_run_ended : (executeRun emptyTextLib .head
    (fun _ _ => acmePage (.str (text "https://apply"))) true 5 acmeStore acmeCall).1.RunEnded
      50 := by
  refine (run_ended_iff emptyTextLib .head _ true 5 acmeStore acmeCall rfl).mpr (Or.inr
    ⟨.greenhouse, text "https://boards-api.greenhouse.io/v1/boards/acme/jobs", 1, rfl,
      ⟨⟨.str (text "acme"), rfl, fun _ => rfl⟩, rfl, fun _ => rfl⟩, ?_, ?_⟩)
  · intro a _ _ p _ _
    refine Or.inr ⟨_, _, ⟨200, none, rfl, by decide⟩, ⟨_, rfl, Or.inl rfl⟩, ?_⟩
    intro item hitem
    rcases List.mem_pair.mp hitem with rfl | rfl <;>
      exact ⟨_, rfl, fun hlocation => absurd hlocation (by decide)⟩
  · intro a _ hreached _ sourceId companyName hsource hcompany
    cases a with
    | succ a =>
      obtain ⟨_, _, _, hretryable⟩ := hreached 0 (by omega)
      revert hretryable
      simp [acmePage, HttpReply.Retryable]
    | zero =>
      cases hsource
      cases hcompany
      refine ⟨⟨⟨_, rfl⟩, fun hdescription => absurd hdescription (by decide)⟩, ?_⟩
      intro c hc
      cases hc
      refine ⟨⟨⟨by decide, by decide⟩, ⟨_, rfl, by decide⟩, rfl, fun _ => ?_, ?_⟩, trivial⟩
      · exact ⟨⟨⟨by decide, by decide⟩, by decide, rfl⟩, ⟨by decide, by decide⟩, by decide,
          by decide⟩
      · intro job hjob
        cases hjob

theorem execute_run_leaves_running :
    ¬(executeRun emptyTextLib .head (fun _ _ => .response 200 none none) true 5 acmeStore
      acmeCall).1.RunEnded 50 ∧
    ¬(executeRun emptyTextLib .head (fun _ _ => acmePage .null) true 5 acmeStore
      acmeCall).1.RunEnded 50 := by
  have hrunning : ∀ s : RunStore, (s.getRun 50).map IngestionRun.status = some .running →
      ¬s.RunEnded 50 := by
    rintro s hs ⟨run, hrun, hended⟩
    rw [hrun, Option.map_some, Option.some.injEq] at hs
    rw [hs] at hended
    revert hended
    decide
  exact ⟨hrunning _ (by decide), hrunning _ (by decide)⟩

end JobRadar
