import JobRadar.IngestionThreads
import JobRadar.JobNormalizer

namespace JobRadar

open Database Interleave Python

structure RunCall where
  runId : Uuid
  config : Dict
  kind : String
  sourceId : Option Uuid := none
  companyName : Option Text := none

/-- What a run works on: the tables of the sources with their locks, and those of the jobs. -/
structure RunStore where
  ingestion : IngestionStore
  jobs : JobStore

structure UpsertCounts where
  created : Nat := 0
  updated : Nat := 0
  duplicate : Nat := 0

def UpsertCounts.add (counts : UpsertCounts) (created changed : Bool) : UpsertCounts where
  created := counts.created + created.toNat
  updated := counts.updated + changed.toNat
  duplicate := counts.duplicate + (!created && !changed).toNat

def RunStatus.ofMalformed (malformedCount : Nat) : RunStatus :=
  if malformedCount = 0 then succeeded else partialRun

theorem RunStatus.ofMalformed_ended (malformedCount : Nat) :
    ofMalformed malformedCount ≠ running := by
  unfold ofMalformed
  split
  next => exact succeeded_ended
  next => exact partialRun_ended

def Attempt.report (fetched : Attempt) (counts : UpsertCounts) : RunReport where
  status := .ofMalformed fetched.malformedCount
  fetchedCount := fetched.records.length
  errorCount := fetched.malformedCount
  errorSummary := if fetched.malformedCount = 0 then .empty
    else .malformedRecords fetched.malformedCount
  createdCount := counts.created
  updatedCount := counts.updated
  duplicateCount := counts.duplicate
  ended := RunStatus.ofMalformed_ended fetched.malformedCount

def Attempt.failureReport (fetched : Attempt) (message : Text) : RunReport where
  status := .failed
  fetchedCount := fetched.records.length
  errorCount := 1
  errorSummary := .message message
  ended := RunStatus.failed_ended

/-- The loop over the fetched records. Each upsert commits, so what it stored before an
exception stays. -/
def upsertFetched (lib : Stdlib) (first : FirstRow Job) (sourceId : Uuid) (companyName : Text) :
    JobStore → List RawJobRecord → JobStore × Except PyError UpsertCounts
  | s, [] => (s, .ok {})
  | s, record :: records =>
    match normalizeRecord lib record companyName with
    | .error e => (s, .error e)
    | .ok c =>
      match s.upsert first s.jobs.freshKey sourceId c with
      | .error e => (s, .error (.storeError e))
      | .ok (s, _, created, changed) =>
        let (s, counts) := upsertFetched lib first sourceId companyName s records
        (s, counts.map (·.add created changed))

namespace RunStore

variable (s : RunStore)

def getRun (runId : Uuid) : Option IngestionRun := s.ingestion.db.getRun runId

def finishRun (run : IngestionRun) (report : RunReport) (now : Time) : RunStore :=
  { s with ingestion := { s.ingestion with db := s.ingestion.db.finishRun run report now } }

def upsertRecords (lib : Stdlib) (first : FirstRow Job) (call : RunCall)
    (records : List RawJobRecord) : RunStore × Except PyError UpsertCounts :=
  match call.sourceId, call.companyName with
  | some sourceId, some companyName =>
    let (jobs, counts) := upsertFetched lib first sourceId companyName s.jobs records
    ({ s with jobs := jobs }, counts)
  | _, _ => (s, .ok {})

/-- The `try` block, once the adapter has ended. -/
def storeFetched (lib : Stdlib) (first : FirstRow Job) (now : Time) (call : RunCall)
    (fetched : Attempt) : RunStore × Except PyError Unit :=
  match fetched.ended with
  | .error e => (s, .error e)
  | .ok () =>
    match s.getRun call.runId with
    | none => (s, .ok ())
    | some run =>
      match s.upsertRecords lib first call fetched.records with
      | (s, .error e) => (s, .error e)
      | (s, .ok counts) => (s.finishRun run (fetched.report counts) now, .ok ())

/-- The `except AdapterError` block. -/
def handleError (now : Time) (call : RunCall) (fetched : Attempt) :
    Except PyError Unit → RunStore
  | .error (.adapterError message _) =>
    match s.getRun call.runId with
    | none => s
    | some run => s.finishRun run (fetched.failureReport message) now
  | _ => s

/-- The `finally` block. -/
def unlock (redis : Bool) (call : RunCall) : RunStore :=
  match redis, call.sourceId with
  | true, some sourceId => { s with ingestion := s.ingestion.deleteLock sourceId }
  | _, _ => s

end RunStore

/-- `collect`, attempt after attempt. -/
def collectRun (lib : Stdlib) (clients : Nat → AsyncClient) (kind : SourceKind) (config : Dict) :
    Attempt :=
  withRetries (fun attempt => (kind.adapter lib).fetch lib config (clients attempt)) 0 3

def executeRun (lib : Stdlib) (first : FirstRow Job) (clients : Nat → AsyncClient) (redis : Bool)
    (now : Time) (s : RunStore) (call : RunCall) : RunStore × Except PyError Unit :=
  match SourceKind.ofName call.kind with
  | none => (s, .error .keyError)
  | some kind =>
    let fetched := collectRun lib clients kind call.config
    let (s, result) := s.storeFetched lib first now call fetched
    ((s.handleError now call fetched result).unlock redis call, result)

theorem SourceKind.ofName_isSome_iff (kind : String) (redis : Bool) :
    (ofName kind).isSome ↔ kind ∈ (buildIngestionService redis).adapters := by
  simp only [buildIngestionService, List.mem_cons, List.not_mem_nil, or_false]
  constructor
  · intro h
    unfold ofName at h
    split at h
    next => exact Or.inl rfl
    next => exact Or.inr rfl
    next => cases h
  · rintro (rfl | rfl) <;> rfl

section Worker

variable {lib : Stdlib} {first : FirstRow Job} {clients : Nat → AsyncClient} {now : Time}
  {s : RunStore} {call : RunCall} {kind : SourceKind} {sourceId : Uuid}

theorem RunStore.handleError_storeFetched (s : RunStore) (lib : Stdlib) (first : FirstRow Job)
    (now : Time) (call : RunCall) (fetched : Attempt) :
    ((s.storeFetched lib first now call fetched).1.handleError now call fetched
        (s.storeFetched lib first now call fetched).2).ingestion = s.ingestion ∨
      ∃ run report, s.getRun call.runId = some run ∧
        ((s.storeFetched lib first now call fetched).1.handleError now call fetched
          (s.storeFetched lib first now call fetched).2).ingestion =
            { s.ingestion with db := s.ingestion.db.finishRun run report now } := by
  have hupserts : (s.upsertRecords lib first call fetched.records).1.ingestion = s.ingestion := by
    unfold upsertRecords
    split <;> rfl
  have hhandled : ∀ (s' : RunStore) (result : Except PyError Unit), s'.ingestion = s.ingestion →
      (s'.handleError now call fetched result).ingestion = s.ingestion ∨
        ∃ run report, s.getRun call.runId = some run ∧
          (s'.handleError now call fetched result).ingestion =
            { s.ingestion with db := s.ingestion.db.finishRun run report now } := by
    intro s' result hs'
    unfold handleError
    split
    next message _ =>
      cases hrun : s'.getRun call.runId with
      | none => exact Or.inl hs'
      | some run =>
        refine Or.inr ⟨run, fetched.failureReport message, ?_, ?_⟩
        · rw [← hrun, getRun, getRun, hs']
        · simp only [finishRun, hs']
    next => exact Or.inl hs'
  unfold storeFetched
  split
  next e _ => exact hhandled s (.error e) rfl
  next =>
    split
    next => exact hhandled s (.ok ()) rfl
    next run hrun =>
      split
      next s' e hstored =>
        rw [hstored] at hupserts
        exact hhandled s' (.error e) hupserts
      next s' counts hstored =>
        rw [hstored] at hupserts
        have hdb : s'.ingestion = s.ingestion := hupserts
        refine Or.inr ⟨run, fetched.report counts, hrun, ?_⟩
        simp only [handleError, finishRun, hdb]

theorem executeRun_worker (hkind : SourceKind.ofName call.kind = some kind)
    (hsource : call.sourceId = some sourceId) : ∃ report,
      Solo workerStep (s.ingestion, ⟨call.runId, sourceId, report, .collected⟩)
        ((executeRun lib first clients true now s call).1.ingestion,
          ⟨call.runId, sourceId, report, .ended⟩) := by
  have hunlock : ∀ s' : RunStore, (s'.unlock true call).ingestion =
      s'.ingestion.deleteLock sourceId := by
    intro s'
    simp only [RunStore.unlock, hsource]
  simp only [executeRun, hkind, hunlock]
  rcases s.handleError_storeFetched lib first now call (collectRun lib clients kind call.config)
    with hkept | ⟨run, report, hrun, hdb⟩
  · refine ⟨none, .head ⟨now, rfl⟩ (.single ⟨now, ?_⟩)⟩
    rw [hkept]
    rfl
  · refine ⟨some report, .head (b := (s.ingestion,
      ⟨call.runId, sourceId, some report, .loaded run report⟩)) ⟨now, ?_⟩
      (.head ⟨now, rfl⟩ (.single ⟨now, ?_⟩))⟩
    · have hloaded : s.ingestion.db.getRun call.runId = some run := hrun
      simp only [workerStep, hloaded, Worker.at]
    · rw [hdb]
      rfl

end Worker

end JobRadar
