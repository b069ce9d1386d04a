import JobRadar.AuthModel
import JobRadar.PythonJson
import Mathlib.Data.List.MinMax

namespace JobRadar

open Database Python

structure Source where
  id : Uuid
  userId : Uuid
  kind : String
  name : Text
  config : Dict

inductive RunStatus
  | running
  | succeeded
  | partialRun
  | failed
  deriving DecidableEq

theorem RunStatus.succeeded_ended : succeeded ≠ running := by decide

theorem RunStatus.partialRun_ended : partialRun ≠ running := by decide

theorem RunStatus.failed_ended : failed ≠ running := by decide

/-- The `error_summary` column: `{}`, `{"malformed_records": n}` or `{"message": text}`. -/
inductive ErrorSummary
  | empty
  | malformedRecords (count : Nat)
  | message (text : Text)
  deriving DecidableEq

structure IngestionRun where
  id : Uuid
  sourceId : Uuid
  status : RunStatus := .running
  startedAt : Time
  completedAt : Option Time := none
  fetchedCount : Nat := 0
  normalizedCount : Nat := 0
  createdCount : Nat := 0
  updatedCount : Nat := 0
  duplicateCount : Nat := 0
  errorCount : Nat := 0
  errorSummary : ErrorSummary := .empty
  deriving DecidableEq

/-- The arguments of `finish_run`. No caller passes the status of a run under way. -/
structure RunReport where
  status : RunStatus
  fetchedCount : Nat
  errorCount : Nat := 0
  errorSummary : ErrorSummary := .empty
  createdCount : Nat := 0
  updatedCount : Nat := 0
  duplicateCount : Nat := 0
  ended : status ≠ .running

def IngestionRun.finish (run : IngestionRun) (report : RunReport) (now : Time) : IngestionRun :=
  { run with
    status := report.status
    completedAt := some now
    fetchedCount := report.fetchedCount
    normalizedCount := report.fetchedCount
    errorCount := report.errorCount
    errorSummary := report.errorSummary
    createdCount := report.createdCount
    updatedCount := report.updatedCount
    duplicateCount := report.duplicateCount }

@[simp] theorem IngestionRun.finish_id (run : IngestionRun) (report : RunReport) (now : Time) :
    (run.finish report now).id = run.id := rfl

def IngestionRun.Active (run : IngestionRun) (sourceId : Uuid) : Prop :=
  run.sourceId = sourceId ∧ run.status = .running

instance (run : IngestionRun) (sourceId : Uuid) : Decidable (run.Active sourceId) :=
  inferInstanceAs (Decidable (_ ∧ _))

theorem IngestionRun.not_active_finish (run : IngestionRun) (report : RunReport) (now : Time)
    (sourceId : Uuid) : ¬(run.finish report now).Active sourceId := by
  rintro ⟨_, hs⟩
  exact report.ended hs

structure IngestionDb where
  sources : Table Source.id
  runs : Table IngestionRun.id

inductive IngestionError
  | sourceNotFound
  | unsupportedSourceKind
  | ingestionAlreadyRunning
  | dataConflict
  deriving DecidableEq

namespace IngestionDb

variable (db : IngestionDb)

def get (sourceId : Uuid) : Option Source := db.sources.find sourceId

def getForUser (sourceId userId : Uuid) : Option Source :=
  (db.get sourceId).filter fun source => source.userId = userId

def getActiveRun (sourceId : Uuid) : Option IngestionRun :=
  (db.runs.rows.filter fun run => run.Active sourceId).argmax IngestionRun.startedAt

def getRun (runId : Uuid) : Option IngestionRun := db.runs.find runId

def createRun (runId sourceId : Uuid) (now : Time) :
    Except IngestionError (IngestionDb × IngestionRun) :=
  let run : IngestionRun := { id := runId, sourceId := sourceId, startedAt := now }
  match db.runs.insert run with
  | none => .error .dataConflict
  | some runs => .ok ({ db with runs := runs }, run)

def finishRun (run : IngestionRun) (report : RunReport) (now : Time) : IngestionDb :=
  { db with runs := db.runs.updateWhere (·.id = run.id) (·.finish report now) fun _ => rfl }

variable {db} {db' : IngestionDb} {runId sourceId : Uuid} {now : Time} {run : IngestionRun}
  {report : RunReport}

theorem getActiveRun_eq_none_iff :
    db.getActiveRun sourceId = none ↔ ∀ run ∈ db.runs, ¬run.Active sourceId := by
  simp [getActiveRun, List.argmax_eq_none, List.filter_eq_nil_iff, Table.mem_rows]

theorem getActiveRun_active (h : db.getActiveRun sourceId = some run) :
    run ∈ db.runs ∧ run.Active sourceId := by
  have hm := List.argmax_mem h
  simpa [Table.mem_rows] using hm

theorem createRun_ok (h : db.createRun runId sourceId now = .ok (db', run)) :
    run = { id := runId, sourceId := sourceId, startedAt := now } ∧
      db.getRun runId = none ∧ ∀ x, x ∈ db'.runs ↔ x ∈ db.runs ∨ x = run := by
  simp only [createRun] at h
  split at h
  next => cases h
  next runs hi =>
    cases h
    refine ⟨rfl, ?_, fun x => Table.mem_of_insert hi⟩
    exact Table.find_eq_none_iff.mpr fun old ho => Table.key_ne_of_insert hi ho

theorem createRun_error {e : IngestionError} (h : db.createRun runId sourceId now = .error e) :
    db.getRun runId ≠ none := by
  simp only [createRun] at h
  split at h
  next hi =>
    obtain ⟨old, ho, hk⟩ := Table.insert_eq_none_iff.mp hi
    intro hn
    exact Table.find_eq_none_iff.mp hn old ho hk
  next => cases h

theorem mem_finishRun {x : IngestionRun} : x ∈ (db.finishRun run report now).runs ↔
    ∃ old ∈ db.runs, (if old.id = run.id then old.finish report now else old) = x :=
  Table.mem_updateWhere (fun old => old.finish_id report now)

end IngestionDb

end JobRadar
