import JobRadar.IngestionModel
import JobRadar.Interleave

namespace JobRadar

open Database Interleave

/-- What the processes share: the committed tables, and the Redis keys
`ingestion:source:{id}` with the instants at which they expire. -/
structure IngestionStore where
  db : IngestionDb
  locks : List (Uuid × Time) := []

namespace IngestionStore

variable (s : IngestionStore)

def lockLife : Time := 900 * 1000000

/-- `SET ingestion:source:{id} 1 NX EX 900`. -/
def setLock (sourceId : Uuid) (now : Time) : Option IngestionStore :=
  if s.locks.any fun lock => lock.1 = sourceId ∧ now < lock.2 then none
  else some { s with locks := (sourceId, now + lockLife) :: s.locks }

def deleteLock (sourceId : Uuid) : IngestionStore :=
  { s with locks := s.locks.filter fun lock => lock.1 ≠ sourceId }

@[simp] theorem deleteLock_db (sourceId : Uuid) : (s.deleteLock sourceId).db = s.db := rfl

/-- The lock of the source is set and has not expired. -/
def LockHeld (sourceId : Uuid) (now : Time) : Prop :=
  ∃ lock ∈ s.locks, lock.1 = sourceId ∧ now < lock.2

instance (sourceId : Uuid) (now : Time) : Decidable (s.LockHeld sourceId now) :=
  inferInstanceAs (Decidable (∃ lock ∈ s.locks, _))

variable {s} in
theorem setLock_eq_none_iff {sourceId : Uuid} {now : Time} :
    s.setLock sourceId now = none ↔ s.LockHeld sourceId now := by
  unfold setLock LockHeld
  split
  next h =>
    obtain ⟨lock, hmem, hlock⟩ := List.any_eq_true.mp h
    exact ⟨fun _ => ⟨lock, hmem, of_decide_eq_true hlock⟩, fun _ => rfl⟩
  next h =>
    refine ⟨(fun hnone => by cases hnone), ?_⟩
    rintro ⟨lock, hmem, hlock⟩
    exact absurd (List.any_eq_true.mpr ⟨lock, hmem, decide_eq_true hlock⟩) h

variable {s} in
theorem lockHeld_setLock {sourceId other : Uuid} {now now' : Time} {s' : IngestionStore}
    (h : s.setLock sourceId now = some s') :
    s'.LockHeld other now' ↔ sourceId = other ∧ now' < now + lockLife ∨ s.LockHeld other now' := by
  unfold setLock at h
  split at h
  next => cases h
  next => cases h; simp [LockHeld]

variable {s} in
theorem setLock_db {sourceId : Uuid} {now : Time} {s' : IngestionStore}
    (h : s.setLock sourceId now = some s') : s'.db = s.db := by
  unfold setLock at h
  split at h
  next => cases h
  next => cases h; rfl

end IngestionStore

structure IngestionService where
  adapters : List String
  redis : Bool

def buildIngestionService (redis : Bool) : IngestionService :=
  ⟨["greenhouse", "lever"], redis⟩

/-- The service of the API route, which has no Redis. -/
def getIngestionService : IngestionService := buildIngestionService false

/-- The source a call asks for, as `start_run` looks it up. -/
def IngestionDb.requested (db : IngestionDb) (sourceId : Uuid) : Option Uuid → Option Source
  | some userId => db.getForUser sourceId userId
  | none => db.get sourceId

def IngestionStore.insertRun (s : IngestionStore) (sourceId runId : Uuid) (now : Time) :
    IngestionStore × Except IngestionError (IngestionRun × Bool) :=
  match s.db.createRun runId sourceId now with
  | .error e => (s, .error e)
  | .ok (db, run) => ({ s with db := db }, .ok (run, false))

/-- `start_run` as one step: the run, and whether it was already under way. -/
def startRun (service : IngestionService) (s : IngestionStore) (sourceId : Uuid)
    (userId : Option Uuid) (runId : Uuid) (now : Time) :
    IngestionStore × Except IngestionError (IngestionRun × Bool) :=
  match s.db.requested sourceId userId with
  | none => (s, .error .sourceNotFound)
  | some source =>
    if source.kind ∉ service.adapters then (s, .error .unsupportedSourceKind)
    else match s.db.getActiveRun sourceId with
      | some run => (s, .ok (run, true))
      | none =>
        match if service.redis then s.setLock sourceId now else some s with
        | none => (s, .error .ingestionAlreadyRunning)
        | some s => s.insertRun sourceId runId now

/-- Where a `start_run` call stands between two statements. -/
inductive StartPhase
  | start
  | found
  | locking
  | inserting
  | returned (run : IngestionRun) (alreadyRunning : Bool)
  | raised (error : IngestionError)
  deriving DecidableEq

def StartPhase.ended : Except IngestionError (IngestionRun × Bool) → StartPhase
  | .ok (run, alreadyRunning) => .returned run alreadyRunning
  | .error error => .raised error

structure StartThread where
  service : IngestionService
  sourceId : Uuid
  userId : Option Uuid := none
  runId : Uuid
  phase : StartPhase := .start

def StartThread.at (t : StartThread) (phase : StartPhase) : StartThread :=
  { t with phase := phase }

@[simp] theorem StartThread.at_phase (t : StartThread) (phase : StartPhase) :
    (t.at phase).phase = phase := rfl

@[simp] theorem StartThread.at_sourceId (t : StartThread) (phase : StartPhase) :
    (t.at phase).sourceId = t.sourceId := rfl

@[simp] theorem StartThread.at_runId (t : StartThread) (phase : StartPhase) :
    (t.at phase).runId = t.runId := rfl

@[simp] theorem StartThread.at_service (t : StartThread) (phase : StartPhase) :
    (t.at phase).service = t.service := rfl

@[simp] theorem StartThread.at_at (t : StartThread) (phase phase' : StartPhase) :
    (t.at phase).at phase' = t.at phase' := rfl

/-- `start_run` statement by statement, each reading the state committed by then. -/
def startStep : Atomic Time IngestionStore StartThread := fun now s t =>
  match t.phase with
  | .start =>
    match s.db.requested t.sourceId t.userId with
    | none => some (s, t.at (.raised .sourceNotFound))
    | some source =>
      if source.kind ∉ t.service.adapters then some (s, t.at (.raised .unsupportedSourceKind))
      else some (s, t.at .found)
  | .found =>
    match s.db.getActiveRun t.sourceId with
    | some run => some (s, t.at (.returned run true))
    | none => some (s, t.at (if t.service.redis then .locking else .inserting))
  | .locking =>
    match s.setLock t.sourceId now with
    | none => some (s, t.at (.raised .ingestionAlreadyRunning))
    | some s => some (s, t.at .inserting)
  | .inserting =>
    match s.db.createRun t.runId t.sourceId now with
    | .error e => some (s, t.at (.raised e))
    | .ok (db, run) => some ({ s with db := db }, t.at (.returned run false))
  | .returned _ _ => none
  | .raised _ => none

/-- Where a worker stands with the end of its run. -/
inductive WorkerPhase
  | collected
  | loaded (run : IngestionRun) (report : RunReport)
  | unlocking
  | ended

/-- A worker at the end of `execute_run`. It has no report when an error that is not handled
cut the run short. -/
structure Worker where
  runId : Uuid
  sourceId : Uuid
  report : Option RunReport
  phase : WorkerPhase := .collected

def Worker.at (w : Worker) (phase : WorkerPhase) : Worker := { w with phase := phase }

def workerStep : Atomic Time IngestionStore Worker := fun now s w =>
  match w.phase with
  | .collected =>
    match w.report, s.db.getRun w.runId with
    | some report, some run => some (s, w.at (.loaded run report))
    | _, _ => some (s, w.at .unlocking)
  | .loaded run report => some ({ s with db := s.db.finishRun run report now }, w.at .unlocking)
  | .unlocking => some (s.deleteLock w.sourceId, w.at .ended)
  | .ended => none

def ingestionStep : Atomic Time IngestionStore (StartThread ⊕ Worker) :=
  startStep.either workerStep

section Steps

variable {now : Time} {s s' : IngestionStore}

/-- Without interruption the statements amount to the call as one step. -/
theorem start_alone (now : Time) (s : IngestionStore) (t : StartThread)
    (hstart : t.phase = .start) :
    Solo startStep (s, t) ((startRun t.service s t.sourceId t.userId t.runId now).1,
      t.at (.ended (startRun t.service s t.sourceId t.userId t.runId now).2)) := by
  unfold startRun
  cases hr : s.db.requested t.sourceId t.userId with
  | none => exact .single ⟨now, by simp [startStep, hstart, hr, StartPhase.ended]⟩
  | some source =>
    by_cases hk : source.kind ∉ t.service.adapters
    · exact .single ⟨now, by simp [startStep, hstart, hr, hk, StartPhase.ended]⟩
    · have hfound : startStep now s t = some (s, t.at .found) := by
        simp [startStep, hstart, hr, hk]
      refine .head ⟨now, hfound⟩ ?_
      simp only [hk, if_false]
      cases ha : s.db.getActiveRun t.sourceId with
      | some run => exact .single ⟨now, by simp [startStep, ha, StartPhase.ended]⟩
      | none =>
        have hinsert : ∀ s', startStep now s' (t.at .inserting) =
            some ((s'.insertRun t.sourceId t.runId now).1,
              t.at (.ended (s'.insertRun t.sourceId t.runId now).2)) := by
          intro s'
          cases hc : s'.db.createRun t.runId t.sourceId now <;>
            simp [startStep, IngestionStore.insertRun, hc, StartPhase.ended]
        cases hredis : t.service.redis with
        | false =>
          have hfree : startStep now s (t.at .found) = some (s, t.at .inserting) := by
            simp [startStep, ha, hredis]
          exact .head ⟨now, hfree⟩ (.single ⟨now, hinsert s⟩)
        | true =>
          have hfree : startStep now s (t.at .found) = some (s, t.at .locking) := by
            simp [startStep, ha, hredis]
          refine .head ⟨now, hfree⟩ ?_
          cases hl : s.setLock t.sourceId now with
          | none => exact .single ⟨now, by simp [startStep, hl, StartPhase.ended]⟩
          | some locked =>
            have hlocked : startStep now s (t.at .locking) = some (locked, t.at .inserting) := by
              simp [startStep, hl]
            refine .head ⟨now, hlocked⟩ ?_
            simpa only [hl] using .single ⟨now, hinsert locked⟩

theorem startStep_cases {t t' : StartThread} (hs : startStep now s t = some (s', t')) :
    (s'.db = s.db ∧ (t.phase = .inserting → s.db.getRun t.runId ≠ none)) ∨
      ∃ run, t.phase = .inserting ∧ s.db.createRun t.runId t.sourceId now = .ok (s'.db, run) := by
  unfold startStep at hs
  cases hp : t.phase with
  | start =>
    simp only [hp] at hs
    split at hs
    next => cases hs; exact Or.inl ⟨rfl, by simp⟩
    next =>
      split at hs
      next => cases hs; exact Or.inl ⟨rfl, by simp⟩
      next => cases hs; exact Or.inl ⟨rfl, by simp⟩
  | found =>
    simp only [hp] at hs
    split at hs
    next => cases hs; exact Or.inl ⟨rfl, by simp⟩
    next => cases hs; exact Or.inl ⟨rfl, by simp⟩
  | locking =>
    simp only [hp] at hs
    split at hs
    next => cases hs; exact Or.inl ⟨rfl, by simp⟩
    next hl => cases hs; exact Or.inl ⟨IngestionStore.setLock_db hl, by simp⟩
  | inserting =>
    simp only [hp] at hs
    split at hs
    next he => cases hs; exact Or.inl ⟨rfl, fun _ => IngestionDb.createRun_error he⟩
    next db run ho => cases hs; exact Or.inr ⟨run, rfl, ho⟩
  | returned run alreadyRunning => simp [hp] at hs
  | raised error => simp [hp] at hs

theorem workerStep_cases {w w' : Worker} (hs : workerStep now s w = some (s', w')) :
    s'.db = s.db ∨ ∃ run report, s'.db = s.db.finishRun run report now := by
  unfold workerStep at hs
  split at hs
  next =>
    split at hs
    next => cases hs; exact Or.inl rfl
    next => cases hs; exact Or.inl rfl
  next run report _ => cases hs; exact Or.inr ⟨run, report, rfl⟩
  next => cases hs; exact Or.inl rfl
  next => cases hs

end Steps

end JobRadar
