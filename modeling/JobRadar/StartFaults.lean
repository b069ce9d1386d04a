import JobRadar.SchedulerFaults
import JobRadar.Transaction

namespace JobRadar

open Database Transaction Work

/-- What the surroundings make the database and Redis calls of `start_run` raise. -/
structure StartFaults where
  source : Option TickError := none
  getActiveRun : Option TickError := none
  setLock : Option TickError := none
  commit : Option TickError := none
  refresh : Option TickError := none

abbrev StartWork (α : Type) := Work TickError IngestionStore α

section Calls

variable (faults : StartFaults) (sourceId runId : Uuid) (now : Time)

/-- The lock is Redis's, and no rollback takes it back. -/
def acquireLock (service : IngestionService) : StartWork Unit :=
  if service.redis then do
    let acquired ← effect faults.setLock fun s =>
      ((s.setLock sourceId now).getD s, (s.setLock sourceId now).isSome)
    if acquired then pure () else throw (.domain .ingestionAlreadyRunning)
  else pure ()

def createRunWith : StartWork IngestionRun := do
  let run ← save faults.commit fun s =>
    ((s.db.createRun runId sourceId now).mapError .domain).map fun created =>
      ({ s with db := created.1 }, created.2)
  query faults.refresh fun _ => ()
  return run

/-- `start_run`, with the commit of the run and the reading of it again told apart. -/
def startRunFaulty (service : IngestionService) (userId : Option Uuid) :
    StartWork (IngestionRun × Bool) := do
  let source ← query faults.source (·.db.requested sourceId userId)
  match source with
  | none => throw (.domain .sourceNotFound)
  | some source =>
    if source.kind ∉ service.adapters then throw (.domain .unsupportedSourceKind)
    else do
      let active ← query faults.getActiveRun (·.db.getActiveRun sourceId)
      match active with
      | some run => return (run, true)
      | none => do
        acquireLock faults sourceId now service
        let run ← createRunWith faults sourceId runId now
        return (run, false)

end Calls

/-- A call that raises leaves no lock that was not held before, and no run under way that was not
there before. -/
structure LeavesNothing (s : IngestionStore)
    (outcome : IngestionStore × Except TickError (IngestionRun × Bool)) : Prop where
  locks : ∀ e, outcome.2 = .error e →
    ∀ sourceId now, outcome.1.LockHeld sourceId now → s.LockHeld sourceId now
  runs : ∀ e, outcome.2 = .error e →
    ∀ run ∈ outcome.1.db.runs, run.status = .running → run ∈ s.db.runs

namespace StartFaults

/-- The call comes to the insert of a run: the source is there and has an adapter, no run of it is
under way, and its lock, where there is Redis, is set. -/
structure ComesToInsert (faults : StartFaults) (service : IngestionService) (s : IngestionStore)
    (sourceId : Uuid) (userId : Option Uuid) (now : Time) : Prop where
  source : faults.source = none
  adapter : ∃ source, s.db.requested sourceId userId = some source ∧
    source.kind ∈ service.adapters
  active : faults.getActiveRun = none
  free : s.db.getActiveRun sourceId = none
  lock : service.redis = true → faults.setLock = none ∧ ¬s.LockHeld sourceId now

def InsertFails (faults : StartFaults) (s : IngestionStore) (runId : Uuid) : Prop :=
  faults.commit ≠ none ∨ s.db.getRun runId ≠ none

end StartFaults

section Start

variable {faults : StartFaults} {service : IngestionService} {s locked : IngestionStore}
  {sourceId runId : Uuid} {userId : Option Uuid} {now : Time}

theorem leavesNothing_unchanged (result : Except TickError (IngestionRun × Bool)) :
    LeavesNothing s (s, result) where
  locks _ _ _ _ hheld := hheld
  runs _ _ _ hrun _ := hrun

def lockedStore (service : IngestionService) (s : IngestionStore) (sourceId : Uuid) (now : Time) :
    IngestionStore :=
  if service.redis then (s.setLock sourceId now).getD s else s

theorem lockedStore_db : (lockedStore service s sourceId now).db = s.db := by
  unfold lockedStore
  split
  next =>
    cases h : s.setLock sourceId now with
    | none => rfl
    | some locked => exact IngestionStore.setLock_db h
  next => rfl

theorem lockedStore_lockHeld (hredis : service.redis = true) (hfree : ¬s.LockHeld sourceId now) :
    (lockedStore service s sourceId now).LockHeld sourceId now := by
  rw [lockedStore, if_pos hredis]
  cases h : s.setLock sourceId now with
  | none => exact absurd (IngestionStore.setLock_eq_none_iff.mp h) hfree
  | some locked =>
    refine (IngestionStore.lockHeld_setLock h).mpr (.inl ⟨rfl, ?_⟩)
    exact Nat.lt_add_of_pos_right (by decide)

theorem exec_acquireLock
    (h : service.redis = true → faults.setLock = none ∧ ¬s.LockHeld sourceId now) :
    (acquireLock faults sourceId now service).exec ⟨s, s⟩ =
      (.ok (), ⟨lockedStore service s sourceId now, lockedStore service s sourceId now⟩) := by
  unfold acquireLock lockedStore
  split
  next hredis =>
    obtain ⟨hset, hfree⟩ := h hredis
    have hsome : (s.setLock sourceId now).isSome = true := by
      rw [Option.isSome_iff_ne_none, ne_eq, IngestionStore.setLock_eq_none_iff]
      exact hfree
    rw [hset, exec_bind_ok (exec_effect _ _)]
    simp only [hsome, if_true]
    rfl
  next => rfl

theorem exec_acquireLock_refused
    (h : ¬(service.redis = true → faults.setLock = none ∧ ¬s.LockHeld sourceId now)) :
    ∃ e, (acquireLock faults sourceId now service).exec ⟨s, s⟩ = (.error e, ⟨s, s⟩) := by
  rw [Classical.not_imp] at h
  obtain ⟨hredis, hrefused⟩ := h
  rw [acquireLock, if_pos hredis]
  cases hset : faults.setLock with
  | some e => exact ⟨e, exec_bind_error (exec_effect_fault e _ _)⟩
  | none =>
    have hheld : s.LockHeld sourceId now := by
      by_contra hfree
      exact hrefused ⟨hset, hfree⟩
    have hnone := IngestionStore.setLock_eq_none_iff.mpr hheld
    refine ⟨.domain .ingestionAlreadyRunning, ?_⟩
    rw [exec_bind_ok (exec_effect _ _), hnone]
    rfl

theorem startRunFaulty_stops (runId : Uuid)
    (h : ¬faults.ComesToInsert service s sourceId userId now) :
    ∃ result, (startRunFaulty faults sourceId runId now service userId).outcome s =
      (s, result) := by
  unfold startRunFaulty outcome
  cases hsource : faults.source with
  | some e => exact ⟨_, by rw [exec_bind_error (exec_query_fault e _ _)]⟩
  | none =>
    rw [exec_bind_ok (exec_query _ _)]
    cases hfound : s.db.requested sourceId userId with
    | none => exact ⟨_, rfl⟩
    | some source =>
      dsimp only
      by_cases hadapter : source.kind ∉ service.adapters
      · exact ⟨_, by rw [if_pos hadapter, exec_throw]⟩
      · rw [if_neg hadapter]
        cases hactive : faults.getActiveRun with
        | some e => exact ⟨_, by rw [exec_bind_error (exec_query_fault e _ _)]⟩
        | none =>
          rw [exec_bind_ok (exec_query _ _)]
          cases hfree : s.db.getActiveRun sourceId with
          | some run => exact ⟨_, rfl⟩
          | none =>
            have hlock : ¬(service.redis = true →
                faults.setLock = none ∧ ¬s.LockHeld sourceId now) := fun hlock =>
              h ⟨hsource, ⟨source, hfound, not_not.mp hadapter⟩, hactive, hfree, hlock⟩
            obtain ⟨e, hrefused⟩ := exec_acquireLock_refused hlock
            exact ⟨_, by rw [exec_bind_error hrefused]⟩

theorem startRunFaulty_inserts (runId : Uuid)
    (h : faults.ComesToInsert service s sourceId userId now) :
    (startRunFaulty faults sourceId runId now service userId).exec ⟨s, s⟩ =
      (createRunWith faults sourceId runId now >>= fun run => pure (run, false)).exec
        ⟨lockedStore service s sourceId now, lockedStore service s sourceId now⟩ := by
  obtain ⟨source, hfound, hadapter⟩ := h.adapter
  rw [startRunFaulty, h.source, exec_bind_ok (exec_query _ _), hfound]
  dsimp only
  rw [if_neg (not_not.mpr hadapter), h.active, exec_bind_ok (exec_query _ _), h.free]
  exact exec_bind_ok (exec_acquireLock h.lock)

theorem exec_createRun_fails (sourceId : Uuid) (now : Time) (h : faults.InsertFails locked runId) :
    ∃ e, (createRunWith faults sourceId runId now).exec ⟨locked, locked⟩ =
      (.error e, ⟨locked, locked⟩) := by
  unfold createRunWith
  cases hcommit : faults.commit with
  | some e => exact ⟨e, exec_bind_error (exec_save_fault e _ _)⟩
  | none =>
    have htaken := h.resolve_left (not_not.mpr hcommit)
    cases hcreate : locked.db.createRun runId sourceId now with
    | error e => exact ⟨.domain e, exec_bind_error (exec_save_error (by rw [hcreate]; rfl))⟩
    | ok created => exact absurd (IngestionDb.createRun_ok hcreate).2.1 htaken

theorem exec_createRun_inserts (sourceId : Uuid) (now : Time)
    (h : ¬faults.InsertFails locked runId) :
    ∃ db, (∀ run, run ∈ db.runs ↔ run ∈ locked.db.runs ∨
        run = { id := runId, sourceId := sourceId, startedAt := now }) ∧
      (createRunWith faults sourceId runId now).exec ⟨locked, locked⟩ =
        (query faults.refresh (fun _ => ()) >>= fun _ =>
          pure { id := runId, sourceId := sourceId, startedAt := now } :
            StartWork IngestionRun).exec ⟨{ locked with db := db }, { locked with db := db }⟩ := by
  rw [StartFaults.InsertFails, not_or, not_not, not_not] at h
  cases hcreate : locked.db.createRun runId sourceId now with
  | error e => exact absurd h.2 (IngestionDb.createRun_error hcreate)
  | ok created =>
    obtain ⟨db, run⟩ := created
    obtain ⟨rfl, -, hruns⟩ := IngestionDb.createRun_ok hcreate
    refine ⟨db, hruns, ?_⟩
    rw [createRunWith, h.1]
    exact exec_bind_ok (exec_save_ok (by rw [hcreate]; rfl))

theorem lockedStore_leavesNothing_iff {service : IngestionService} {e : TickError}
    (hfree : service.redis = true → ¬s.LockHeld sourceId now) :
    LeavesNothing s (lockedStore service s sourceId now, .error e) ↔ ¬service.redis = true := by
  by_cases hredis : service.redis = true
  · refine iff_of_false (fun hleaves => ?_) (not_not.mpr hredis)
    have hheld := lockedStore_lockHeld hredis (hfree hredis)
    exact hfree hredis (hleaves.locks e rfl _ _ hheld)
  · rw [lockedStore, if_neg hredis]
    exact iff_of_true (leavesNothing_unchanged _) hredis

/-- A start that raises leaves nothing behind exactly if it does not come to the insert, the insert
fails where no lock was taken, or the insert goes through and the run can be read again. -/
theorem start_leaves_nothing_iff :
    LeavesNothing s ((startRunFaulty faults sourceId runId now service userId).outcome s) ↔
      ¬(faults.ComesToInsert service s sourceId userId now ∧
        ((service.redis = true ∧ faults.InsertFails s runId) ∨
          (¬faults.InsertFails s runId ∧ faults.refresh ≠ none))) := by
  by_cases hcomes : faults.ComesToInsert service s sourceId userId now
  · have hinserts := startRunFaulty_inserts runId hcomes
    have hdb : (lockedStore service s sourceId now).db = s.db := lockedStore_db
    have hsame : faults.InsertFails (lockedStore service s sourceId now) runId ↔
        faults.InsertFails s runId := by
      rw [StartFaults.InsertFails, StartFaults.InsertFails, hdb]
    rw [and_iff_right hcomes]
    by_cases hfails : faults.InsertFails s runId
    · obtain ⟨e, hexec⟩ := exec_createRun_fails sourceId now (hsame.mpr hfails)
      rw [outcome, hinserts, exec_bind_error hexec]
      rw [lockedStore_leavesNothing_iff fun hredis => (hcomes.lock hredis).2]
      simp [hfails]
    · obtain ⟨db, hruns, hexec⟩ := exec_createRun_inserts sourceId now (mt hsame.mp hfails)
      rw [outcome, hinserts, exec_bind_congr hexec]
      cases hrefresh : faults.refresh with
      | some e =>
        refine iff_of_false (fun hleaves => hfails (.inr ?_)) (by simp [hfails])
        have hold := hleaves.runs e rfl _ ((hruns _).mpr (.inr rfl)) rfl
        intro hnone
        exact Table.find_eq_none_iff.mp hnone _ hold rfl
      | none =>
        refine iff_of_true ⟨fun e he => ?_, fun e he => ?_⟩ (by simp [hfails])
        · cases he
        · cases he
  · obtain ⟨result, hresult⟩ := startRunFaulty_stops runId hcomes
    rw [hresult]
    exact iff_of_true (leavesNothing_unchanged result) fun h => hcomes h.1

theorem exec_createRun_sound (locked : IngestionStore) (sourceId runId : Uuid) (now : Time) :
    (createRunWith {} sourceId runId now >>= fun run => pure (run, false)).outcome locked =
      ((locked.insertRun sourceId runId now).1,
        (locked.insertRun sourceId runId now).2.mapError .domain) := by
  have hcalls : createRunWith {} sourceId runId now = (save none fun s : IngestionStore =>
      ((s.db.createRun runId sourceId now).mapError TickError.domain).map fun created =>
        ({ s with db := created.1 }, created.2)) >>= fun run => pure run := rfl
  rw [hcalls, outcome, IngestionStore.insertRun, bind_assoc]
  cases hcreate : locked.db.createRun runId sourceId now with
  | error e =>
    rw [exec_bind_error (exec_save_error (by rw [hcreate]; rfl))]
    rfl
  | ok created =>
    rw [exec_bind_ok (exec_save_ok (by rw [hcreate]; rfl))]
    rfl

theorem exec_acquireLock_sound (service : IngestionService) (s : IngestionStore)
    (sourceId : Uuid) (now : Time) :
    ((if service.redis then s.setLock sourceId now else some s) = none →
      (acquireLock {} sourceId now service).exec ⟨s, s⟩ =
        (.error (.domain .ingestionAlreadyRunning), ⟨s, s⟩)) ∧
    ∀ locked, (if service.redis then s.setLock sourceId now else some s) = some locked →
      (acquireLock {} sourceId now service).exec ⟨s, s⟩ = (.ok (), ⟨locked, locked⟩) := by
  unfold acquireLock
  split
  next =>
    refine ⟨fun hnone => ?_, fun locked hsome => ?_⟩
    · rw [exec_bind_ok (exec_effect _ _), hnone]
      rfl
    · rw [exec_bind_ok (exec_effect _ _), hsome]
      rfl
  next =>
    refine ⟨fun hnone => ?_, fun locked hsome => ?_⟩
    · cases hnone
    · cases hsome
      rfl

/-- Where no call is made to raise, this is `start_run`. -/
theorem startRunFaulty_sound (service : IngestionService) (s : IngestionStore) (sourceId : Uuid)
    (userId : Option Uuid) (runId : Uuid) (now : Time) :
    (startRunFaulty {} sourceId runId now service userId).outcome s =
      ((startRun service s sourceId userId runId now).1,
        (startRun service s sourceId userId runId now).2.mapError .domain) := by
  rw [startRunFaulty, outcome, exec_bind_ok (exec_query _ _), startRun]
  cases s.db.requested sourceId userId with
  | none => rfl
  | some source =>
    dsimp only
    by_cases hadapter : source.kind ∉ service.adapters
    · rw [if_pos hadapter, if_pos hadapter]
      rfl
    · rw [if_neg hadapter, if_neg hadapter, exec_bind_ok (exec_query _ _)]
      cases s.db.getActiveRun sourceId with
      | some run => rfl
      | none =>
        have hacquire := exec_acquireLock_sound service s sourceId now
        cases hlock : if service.redis then s.setLock sourceId now else some s with
        | none =>
          dsimp only
          rw [exec_bind_error (hacquire.1 hlock)]
          rfl
        | some locked =>
          dsimp only
          rw [exec_bind_ok (hacquire.2 locked hlock)]
          exact exec_createRun_sound locked sourceId runId now

end Start

/-- Source 1 of user 7, of which no run is under way. -/
def acmeIdle : IngestionStore where
  db := ⟨⟨[⟨1, 7, "greenhouse", Python.text "Acme", []⟩], by simp⟩, .empty⟩

def acmeStart (redis : Bool) (faults : StartFaults) :
    IngestionStore × Except TickError (IngestionRun × Bool) :=
  (startRunFaulty faults 1 50 1000 (buildIngestionService redis) (some 7)).outcome acmeIdle

/-- The run cannot be committed, and the source stays locked. It is committed and cannot be read
again, and is under way for ever. -/
theorem acmeStart_blocked :
    (acmeStart true { commit := some .database }).2 = .error .database ∧
    (acmeStart true { commit := some .database }).1.locks =
      [(1, 1000 + IngestionStore.lockLife)] ∧
    ¬LeavesNothing acmeIdle (acmeStart true { commit := some .database }) ∧
    (acmeStart false { refresh := some .database }).2 = .error .database ∧
    (acmeStart false { refresh := some .database }).1.db.runs.rows =
      [{ id := 50, sourceId := 1, startedAt := 1000 }] ∧
    ¬LeavesNothing acmeIdle (acmeStart false { refresh := some .database }) := by
  have hraised : (acmeStart true { commit := some .database }).2 = .error .database := by decide
  have hraised' : (acmeStart false { refresh := some .database }).2 = .error .database := by decide
  have hheld : (acmeStart true { commit := some .database }).1.LockHeld 1 1000 := by decide
  have hruns : (acmeStart false { refresh := some .database }).1.db.runs.rows =
      [{ id := 50, sourceId := 1, startedAt := 1000 }] := by
    decide
  refine ⟨hraised, by decide, fun hleaves => ?_, hraised', hruns, fun hleaves => ?_⟩
  · have hold : acmeIdle.LockHeld 1 1000 := hleaves.locks _ hraised 1 1000 hheld
    exact absurd hold (by decide)
  · have hmem : ({ id := 50, sourceId := 1, startedAt := 1000 } : IngestionRun) ∈
        (acmeStart false { refresh := some .database }).1.db.runs := by
      rw [← Table.mem_rows, hruns]
      exact List.mem_singleton.mpr rfl
    exact Table.not_mem_empty _ (hleaves.runs _ hraised' _ hmem rfl)

end JobRadar
