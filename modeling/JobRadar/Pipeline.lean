import JobRadar.SchedulerFaults
import JobRadar.UserRoutes
import JobRadar.WorkQueue

namespace JobRadar

open Database Http Python WorkQueue

/-- The message that a route publishes. -/
def ApiData.message : ApiData → Option TaskMessage
  | .started response => response.published
  | _ => none

/-- The tables that the routes share, the locks, and the messages of the broker: those a worker has
still to acknowledge, and all that were published. -/
structure Pipeline where
  api : ApiState := {}
  locks : List (Uuid × Time) := []
  waiting : List TaskMessage := []
  published : List TaskMessage := []

namespace Pipeline

variable (p : Pipeline)

def store : RunStore := ⟨⟨⟨p.api.radar.sources, p.api.runs⟩, p.locks⟩, p.api.radar.jobs⟩

def withStore (store : RunStore) : Pipeline :=
  { p with
    api :=
      { p.api with
        radar := { p.api.radar with jobs := store.jobs }
        runs := store.ingestion.db.runs }
    locks := store.ingestion.locks }

def deployment : Deployment := { store := p.store, schedules := p.api.schedules }

def publish (messages : List TaskMessage) : Pipeline :=
  { p with waiting := messages ++ p.waiting, published := messages ++ p.published }

end Pipeline

/-- What happens next. The broker takes the message of a request or does not; a worker acknowledges
a message after its work, or is lost before that. -/
inductive PipelineEvent
  | request (userId : Uuid) (action : ApiAction) (served : action.served = true) (taken : Bool)
  | tick (faults : Uuid → TurnFaults) (now : Time)
  | work (message : TaskMessage) (clients : Nat → AsyncClient) (now : Time)
    (columns : Uuid → JobColumns) (acknowledged : Bool)

def TaskMessage.delivery (message : TaskMessage) (clients : Nat → AsyncClient) (now : Time) :
    Delivery :=
  ⟨message.sourceId, message.runId, clients, now⟩

def Pipeline.step (ctx : ApiContext) (u : Decimals) (p : Pipeline) : PipelineEvent → Pipeline
  | .request userId action _ taken =>
    let (api, reply) := p.api.act ctx userId action
    { p with api := api }.publish
      (if taken then (reply.toOption.bind ApiData.message).toList else [])
  | .tick faults now =>
    let d := (p.deployment.scheduleDueSources u faults now).1
    (p.withStore d.store).publish d.published
  | .work message clients now columns acknowledged =>
    if message ∈ p.waiting then
      let p := p.withStore (p.store.deliver ctx.lib ctx.firstJob (message.delivery clients now))
      { p with
        api := { p.api with columns := columns }
        waiting := if acknowledged then p.waiting.erase message else p.waiting }
    else p

def TaskMessage.entry (message : TaskMessage) : Uuid × Uuid := (message.runId, message.sourceId)

theorem TaskMessage.entry_injective : Function.Injective TaskMessage.entry := by
  rintro ⟨sourceId, runId⟩ ⟨sourceId', runId'⟩ h
  cases h
  rfl

/-- The runs as jobs that hold their sources. -/
def runQueue (runs : Table IngestionRun.id) (waiting published : List TaskMessage) :
    Queue Uuid Uuid where
  jobs runId := (runs.find runId).map IngestionRun.sourceId
  running := { runId | ∃ run, runs.find runId = some run ∧ run.status = .running }
  waiting := waiting.map TaskMessage.entry
  published := published.map TaskMessage.entry

def Pipeline.queue (p : Pipeline) : Queue Uuid Uuid :=
  runQueue p.api.runs p.waiting p.published

section Tables

variable {runs runs' : Table IngestionRun.id} {waiting published : List TaskMessage}
  {runId sourceId : Uuid} {now : Time}

variable (waiting published) in
theorem runQueue_insert
    (hinsert : runs.insert { id := runId, sourceId := sourceId, startedAt := now } = some runs')
    (hidle : ∀ run ∈ runs, ¬run.Active sourceId) (sent : Bool) :
    (runQueue runs waiting published).Enabled (.start runId sourceId sent) ∧
      runQueue runs' (if sent then ⟨sourceId, runId⟩ :: waiting else waiting)
          (if sent then ⟨sourceId, runId⟩ :: published else published) =
        (runQueue runs waiting published).apply (.start runId sourceId sent) := by
  have hfresh : runs.find runId = none :=
    Table.find_eq_none_iff.mpr fun old hold => Table.key_ne_of_insert hinsert hold
  have hfind := Table.find_of_insert hinsert
  refine ⟨⟨?_, ?_⟩, Queue.ext (funext ?_) (Set.ext ?_) ?_ ?_⟩
  · simp [runQueue, hfresh]
  · rintro other ⟨run, hrun, hrunning⟩ hsource
    have hown : run.sourceId = sourceId := by
      change (runs.find other).map IngestionRun.sourceId = some sourceId at hsource
      rw [hrun] at hsource
      exact Option.some.inj hsource
    exact hidle run (Table.find_eq_some_iff.mp hrun).1 ⟨hown, hrunning⟩
  · intro id
    change (runs'.find id).map IngestionRun.sourceId =
      Function.update (fun id => (runs.find id).map IngestionRun.sourceId) runId (some sourceId) id
    rw [hfind, Function.update_apply]
    by_cases hid : id = runId
    · simp [hid]
    · simp [hid]
  · intro id
    change (∃ run, runs'.find id = some run ∧ run.status = .running) ↔
      id = runId ∨ ∃ run, runs.find id = some run ∧ run.status = .running
    rw [hfind]
    by_cases hid : id = runId
    · simp [hid]
    · simp [hid]
  · cases sent <;> rfl
  · cases sent <;> rfl

theorem runQueue_deleteWhere (gone : Uuid → Prop) [DecidablePred gone] :
    runQueue (runs.deleteWhere fun run => gone run.sourceId) waiting published =
      (runQueue runs waiting published).apply (.drop fun sourceId => decide (gone sourceId)) := by
  have hfind : ∀ id, (runs.deleteWhere fun run => gone run.sourceId).find id =
      (runs.find id).filter fun run => ¬gone run.sourceId := by
    intro id
    exact Table.find_select runs (fun run => ¬gone run.sourceId) id
  refine Queue.ext (funext fun id => ?_) (Set.ext fun id => ?_) rfl rfl
  · change ((runs.deleteWhere _).find id).map _ = ((runs.find id).map _).filter _
    rw [hfind]
    cases runs.find id with
    | none => rfl
    | some run => by_cases h : gone run.sourceId <;> simp [Option.filter_some, h]
  · change (∃ run, (runs.deleteWhere _).find id = some run ∧ run.status = .running) ↔
      (∃ run, runs.find id = some run ∧ run.status = .running) ∧
        ∀ sourceId, (runs.find id).map IngestionRun.sourceId = some sourceId → _
    rw [hfind]
    cases runs.find id with
    | none => simp
    | some run => by_cases h : gone run.sourceId <;> simp [Option.filter_some, h]

theorem runQueue_finish {run : IngestionRun} (hrun : runs.find run.id = some run)
    (report : RunReport) :
    runQueue (runs.updateWhere (·.id = run.id) (·.finish report now) fun _ => rfl) waiting
        published = (runQueue runs waiting published).apply (.finish run.id) := by
  have hfind := fun id => Table.find_updateWhere runs (·.id = run.id) (·.finish report now)
    (fun _ => rfl) id
  refine Queue.ext (funext fun id => ?_) (Set.ext fun id => ?_) rfl rfl
  · change ((runs.updateWhere _ _ _).find id).map _ = (runs.find id).map _
    rw [hfind, Option.map_map]
    congr 1
    funext old
    by_cases hid : old.id = run.id <;> simp [hid, IngestionRun.finish]
  · change (∃ row, (runs.updateWhere _ _ _).find id = some row ∧ row.status = .running) ↔
      (∃ row, runs.find id = some row ∧ row.status = .running) ∧ id ≠ run.id
    rw [hfind]
    by_cases hid : id = run.id
    · subst hid
      simpa [hrun, IngestionRun.finish] using report.ended
    · have hkept : ∀ row, runs.find id = some row → row.id ≠ run.id := by
        intro row hrow
        rwa [(Table.find_eq_some_iff.mp hrow).2]
      cases hold : runs.find id with
      | none => simp
      | some row => simp [hkept row hold, hid]

end Tables

end JobRadar
