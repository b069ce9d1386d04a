import JobRadar.RunRedelivery

namespace JobRadar

open Database Python Sequence

/-- The columns of a source that the scheduler reads. Nothing in the program writes
`last_success_at`. -/
structure SourceSchedule where
  schedule : Option Text := none
  enabled : Bool := true
  lastSuccessAt : Option Time := none

def timedeltaSeconds (seconds : Nat) : Time := seconds * 1000000

def intervalPrefix : Text := text "interval:"

def intervalSeconds (u : Decimals) : Option Text → Option Nat
  | none => none
  | some schedule =>
    if schedule.startsWith intervalPrefix then
      match u.int schedule.afterColon with
      | none => none
      | some value => if 0 < value then some value.toNat else none
    else none

theorem intervalSeconds_of_separator (u : Decimals) {t : Text} {c : Nat} (h : c ∈ t)
    (hc : 28 ≤ c ∧ c ≤ 31) : intervalSeconds u (some (intervalPrefix ++ t)) = none := by
  have hstarts : Text.startsWith (intervalPrefix ++ t) intervalPrefix = true := by
    rw [Text.startsWith, List.isPrefixOf_iff_prefix]
    exact List.prefix_append intervalPrefix t
  have hrest : Text.afterColon (intervalPrefix ++ t) = t := rfl
  rw [intervalSeconds, if_pos hstarts, hrest, u.int_of_separator h hc]

example : intervalSeconds .ascii (some (intervalPrefix ++ 28 :: text "60")) = none := by decide

/-- What a statement raises: an exception of the program's own, or one of the database, of Redis, of
the broker, or of arithmetic on instants. -/
inductive TickError
  | domain (error : IngestionError)
  | database
  | redis
  | broker
  | overflow
  deriving DecidableEq

/-- The exceptions that the loop skips a source for. -/
def TickError.handled : TickError → Bool
  | .domain .ingestionAlreadyRunning => true
  | .domain .sourceNotFound => true
  | .domain .unsupportedSourceKind => true
  | _ => false

/-- What the surroundings make the statements of a source's turn raise. -/
structure TurnFaults where
  getForUser : Option TickError := none
  getActiveRun : Option TickError := none
  setLock : Option TickError := none
  createRun : Option TickError := none
  delay : Option TickError := none

/-- The last instant a `datetime` can hold, counted from the first. -/
def datetimeMax : Time := 315537897599999999

/-- The due test, with the `OverflowError` of an interval that ends after the last instant. -/
def isDue (u : Decimals) (source : SourceSchedule) (now : Time) : Except TickError Bool :=
  match intervalSeconds u source.schedule with
  | none => .ok false
  | some seconds =>
    if source.enabled then
      match source.lastSuccessAt with
      | none => .ok true
      | some last =>
        if datetimeMax < last + timedeltaSeconds seconds then .error .overflow
        else .ok (last + timedeltaSeconds seconds ≤ now)
    else .ok false

structure TaskMessage where
  sourceId : Uuid
  runId : Uuid
  deriving DecidableEq

/-- What the scheduler and the workers share: the tables, the columns of the sources that
only the scheduler reads, and the messages that were published. -/
structure Deployment where
  store : RunStore
  schedules : Uuid → SourceSchedule
  published : List TaskMessage := []

namespace Deployment

variable (d : Deployment)

def withIngestion (ingestion : IngestionStore) : Deployment :=
  { d with store := { d.store with ingestion := ingestion } }

def publish (message : TaskMessage) : Deployment :=
  { d with published := message :: d.published }

end Deployment

def insertRunWith (faults : TurnFaults) (s : IngestionStore) (sourceId runId : Uuid) (now : Time) :
    IngestionStore × Except TickError (IngestionRun × Bool) :=
  match faults.createRun with
  | some e => (s, .error e)
  | none =>
    match s.insertRun sourceId runId now with
    | (s, .error e) => (s, .error (.domain e))
    | (s, .ok started) => (s, .ok started)

/-- `start_run` of the scheduler, each statement of which may raise. -/
def startRunWith (faults : TurnFaults) (service : IngestionService) (s : IngestionStore)
    (sourceId : Uuid) (userId : Option Uuid) (runId : Uuid) (now : Time) :
    IngestionStore × Except TickError (IngestionRun × Bool) :=
  match faults.getForUser, s.db.requested sourceId userId with
  | some e, _ => (s, .error e)
  | none, none => (s, .error (.domain .sourceNotFound))
  | none, some source =>
    if source.kind ∉ service.adapters then (s, .error (.domain .unsupportedSourceKind))
    else match faults.getActiveRun, s.db.getActiveRun sourceId with
      | some e, _ => (s, .error e)
      | none, some run => (s, .ok (run, true))
      | none, none =>
        if service.redis then
          match faults.setLock, s.setLock sourceId now with
          | some e, _ => (s, .error e)
          | none, none => (s, .error (.domain .ingestionAlreadyRunning))
          | none, some s => insertRunWith faults s sourceId runId now
        else insertRunWith faults s sourceId runId now

namespace Deployment

variable (d : Deployment)

def startSource (faults : Uuid → TurnFaults) (now : Time) (source : Source) :
    IngestionStore × Except TickError (IngestionRun × Bool) :=
  startRunWith (faults source.id) (buildIngestionService true) d.store.ingestion source.id
    (some source.userId) d.store.ingestion.db.runs.freshKey now

/-- Whether `start_run` finds a run of the source already under way, or what it raises. -/
def startAnswer (faults : Uuid → TurnFaults) (now : Time) (source : Source) :
    Except TickError Bool :=
  (d.startSource faults now source).2.map Prod.snd

/-- The body of the loop: the sources it scheduled, or what leaves it. -/
def turn (u : Decimals) (faults : Uuid → TurnFaults) (now : Time) (source : Source) :
    Deployment × Except TickError Nat :=
  match isDue u (d.schedules source.id) now with
  | .error e => (d, .error e)
  | .ok false => (d, .ok 0)
  | .ok true =>
    match d.startSource faults now source with
    | (ingestion, .error e) =>
      (d.withIngestion ingestion, if e.handled then .ok 0 else .error e)
    | (ingestion, .ok (_, true)) => (d.withIngestion ingestion, .ok 0)
    | (ingestion, .ok (run, false)) =>
      match (faults source.id).delay with
      | some e => (d.withIngestion ingestion, .error e)
      | none => ((d.withIngestion ingestion).publish ⟨source.id, run.id⟩, .ok 1)

def scheduleSources (u : Decimals) (faults : Uuid → TurnFaults) (now : Time) :
    List Source → Deployment → Deployment × Except TickError Nat
  | [], d => (d, .ok 0)
  | source :: sources, d =>
    match d.turn u faults now source with
    | (d, .error e) => (d, .error e)
    | (d, .ok scheduled) =>
      let (d, rest) := scheduleSources u faults now sources d
      (d, rest.map (scheduled + ·))

/-- The enabled sources, in the order the query gives them. -/
def enabledSources : List Source :=
  d.store.ingestion.db.sources.rows.filter fun source => (d.schedules source.id).enabled

def scheduleDueSources (u : Decimals) (faults : Uuid → TurnFaults) (now : Time) :
    Deployment × Except TickError Nat :=
  scheduleSources u faults now d.enabledSources d

end Deployment

/-- The turn of the source ends the tick: the interval overflows, `start_run` raises what is not
handled, or the dispatch raises. -/
def Aborts (u : Decimals) (faults : Uuid → TurnFaults) (now : Time) (d : Deployment)
    (source : Source) : Prop :=
  isDue u (d.schedules source.id) now = .error .overflow ∨
    isDue u (d.schedules source.id) now = .ok true ∧
      ((∃ e, d.startAnswer faults now source = .error e ∧ e.handled = false) ∨
        d.startAnswer faults now source = .ok false ∧ (faults source.id).delay ≠ none)

/-- What happens next: the scheduler looks for due sources, or a worker executes a run. -/
inductive SystemEvent
  | tick (faults : Uuid → TurnFaults) (now : Time)
  | work (delivery : Delivery)

def SystemEvent.now : SystemEvent → Time
  | .tick _ now => now
  | .work delivery => delivery.now

def Deployment.handle (lib : Stdlib) (first : FirstRow Job) (u : Decimals) (d : Deployment) :
    SystemEvent → Deployment
  | .tick faults now => (d.scheduleDueSources u faults now).1
  | .work delivery => { d with store := d.store.deliver lib first delivery }

/-- The tick inserts a run of the source. -/
def StartsRun (u : Decimals) (sourceId : Uuid) (c : Call SystemEvent Deployment) : Prop :=
  ∃ faults now, c.call = .tick faults now ∧
    ∃ run ∈ (c.before.scheduleDueSources u faults now).1.store.ingestion.db.runs,
      run.sourceId = sourceId ∧ c.before.store.getRun run.id = none

/-- The execution leaves the run of the source succeeded, at its own instant. -/
def Succeeds (lib : Stdlib) (first : FirstRow Job) (sourceId : Uuid)
    (c : Call SystemEvent Deployment) : Prop :=
  ∃ delivery run, c.call = .work delivery ∧
    (c.before.store.deliver lib first delivery).getRun delivery.runId = some run ∧
    run.sourceId = sourceId ∧ run.status = .succeeded ∧ run.completedAt = some delivery.now

end JobRadar
