import JobRadar.AccountDeletion
import JobRadar.AccountRuns
import JobRadar.HttpErrors
import JobRadar.JobListing
import JobRadar.PreferenceUpdates
import JobRadar.Scheduling
import JobRadar.TableViews

namespace JobRadar

open Database Http Python

structure SourceInput where
  kind : SourceKind
  name : Text
  config : Dict
  schedule : Option Text := none
  enabled : Bool := true
  named : name ≠ []

def SourceKind.literal : SourceKind → String
  | greenhouse => "greenhouse"
  | lever => "lever"

structure SourceResponse where
  id : Uuid
  kind : String
  name : Text
  config : Dict
  schedule : Option Text
  enabled : Bool

/-- `RunResponse`, and the message that the route publishes. -/
structure RunResponse where
  runId : Uuid
  status : RunStatus
  published : Option TaskMessage

/-- What the routes share: all tables, with the columns of jobs and sources and the ids of
deliveries that their rows leave out. -/
structure ApiState extends AppDb where
  columns : Uuid → JobColumns := fun _ => {}
  schedules : Uuid → SourceSchedule := fun _ => {}
  deliveryIds : DeliveryKey → Uuid := fun _ => 0

inductive ApiError
  | app (cls : ErrorClass)
  | typeError
  deriving DecidableEq

def IngestionError.cls : IngestionError → ErrorClass
  | .sourceNotFound => .sourceNotFound
  | .unsupportedSourceKind => .unsupportedSourceKind
  | .ingestionAlreadyRunning => .ingestionAlreadyRunning
  | .dataConflict => .dataConflict

def JobQueryError.api : JobQueryError → ApiError
  | .jobNotFound => .app .jobNotFound
  | .matchNotFound => .app .matchNotFound
  | .activePreferenceNotFound => .app .activePreferenceNotFound
  | .typeError => .typeError
  | .dataConflict => .app .dataConflict

def NotificationError.cls : NotificationError → ErrorClass
  | .dataConflict => .dataConflict
  | .databaseUnavailable => .databaseUnavailable
  | .persistenceFailure => .persistenceFailure

inductive ApiData
  | source (source : SourceResponse)
  | sources (sources : List SourceResponse)
  | started (run : RunResponse)
  | run (run : IngestionRun)
  | preferences (response : PreferenceResponse)
  | preferencesV2 (response : V2PreferenceResponse)
  | jobs (jobs : List Job) (columns : List JobColumns) (page pageSize total : Nat)
  | job (detail : JobDetail) (columns : JobColumns)
  | matched (result : MatchResult)
  | feedback (feedback : JobFeedback)
  | delivery (delivery : NotificationDelivery)
  | notified (delivery : Option NotificationDelivery)
  | done

/-- What the routes rely on: the libraries, and the rows that queries without an order come back
with first. -/
structure ApiContext where
  lib : Stdlib
  sql : SqlText
  firstJob : FirstRow Job
  firstMatch : FirstRow MatchResult

/-- The texts of the filters can be sent to the database. -/
def JobFilters.storable (u : Casefold) (f : JobFilters) : Bool :=
  f.status.all Database.storable &&
    f.company.all (fun company => company.isEmpty || Database.storable (u.text company)) &&
    f.location.all fun location => location.isEmpty || Database.storable location

namespace ApiState

variable (s : ApiState)

def withUser (userId : Uuid) : ApiState := { s with auth := s.auth.ensureUser userId }

/-- The row of a source, and its columns that only the scheduler reads. -/
def sourceRow (userId sourceId : Uuid) (input : SourceInput) :
    Option (Source × SourceSchedule) := do
  let name ← varcharColumn 255 input.name
  let schedule ← nullable (varcharColumn 128) input.schedule
  if jsonColumn (.obj input.config) then
    some (⟨sourceId, userId, input.kind.literal, name, input.config⟩,
      { schedule := schedule, enabled := input.enabled })
  else none

def createSource (userId sourceId : Uuid) (input : SourceInput) :
    ApiState × Except ApiError ApiData :=
  match sourceRow userId sourceId input with
  | none => (s, .error (.app .persistenceFailure))
  | some (source, schedule) =>
    match s.radar.sources.insert source with
    | none => (s, .error (.app .dataConflict))
    | some sources =>
      ({ s.withUser userId with
          radar := { s.radar with sources := sources }
          schedules := Function.update s.schedules sourceId schedule },
        .ok (.source ⟨sourceId, input.kind.literal, input.name, input.config, input.schedule,
          input.enabled⟩))

def sourceResponse (source : Source) : SourceResponse :=
  let schedule := s.schedules source.id
  ⟨source.id, source.kind, source.name, source.config, schedule.schedule, schedule.enabled⟩

def listSources (userId : Uuid) : List SourceResponse :=
  (s.radar.sources.rows.filter fun source => source.userId = userId).map s.sourceResponse

/-- The tables of the ingestion. No route reads its locks. -/
def ingestion : IngestionStore := ⟨⟨s.radar.sources, s.runs⟩, []⟩

/-- `run_source`. -/
def runSource (userId sourceId runId : Uuid) (now : Time) : ApiState × Except ApiError ApiData :=
  match startRun getIngestionService s.ingestion sourceId (some userId) runId now with
  | (store, .error e) => ({ s with runs := store.db.runs }, .error (.app e.cls))
  | (store, .ok (run, already)) =>
    ({ s with runs := store.db.runs },
      .ok (.started ⟨run.id, run.status, if already then none else some ⟨sourceId, run.id⟩⟩))

/-- `get_run_for_user`. -/
def getRun (userId runId : Uuid) : Option IngestionRun :=
  (s.runs.find runId).filter fun run => s.radar.sourceOf userId run.sourceId

/-- `update` of either version: the profile that becomes the active one. -/
def updatePreferences (userId profileId : Uuid) (config : PreferenceInput) :
    ApiState × Except ApiError PreferenceProfile :=
  match s.radar.profiles.find profileId with
  | some _ => (s, .error (.app .dataConflict))
  | none =>
    ({ s.withUser userId with radar := s.radar.updatePreferences userId profileId config },
      .ok ⟨profileId, userId, s.radar.latestVersion userId + 1, config, true⟩)

/-- `get_active` of either version. -/
def getActive (userId : Uuid) : Except ApiError PreferenceProfile :=
  match s.radar.getActiveProfile userId with
  | none => .error (.app .activePreferenceNotFound)
  | some profile => .ok profile

def catalog : JobCatalog := { s.radar with columns := s.columns }

def listJobs (ctx : ApiContext) (userId : Uuid) (filters : JobFilters) (page pageSize : Nat) :
    Except ApiError ApiData :=
  if filters.storable ctx.lib.casefold then
    let (jobs, total) := s.catalog.list ctx.sql ctx.lib.casefold userId filters page pageSize
    .ok (.jobs jobs (jobs.map fun job => s.columns job.id) page pageSize total)
  else .error (.app .persistenceFailure)

def getJob (ctx : ApiContext) (userId jobId : Uuid) : Except ApiError ApiData :=
  match s.radar.detail ctx.firstMatch userId jobId with
  | .error e => .error e.api
  | .ok detail => .ok (.job detail (s.columns detail.job.id))

def getMatch (ctx : ApiContext) (userId jobId : Uuid) : Except ApiError ApiData :=
  ((s.radar.latestMatch ctx.firstMatch userId jobId).map .matched).mapError (·.api)

def matchJob (ctx : ApiContext) (userId matchId jobId : Uuid) (now : Time) :
    ApiState × Except ApiError ApiData :=
  let (radar, result) := s.radar.matchJob ctx.lib.casefold matchId jobId userId now
  ({ s with radar := radar }, (result.map .matched).mapError (·.api))

/-- `save_feedback`. The job is looked up before the note is sent. -/
def saveFeedback (userId jobId : Uuid) (label : FeedbackLabel) (note : Option Text) :
    ApiState × Except ApiError ApiData :=
  match s.radar.saveFeedback userId jobId label note with
  | (_, .error e) => (s, .error e.api)
  | (radar, .ok feedback) =>
    if note.all storable then ({ s with radar := radar }, .ok (.feedback feedback))
    else (s, .error (.app .persistenceFailure))

/-- `NotificationService.get_for_user`. -/
def getDelivery (userId deliveryId : Uuid) : Except ApiError ApiData :=
  match s.deliveries.rows.find? fun delivery =>
      s.deliveryIds delivery.toDeliveryKey = deliveryId ∧ delivery.userId = userId with
  | none => .error (.app .notificationDeliveryNotFound)
  | some delivery => .ok (.delivery delivery)

/-- `delete_me`. The schedules are columns of the sources. -/
def deleteMe (userId : Uuid) : ApiState × Except ApiError ApiData :=
  match s.toAppDb.deleteUser userId with
  | .error .userNotFound => (s, .error (.app .userNotFound))
  | .ok db =>
    ({ s with
        toAppDb := db
        schedules := fun id => if s.radar.sourceOf userId id then {} else s.schedules id },
      .ok .done)

/-- A worker executes a run. The columns of the jobs are then what the database makes of them. -/
def work (ctx : ApiContext) (delivery : Delivery) (columns : Uuid → JobColumns) : ApiState :=
  let store := RunStore.deliver ctx.lib ctx.firstJob ⟨s.ingestion, s.radar.jobs⟩ delivery
  { s with
    radar := { s.radar with jobs := store.jobs }
    runs := store.ingestion.db.runs
    columns := columns }

def notify (key : DeliveryKey) (decision : Decision) (reply : ProviderReply) :
    ApiState × Except ApiError ApiData :=
  let (store, _, result) := deliver ⟨s.deliveries, []⟩ key decision reply
  ({ s with deliveries := store.deliveries }, (result.map .notified).mapError fun e => .app e.cls)

end ApiState

/-- What is done for a user: the routes with the ids and the time that they draw, the execution of
a run of one of the user's sources, and a notification. -/
inductive ApiAction
  | createSource (sourceId : Uuid) (input : SourceInput)
  | listSources
  | runSource (sourceId runId : Uuid) (now : Time)
  | getRun (runId : Uuid)
  | getPreferences
  | getPreferencesV2
  | updatePreferences (profileId : Uuid) (config : PreferenceInput)
  | updatePreferencesV2 (profileId : Uuid) (update : V2PreferenceUpdate)
  | listJobs (filters : JobFilters) (page pageSize : Nat)
  | getJob (jobId : Uuid)
  | getMatch (jobId : Uuid)
  | matchJob (matchId jobId : Uuid) (now : Time)
  | saveFeedback (jobId : Uuid) (label : FeedbackLabel) (note : Option Text)
  | getDelivery (deliveryId : Uuid)
  | deleteMe
  | work (delivery : Delivery) (columns : Uuid → JobColumns)
  | notify (jobId profileId : Uuid) (channel : String) (decision : Decision)
    (reply : ProviderReply)

structure ApiCall where
  userId : Uuid
  action : ApiAction

def ApiState.act (ctx : ApiContext) (s : ApiState) (userId : Uuid) :
    ApiAction → ApiState × Except ApiError ApiData
  | .createSource sourceId input => s.createSource userId sourceId input
  | .listSources => (s, .ok (.sources (s.listSources userId)))
  | .runSource sourceId runId now => s.runSource userId sourceId runId now
  | .getRun runId =>
    (s, match s.getRun userId runId with
      | none => .error (.app .runNotFound)
      | some run => .ok (.run run))
  | .getPreferences =>
    (s, (s.getActive userId).map fun profile => .preferences (toResponse profile))
  | .getPreferencesV2 =>
    (s, (s.getActive userId).map fun profile => .preferencesV2 (toV2Response profile))
  | .updatePreferences profileId config =>
    let (s, result) := s.updatePreferences userId profileId config
    (s, result.map fun profile => .preferences (toResponse profile))
  | .updatePreferencesV2 profileId update =>
    let (s, result) := s.updatePreferences userId profileId update.preferences
    (s, result.map fun profile => .preferencesV2 (toV2Response profile))
  | .listJobs filters page pageSize => (s, s.listJobs ctx userId filters page pageSize)
  | .getJob jobId => (s, s.getJob ctx userId jobId)
  | .getMatch jobId => (s, s.getMatch ctx userId jobId)
  | .matchJob matchId jobId now => s.matchJob ctx userId matchId jobId now
  | .saveFeedback jobId label note => s.saveFeedback userId jobId label note
  | .getDelivery deliveryId => (s, s.getDelivery userId deliveryId)
  | .deleteMe => s.deleteMe userId
  | .work delivery columns => (s.work ctx delivery columns, .ok .done)
  | .notify jobId profileId channel decision reply =>
    s.notify ⟨userId, jobId, profileId, channel⟩ decision reply

end JobRadar
