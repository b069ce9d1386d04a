import JobRadar.Pipeline
import JobRadar.TenantIsolation

namespace JobRadar

open Database Http Python Sequence WorkQueue

section Requests

variable {ctx : ApiContext} {s : ApiState} {userId : Uuid}

/-- The message that the answer to a request publishes. -/
def ApiState.dispatched (ctx : ApiContext) (s : ApiState) (userId : Uuid) (action : ApiAction) :
    Option TaskMessage :=
  (s.act ctx userId action).2.toOption.bind ApiData.message

theorem runSource_cases (s : ApiState) (userId sourceId runId : Uuid) (now : Time) :
    ((s.runSource userId sourceId runId now).1.runs = s.runs ∧
      (s.runSource userId sourceId runId now).2.toOption.bind ApiData.message = none) ∨
    (s.runs.insert { id := runId, sourceId := sourceId, startedAt := now } =
        some (s.runSource userId sourceId runId now).1.runs ∧
      (∀ run ∈ s.runs, ¬run.Active sourceId) ∧
      (s.runSource userId sourceId runId now).2.toOption.bind ApiData.message =
        some ⟨sourceId, runId⟩) := by
  unfold ApiState.runSource startRun
  cases s.ingestion.db.requested sourceId (some userId) with
  | none => exact Or.inl ⟨rfl, rfl⟩
  | some source =>
    by_cases hkind : source.kind ∉ getIngestionService.adapters
    · simp only [if_pos hkind]
      exact Or.inl ⟨rfl, rfl⟩
    · simp only [if_neg hkind]
      cases hactive : s.ingestion.db.getActiveRun sourceId with
      | some run => exact Or.inl ⟨rfl, rfl⟩
      | none =>
        have hidle : ∀ run ∈ s.runs, ¬run.Active sourceId :=
          IngestionDb.getActiveRun_eq_none_iff.mp hactive
        have hserver : getIngestionService.redis = false := rfl
        simp only [hserver, Bool.false_eq_true, if_false, IngestionStore.insertRun,
          IngestionDb.createRun, ApiState.ingestion]
        cases hinsert : s.runs.insert { id := runId, sourceId := sourceId, startedAt := now } with
        | none => exact Or.inl ⟨rfl, rfl⟩
        | some runs => exact Or.inr ⟨rfl, hidle, rfl⟩

theorem message_map {α ε : Type} {f : α → ApiData} (hf : ∀ a, (f a).message = none)
    (result : Except ε α) : (result.map f).toOption.bind ApiData.message = none := by
  cases result with
  | error e => rfl
  | ok a => exact hf a

theorem message_mapError {ε ε' : Type} (g : ε → ε') (result : Except ε ApiData) :
    (result.mapError g).toOption.bind ApiData.message = result.toOption.bind ApiData.message := by
  cases result <;> rfl

theorem updatePreferences_runs (s : ApiState) (userId profileId : Uuid) (config : PreferenceInput) :
    (s.updatePreferences userId profileId config).1.runs = s.runs := by
  unfold ApiState.updatePreferences
  cases s.radar.profiles.find profileId <;> rfl

variable (ctx s userId) in
theorem act_runs {action : ApiAction} (hserved : action.served = true) :
    ((s.act ctx userId action).1.runs = s.runs ∧ s.dispatched ctx userId action = none) ∨
    (∃ sourceId runId now,
      s.runs.insert { id := runId, sourceId := sourceId, startedAt := now } =
        some (s.act ctx userId action).1.runs ∧
      (∀ run ∈ s.runs, ¬run.Active sourceId) ∧
      s.dispatched ctx userId action = some ⟨sourceId, runId⟩) ∨
    (action = .deleteMe ∧ (s.act ctx userId action).1.runs =
        (s.runs.deleteWhere fun run => s.radar.sourceOf userId run.sourceId) ∧
      s.dispatched ctx userId action = none) := by
  cases action with
  | createSource sourceId input =>
    have hcreate : (s.createSource userId sourceId input).1.runs = s.runs ∧
        (s.createSource userId sourceId input).2.toOption.bind ApiData.message = none := by
      unfold ApiState.createSource
      split
      next => exact ⟨rfl, rfl⟩
      next => split <;> exact ⟨rfl, rfl⟩
    exact Or.inl hcreate
  | listSources => exact Or.inl ⟨rfl, rfl⟩
  | runSource sourceId runId now =>
    rcases runSource_cases s userId sourceId runId now with hquiet | ⟨hinsert, hidle, hmessage⟩
    · exact Or.inl hquiet
    · exact Or.inr (Or.inl ⟨sourceId, runId, now, hinsert, hidle, hmessage⟩)
  | getRun runId =>
    refine Or.inl ⟨rfl, ?_⟩
    unfold ApiState.dispatched ApiState.act
    dsimp only
    split <;> rfl
  | getPreferences => exact Or.inl ⟨rfl, message_map (fun _ => rfl) _⟩
  | getPreferencesV2 => exact Or.inl ⟨rfl, message_map (fun _ => rfl) _⟩
  | updatePreferences profileId config =>
    exact Or.inl ⟨updatePreferences_runs s userId profileId config, message_map (fun _ => rfl) _⟩
  | updatePreferencesV2 profileId update =>
    exact Or.inl ⟨updatePreferences_runs s userId profileId update.preferences,
      message_map (fun _ => rfl) _⟩
  | listJobs filters page pageSize =>
    refine Or.inl ⟨rfl, ?_⟩
    unfold ApiState.dispatched ApiState.act ApiState.listJobs
    dsimp only
    split <;> rfl
  | getJob jobId =>
    refine Or.inl ⟨rfl, ?_⟩
    unfold ApiState.dispatched ApiState.act ApiState.getJob
    dsimp only
    split <;> rfl
  | getMatch jobId =>
    exact Or.inl ⟨rfl, (message_mapError _ _).trans (message_map (fun _ => rfl) _)⟩
  | matchJob matchId jobId now =>
    exact Or.inl ⟨rfl, (message_mapError _ _).trans (message_map (fun _ => rfl) _)⟩
  | saveFeedback jobId label note =>
    obtain ⟨feedback, hs', -⟩ := s.saveFeedback_feedback userId jobId label note
    have hruns := congrArg (fun state : ApiState => state.runs) hs'
    refine Or.inl ⟨hruns, ?_⟩
    unfold ApiState.dispatched ApiState.act ApiState.saveFeedback
    dsimp only
    split
    next => rfl
    next => split <;> rfl
  | getDelivery deliveryId =>
    refine Or.inl ⟨rfl, ?_⟩
    unfold ApiState.dispatched ApiState.act ApiState.getDelivery
    dsimp only
    split <;> rfl
  | deleteMe =>
    have hdelete : ((s.deleteMe userId).1.runs = s.runs ∨ (s.deleteMe userId).1.runs =
        s.runs.deleteWhere fun run => s.radar.sourceOf userId run.sourceId) ∧
          (s.deleteMe userId).2.toOption.bind ApiData.message = none := by
      unfold ApiState.deleteMe AppDb.deleteUser
      cases s.auth.user userId with
      | none => exact ⟨Or.inl rfl, rfl⟩
      | some user => exact ⟨Or.inr rfl, rfl⟩
    rcases hdelete with ⟨hkept | hdeleted, hmessage⟩
    · exact Or.inl ⟨hkept, hmessage⟩
    · exact Or.inr (Or.inr ⟨rfl, hdeleted, hmessage⟩)
  | work delivery columns => cases hserved
  | notify jobId profileId channel decision reply => cases hserved

theorem request_queue (ctx : ApiContext) (u : Decimals) (p : Pipeline) (userId : Uuid)
    {action : ApiAction} (hserved : action.served = true) (taken : Bool) :
    ((p.step ctx u (.request userId action hserved taken)).queue = p.queue ∧
      p.api.dispatched ctx userId action = none) ∨
    (∃ message, p.api.dispatched ctx userId action = some message ∧
      p.queue.Enabled (.start message.runId message.sourceId taken) ∧
      (p.step ctx u (.request userId action hserved taken)).queue =
        p.queue.apply (.start message.runId message.sourceId taken)) ∨
    (action = .deleteMe ∧ p.api.dispatched ctx userId action = none ∧
      (p.step ctx u (.request userId action hserved taken)).queue =
        p.queue.apply (.drop fun sourceId => decide (p.api.radar.sourceOf userId sourceId))) := by
  have hstep : (p.step ctx u (.request userId action hserved taken)).queue =
      runQueue (p.api.act ctx userId action).1.runs
        ((if taken then (p.api.dispatched ctx userId action).toList else []) ++ p.waiting)
        ((if taken then (p.api.dispatched ctx userId action).toList else []) ++ p.published) := rfl
  rcases act_runs ctx p.api userId hserved with
    ⟨hruns, hmessage⟩ | ⟨sourceId, runId, now, hinsert, hidle, hmessage⟩ |
    ⟨hdelete, hruns, hmessage⟩
  · refine Or.inl ⟨?_, hmessage⟩
    rw [hstep, hruns, hmessage, Option.toList_none, ite_self]
    rfl
  · obtain ⟨henabled, hqueue⟩ :=
      runQueue_insert p.waiting p.published hinsert hidle taken
    refine Or.inr (Or.inl ⟨⟨sourceId, runId⟩, hmessage, henabled, ?_⟩)
    refine Eq.trans ?_ hqueue
    rw [hstep, hmessage]
    cases taken <;> rfl
  · refine Or.inr (Or.inr ⟨hdelete, hmessage, ?_⟩)
    rw [hstep, hruns, hmessage, Option.toList_none, ite_self]
    exact runQueue_deleteWhere _

end Requests

section Ticks

variable {u : Decimals} {faults : Uuid → TurnFaults} {now : Time} {source : Source}
  {d : Deployment}

/-- The messages of this tick come before those that wait already. -/
def Deployment.queue (d : Deployment) (waiting published : List TaskMessage) : Queue Uuid Uuid :=
  runQueue d.store.ingestion.db.runs (d.published ++ waiting) (d.published ++ published)

/-- A run of the due source is started, and its message is not taken. -/
def Deployment.LosesTurn (u : Decimals) (faults : Uuid → TurnFaults) (now : Time) (d : Deployment)
    (source : Source) : Prop :=
  isDue u (d.schedules source.id) now = .ok true ∧
    d.startAnswer faults now source = .ok false ∧ (faults source.id).delay ≠ none

def Deployment.LosesRun (u : Decimals) (faults : Uuid → TurnFaults) (now : Time) :
    List Source → Deployment → Prop
  | [], _ => False
  | source :: sources, d =>
    d.LosesTurn u faults now source ∨
      (∃ scheduled, (d.turn u faults now source).2 = .ok scheduled) ∧
        LosesRun u faults now sources (d.turn u faults now source).1

variable (faults now) in
theorem startSource_cases (hsource : source ∈ d.store.ingestion.db.sources) :
    ((d.startSource faults now source).1.db.runs = d.store.ingestion.db.runs ∧
      ∀ run, (d.startSource faults now source).2 ≠ .ok (run, false)) ∨
    (∃ runs runId, d.store.ingestion.db.runs.insert
        { id := runId, sourceId := source.id, startedAt := now } = some runs ∧
      (∀ run ∈ d.store.ingestion.db.runs, ¬run.Active source.id) ∧
      (d.startSource faults now source).1.db.runs = runs ∧
      (d.startSource faults now source).2 =
        .ok ({ id := runId, sourceId := source.id, startedAt := now }, false)) := by
  unfold Deployment.startSource
  rcases startRunWith_cases (faults source.id) d.store.ingestion source.id (some source.userId)
    d.store.ingestion.db.runs.freshKey now with ⟨e, h⟩ | ⟨locked, e, hlock, h⟩ | h
  all_goals rw [h]
  · exact Or.inl ⟨rfl, fun run hrun => by cases hrun⟩
  · exact Or.inl ⟨by rw [IngestionStore.setLock_db hlock], fun run hrun => by cases hrun⟩
  · rcases startRun_cases now hsource with
      ⟨-, result, hstart, -, hnew⟩ | ⟨hstartable, runs, hinsert, hstart⟩
    · rw [hstart]
      refine Or.inl ⟨rfl, ?_⟩
      intro run hrun
      cases result with
      | error e => cases hrun
      | ok started => exact hnew run (congrArg Except.ok (Except.ok.inj hrun))
    · rw [hstart]
      refine Or.inr ⟨runs, _, hinsert, ?_, rfl, rfl⟩
      exact fun run hrun hactive => hstartable.idle ⟨run, hrun, hactive⟩

variable (u faults now) in
theorem turn_queue (hsource : source ∈ d.store.ingestion.db.sources)
    (waiting published : List TaskMessage) :
    ((d.turn u faults now source).1.queue waiting published = d.queue waiting published ∧
      ¬d.LosesTurn u faults now source) ∨
    ∃ runId sent, (d.queue waiting published).Enabled (.start runId source.id sent) ∧
      (d.turn u faults now source).1.queue waiting published =
        (d.queue waiting published).apply (.start runId source.id sent) ∧
      (sent = true ↔ ¬d.LosesTurn u faults now source) := by
  have hquiet : ∀ ingestion : IngestionStore,
      ingestion.db.runs = d.store.ingestion.db.runs →
        (d.withIngestion ingestion).queue waiting published = d.queue waiting published := by
    intro ingestion hruns
    rw [Deployment.queue, Deployment.queue, ← hruns]
    rfl
  unfold Deployment.LosesTurn Deployment.startAnswer Deployment.turn
  cases hdue : isDue u (d.schedules source.id) now with
  | error e => exact Or.inl ⟨rfl, fun h => nomatch h.1⟩
  | ok due =>
    cases due with
    | false => exact Or.inl ⟨rfl, fun h => nomatch h.1⟩
    | true =>
      rcases startSource_cases faults now hsource with
        ⟨hruns, hold⟩ | ⟨runs, runId, hinsert, hidle, hruns, hstarted⟩
      · rcases hstart : d.startSource faults now source with ⟨ingestion, e | ⟨run, already⟩⟩
        · rw [hstart] at hruns
          exact Or.inl ⟨hquiet ingestion hruns, fun h => nomatch h.2.1⟩
        · rw [hstart] at hruns hold
          cases already with
          | false => exact absurd rfl (hold run)
          | true => exact Or.inl ⟨hquiet ingestion hruns, fun h => nomatch h.2.1⟩
      · rcases hstart : d.startSource faults now source with ⟨ingestion, result⟩
        rw [hstart] at hruns hstarted
        obtain rfl : ingestion.db.runs = runs := hruns
        obtain rfl : result = _ := hstarted
        cases hdelay : (faults source.id).delay with
        | none =>
          obtain ⟨henabled, hqueue⟩ := runQueue_insert (d.published ++ waiting)
            (d.published ++ published) hinsert hidle true
          exact Or.inr ⟨runId, true, henabled, hqueue, fun _ h => h.2.2 rfl, fun _ => rfl⟩
        | some e =>
          obtain ⟨henabled, hqueue⟩ := runQueue_insert (d.published ++ waiting)
            (d.published ++ published) hinsert hidle false
          refine Or.inr ⟨runId, false, henabled, hqueue, Bool.false_ne_true.elim, ?_⟩
          exact fun h => absurd ⟨rfl, rfl, Option.some_ne_none e⟩ h

variable (u faults now d source) in
theorem scheduleSources_cons (sources : List Source) :
    ((∃ e, (d.turn u faults now source).2 = .error e) ∧
      (d.scheduleSources u faults now (source :: sources)).1 = (d.turn u faults now source).1) ∨
    ((∃ scheduled, (d.turn u faults now source).2 = .ok scheduled) ∧
      (d.scheduleSources u faults now (source :: sources)).1 =
        ((d.turn u faults now source).1.scheduleSources u faults now sources).1) := by
  rw [Deployment.scheduleSources]
  split
  next mid e h => exact Or.inl ⟨⟨e, by rw [h]⟩, by rw [h]⟩
  next mid scheduled h => exact Or.inr ⟨⟨scheduled, by rw [h]⟩, by rw [h]⟩

variable (u faults now) in
theorem scheduleSources_queue (waiting published : List TaskMessage) {sources : List Source}
    (hsources : ∀ source ∈ sources, source ∈ d.store.ingestion.db.sources) :
    Queue.Reaches (fun _ a => ∀ k, a.Keeps k) (d.queue waiting published)
        ((d.scheduleSources u faults now sources).1.queue waiting published) ∧
      (¬d.LosesRun u faults now sources → Queue.Reaches Queue.Careful (d.queue waiting published)
        ((d.scheduleSources u faults now sources).1.queue waiting published)) ∧
      ((d.queue waiting published).Tended → d.LosesRun u faults now sources → ∃ i k,
        ((d.scheduleSources u faults now sources).1.queue waiting published).Blocks i k) := by
  induction sources generalizing d with
  | nil => exact ⟨.refl, fun _ => .refl, fun _ h => h.elim⟩
  | cons source sources ih =>
    have hsource := hsources source (List.mem_cons_self ..)
    have hkept : Continues d (d.turn u faults now source).1 := turn_continues hsource
    have hrest : ∀ other ∈ sources,
        other ∈ (d.turn u faults now source).1.store.ingestion.db.sources := by
      intro other hother
      rw [hkept.sources]
      exact hsources other (List.mem_cons_of_mem _ hother)
    obtain ⟨hreaches, hcareful, hblocks⟩ := ih hrest
    have hturn := turn_queue u faults now hsource waiting published
    have hfirst : Queue.Reaches (fun _ a => ∀ k, a.Keeps k) (d.queue waiting published)
        ((d.turn u faults now source).1.queue waiting published) := by
      rcases hturn with ⟨hsame, -⟩ | ⟨runId, sent, henabled, hqueue, -⟩
      · rw [hsame]
        exact .refl
      · rw [hqueue]
        exact Queue.Reaches.single henabled fun _ => trivial
    have hsafe : ¬d.LosesTurn u faults now source → Queue.Reaches Queue.Careful
        (d.queue waiting published) ((d.turn u faults now source).1.queue waiting published) := by
      intro hkeeps
      rcases hturn with ⟨hsame, -⟩ | ⟨runId, sent, henabled, hqueue, hsent⟩
      · rw [hsame]
        exact .refl
      · rw [hqueue]
        exact Queue.Reaches.single henabled ⟨fun _ => trivial, hsent.mpr hkeeps⟩
    have hlost : (d.queue waiting published).Tended → d.LosesTurn u faults now source →
        ∃ i k, ((d.turn u faults now source).1.queue waiting published).Blocks i k := by
      intro htended hloses
      rcases hturn with ⟨-, hkeeps⟩ | ⟨runId, sent, henabled, hqueue, hsent⟩
      · exact absurd hloses hkeeps
      · rw [hqueue]
        exact htended.blocks_of_loss henabled (fun _ => trivial) fun h => hsent.mp h hloses
    rcases scheduleSources_cons u faults now source d sources with
      ⟨⟨e, hraised⟩, hend⟩ | ⟨⟨scheduled, hgoes⟩, hend⟩
    · rw [hend]
      refine ⟨hfirst, fun h => hsafe fun hloses => h (Or.inl hloses), ?_⟩
      rintro htended (hloses | ⟨⟨scheduled, hgoes⟩, -⟩)
      · exact hlost htended hloses
      · rw [hraised] at hgoes
        cases hgoes
    · rw [hend]
      refine ⟨hfirst.trans hreaches, ?_, ?_⟩
      · intro h
        exact (hsafe fun hloses => h (Or.inl hloses)).trans
          (hcareful fun hloses => h (Or.inr ⟨⟨scheduled, hgoes⟩, hloses⟩))
      · intro htended hloses
        by_cases hturnLoses : d.LosesTurn u faults now source
        · obtain ⟨i, k, hblock⟩ := hlost htended hturnLoses
          exact ⟨i, k, (hblock.reaches (hreaches.mono fun _ _ hkeeps => hkeeps k)).1⟩
        · rcases hloses with hturnLoses' | ⟨-, hlater⟩
          · exact absurd hturnLoses' hturnLoses
          · exact hblocks (htended.reaches (hsafe hturnLoses)) hlater

end Ticks

section Works

variable {lib : Stdlib} {first : FirstRow Job} {s : RunStore} {d : Delivery}

theorem deliver_runs (lib : Stdlib) (first : FirstRow Job) (s : RunStore) (d : Delivery) :
    (s.deliver lib first d).ingestion.db.runs = s.ingestion.db.runs ∨
    ∃ run report, s.ingestion.db.runs.find run.id = some run ∧ run.id = d.runId ∧
      (s.deliver lib first d).ingestion.db.runs =
        s.ingestion.db.runs.updateWhere (·.id = run.id) (·.finish report d.now) fun _ => rfl := by
  cases hsource : s.ingestion.db.get d.sourceId with
  | none =>
    rw [deliver_skipped hsource]
    exact Or.inl rfl
  | some source =>
    rw [deliver_executed hsource]
    unfold executeRun
    split
    next => exact Or.inl rfl
    next kind _ =>
      rcases s.handleError_storeFetched lib first d.now (d.call source)
          (collectRun lib d.clients kind (d.call source).config) with
        hkept | ⟨run, report, hfound, hdb⟩
      · exact Or.inl (congrArg (fun ingestion => ingestion.db.runs) hkept)
      · have hid : run.id = d.runId := (Table.find_eq_some_iff.mp hfound).2
        refine Or.inr ⟨run, report, ?_, hid, congrArg (fun ingestion => ingestion.db.runs) hdb⟩
        rw [hid]
        exact hfound

variable (lib first s d) in
theorem deliver_running_iff :
    (∃ run, (s.deliver lib first d).getRun d.runId = some run ∧ run.status = .running) ↔
      (∃ run, s.getRun d.runId = some run ∧ run.status = .running) ∧
        ¬Reexecutes lib first d.runId ⟨s, d⟩ := by
  cases hrun : s.getRun d.runId with
  | none =>
    have hgone : (s.deliver lib first d).getRun d.runId = none := by
      rcases deliver_runs lib first s d with hkept | ⟨run, report, hfound, hid, -⟩
      · rw [← hrun]
        exact congrArg (fun runs : Table IngestionRun.id => runs.find d.runId) hkept
      · rw [hid] at hfound
        exact nomatch hfound.symm.trans hrun
    simp [hgone]
  | some run =>
    have hdelivered : (Reexecutes lib first d.runId ⟨s, d⟩ ∧ ∃ report,
          (s.deliver lib first d).getRun d.runId = some (run.finish report d.now)) ∨
        (¬Reexecutes lib first d.runId ⟨s, d⟩ ∧
          (s.deliver lib first d).getRun d.runId = some run) := deliver_getRun hrun
    rcases hdelivered with ⟨hends, report, hnew⟩ | ⟨hruns, hnew⟩
    · have hended : (run.finish report d.now).status ≠ .running := report.ended
      simp [hnew, hends, hended]
    · simp [hnew, hruns]

end Works

section Events

variable {ctx : ApiContext} {u : Decimals} {p : Pipeline}

def Pipeline.Runs (p : Pipeline) (runId : Uuid) : Prop :=
  ∃ run, p.api.runs.find runId = some run ∧ run.status = .running

/-- A run is under way that no message in the broker asks for. -/
def Pipeline.Stuck (p : Pipeline) (runId sourceId : Uuid) : Prop :=
  (∃ run, p.api.runs.find runId = some run ∧ run.sourceId = sourceId ∧ run.status = .running) ∧
    ∀ message ∈ p.waiting, message.runId ≠ runId

/-- The account of the source is not deleted. -/
def PipelineEvent.Spares (p : Pipeline) (sourceId : Uuid) : PipelineEvent → Prop
  | .request userId .deleteMe _ _ => ¬p.api.radar.sourceOf userId sourceId
  | _ => True

/-- A run is started and its message is not taken, or its message is acknowledged and it has not
ended. -/
def PipelineEvent.Loses (ctx : ApiContext) (u : Decimals) (p : Pipeline) : PipelineEvent → Prop
  | .request userId action _ taken =>
    (∃ message, p.api.dispatched ctx userId action = some message) ∧ taken = false
  | .tick faults now => p.deployment.LosesRun u faults now p.deployment.enabledSources
  | .work message clients now _ acknowledged =>
    message ∈ p.waiting ∧ acknowledged = true ∧ p.Runs message.runId ∧
      ¬Reexecutes ctx.lib ctx.firstJob message.runId ⟨p.store, message.delivery clients now⟩

theorem stuck_iff {runId sourceId : Uuid} :
    p.Stuck runId sourceId ↔ p.queue.Blocks runId sourceId := by
  have hjob : p.queue.jobs runId = (p.api.runs.find runId).map IngestionRun.sourceId := rfl
  have hwaiting : (∀ message ∈ p.queue.waiting, message.1 ≠ runId) ↔
      ∀ message ∈ p.waiting, message.runId ≠ runId := List.forall_mem_map
  constructor
  · rintro ⟨⟨run, hrun, rfl, hrunning⟩, hlost⟩
    exact ⟨⟨⟨run, hrun, hrunning⟩, hwaiting.mpr hlost⟩, by rw [hjob, hrun]; rfl⟩
  · rintro ⟨⟨⟨run, hrun, hrunning⟩, hlost⟩, hsource⟩
    rw [hjob, hrun] at hsource
    exact ⟨⟨run, hrun, Option.some.inj hsource, hrunning⟩, hwaiting.mp hlost⟩

variable (ctx u) in
theorem work_queue {message : TaskMessage} (hmessage : message ∈ p.waiting)
    (clients : Nat → AsyncClient) (now : Time) (columns : Uuid → JobColumns) :
    ∃ q, Queue.Reaches Queue.Careful p.queue q ∧
      (p.step ctx u (.work message clients now columns false)).queue = q ∧
      (p.step ctx u (.work message clients now columns true)).queue =
        q.apply (.acknowledge message.entry) ∧
      q.Enabled (.acknowledge message.entry) ∧
      (q.Lossless (.acknowledge message.entry) ↔
        ¬(p.Runs message.runId ∧ ¬Reexecutes ctx.lib ctx.firstJob message.runId
          ⟨p.store, message.delivery clients now⟩)) := by
  let d := message.delivery clients now
  let runs := (p.store.deliver ctx.lib ctx.firstJob d).ingestion.db.runs
  have hentry : message.entry ∈ p.waiting.map TaskMessage.entry := List.mem_map_of_mem hmessage
  refine ⟨runQueue runs p.waiting p.published, ?_, ?_, ?_, hentry, ?_⟩
  · rcases deliver_runs ctx.lib ctx.firstJob p.store d with
      hkept | ⟨run, report, hfound, hid, hended⟩
    · rw [show runs = p.api.runs from hkept]
      exact .refl
    · rw [show runs = _ from hended, runQueue_finish hfound]
      refine Queue.Reaches.single ⟨message.entry, hentry, ?_⟩ ⟨fun _ => trivial, trivial⟩
      exact hid.symm
  · simp only [Pipeline.step, if_pos hmessage]
    rfl
  · simp only [Pipeline.step, if_pos hmessage]
    have herase : (p.waiting.erase message).map TaskMessage.entry =
        (p.waiting.map TaskMessage.entry).erase message.entry :=
      List.map_erase TaskMessage.entry_injective p.waiting
    exact Queue.ext rfl rfl herase rfl
  · exact not_congr (deliver_running_iff ctx.lib ctx.firstJob p.store d)

theorem step_queue (ctx : ApiContext) (u : Decimals) (p : Pipeline) (event : PipelineEvent) :
    (∀ sourceId, event.Spares p sourceId →
      Queue.Reaches (fun _ a => a.Keeps sourceId) p.queue (p.step ctx u event).queue) ∧
    ((∀ sourceId, event.Spares p sourceId) → ¬event.Loses ctx u p →
      Queue.Reaches Queue.Careful p.queue (p.step ctx u event).queue) ∧
    (p.queue.Tended → event.Loses ctx u p →
      ∃ runId sourceId, (p.step ctx u event).queue.Blocks runId sourceId) := by
  cases event with
  | request userId action hserved taken =>
    rcases request_queue ctx u p userId hserved taken with
      ⟨hsame, hmessage⟩ | ⟨message, hmessage, henabled, hqueue⟩ | ⟨hdelete, hmessage, hqueue⟩
    · rw [hsame]
      refine ⟨fun _ _ => .refl, fun _ _ => .refl, ?_⟩
      rintro - ⟨⟨message, hsome⟩, -⟩
      exact nomatch hmessage.symm.trans hsome
    · rw [hqueue]
      refine ⟨fun _ _ => .single henabled trivial, ?_, ?_⟩
      · intro _ hkeeps
        have htaken : taken = true := by
          cases taken with
          | false => exact absurd ⟨⟨message, hmessage⟩, rfl⟩ hkeeps
          | true => rfl
        exact .single henabled ⟨fun _ => trivial, htaken⟩
      · rintro htended ⟨-, htaken⟩
        exact htended.blocks_of_loss henabled (fun _ => trivial)
          fun hsent => Bool.false_ne_true (htaken.symm.trans hsent)
    · subst hdelete
      rw [hqueue]
      refine ⟨?_, ?_, ?_⟩
      · intro sourceId hspares
        exact .single trivial (decide_eq_false hspares)
      · intro hspares _
        exact .single trivial ⟨fun sourceId => decide_eq_false (hspares sourceId), trivial⟩
      · rintro - ⟨⟨message, hsome⟩, -⟩
        exact nomatch hmessage.symm.trans hsome
  | tick faults now =>
    have hsources : ∀ source ∈ p.deployment.enabledSources,
        source ∈ p.deployment.store.ingestion.db.sources :=
      fun source hsource => List.mem_of_mem_filter hsource
    obtain ⟨hreaches, hcareful, hblocks⟩ := scheduleSources_queue u faults now
      p.waiting p.published hsources
    exact ⟨fun sourceId _ => hreaches.mono fun _ _ hkeeps => hkeeps sourceId,
      fun _ hkeeps => hcareful hkeeps, hblocks⟩
  | work message clients now columns acknowledged =>
    by_cases hmessage : message ∈ p.waiting
    · obtain ⟨q, hreaches, hleft, hdone, henabled, hlossless⟩ :=
        work_queue ctx u hmessage clients now columns
      cases acknowledged with
      | false =>
        rw [hleft]
        refine ⟨fun sourceId _ => hreaches.mono fun _ _ h => h.1 sourceId, fun _ _ => hreaches, ?_⟩
        rintro - ⟨-, hfalse, -⟩
        exact absurd hfalse Bool.false_ne_true
      | true =>
        rw [hdone]
        refine ⟨?_, ?_, ?_⟩
        · intro sourceId _
          exact (hreaches.mono fun _ _ h => h.1 sourceId).trans
            (Queue.Reaches.single henabled trivial)
        · intro _ hkeeps
          have hend := hlossless.mpr fun h => hkeeps ⟨hmessage, rfl, h⟩
          exact hreaches.trans (Queue.Reaches.single henabled ⟨fun _ => trivial, hend⟩)
        · rintro htended ⟨-, -, hloss⟩
          exact (htended.reaches hreaches).blocks_of_loss henabled (fun _ => trivial)
            fun h => hlossless.mp h hloss
    · have hskip : p.step ctx u (.work message clients now columns acknowledged) = p :=
        if_neg hmessage
      rw [hskip]
      exact ⟨fun _ _ => .refl, fun _ _ => .refl, fun _ h => absurd h.1 hmessage⟩

end Events

section Runs

variable {ctx : ApiContext} {u : Decimals} {p₀ p : Pipeline}
  {calls : List (Call PipelineEvent Pipeline)}

theorem published_filter (p : Pipeline) (sourceId : Uuid) :
    p.queue.published.filter (fun message => message.2 = sourceId) =
      (p.published.filter fun message => message.sourceId = sourceId).map TaskMessage.entry :=
  List.filter_map

/-- A run that is stuck stays so whatever is requested, ticks and is worked on, and no message of
its source is published again, as long as the account is there. -/
theorem stuck_for_good {runId sourceId : Uuid} (hrun : Run (Pipeline.step ctx u) p₀ calls p)
    (hstuck : p₀.Stuck runId sourceId)
    (hspared : ∀ c ∈ calls, c.call.Spares c.before sourceId) :
    p.Stuck runId sourceId ∧
      p.published.filter (fun message => message.sourceId = sourceId) =
        p₀.published.filter fun message => message.sourceId = sourceId := by
  have keep : ∀ (p : Pipeline) (event : PipelineEvent),
      Queue.Reaches (fun _ a => a.Keeps sourceId) p₀.queue p.queue → event.Spares p sourceId →
      Queue.Reaches (fun _ a => a.Keeps sourceId) p₀.queue (p.step ctx u event).queue := by
    intro p event hbefore hspares
    exact hbefore.trans ((step_queue ctx u p event).1 sourceId hspares)
  have hstart : Queue.Reaches (fun _ a => a.Keeps sourceId) p₀.queue p₀.queue := .refl
  have hreaches : Queue.Reaches (fun _ a => a.Keeps sourceId) p₀.queue p.queue :=
    Run.invariant (I := fun p : Pipeline =>
      Queue.Reaches (fun _ a => a.Keeps sourceId) p₀.queue p.queue) hstart keep hrun hspared
  obtain ⟨hblocks, hpublished⟩ := (stuck_iff.mp hstuck).reaches hreaches
  refine ⟨stuck_iff.mpr hblocks, ?_⟩
  rw [published_filter, published_filter] at hpublished
  exact List.map_injective_iff.mpr TaskMessage.entry_injective hpublished

/-- Every run under way has one message that waits, and every message that waits is of a run. -/
structure Pipeline.Tended (p : Pipeline) : Prop where
  asked : ∀ runId, p.Runs runId → ∃ message ∈ p.waiting, message.runId = runId
  once : (p.waiting.map TaskMessage.runId).Nodup
  known : ∀ message ∈ p.waiting, ∃ run ∈ p.api.runs,
    run.id = message.runId ∧ run.sourceId = message.sourceId

theorem Pipeline.Tended.queue (h : p.Tended) : p.queue.Tended := by
  refine ⟨?_, ?_, ?_⟩
  · intro runId hruns
    obtain ⟨message, hmessage, hasks⟩ := h.asked runId hruns
    exact ⟨message.entry, List.mem_map_of_mem hmessage, hasks⟩
  · have hkeys : p.queue.waiting.map Prod.fst = p.waiting.map TaskMessage.runId := List.map_map
    rw [hkeys]
    exact h.once
  · intro entry hentry
    obtain ⟨message, hmessage, rfl⟩ := List.mem_map.mp hentry
    obtain ⟨run, hrun, hid, hsource⟩ := h.known message hmessage
    have hfind : p.api.runs.find message.runId = some run := Table.find_eq_some_iff.mpr ⟨hrun, hid⟩
    change (p.api.runs.find message.runId).map IngestionRun.sourceId = some message.sourceId
    rw [hfind, ← hsource]
    rfl

/-- The event neither deletes the account of a source nor loses a run. -/
def Cares (ctx : ApiContext) (u : Decimals) (c : Call PipelineEvent Pipeline) : Prop :=
  (∀ sourceId, c.call.Spares c.before sourceId) ∧ ¬c.call.Loses ctx u c.before

/-- No run is ever stuck, exactly when no event loses one. -/
theorem never_stuck_iff (hrun : Run (Pipeline.step ctx u) p₀ calls p) (htended : p₀.Tended)
    (hspared : ∀ c ∈ calls, ∀ sourceId, c.call.Spares c.before sourceId) :
    ((∀ runId sourceId, ¬p.Stuck runId sourceId) ∧
        ∀ c ∈ calls, ∀ runId sourceId, ¬c.before.Stuck runId sourceId) ↔
      ∀ c ∈ calls, ¬c.call.Loses ctx u c.before := by
  have keep : ∀ (p : Pipeline) (event : PipelineEvent), p.queue.Tended →
      Cares ctx u ⟨p, event⟩ →
      (p.step ctx u event).queue.Tended := by
    rintro p event hbefore ⟨hspares, hkeeps⟩
    exact hbefore.reaches ((step_queue ctx u p event).2.1 hspares hkeeps)
  have promise : ∀ p : Pipeline, p.queue.Tended → ∀ runId sourceId, ¬p.Stuck runId sourceId := by
    intro p h runId sourceId hstuck
    exact h.not_blocks runId sourceId (stuck_iff.mp hstuck)
  have only : ∀ (p : Pipeline) (event : PipelineEvent), p.queue.Tended →
      (∀ sourceId, event.Spares p sourceId) →
      (∀ runId sourceId, ¬(p.step ctx u event).Stuck runId sourceId) →
      Cares ctx u ⟨p, event⟩ := by
    intro p event hbefore hspares hafter
    refine ⟨hspares, fun hloses => ?_⟩
    obtain ⟨runId, sourceId, hblocks⟩ := (step_queue ctx u p event).2.2 hbefore hloses
    exact hafter runId sourceId (stuck_iff.mpr hblocks)
  have hpromise := Run.promise_iff (I := fun p : Pipeline => p.queue.Tended) htended.queue keep
    promise only hrun hspared
  rw [hpromise]
  exact ⟨fun h c hc => (h c hc).2, fun h c hc => ⟨hspared c hc, h c hc⟩⟩

/-- One message has been published for every run, and for nothing else. -/
structure Pipeline.Accounted (p : Pipeline) : Prop where
  once : p.published.Nodup
  runs : ∀ message, message ∈ p.published ↔
    ∃ run ∈ p.api.runs, run.id = message.runId ∧ run.sourceId = message.sourceId

theorem accounted_iff : p.Accounted ↔ p.queue.Accounted := by
  have honce : p.queue.published.Nodup ↔ p.published.Nodup :=
    List.nodup_map_iff TaskMessage.entry_injective
  have hmem : ∀ message : TaskMessage, message.entry ∈ p.queue.published ↔ message ∈ p.published :=
    fun message => List.mem_map_of_injective TaskMessage.entry_injective
  have hjob : ∀ message : TaskMessage, p.queue.jobs message.runId = some message.sourceId ↔
      ∃ run ∈ p.api.runs, run.id = message.runId ∧ run.sourceId = message.sourceId := by
    intro message
    change (p.api.runs.find message.runId).map IngestionRun.sourceId = _ ↔ _
    simp only [Option.map_eq_some_iff, Table.find_eq_some_iff, and_assoc]
  constructor
  · rintro ⟨hnodup, hruns⟩
    refine ⟨honce.mpr hnodup, fun runId sourceId => ?_⟩
    exact ((hmem ⟨sourceId, runId⟩).trans (hruns _)).trans (hjob ⟨sourceId, runId⟩).symm
  · rintro ⟨hnodup, hjobs⟩
    refine ⟨honce.mp hnodup, fun message => ?_⟩
    exact ((hmem message).symm.trans (hjobs _ _)).trans (hjob message)

/-- If no event loses a run, every run is published once. -/
theorem published_once (hrun : Run (Pipeline.step ctx u) p₀ calls p) (haccounted : p₀.Accounted)
    (hspared : ∀ c ∈ calls, ∀ sourceId, c.call.Spares c.before sourceId)
    (hkeeps : ∀ c ∈ calls, ¬c.call.Loses ctx u c.before) : p.Accounted := by
  have keep : ∀ (p : Pipeline) (event : PipelineEvent), p.queue.Accounted →
      Cares ctx u ⟨p, event⟩ →
      (p.step ctx u event).queue.Accounted := by
    rintro p event hbefore ⟨hspares, hkept⟩
    exact hbefore.reaches ((step_queue ctx u p event).2.1 hspares hkept)
  have hcares : ∀ c ∈ calls, Cares ctx u c := fun c hc => ⟨hspared c hc, hkeeps c hc⟩
  exact accounted_iff.mpr (Run.invariant (I := fun p : Pipeline => p.queue.Accounted)
    (accounted_iff.mp haccounted) keep hrun hcares)

end Runs

section Example

/-- A user adds a source and asks for a run of it, whose message the broker does not take. -/
def acmeLost : Pipeline :=
  (runAll (Pipeline.step plainContext .ascii) [] {}
    [.request 1 (.createSource 10 acmeInput) rfl true, .request 1 (.runSource 10 50 0) rfl false]).2

theorem acmeLost_stuck : acmeLost.Stuck 50 10 := by
  refine ⟨⟨{ id := 50, sourceId := 10, startedAt := 0 }, rfl, rfl, rfl⟩, ?_⟩
  intro message hmessage
  cases hmessage

theorem acmeLost_asked_again :
    (acmeLost.step plainContext .ascii (.request 1 (.runSource 10 51 9) rfl true)).Stuck 50 10 ∧
    (acmeLost.step plainContext .ascii
      (.request 1 (.runSource 10 51 9) rfl true)).published.filter (fun m => m.sourceId = 10) =
        acmeLost.published.filter fun m => m.sourceId = 10 :=
  stuck_for_good (.next _ .start) acmeLost_stuck (by
    intro c hc
    rw [List.mem_singleton.mp hc]
    trivial)

theorem empty_tended : Pipeline.Tended {} := by
  refine ⟨?_, List.nodup_nil, ?_⟩
  · rintro runId ⟨run, hrun, -⟩
    cases hrun
  · intro message hmessage
    cases hmessage

theorem empty_accounted : Pipeline.Accounted {} := by
  refine ⟨List.nodup_nil, fun message => ⟨fun h => (List.not_mem_nil h).elim, ?_⟩⟩
  rintro ⟨run, hrun, -⟩
  cases hrun

def acmeSent : List (Call PipelineEvent Pipeline) × Pipeline :=
  runAll (Pipeline.step plainContext .ascii) [] {}
    [.request 1 (.createSource 10 acmeInput) rfl true, .request 1 (.runSource 10 50 0) rfl true]

theorem acmeSent_cares : ∀ c ∈ acmeSent.1, Cares plainContext .ascii c := by
  intro c hc
  have hcall : (∀ sourceId, c.call.Spares c.before sourceId) ∧
      ∃ action hserved, c.call = .request 1 action hserved true := by
    rcases List.mem_cons.mp hc with rfl | hc
    · exact ⟨fun _ => trivial, _, _, rfl⟩
    · rw [List.mem_singleton.mp hc]
      exact ⟨fun _ => trivial, _, _, rfl⟩
  obtain ⟨hspares, action, hserved, hrequest⟩ := hcall
  refine ⟨hspares, ?_⟩
  rw [hrequest]
  exact fun hloses => Bool.noConfusion hloses.2

theorem acmeSent_never_stuck : (∀ runId sourceId, ¬acmeSent.2.Stuck runId sourceId) ∧
    ∀ c ∈ acmeSent.1, ∀ runId sourceId, ¬c.before.Stuck runId sourceId :=
  (never_stuck_iff (run_runAll .start _) empty_tended fun c hc => (acmeSent_cares c hc).1).mpr
    fun c hc => (acmeSent_cares c hc).2

theorem acmeSent_accounted : acmeSent.2.Accounted :=
  published_once (run_runAll .start _) empty_accounted (fun c hc => (acmeSent_cares c hc).1)
    fun c hc => (acmeSent_cares c hc).2

end Example

end JobRadar
